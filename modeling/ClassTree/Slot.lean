import ClassTree.Identity
import ClassTree.Variable
/-!
Slots: the storage of global variables, shared by the whole program.
-/

namespace ClassTree

structure Slot where
  id : SlotId
  name : String
  typePath : Option TypePath
  isConst : Bool
  constraint : ValueConstraint
  value : Option Expr
  location : Location
deriving Repr, Inhabited

namespace Slot

def literal? (s : Slot) : Option Json := initialLiteral? s.value

def toJson (s : Slot) : Json :=
  .obj [("id", .ofNat s.id), ("name", .text s.name), ("type_path", .ofOption .ofPath s.typePath),
    ("is_const", .bool s.isConst), ("value_type", s.constraint.toJson),
    ("value", .ofOption Expr.toJson s.value), ("location", s.location.toJson)]

end Slot

end ClassTree
