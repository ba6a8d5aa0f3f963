import ClassTree.Expr.Codec
import ClassTree.Expr.Literal
import ClassTree.ValueType
/-!
Instance variables, as a class declares them.
-/

namespace ClassTree

structure Variable where
  name : String
  typePath : Option TypePath
  isConst : Bool
  value : Option Expr
  constraint : ValueConstraint
  location : Location
deriving Repr, Inhabited

/-- The literal form of an initial value; without one it is null. -/
def initialLiteral? : Option Expr → Option Json
  | none => some .null
  | some e => e.toLiteral?

namespace Variable

def literal? (v : Variable) : Option Json := initialLiteral? v.value

def toJson (v : Variable) : Json :=
  .obj [("name", .text v.name), ("type_path", .ofOption .ofPath v.typePath),
    ("is_const", .bool v.isConst), ("value", .ofOption Expr.toJson v.value),
    ("value_type", v.constraint.toJson), ("location", v.location.toJson)]

end Variable

end ClassTree
