import ClassTree.Json.Decode
/-!
Declared constraints on values: a set of value categories, optionally narrowed to the objects of a
class.
-/

namespace ClassTree

/-- A set of categories, one bit for each. The full word is the set without a constraint. -/
structure ValueType where
  bits : UInt32
deriving DecidableEq, Repr

namespace ValueType

def anything : ValueType := ⟨0xFFFFFFFF⟩

def obj : ValueType := ⟨64⟩

def mob : ValueType := ⟨128⟩

def area : ValueType := ⟨512⟩

/-- The categories in the order of their bits. -/
def categories : List (ValueType × String) :=
  [(⟨1⟩, "null"), (⟨2⟩, "text"), (⟨4⟩, "num"), (⟨8⟩, "path"), (⟨16⟩, "list"), (⟨32⟩, "resource"),
    (obj, "obj"), (mob, "mob"), (⟨256⟩, "turf"), (area, "area")]

def isAnything (t : ValueType) : Bool := t = anything

def contains (t u : ValueType) : Bool := t.bits &&& u.bits = u.bits

def union (t u : ValueType) : ValueType := ⟨t.bits ||| u.bits⟩

def text (t : ValueType) : String :=
  if t.isAnything then "anything"
  else
    match (categories.filter fun c => t.contains c.1).map (·.2) with
    | [] => "none"
    | names => "|".intercalate names

def toJson (t : ValueType) : Json := .ofNat t.bits.toNat

def ofJson (j : Json) : Decoded ValueType := ValueType.mk <$> j.asUInt32

end ValueType

/-- Categories, and the class of the objects among the values, if one is given. -/
structure ValueConstraint where
  flags : ValueType
  path : Option TypePath
deriving DecidableEq, Repr

namespace ValueConstraint

def anything : ValueConstraint := ⟨.anything, none⟩

instance : Inhabited ValueConstraint := ⟨anything⟩

def isAnything (c : ValueConstraint) : Bool := c.flags.isAnything && c.path.isNone

def text (c : ValueConstraint) : String :=
  match c.path with
  | some p => s!"{c.flags.text} ({p.text})"
  | none => c.flags.text

def toJson (c : ValueConstraint) : Json :=
  .obj (("flags", c.flags.toJson) :: Json.fieldIfSome "type_path" .ofPath c.path)

def ofJson (j : Json) : Decoded ValueConstraint := do
  let fields ← j.recordFields ["flags", "type_path"]
  let flags ← Json.required fields "flags" ValueType.ofJson
  let path ← Json.optional fields "type_path" Json.asPath
  return ⟨flags, path⟩

end ValueConstraint

end ClassTree
