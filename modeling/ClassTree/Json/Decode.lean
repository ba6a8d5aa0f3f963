import ClassTree.Json.Basic
import ClassTree.OrderedMap
import ClassTree.OrderedSet
import ClassTree.TypePath
/-!
Reading typed values out of JSON. A record is an object with at most one field of each known key,
other fields being skipped, or an array of its fields in order.
-/

namespace ClassTree

inductive DecodeError where
  | shape
  | invalidPath (e : InvalidPath)
deriving DecidableEq, Repr

abbrev Decoded (α : Type) := Except DecodeError α

namespace Json

variable {α : Type}

def asNull : Json → Decoded Unit
  | .null => .ok ()
  | _ => .error .shape

def asBool : Json → Decoded Bool
  | .bool b => .ok b
  | _ => .error .shape

def asText : Json → Decoded String
  | .text s => .ok s
  | _ => .error .shape

def asDouble : Json → Decoded Binary64
  | .int n => .ok (Binary64.ofInt n)
  | .double x => .ok x
  | _ => .error .shape

/-- A number written as a whole one, below 2³². -/
def asNat32 : Json → Decoded Nat
  | .int (.ofNat n) => if n < 4294967296 then .ok n else .error .shape
  | _ => .error .shape

def asUInt32 (j : Json) : Decoded UInt32 := UInt32.ofNat <$> j.asNat32

def asPath (j : Json) : Decoded TypePath := do
  match TypePath.parse (← j.asText) with
  | .ok p => .ok p
  | .error e => .error (.invalidPath e)

def asList (decode : Json → Decoded α) : Json → Decoded (List α)
  | .arr items => items.mapM decode
  | _ => .error .shape

def asOption (decode : Json → Decoded α) : Json → Decoded (Option α)
  | .null => .ok none
  | j => some <$> decode j

/-- Of several fields with one key the first gives the place and the last the value. -/
def asMap (decode : Json → Decoded α) : Json → Decoded (OrderedMap String α)
  | .obj fields => do
    let pairs ← fields.mapM fun (k, j) => return (k, ← decode j)
    return OrderedMap.ofList pairs
  | _ => .error .shape

def asSet (j : Json) : Decoded (OrderedSet String) := OrderedSet.ofList <$> j.asList asText

/-- A value without a type of its own, in canonical form. -/
def asAny (j : Json) : Decoded Json := if j.isHeld then .ok j.canonical else .error .shape

def asVariant : Json → Decoded (String × Option Json)
  | .text name => .ok (name, none)
  | .obj [(name, j)] => .ok (name, some j)
  | _ => .error .shape

/-! ### Records -/

def recordFields (keys : List String) : Json → Decoded (List (String × Json))
  | .obj fields =>
    let known := fields.filter fun f => keys.contains f.1
    if (known.map (·.1)).Nodup then .ok known else .error .shape
  | .arr items => if items.length ≤ keys.length then .ok (keys.zip items) else .error .shape
  | _ => .error .shape

def required (fields : List (String × Json)) (key : String) (decode : Json → Decoded α) :
    Decoded α :=
  match fields.lookup key with
  | some j => decode j
  | none => .error .shape

def orElse (fields : List (String × Json)) (key : String) (decode : Json → Decoded α) (absent : α) :
    Decoded α :=
  match fields.lookup key with
  | some j => decode j
  | none => .ok absent

def optional (fields : List (String × Json)) (key : String) (decode : Json → Decoded α) :
    Decoded (Option α) :=
  orElse fields key (asOption decode) none

/-! ### Writing -/

def ofOption (encode : α → Json) : Option α → Json
  | none => .null
  | some a => encode a

def ofNat (n : Nat) : Json := .int (.ofNat n)

def ofPath (p : TypePath) : Json := .text p.text

def ofMap (encode : α → Json) (m : OrderedMap String α) : Json :=
  .obj (m.entries.map fun (k, v) => (k, encode v))

def ofSet (s : OrderedSet String) : Json := .arr (s.elements.map .text)

def fieldIfSome (key : String) (encode : α → Json) (a : Option α) : List (String × Json) :=
  a.toList.map fun a => (key, encode a)

end Json

end ClassTree
