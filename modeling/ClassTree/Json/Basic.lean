import ClassTree.Decimal.Binary64
/-!
JSON values. An object is the list of its fields as written, repetitions included; `Json.canonical`
is the form of a value whose objects are unordered: sorted fields, the last of several with one key.
-/

namespace ClassTree

/-- `int` holds the numbers written as whole ones that fit 64 bits, `double` all others, which are
finite. `beyond` stands for well-formed text of what no value can hold: a number out of range, a
lone surrogate, too deep a nesting. -/
inductive Json where
  | null
  | bool (b : Bool)
  | int (n : Int)
  | double (x : Binary64)
  | text (s : String)
  | arr (items : List Json)
  | obj (fields : List (String × Json))
  | beyond
deriving Repr, Inhabited

namespace Json

def ofDouble (x : Binary64) : Json := if x.isFinite then .double x else .null

mutual

/-- How many arrays and objects enclose each other at most. -/
def depth : Json → Nat
  | .arr items => depthItems items + 1
  | .obj fields => depthFields fields + 1
  | _ => 0
termination_by structural j => j

def depthItems : List Json → Nat
  | [] => 0
  | j :: rest => max j.depth (depthItems rest)
termination_by structural l => l

def depthFields : List (String × Json) → Nat
  | [] => 0
  | (_, j) :: rest => max j.depth (depthFields rest)
termination_by structural l => l

end

mutual

/-- Whether a value can be held throughout. -/
def isHeld : Json → Bool
  | .arr items => isHeldItems items
  | .obj fields => isHeldFields fields
  | .beyond => false
  | _ => true
termination_by structural j => j

def isHeldItems : List Json → Bool
  | [] => true
  | j :: rest => j.isHeld && isHeldItems rest
termination_by structural l => l

def isHeldFields : List (String × Json) → Bool
  | [] => true
  | (_, j) :: rest => j.isHeld && isHeldFields rest
termination_by structural l => l

end

/-- Puts a field in its place among fields with increasing keys, instead of one with its key. -/
def insertField (key : String) (value : Json) : List (String × Json) → List (String × Json)
  | [] => [(key, value)]
  | (k, v) :: rest =>
    if key = k then (key, value) :: rest
    else if key < k then (key, value) :: (k, v) :: rest
    else (k, v) :: insertField key value rest

mutual

def canonical : Json → Json
  | .arr items => .arr (canonicalItems items)
  | .obj fields => .obj (canonicalFields [] fields)
  | j => j
termination_by structural j => j

def canonicalItems : List Json → List Json
  | [] => []
  | j :: rest => j.canonical :: canonicalItems rest
termination_by structural l => l

/-- Adds the fields, from first to last, to sorted ones. -/
def canonicalFields (sorted : List (String × Json)) : List (String × Json) → List (String × Json)
  | [] => sorted
  | (k, j) :: rest => canonicalFields (insertField k j.canonical sorted) rest
termination_by structural l => l

end

def field? (key : String) (fields : List (String × Json)) : Option Json :=
  (fields.reverse.find? (·.1 == key)).map (·.2)

end Json

end ClassTree
