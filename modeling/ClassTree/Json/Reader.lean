import ClassTree.Json.Token
/-!
Reading JSON text. The tokens drive a machine with a stack of the arrays and objects that are still
open, so that reading is one pass over them. The grammar is strict, and what nests too deep for a
value is read as `Json.beyond`, which only matters where the value is used.
-/

namespace ClassTree.Json

def maxDepth : Nat := 127

/-- An array or object that is still open, its parts from last to first. The flag of an object says
whether all its keys can be held. -/
inductive Frame where
  | arr (items : List Json)
  | obj (fields : List (String × Json)) (held : Bool)
  | member (fields : List (String × Json)) (held : Bool) (key : String)

inductive Expected where
  | value
  | valueOrClose
  | key
  | keyOrClose
  | colon
  | commaOrClose
  | nothing

structure Reader where
  stack : List Frame
  expected : Expected
  result : Option Json

namespace Reader

def initial : Reader := ⟨[], .value, none⟩

/-- A complete value goes into the innermost open array or object, or is the result. -/
def finish (stack : List Frame) (j : Json) : Reader :=
  match stack with
  | [] => ⟨[], .nothing, some j⟩
  | .arr items :: rest => ⟨.arr (j :: items) :: rest, .commaOrClose, none⟩
  | .member fields held key :: rest => ⟨.obj ((key, j) :: fields) held :: rest, .commaOrClose, none⟩
  | .obj fields held :: rest => ⟨.obj fields held :: rest, .commaOrClose, none⟩

def isShallow (rest : List Frame) : Bool := (rest.drop (maxDepth - 1)).isEmpty

def close (rest : List Frame) (j : Json) : Reader :=
  finish rest (if isShallow rest then j else .beyond)

def value (r : Reader) : Token → Option Reader
  | .openArr => some { r with stack := .arr [] :: r.stack, expected := .valueOrClose }
  | .openObj => some { r with stack := .obj [] true :: r.stack, expected := .keyOrClose }
  | .text s => some (finish r.stack (match s with
    | some s => .text s
    | none => .beyond))
  | .word j => some (finish r.stack j)
  | _ => none

def key (r : Reader) (s : Option String) : Option Reader :=
  match r.stack with
  | .obj fields held :: rest =>
    some { r with
      stack := .member fields (held && s.isSome) (s.getD "") :: rest
      expected := .colon }
  | _ => none

def step (r : Reader) (t : Token) : Option Reader :=
  match r.expected, t, r.stack with
  | .value, t, _ => r.value t
  | .valueOrClose, .closeArr, .arr items :: rest => some (close rest (.arr items.reverse))
  | .valueOrClose, t, _ => r.value t
  | .keyOrClose, .closeObj, .obj fields held :: rest =>
    some (close rest (if held then .obj fields.reverse else .beyond))
  | .keyOrClose, .text s, _ => r.key s
  | .key, .text s, _ => r.key s
  | .colon, .colon, _ => some { r with expected := .value }
  | .commaOrClose, .comma, .arr _ :: _ => some { r with expected := .value }
  | .commaOrClose, .comma, .obj _ _ :: _ => some { r with expected := .key }
  | .commaOrClose, .closeArr, .arr items :: rest => some (close rest (.arr items.reverse))
  | .commaOrClose, .closeObj, .obj fields held :: rest =>
    some (close rest (if held then .obj fields.reverse else .beyond))
  | _, _, _ => none

end Reader

def read? (s : String) : Option Json := do
  let r ← (← tokens? s.toList).foldlM Reader.step Reader.initial
  r.result

end ClassTree.Json
