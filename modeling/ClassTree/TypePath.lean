/-!
Type paths: the absolute names of classes, `/` for the root and `/obj/item` for the segments `obj`
and `item` below it. `TypePath.parse` reads exactly the texts that `TypePath.text` writes.
-/

namespace ClassTree

def isSegmentChar (c : Char) : Bool := c.isAlphanum || c = '_'

/-- A run of one or more ASCII letters, digits and underscores. -/
structure Segment where
  chars : List Char
  nonempty : chars ≠ []
  plain : chars.all isSegmentChar = true
deriving DecidableEq, Repr

inductive PathFault where
  | noSlash
  | emptySegment
  | badCharacter (segment : String)
deriving DecidableEq, Repr

def PathFault.message : PathFault → String
  | noSlash => "path must start with '/'"
  | emptySegment => "empty path segment"
  | badCharacter segment => s!"invalid character in segment '{segment}'"

structure InvalidPath where
  path : String
  fault : PathFault
deriving DecidableEq, Repr

def InvalidPath.message (e : InvalidPath) : String :=
  s!"invalid type path '{e.path}': {e.fault.message}"

def Segment.ofChars (cs : List Char) : Except PathFault Segment :=
  if h : cs = [] then .error .emptySegment
  else if h' : cs.all isSegmentChar = true then .ok ⟨cs, h, h'⟩
  else .error (.badCharacter (String.ofList cs))

def Segment.text (s : Segment) : String := String.ofList s.chars

/-- The segments stand root first. -/
structure TypePath where
  segments : List Segment
deriving DecidableEq, Repr

namespace TypePath

def root : TypePath := ⟨[]⟩

instance : Inhabited TypePath := ⟨root⟩

def isRoot (p : TypePath) : Bool := p.segments.isEmpty

def chars (p : TypePath) : List Char :=
  if p.isRoot then ['/'] else p.segments.flatMap fun s => '/' :: s.chars

def text (p : TypePath) : String := String.ofList p.chars

/-- The parts between slashes, one more than there are slashes. -/
def splitSlash : List Char → List (List Char)
  | [] => [[]]
  | c :: rest =>
    if c = '/' then [] :: splitSlash rest
    else match splitSlash rest with
      | [] => [[c]]
      | part :: parts => (c :: part) :: parts

def ofChars : List Char → Except PathFault TypePath
  | ['/'] => .ok root
  | '/' :: rest => return ⟨← (splitSlash rest).mapM Segment.ofChars⟩
  | _ => .error .noSlash

def parse (raw : String) : Except InvalidPath TypePath :=
  (ofChars raw.toList).mapError fun fault => ⟨raw, fault⟩

def last? (p : TypePath) : Option Segment := p.segments.getLast?

def parent? (p : TypePath) : Option TypePath :=
  if p.isRoot then none else some ⟨p.segments.dropLast⟩

def append (p : TypePath) (s : Segment) : TypePath := ⟨p.segments ++ [s]⟩

/-- Adds one segment below a path. An unusable segment is reported with the text that it would have
given. -/
def join (p : TypePath) (segment : String) : Except InvalidPath TypePath :=
  match Segment.ofChars segment.toList with
  | .ok s => .ok (p.append s)
  | .error fault => .error ⟨(if p.isRoot then "" else p.text) ++ "/" ++ segment, fault⟩

def isBelow (p q : TypePath) : Bool :=
  q.segments.isPrefixOf p.segments && q.segments.length < p.segments.length

theorem parent?_length {p q : TypePath} (h : p.parent? = some q) :
    q.segments.length < p.segments.length := by
  unfold parent? at h
  split at h
  · cases h
  · next hr =>
    obtain rfl := Option.some.inj h
    have : p.segments ≠ [] := by simpa [isRoot] using hr
    have := List.length_pos_iff.2 this
    simp only [List.length_dropLast]
    omega

def ancestors (p : TypePath) : List TypePath :=
  match h : p.parent? with
  | none => []
  | some q =>
    have := parent?_length h
    q :: q.ancestors
termination_by p.segments.length

/-! ### The paths of the classes that every program has -/

def datum : TypePath := ⟨[⟨['d', 'a', 't', 'u', 'm'], by decide, by decide⟩]⟩

def atom : TypePath := ⟨[⟨['a', 't', 'o', 'm'], by decide, by decide⟩]⟩

def movable : TypePath := atom.append ⟨['m', 'o', 'v', 'a', 'b', 'l', 'e'], by decide, by decide⟩

def area : TypePath := ⟨[⟨['a', 'r', 'e', 'a'], by decide, by decide⟩]⟩

def turf : TypePath := ⟨[⟨['t', 'u', 'r', 'f'], by decide, by decide⟩]⟩

def obj : TypePath := ⟨[⟨['o', 'b', 'j'], by decide, by decide⟩]⟩

def mob : TypePath := ⟨[⟨['m', 'o', 'b'], by decide, by decide⟩]⟩

def list : TypePath := ⟨[⟨['l', 'i', 's', 't'], by decide, by decide⟩]⟩

end TypePath

end ClassTree
