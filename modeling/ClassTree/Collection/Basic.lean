import ClassTree.OrderedMap
import ClassTree.Value
/-!
What the lists of a running program have in common: ranges of positions, and the errors of list
operations.
-/

namespace ClassTree

/-- What a list that is not indexable by number can only do as a whole. -/
inductive WholeOperation where
  | cut
  | copy
  | find
deriving DecidableEq, Repr

inductive ListError where
  | keyNotFound (key : Value)
  | invalidOperation (operation : WholeOperation)
  | indexOutOfRange (index : Int) (length : Nat)
  | invalidKey (key : Value)
deriving DecidableEq, Repr

def WholeOperation.text : WholeOperation → String
  | cut => "cut with a range on an associative list"
  | copy => "copy with a range on an associative list"
  | find => "find with a range on a list that is not indexable by number"

def ListError.message : ListError → String
  | keyNotFound key => s!"key {key.display} not found in list"
  | invalidOperation operation => s!"invalid list operation: {operation.text}"
  | indexOutOfRange index length => s!"list index {index} out of range (length {length})"
  | invalidKey key => s!"{key.display} cannot be used as a list key"

/-- The positions from `start`, counted from 1, up to but without `stop`. A stop of 0 is the end of
the list. -/
structure ListRange where
  start : Int
  stop : Int
deriving DecidableEq, Repr

/-- Part of a list, from the element with index `first`, counted from 0, up to but without `last`.
-/
structure Span where
  first : Nat
  last : Nat
deriving DecidableEq, Repr

namespace ListRange

def all : ListRange := ⟨1, 0⟩

def isAll (r : ListRange) : Bool := r = all

def resolve (r : ListRange) (length : Nat) : Except ListError Span :=
  let pastEnd : Int := length + 1
  if r.start < 1 ∨ pastEnd < r.start then .error (.indexOutOfRange r.start length)
  else
    let stop := if r.stop = 0 then pastEnd else r.stop
    if stop < r.start ∨ pastEnd < stop then .error (.indexOutOfRange r.stop length)
    else .ok ⟨(r.start - 1).toNat, (stop - 1).toNat⟩

end ListRange

namespace Span

variable {α : Type}

def slice (s : Span) (items : List α) : List α := (items.take s.last).drop s.first

def without (s : Span) (items : List α) : List α := items.take s.first ++ items.drop s.last

/-- The position, counted from 1, of the first of the items that is the value, 0 if none in the part
is. -/
def find [BEq α] (s : Span) (items : List α) (a : α) : Nat :=
  match (s.slice items).findIdx? (· == a) with
  | some i => s.first + i + 1
  | none => 0

end Span

namespace OrderedMap

variable {α β : Type} [BEq α] [BEq β]

/-- The same keys with the same values, in whatever order. -/
def same (m n : OrderedMap α β) : Bool :=
  m.size == n.size && m.entries.all fun e => n.get? e.1 == some e.2

end OrderedMap

end ClassTree
