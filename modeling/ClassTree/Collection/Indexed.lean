import ClassTree.Collection.Basic
/-!
Lists indexed by number. Elements that are neither numbers nor null may have an associated value,
which goes when the last such element goes.
-/

namespace ClassTree

structure IndexedList where
  values : List Value
  associations : OrderedMap Value Value
deriving DecidableEq, Repr

namespace IndexedList

def ofValues (values : List Value) : IndexedList := ⟨values, .empty⟩

def size (l : IndexedList) : Nat := l.values.length

def isAssociative (l : IndexedList) : Bool := !l.associations.isEmpty

/-- A word of 64 bits as a signed number. -/
def signed (n : Nat) : Int :=
  if n < 9223372036854775808 then n else (n : Int) - 18446744073709551616

/-- The index, counted from 0, of the position that a key names. Errors report the position as a
signed word. -/
def position (l : IndexedList) (key : Value) : Except ListError Nat :=
  match key.position? with
  | none => .error (.invalidKey key)
  | some n =>
    if n ≤ l.size then .ok (n - 1) else .error (.indexOutOfRange (signed n) l.size)

/-- Drops the association of a value that is no longer an element. -/
def release (l : IndexedList) (v : Value) : IndexedList :=
  if l.values.contains v then l else { l with associations := l.associations.erase v }

def add (l : IndexedList) (v : Value) : IndexedList := { l with values := l.values ++ [v] }

def replace (l : IndexedList) (i : Nat) (v : Value) : IndexedList :=
  let replaced := { l with values := l.values.set i v }
  match l.values[i]? with
  | some old => replaced.release old
  | none => replaced

/-- Numbers address positions, the one past the end if the list may grow; any other key but null
becomes an element, if it is none, with the value as its association. -/
def set (l : IndexedList) (key value : Value) (growth : Bool) : Except ListError IndexedList :=
  match key with
  | .num _ =>
    if growth ∧ key.position? = some (l.size + 1) then .ok (l.add value)
    else do return l.replace (← l.position key) value
  | .null => .error (.invalidKey .null)
  | key =>
    let l := if l.values.contains key then l else l.add key
    .ok { l with associations := l.associations.insert key value }

def remove (l : IndexedList) (v : Value) : IndexedList × Bool :=
  match l.values.findIdx? (· == v) with
  | none => (l, false)
  | some i =>
    let rest := { l with values := l.values.eraseIdx i }
    match l.values[i]? with
    | some removed => (rest.release removed, true)
    | none => (rest, true)

def get (l : IndexedList) (key : Value) : Except ListError Value :=
  match key with
  | .num _ => do return (l.values[← l.position key]?).getD .null
  | key =>
    match l.associations.get? key with
    | some v => .ok v
    | none => if l.values.contains key then .ok .null else .error (.keyNotFound key)

def hasAssociated (l : IndexedList) (key : Value) : Bool := l.associations.contains key

def pairs (l : IndexedList) : List (Value × Value) :=
  l.values.map fun v => (v, (l.associations.get? v).getD .null)

/-- Keeps some elements, and of the associations those of an element that is kept. -/
def keep (l : IndexedList) (values : List Value) : IndexedList :=
  ⟨values, l.associations.filterKeys (values.contains ·)⟩

def cut (l : IndexedList) (r : ListRange) : Except ListError IndexedList := do
  let span ← r.resolve l.size
  return l.keep (span.without l.values)

def copy (l : IndexedList) (r : ListRange) : Except ListError IndexedList := do
  let span ← r.resolve l.size
  return l.keep (span.slice l.values)

/-- The same elements in the same order, and the same associations in any order. -/
def same (l m : IndexedList) : Bool := l.values == m.values && l.associations.same m.associations

end IndexedList

end ClassTree
