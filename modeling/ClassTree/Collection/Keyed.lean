import ClassTree.Collection.Basic
/-!
Associative lists: keys in the order in which they were first put in, each with a value. Keys are no
positions, so that only the whole list can be cut or copied.
-/

namespace ClassTree

structure KeyedList where
  entries : OrderedMap Value Value
deriving DecidableEq, Repr

namespace KeyedList

def ofPairs (pairs : List (Value × Value)) : KeyedList := ⟨.ofList pairs⟩

def size (l : KeyedList) : Nat := l.entries.size

def values (l : KeyedList) : List Value := l.entries.keys

def pairs (l : KeyedList) : List (Value × Value) := l.entries.entries

def set (l : KeyedList) (key value : Value) : KeyedList := ⟨l.entries.insert key value⟩

def add (l : KeyedList) (key : Value) : KeyedList := ⟨l.entries.insertIfNew key .null⟩

def remove (l : KeyedList) (key : Value) : KeyedList × Bool :=
  (⟨l.entries.erase key⟩, l.entries.contains key)

def get (l : KeyedList) (key : Value) : Except ListError Value :=
  match l.entries.get? key with
  | some v => .ok v
  | none => .error (.keyNotFound key)

def contains (l : KeyedList) (key : Value) : Bool := l.entries.contains key

def cut (_ : KeyedList) (r : ListRange) : Except ListError KeyedList :=
  if r.isAll then .ok ⟨.empty⟩ else .error (.invalidOperation .cut)

def copy (l : KeyedList) (r : ListRange) : Except ListError KeyedList :=
  if r.isAll then .ok l else .error (.invalidOperation .copy)

def same (l m : KeyedList) : Bool := l.entries.same m.entries

end KeyedList

end ClassTree
