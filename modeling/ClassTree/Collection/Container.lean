import ClassTree.Collection.Indexed
import ClassTree.Collection.Keyed
/-!
The operations of all lists, whichever kind a list is of, and the calls that change one, as data.
-/

namespace ClassTree

inductive Container where
  | indexed (l : IndexedList)
  | keyed (l : KeyedList)
deriving DecidableEq, Repr

namespace Container

def isAssociative : Container → Bool
  | indexed l => l.isAssociative
  | keyed _ => true

def isIndexableByNumber : Container → Bool
  | indexed _ => true
  | keyed _ => false

def size : Container → Nat
  | indexed l => l.size
  | keyed l => l.size

def isEmpty (l : Container) : Bool := l.size = 0

def values : Container → List Value
  | indexed l => l.values
  | keyed l => l.values

def pairs : Container → List (Value × Value)
  | indexed l => l.pairs
  | keyed l => l.pairs

def set (l : Container) (key value : Value) (growth : Bool) : Except ListError Container :=
  match l with
  | indexed l => indexed <$> l.set key value growth
  | keyed l => .ok (keyed (l.set key value))

def add (l : Container) (v : Value) : Container :=
  match l with
  | indexed l => indexed (l.add v)
  | keyed l => keyed (l.add v)

def remove (l : Container) (v : Value) : Container × Bool :=
  match l with
  | indexed l => ((indexed (l.remove v).1), (l.remove v).2)
  | keyed l => ((keyed (l.remove v).1), (l.remove v).2)

def get (l : Container) (key : Value) : Except ListError Value :=
  match l with
  | indexed l => l.get key
  | keyed l => l.get key

def hasAssociated (l : Container) (key : Value) : Bool :=
  match l with
  | indexed l => l.hasAssociated key
  | keyed l => l.contains key

def contains (l : Container) (v : Value) : Bool :=
  match l with
  | indexed l => l.values.any (· == v)
  | keyed l => l.contains v

def find (l : Container) (v : Value) (r : ListRange) : Except ListError Nat :=
  if !r.isAll && !l.isIndexableByNumber then .error (.invalidOperation .find)
  else do
    let span ← r.resolve l.size
    return span.find l.values v

def cut (l : Container) (r : ListRange) : Except ListError Container :=
  match l with
  | indexed l => indexed <$> l.cut r
  | keyed l => keyed <$> l.cut r

def copy (l : Container) (r : ListRange) : Except ListError Container :=
  match l with
  | indexed l => indexed <$> l.copy r
  | keyed l => keyed <$> l.copy r

def same : Container → Container → Bool
  | indexed l, indexed m => l.same m
  | keyed l, keyed m => l.same m
  | _, _ => false

end Container

inductive ListCall where
  | set (key value : Value) (growth : Bool)
  | add (v : Value)
  | remove (v : Value)
  | cut (r : ListRange)
deriving DecidableEq, Repr

namespace Container

/-- The list after a call, with whether the call removed something, for the calls that can. -/
def perform (l : Container) : ListCall → Container × Except ListError (Option Bool)
  | .set key value growth =>
    match l.set key value growth with
    | .ok l => (l, .ok none)
    | .error e => (l, .error e)
  | .add v => (l.add v, .ok none)
  | .remove v => ((l.remove v).1, .ok (some (l.remove v).2))
  | .cut r =>
    match l.cut r with
    | .ok l => (l, .ok none)
    | .error e => (l, .error e)

def run (l : Container) (calls : List ListCall) : Container :=
  calls.foldl (fun l c => (l.perform c).1) l

end Container

end ClassTree
