import ClassTree.Hierarchy.Basic
/-!
Initializers: unnamed procs that call the initializer of the parent and then evaluate the pending
expressions of their class. A class gets its initializer once.
-/

namespace ClassTree

def PendingExpr.steps (e : PendingExpr) : List ProcStep := [.debugSource e.location, .eval e.expr]

def initializerBody (pending : List PendingExpr) : List ProcStep :=
  .callSuper 0 :: pending.flatMap PendingExpr.steps

namespace Hierarchy

/-- The new proc gets the id `t.registry.size`. -/
def addInitializer (t : Hierarchy) (c : ClassId) (pending : List PendingExpr) : Hierarchy :=
  (t.addProcEntry c none .none none (initializerBody pending)).modifyClass c
    (·.setInitializer t.registry.size)

def createInitializer (t : Hierarchy) (c : ClassId) :
    Except HierarchyError (Hierarchy × Option ProcId) := do
  let entry ← t.tryClass c
  if entry.pending.isEmpty || entry.initializer.isSome then return (t, entry.initializer)
  else return (t.addInitializer c entry.pending, some t.registry.size)

/-- The classes of `n` levels, from a level on, each level in the order of the one above it. -/
def levels (t : Hierarchy) : Nat → List ClassId → List ClassId
  | 0, _ => []
  | n + 1, level => level ++ t.levels n (level.flatMap t.newestChildren)

/-- All classes, parents before their children. There are no more levels than classes. -/
def breadthFirst (t : Hierarchy) : List ClassId := t.levels t.classes.size [rootId]

def finalize (t : Hierarchy) : Except HierarchyError Hierarchy :=
  t.breadthFirst.foldlM (fun t c => (·.1) <$> t.createInitializer c) t

end Hierarchy

end ClassTree
