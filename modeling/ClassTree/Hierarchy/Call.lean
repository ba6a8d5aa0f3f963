import ClassTree.Hierarchy.Build
import ClassTree.Hierarchy.Initializer
/-!
The calls that build a hierarchy, as data, and the hierarchies that some sequence of them builds.
-/

namespace ClassTree

inductive Call where
  | getOrCreate (p : TypePath)
  | createClass (p : TypePath) (parent : Option TypePath)
  | declareVar (c : ClassId) (v : Variable)
  | declareOverride (c : ClassId) (v : Variable)
  | setTmp (c : ClassId) (name : String) (on : Bool)
  | createGlobal (c : ClassId) (name : String) (typePath : Option TypePath) (isConst : Bool)
      (constraint : ValueConstraint)
  | setGlobalValue (id : SlotId) (value : Expr) (location : Location)
  | addProc (c : ClassId) (name : String) (flags : ProcFlags) (returnType : Option ValueConstraint)
  | addGlobalProc (name : String) (returnType : Option ValueConstraint)
  | pushPending (c : ClassId) (e : PendingExpr)
  | createInitializer (c : ClassId)
  | finalize
deriving Repr

abbrev Answer := Except HierarchyError (Option Nat)

namespace Hierarchy

/-- The outcome of a call that changes nothing when it is refused. -/
def commit {α : Type} (t : Hierarchy) (result : Except HierarchyError α) (next : α → Hierarchy)
    (id : α → Option Nat) : Hierarchy × Answer :=
  match result with
  | .ok a => (next a, .ok (id a))
  | .error e => (t, .error e)

def perform (t : Hierarchy) : Call → Hierarchy × Answer
  | .getOrCreate p => ((t.getOrCreate p).1, .ok (some (t.getOrCreate p).2))
  | .createClass p parent => ((t.createClass p parent).1, some <$> (t.createClass p parent).2)
  | .declareVar c v => t.commit (t.declareVar c v) id fun _ => none
  | .declareOverride c v => t.commit (t.declareOverride c v) id fun _ => none
  | .setTmp c name on => t.commit (t.setTmp c name on) id fun _ => none
  | .createGlobal c name typePath isConst constraint =>
    t.commit (t.createGlobal c name typePath isConst constraint) (·.1) fun r => some r.2
  | .setGlobalValue id value location =>
    t.commit (t.setGlobalValue id value location) (fun t => t) fun _ => none
  | .addProc c name flags returnType =>
    t.commit (t.addProc c name flags returnType) (·.1) fun r => some r.2
  | .addGlobalProc name returnType =>
    t.commit (t.addGlobalProc name returnType) (·.1) fun r => some r.2
  | .pushPending c e => t.commit (t.pushPending c e) id fun _ => none
  | .createInitializer c => t.commit (t.createInitializer c) (·.1) fun r => r.2
  | .finalize => t.commit t.finalize id fun _ => none

def run (t : Hierarchy) (calls : List Call) : Hierarchy :=
  calls.foldl (fun t c => (t.perform c).1) t

/-- What some calls build, refused ones among them, from the root alone or from the built-in
classes. -/
inductive Reachable : Hierarchy → Prop where
  | bare : Reachable bare
  | builtin : Reachable builtin
  | perform {t : Hierarchy} (call : Call) (h : Reachable t) : Reachable (t.perform call).1

end Hierarchy

end ClassTree
