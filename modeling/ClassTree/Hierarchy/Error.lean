import ClassTree.Identity
import ClassTree.TypePath
/-!
Why a call on a class hierarchy is refused.
-/

namespace ClassTree

inductive Declared where
  | own
  | override
deriving DecidableEq, Repr

def Declared.text : Declared → String
  | own => "an own variable"
  | override => "an override"

inductive HierarchyError where
  | invalidPath (e : InvalidPath)
  | classNotFound (id : ClassId)
  | pathNotFound (path : TypePath)
  | procNotFound (id : ProcId)
  | slotNotFound (id : SlotId)
  /-- The class exists, but below another parent. -/
  | reparent (path existing : TypePath)
  /-- The parent is the class itself or lies below it. -/
  | inheritanceCycle (path parent : TypePath)
  | variableConflict (path : TypePath) (name : String) (existing : Declared)
  | duplicateGlobalProc (name : String)
deriving DecidableEq, Repr

def HierarchyError.message : HierarchyError → String
  | invalidPath e => e.message
  | classNotFound id => s!"class not found: ClassId({id})"
  | pathNotFound path => s!"no class with path {path.text}"
  | procNotFound id => s!"proc not found: ProcId({id})"
  | slotNotFound id => s!"global not found: GlobalId({id})"
  | reparent path existing => s!"cannot reparent {path.text}: already a child of {existing.text}"
  | inheritanceCycle path parent =>
    s!"{parent.text} cannot be the parent of {path.text}: inheritance cycle"
  | variableConflict path name existing =>
    s!"{path.text}: variable '{name}' is already declared as {existing.text}"
  | duplicateGlobalProc name => s!"duplicate global proc '{name}'"

end ClassTree
