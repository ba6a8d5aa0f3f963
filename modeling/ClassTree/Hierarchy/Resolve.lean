import ClassTree.Hierarchy.Basic
/-!
What a name means on a class. Nearer classes of the lineage hide farther ones, and no class merges
its declarations with those of its ancestors.
-/

namespace ClassTree.Hierarchy

def findVar (t : Hierarchy) (c : ClassId) (name : String) : Option Variable :=
  (t.lineage c).findSome? (·.declared? name)

def varClass (t : Hierarchy) (c : ClassId) (name : String) : Option ClassId :=
  ((t.lineage c).find? fun entry => (entry.declared? name).isSome).map (·.id)

/-- Whether the class or an ancestor has an own variable of the name; overrides do not count. -/
def declaresInstanceVar (t : Hierarchy) (c : ClassId) (name : String) : Bool :=
  (t.lineage c).any fun entry => entry.vars.contains name

def findProcs (t : Hierarchy) (c : ClassId) (name : String) : Option (List ProcId) :=
  (t.lineage c).findSome? fun entry => entry.procs.get? name

def ownProcs (t : Hierarchy) (c : ClassId) (name : String) : Option (List ProcId) :=
  (t.class? c).bind fun entry => entry.procs.get? name

def hasProc (t : Hierarchy) (c : ClassId) (name : String) : Bool := (t.findProcs c name).isSome

def hasOwnProc (t : Hierarchy) (c : ClassId) (name : String) : Bool := (t.ownProcs c name).isSome

/-- The classes whose globals a class sees: its lineage without the root, which alone sees its own.
-/
def globalScope (t : Hierarchy) (c : ClassId) : List ClassEntry :=
  (t.lineage c).takeWhile fun entry => c = rootId || !entry.isRoot

def globalId (t : Hierarchy) (c : ClassId) (name : String) : Option SlotId :=
  (t.globalScope c).findSome? fun entry => entry.globals.get? name

def ownGlobal (t : Hierarchy) (c : ClassId) (name : String) : Option SlotId :=
  (t.class? c).bind fun entry => entry.globals.get? name

def hasGlobal (t : Hierarchy) (c : ClassId) (name : String) : Bool := (t.globalId c name).isSome

def findGlobal (t : Hierarchy) (c : ClassId) (name : String) : Option Slot :=
  (t.globalId c name).bind fun id => t.slots[id]?

/-- The return type that a compiler takes for a call. A global proc counts for the root only, and
what is declared for an override gives way to the return type that the parent of the class sees. -/
def procReturnType (t : Hierarchy) (c : ClassId) (name : String) : Option ValueConstraint :=
  match t.class? c with
  | none => none
  | some entry =>
    let above : Option ValueConstraint :=
      match entry.parent with
      | none => none
      | some p => if p < c then t.procReturnType p name else none
    match if entry.isRoot then t.registry.global? name else none with
    | some proc => proc.returnType
    | none =>
      match t.findProcs c name with
      | none => above
      | some ids =>
        match ids.head?.bind t.registry.get? with
        | none => none
        | some proc =>
          if proc.flags.isOverride then some (above.getD .anything) else proc.returnType
termination_by c

def lastReturnType (t : Hierarchy) (c : ClassId) (name : String) : ValueConstraint :=
  (do (← t.registry.get? (← (← t.findProcs c name).getLast?)).returnType).getD .anything

def isSubtypeOf (t : Hierarchy) (c : ClassId) (p : TypePath) : Bool :=
  (t.lineage c).any fun entry => entry.path = p

def isSubclassOf (t : Hierarchy) (c ancestor : ClassId) : Bool :=
  (t.lineage c).any fun entry => entry.id = ancestor

def kind (t : Hierarchy) (c : ClassId) : ValueType :=
  if t.isSubtypeOf c .mob then .mob
  else if t.isSubtypeOf c .obj then .obj
  else if t.isSubtypeOf c .area then .area
  else .anything

end ClassTree.Hierarchy
