import ClassTree.Hierarchy.Basic
/-!
Building a hierarchy: creating classes, and declaring variables, globals, procs and pending
expressions on them. A refused call leaves the hierarchy as it was, except that the parent asked for
in `createClass` is created before the class is found to have another one.
-/

namespace ClassTree.Hierarchy

/-! ### Classes -/

/-- The new class gets the id `t.classes.size`. -/
def addClass (t : Hierarchy) (p : TypePath) (parent : ClassId) : Hierarchy :=
  { t with
    classes := t.classes.push (.new t.classes.size p (some parent))
    paths := t.paths.insert p t.classes.size
    links := (parent, t.classes.size) :: t.links }

/-- Creates the class of a path, if it is missing, and before it the missing ones on the path to it.
-/
def getOrCreate (t : Hierarchy) (p : TypePath) : Hierarchy × ClassId :=
  match t.lookupPath p with
  | some c => (t, c)
  | none =>
    match h : p.parent? with
    | none => (t.addClass p rootId, t.classes.size)
    | some q =>
      have := TypePath.parent?_length h
      let (t, parent) := t.getOrCreate q
      (t.addClass p parent, t.classes.size)
termination_by p.segments.length

def createBelow (t : Hierarchy) (p parent : TypePath) : Hierarchy × Except HierarchyError ClassId :=
  if parent = p ∨ parent.isBelow p then (t, .error (.inheritanceCycle p parent))
  else
    let (t, parentId) := t.getOrCreate parent
    match t.lookupPath p with
    | none => (t.addClass p parentId, .ok t.classes.size)
    | some c =>
      if t.parent? c = some parentId then (t, .ok c)
      else
        let existing := ((t.parent? c).bind t.class?).map (·.path)
        (t, .error (.reparent p (existing.getD .root)))

/-- Without a parent of choice the path decides. -/
def createClass (t : Hierarchy) (p : TypePath) (parent : Option TypePath) :
    Hierarchy × Except HierarchyError ClassId :=
  match parent with
  | none =>
    let (t, c) := t.getOrCreate p
    (t, .ok c)
  | some parent => t.createBelow p parent

/-! ### Variables -/

def declareVar (t : Hierarchy) (c : ClassId) (v : Variable) :
    Except HierarchyError Hierarchy := do
  let entry ← t.tryClass c
  if entry.overrides.contains v.name then .error (.variableConflict entry.path v.name .override)
  else return t.modifyClass c (·.addVar v)

def declareOverride (t : Hierarchy) (c : ClassId) (v : Variable) :
    Except HierarchyError Hierarchy := do
  let entry ← t.tryClass c
  if entry.vars.contains v.name then .error (.variableConflict entry.path v.name .own)
  else return t.modifyClass c (·.addOverride v)

def setTmp (t : Hierarchy) (c : ClassId) (name : String) (on : Bool) :
    Except HierarchyError Hierarchy := do
  let _ ← t.tryClass c
  return t.modifyClass c (·.setTmp name on)

/-! ### Globals -/

/-- The new slot gets the id `t.slots.size` and has no value yet. -/
def addSlot (t : Hierarchy) (name : String) (typePath : Option TypePath) (isConst : Bool)
    (constraint : ValueConstraint) : Hierarchy :=
  { t with
    slots := t.slots.push ⟨t.slots.size, name, typePath, isConst, constraint, none, .internal⟩ }

def setSlot (t : Hierarchy) (id : SlotId) (value : Expr) (location : Location) : Hierarchy :=
  { t with slots := t.slots.modify id fun slot => { slot with value := some value, location } }

def createGlobal (t : Hierarchy) (c : ClassId) (name : String) (typePath : Option TypePath)
    (isConst : Bool) (constraint : ValueConstraint) :
    Except HierarchyError (Hierarchy × SlotId) := do
  let _ ← t.tryClass c
  let id := t.slots.size
  return ((t.addSlot name typePath isConst constraint).modifyClass c (·.bindGlobal name id), id)

def setGlobalValue (t : Hierarchy) (id : SlotId) (value : Expr) (location : Location) :
    Except HierarchyError Hierarchy :=
  if id < t.slots.size then .ok (t.setSlot id value location) else .error (.slotNotFound id)

/-! ### Procs and pending expressions -/

def addProc (t : Hierarchy) (c : ClassId) (name : String) (flags : ProcFlags)
    (returnType : Option ValueConstraint) : Except HierarchyError (Hierarchy × ProcId) := do
  let _ ← t.tryClass c
  let id := t.registry.size
  return ((t.addProcEntry c (some name) flags returnType []).modifyClass c
    (·.addProc name id flags.isVerb), id)

/-- The new proc gets the id `t.registry.size`. -/
def addGlobalEntry (t : Hierarchy) (name : String) (returnType : Option ValueConstraint) :
    Hierarchy :=
  { t with registry := t.registry.registerGlobal name returnType }

def addGlobalProc (t : Hierarchy) (name : String) (returnType : Option ValueConstraint) :
    Except HierarchyError (Hierarchy × ProcId) :=
  if t.registry.globals.contains name then .error (.duplicateGlobalProc name)
  else .ok (t.addGlobalEntry name returnType, t.registry.size)

def pushPending (t : Hierarchy) (c : ClassId) (e : PendingExpr) :
    Except HierarchyError Hierarchy := do
  let _ ← t.tryClass c
  return t.modifyClass c (·.addPending e)

/-! ### The classes that every program has -/

/-- Their paths, and their parents where the path does not tell. -/
def builtinClasses : List (TypePath × Option TypePath) :=
  [(.datum, none), (.atom, some .datum), (.movable, none), (.area, some .atom), (.turf, some .atom),
    (.obj, some .movable), (.mob, some .movable), (.list, none)]

def builtin : Hierarchy :=
  builtinClasses.foldl (fun t c => (t.createClass c.1 c.2).1) bare

end ClassTree.Hierarchy
