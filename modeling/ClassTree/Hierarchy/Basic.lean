import ClassTree.Hierarchy.Error
import ClassTree.Proc
import ClassTree.Slot
/-!
The class hierarchy of a program: a table of classes with an index by path and the links from
parents to children, and the tables of procs and global slots that the classes refer to by number.
-/

namespace ClassTree

/-- One class, with what is declared on it and not on its ancestors. -/
structure ClassEntry where
  id : ClassId
  path : TypePath
  parent : Option ClassId
  vars : OrderedMap String Variable
  overrides : OrderedMap String Variable
  procs : OrderedMap String (List ProcId)
  globals : OrderedMap String SlotId
  constNames : OrderedSet String
  tmpNames : OrderedSet String
  /-- What the initializer is to evaluate before the constructor runs. -/
  pending : List PendingExpr
  initializer : Option ProcId
  verbs : List ProcId
deriving Repr, Inhabited

namespace ClassEntry

def new (id : ClassId) (path : TypePath) (parent : Option ClassId) : ClassEntry :=
  ⟨id, path, parent, .empty, .empty, .empty, .empty, .empty, .empty, [], none, []⟩

def isRoot (c : ClassEntry) : Bool := c.parent.isNone

/-- The own variable of a name or, failing that, its override. -/
def declared? (c : ClassEntry) (name : String) : Option Variable :=
  (c.vars.get? name).or (c.overrides.get? name)

/-! ### What a declaration changes -/

def addVar (c : ClassEntry) (v : Variable) : ClassEntry :=
  { c with constNames := c.constNames.set v.name v.isConst, vars := c.vars.insert v.name v }

def addOverride (c : ClassEntry) (v : Variable) : ClassEntry :=
  { c with
    constNames := c.constNames.set v.name v.isConst
    overrides := c.overrides.insert v.name v }

def setTmp (c : ClassEntry) (name : String) (on : Bool) : ClassEntry :=
  { c with tmpNames := c.tmpNames.set name on }

def bindGlobal (c : ClassEntry) (name : String) (id : SlotId) : ClassEntry :=
  { c with globals := c.globals.insert name id }

def addProc (c : ClassEntry) (name : String) (id : ProcId) (isVerb : Bool) : ClassEntry :=
  { c with
    procs := c.procs.insert name ((c.procs.get? name).getD [] ++ [id])
    verbs := if isVerb then c.verbs ++ [id] else c.verbs }

def addPending (c : ClassEntry) (e : PendingExpr) : ClassEntry :=
  { c with pending := c.pending ++ [e] }

def setInitializer (c : ClassEntry) (id : ProcId) : ClassEntry := { c with initializer := some id }

/-! ### JSON form -/

def toJson (c : ClassEntry) : Json :=
  .obj [("id", .ofNat c.id), ("path", .ofPath c.path), ("parent", .ofOption .ofNat c.parent),
    ("variables", .ofMap Variable.toJson c.vars),
    ("variable_overrides", .ofMap Variable.toJson c.overrides),
    ("procs", .ofMap (fun ids => .arr (ids.map .ofNat)) c.procs),
    ("global_variables", .ofMap .ofNat c.globals), ("const_variables", .ofSet c.constNames),
    ("tmp_variables", .ofSet c.tmpNames), ("init_exprs", .arr (c.pending.map PendingExpr.toJson)),
    ("init_proc", .ofOption .ofNat c.initializer), ("verbs", .arr (c.verbs.map .ofNat))]

end ClassEntry

/-- The links stand newest first. -/
structure Hierarchy where
  classes : Array ClassEntry
  paths : OrderedMap TypePath ClassId
  links : List (ClassId × ClassId)
  registry : ProcRegistry
  slots : Array Slot
deriving Repr, Inhabited

namespace Hierarchy

def bare : Hierarchy :=
  ⟨#[.new rootId .root none], ⟨[(.root, rootId)]⟩, [], .empty, #[]⟩

def class? (t : Hierarchy) (c : ClassId) : Option ClassEntry := t.classes[c]?

def tryClass (t : Hierarchy) (c : ClassId) : Except HierarchyError ClassEntry :=
  match t.class? c with
  | some entry => .ok entry
  | none => .error (.classNotFound c)

def lookupPath (t : Hierarchy) (p : TypePath) : Option ClassId := t.paths.get? p

def lookup (t : Hierarchy) (raw : String) : Except HierarchyError ClassId :=
  match TypePath.parse raw with
  | .error e => .error (.invalidPath e)
  | .ok p =>
    match t.lookupPath p with
    | some c => .ok c
    | none => .error (.pathNotFound p)

def parent? (t : Hierarchy) (c : ClassId) : Option ClassId := (t.class? c).bind (·.parent)

def newestChildren (t : Hierarchy) (c : ClassId) : List ClassId :=
  (t.links.filter (·.1 = c)).map (·.2)

def children (t : Hierarchy) (c : ClassId) : List ClassId := (t.newestChildren c).reverse

/-- A class and its ancestors, nearest first. A parent is older than its children, so the walk ends.
-/
def lineage (t : Hierarchy) (c : ClassId) : List ClassEntry :=
  match t.class? c with
  | none => []
  | some entry =>
    match entry.parent with
    | none => [entry]
    | some p => if p < c then entry :: t.lineage p else [entry]
termination_by c

def modifyClass (t : Hierarchy) (c : ClassId) (f : ClassEntry → ClassEntry) : Hierarchy :=
  { t with classes := t.classes.modify c f }

/-- The new proc gets the id `t.registry.size`. -/
def addProcEntry (t : Hierarchy) (owner : ClassId) (name : Option String) (flags : ProcFlags)
    (returnType : Option ValueConstraint) (body : List ProcStep) : Hierarchy :=
  { t with registry := t.registry.register owner name flags returnType body }

end Hierarchy

end ClassTree
