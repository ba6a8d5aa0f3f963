import ClassTree.Artifact
import ClassTree.Hierarchy.Basic
/-!
Compiling a hierarchy into an artifact. All problems are collected, and any of them keeps the
artifact from being made.
-/

namespace ClassTree

inductive BuildError where
  | unrepresentableValue (path : TypePath) (name : String) (location : Location)
  | unrepresentableGlobal (name : String) (id : SlotId) (location : Location)
  | unknownTypePath (path : TypePath) (name : String) (typePath : TypePath) (location : Location)
deriving DecidableEq, Repr

namespace BuildError

def message : BuildError → String
  | unrepresentableValue path name location =>
    s!"{location.text}: failed to serialize {path.text}.{name}: value is not a compile-time literal"
  | unrepresentableGlobal name _ location =>
    s!"{location.text}: failed to serialize global '{name}': value is not a compile-time literal"
  | unknownTypePath path name typePath location =>
    s!"{location.text}: {path.text}.{name} has unknown type {typePath.text}"

def toJson : BuildError → Json
  | unrepresentableValue path name location =>
    .obj [("UnrepresentableValue",
      .obj [("path", .ofPath path), ("name", .text name), ("location", location.toJson)])]
  | unrepresentableGlobal name id location =>
    .obj [("UnrepresentableGlobal",
      .obj [("name", .text name), ("id", .ofNat id), ("location", location.toJson)])]
  | unknownTypePath path name typePath location =>
    .obj [("UnknownTypePath",
      .obj [("path", .ofPath path), ("name", .text name), ("type_path", .ofPath typePath),
        ("location", location.toJson)])]

end BuildError

inductive EmitError where
  | hierarchy (e : HierarchyError)
  | build (errors : List BuildError)
deriving Repr

def EmitError.message : EmitError → String
  | hierarchy e => e.message
  | build errors => s!"{errors.length} build error(s)"

namespace ClassEntry

def declarations (entry : ClassEntry) : List Variable :=
  entry.vars.values ++ entry.overrides.values

def literals (entry : ClassEntry) : OrderedMap String Json :=
  .ofList (entry.declarations.filterMap fun v => v.literal?.map (v.name, ·))

def record (entry : ClassEntry) : ClassRecord where
  path := entry.path.text
  parent := entry.parent
  vars := if entry.declarations.isEmpty then none else some entry.literals
  globals := if entry.globals.isEmpty then none else some entry.globals
  constNames := if entry.constNames.isEmpty then none else some entry.constNames
  tmpNames := if entry.tmpNames.isEmpty then none else some entry.tmpNames
  initializer := entry.initializer
  procs := if entry.procs.isEmpty then none else some entry.procs.values
  verbs := if entry.verbs.isEmpty then none else some entry.verbs

end ClassEntry

def Proc.record (p : Proc) : ProcRecord := ⟨p.id, p.owner, p.name, p.flags, p.returnType⟩

namespace Slot

def error? (s : Slot) : Option BuildError :=
  if s.literal?.isSome then none else some (.unrepresentableGlobal s.name s.id s.location)

def record? (s : Slot) : Option SlotRecord :=
  s.literal?.map fun value => ⟨s.id, s.name, s.isConst, value⟩

end Slot

namespace Hierarchy

def variableErrors (t : Hierarchy) (path : TypePath) (v : Variable) : List BuildError :=
  (match v.typePath with
    | none => []
    | some p =>
      if (t.lookupPath p).isSome then [] else [.unknownTypePath path v.name p v.location]) ++
  (if v.literal?.isSome then [] else [.unrepresentableValue path v.name v.location])

def classErrors (t : Hierarchy) (entry : ClassEntry) : List BuildError :=
  entry.declarations.flatMap (t.variableErrors entry.path)

def emitClass (t : Hierarchy) (c : ClassId) : Except EmitError ClassRecord :=
  match t.tryClass c with
  | .error e => .error (.hierarchy e)
  | .ok entry =>
    match t.classErrors entry with
    | [] => .ok entry.record
    | errors => .error (.build errors)

def buildErrors (t : Hierarchy) : List BuildError :=
  t.classes.toList.flatMap t.classErrors ++ t.slots.toList.filterMap Slot.error?

def emit (t : Hierarchy) : Except (List BuildError) Artifact :=
  match t.buildErrors with
  | [] => .ok
    { classes := t.classes.toList.map ClassEntry.record
      procs := t.registry.procs.toList.map Proc.record
      slots := t.slots.toList.filterMap Slot.record? }
  | errors => .error errors

end Hierarchy

end ClassTree
