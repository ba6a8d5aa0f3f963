import ClassTree.Identity
import ClassTree.Json.Writer
import ClassTree.Proc
/-!
Artifacts: compiled hierarchies, as a loader of the running program reads them. The records of
classes, procs and slots stand in the order of their ids.
-/

namespace ClassTree

/-- The compiled form of a class. What a class does not have is left out. -/
structure ClassRecord where
  path : String
  parent : Option ClassId
  /-- The literals of own variables and overrides. -/
  vars : Option (OrderedMap String Json)
  globals : Option (OrderedMap String SlotId)
  constNames : Option (OrderedSet String)
  tmpNames : Option (OrderedSet String)
  initializer : Option ProcId
  procs : Option (List (List ProcId))
  verbs : Option (List ProcId)
deriving Repr, Inhabited

structure ProcRecord where
  id : ProcId
  owner : ClassId
  name : Option String
  flags : ProcFlags
  returnType : Option ValueConstraint
deriving DecidableEq, Repr, Inhabited

structure SlotRecord where
  id : SlotId
  name : String
  isConst : Bool
  value : Json
deriving Repr, Inhabited

structure Artifact where
  classes : List ClassRecord
  procs : List ProcRecord
  slots : List SlotRecord
deriving Repr, Inhabited

namespace ClassRecord

def ofIds (ids : List Nat) : Json := .arr (ids.map .ofNat)

def toJson (r : ClassRecord) : Json :=
  .obj ([("Path", .text r.path)] ++ Json.fieldIfSome "Parent" .ofNat r.parent ++
    Json.fieldIfSome "Variables" (.ofMap id) r.vars ++
    Json.fieldIfSome "GlobalVariables" (.ofMap .ofNat) r.globals ++
    Json.fieldIfSome "ConstVariables" .ofSet r.constNames ++
    Json.fieldIfSome "TmpVariables" .ofSet r.tmpNames ++
    Json.fieldIfSome "InitProc" .ofNat r.initializer ++
    Json.fieldIfSome "Procs" (fun groups => .arr (groups.map ofIds)) r.procs ++
    Json.fieldIfSome "Verbs" ofIds r.verbs)

def keys : List String :=
  ["Path", "Parent", "Variables", "GlobalVariables", "ConstVariables", "TmpVariables", "InitProc",
    "Procs", "Verbs"]

def ofJson (j : Json) : Decoded ClassRecord := do
  let fields ← j.recordFields keys
  let path ← Json.required fields "Path" Json.asText
  let parent ← Json.optional fields "Parent" Json.asNat32
  let vars ← Json.optional fields "Variables" (Json.asMap Json.asAny)
  let globals ← Json.optional fields "GlobalVariables" (Json.asMap Json.asNat32)
  let constNames ← Json.optional fields "ConstVariables" Json.asSet
  let tmpNames ← Json.optional fields "TmpVariables" Json.asSet
  let initializer ← Json.optional fields "InitProc" Json.asNat32
  let procs ← Json.optional fields "Procs" (Json.asList (Json.asList Json.asNat32))
  let verbs ← Json.optional fields "Verbs" (Json.asList Json.asNat32)
  return ⟨path, parent, vars, globals, constNames, tmpNames, initializer, procs, verbs⟩

end ClassRecord

namespace ProcRecord

def toJson (r : ProcRecord) : Json :=
  .obj ([("Id", .ofNat r.id), ("Owner", .ofNat r.owner)] ++ Json.fieldIfSome "Name" .text r.name ++
    [("Attributes", r.flags.toJson)] ++
    Json.fieldIfSome "ReturnType" ValueConstraint.toJson r.returnType)

def ofJson (j : Json) : Decoded ProcRecord := do
  let fields ← j.recordFields ["Id", "Owner", "Name", "Attributes", "ReturnType"]
  let id ← Json.required fields "Id" Json.asNat32
  let owner ← Json.required fields "Owner" Json.asNat32
  let name ← Json.optional fields "Name" Json.asText
  let flags ← Json.required fields "Attributes" ProcFlags.ofJson
  let returnType ← Json.optional fields "ReturnType" ValueConstraint.ofJson
  return ⟨id, owner, name, flags, returnType⟩

end ProcRecord

namespace SlotRecord

def toJson (r : SlotRecord) : Json :=
  .obj [("Id", .ofNat r.id), ("Name", .text r.name), ("IsConst", .bool r.isConst),
    ("Value", r.value)]

def ofJson (j : Json) : Decoded SlotRecord := do
  let fields ← j.recordFields ["Id", "Name", "IsConst", "Value"]
  let id ← Json.required fields "Id" Json.asNat32
  let name ← Json.required fields "Name" Json.asText
  let isConst ← Json.required fields "IsConst" Json.asBool
  let value ← Json.required fields "Value" Json.asAny
  return ⟨id, name, isConst, value⟩

end SlotRecord

namespace Artifact

def toJson (a : Artifact) : Json :=
  .obj [("Types", .arr (a.classes.map ClassRecord.toJson)),
    ("Procs", .arr (a.procs.map ProcRecord.toJson)),
    ("Globals", .arr (a.slots.map SlotRecord.toJson))]

def ofJson (j : Json) : Decoded Artifact := do
  let fields ← j.recordFields ["Types", "Procs", "Globals"]
  let classes ← Json.required fields "Types" (Json.asList ClassRecord.ofJson)
  let procs ← Json.required fields "Procs" (Json.asList ProcRecord.ofJson)
  let slots ← Json.required fields "Globals" (Json.asList SlotRecord.ofJson)
  return ⟨classes, procs, slots⟩

def write (pretty : Bool) (a : Artifact) : String :=
  if pretty then a.toJson.indented else a.toJson.compact

end Artifact

end ClassTree
