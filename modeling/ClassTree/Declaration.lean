import ClassTree.Hierarchy.Build
import ClassTree.Json.Reader
/-!
Declaration files: what a program declares, class by class, in JSON. Loading one replays its
declarations, in their order, on the built-in classes. A class may have several entries, which add
to each other.
-/

namespace ClassTree

structure VarDecl where
  name : String
  typePath : Option TypePath
  isConst : Bool
  isTmp : Bool
  value : Option Expr
  constraint : Option ValueConstraint
  location : Option Location
deriving Repr, Inhabited

structure ProcDecl where
  name : String
  flags : ProcFlags
  returnType : Option ValueConstraint
deriving DecidableEq, Repr, Inhabited

structure ClassDecl where
  path : TypePath
  parent : Option TypePath
  vars : List VarDecl
  overrides : List VarDecl
  globals : List VarDecl
  procs : List ProcDecl
  init : List PendingExpr
deriving Repr, Inhabited

structure DeclarationFile where
  classes : List ClassDecl
  globalProcs : List ProcDecl
deriving Repr, Inhabited

/-! ### JSON form -/

namespace VarDecl

def toJson (d : VarDecl) : Json :=
  .obj [("name", .text d.name), ("type", .ofOption .ofPath d.typePath),
    ("is_const", .bool d.isConst), ("is_tmp", .bool d.isTmp),
    ("value", .ofOption Expr.toJson d.value),
    ("value_type", .ofOption ValueConstraint.toJson d.constraint),
    ("location", .ofOption Location.toJson d.location)]

def keys : List String :=
  ["name", "type", "is_const", "is_tmp", "value", "value_type", "location"]

def ofJson (j : Json) : Decoded VarDecl := do
  let fields ← j.recordFields keys
  let name ← Json.required fields "name" Json.asText
  let typePath ← Json.optional fields "type" Json.asPath
  let isConst ← Json.orElse fields "is_const" Json.asBool false
  let isTmp ← Json.orElse fields "is_tmp" Json.asBool false
  let value ← Json.optional fields "value" Expr.ofJson
  let constraint ← Json.optional fields "value_type" ValueConstraint.ofJson
  let location ← Json.optional fields "location" Location.ofJson
  return ⟨name, typePath, isConst, isTmp, value, constraint, location⟩

def toVariable (d : VarDecl) : Variable :=
  ⟨d.name, d.typePath, d.isConst, d.value, d.constraint.getD .anything, d.location.getD .internal⟩

end VarDecl

namespace ProcDecl

def toJson (d : ProcDecl) : Json :=
  .obj ([("name", .text d.name)] ++ d.flags.fields ++
    [("return_type", .ofOption ValueConstraint.toJson d.returnType)])

/-- The flags stand among the other fields, so that all of them are read before they are sorted out:
what cannot be held is refused even in a field that is skipped, and an array is no record. -/
def ofJson (j : Json) : Decoded ProcDecl := do
  match j with
  | .obj _ =>
    if !j.isHeld then .error .shape
    else
      let fields ← j.recordFields (["name", "return_type"] ++ ProcFlags.keys)
      let name ← Json.required fields "name" Json.asText
      let flags ← ProcFlags.ofFields fields
      let returnType ← Json.optional fields "return_type" ValueConstraint.ofJson
      return ⟨name, flags, returnType⟩
  | _ => .error .shape

end ProcDecl

namespace ClassDecl

def toJson (d : ClassDecl) : Json :=
  .obj [("path", .ofPath d.path), ("parent", .ofOption .ofPath d.parent),
    ("vars", .arr (d.vars.map VarDecl.toJson)),
    ("overrides", .arr (d.overrides.map VarDecl.toJson)),
    ("globals", .arr (d.globals.map VarDecl.toJson)),
    ("procs", .arr (d.procs.map ProcDecl.toJson)),
    ("init", .arr (d.init.map PendingExpr.toJson))]

def ofJson (j : Json) : Decoded ClassDecl := do
  let fields ← j.recordFields ["path", "parent", "vars", "overrides", "globals", "procs", "init"]
  let path ← Json.required fields "path" Json.asPath
  let parent ← Json.optional fields "parent" Json.asPath
  let vars ← Json.orElse fields "vars" (Json.asList VarDecl.ofJson) []
  let overrides ← Json.orElse fields "overrides" (Json.asList VarDecl.ofJson) []
  let globals ← Json.orElse fields "globals" (Json.asList VarDecl.ofJson) []
  let procs ← Json.orElse fields "procs" (Json.asList ProcDecl.ofJson) []
  let init ← Json.orElse fields "init" (Json.asList PendingExpr.ofJson) []
  return ⟨path, parent, vars, overrides, globals, procs, init⟩

end ClassDecl

namespace DeclarationFile

def toJson (f : DeclarationFile) : Json :=
  .obj [("classes", .arr (f.classes.map ClassDecl.toJson)),
    ("global_procs", .arr (f.globalProcs.map ProcDecl.toJson))]

def ofJson (j : Json) : Decoded DeclarationFile := do
  let fields ← j.recordFields ["classes", "global_procs"]
  let classes ← Json.orElse fields "classes" (Json.asList ClassDecl.ofJson) []
  let globalProcs ← Json.orElse fields "global_procs" (Json.asList ProcDecl.ofJson) []
  return ⟨classes, globalProcs⟩

def read (text : String) : Decoded DeclarationFile :=
  match Json.read? text with
  | some j => ofJson j
  | none => .error .shape

end DeclarationFile

/-! ### Loading -/

namespace Hierarchy

def loadVar (c : ClassId) (t : Hierarchy) (d : VarDecl) : Except HierarchyError Hierarchy := do
  (← t.declareVar c d.toVariable).setTmp c d.name d.isTmp

def loadOverride (c : ClassId) (t : Hierarchy) (d : VarDecl) : Except HierarchyError Hierarchy := do
  (← t.declareOverride c d.toVariable).setTmp c d.name d.isTmp

def loadGlobal (c : ClassId) (t : Hierarchy) (d : VarDecl) : Except HierarchyError Hierarchy := do
  let (t, id) ← t.createGlobal c d.name d.typePath d.isConst (d.constraint.getD .anything)
  match d.value with
  | none => return t
  | some value => t.setGlobalValue id value (d.location.getD .internal)

def loadProc (c : ClassId) (t : Hierarchy) (d : ProcDecl) : Except HierarchyError Hierarchy :=
  (·.1) <$> t.addProc c d.name d.flags d.returnType

/-- The flags of a global proc are not kept. -/
def loadGlobalProc (t : Hierarchy) (d : ProcDecl) : Except HierarchyError Hierarchy :=
  (·.1) <$> t.addGlobalProc d.name d.returnType

def loadClass (t : Hierarchy) (d : ClassDecl) : Except HierarchyError Hierarchy := do
  let (t, created) := t.createClass d.path d.parent
  let c ← created
  let t ← d.vars.foldlM (loadVar c) t
  let t ← d.overrides.foldlM (loadOverride c) t
  let t ← d.globals.foldlM (loadGlobal c) t
  let t ← d.procs.foldlM (loadProc c) t
  d.init.foldlM (fun t e => t.pushPending c e) t

def ofDeclarations (f : DeclarationFile) : Except HierarchyError Hierarchy := do
  let t ← f.globalProcs.foldlM loadGlobalProc builtin
  f.classes.foldlM loadClass t

end Hierarchy

end ClassTree
