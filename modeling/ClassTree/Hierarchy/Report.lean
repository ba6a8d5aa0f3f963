import ClassTree.Hierarchy.Resolve
import ClassTree.Json.Writer
/-!
Reports on what a name means on a class.
-/

namespace ClassTree

structure VariableReport where
  typePath : Option TypePath
  isConst : Bool
  /-- The literal of the initial value, none if only running the program can evaluate it. -/
  value : Option Json
  declaredHere : Bool
deriving Repr

structure LookupReport where
  classPath : Option TypePath
  id : ClassId
  kind : ValueType
  name : String
  variableReport : Option VariableReport
  global : Option Slot
  procs : Option (List ProcId)
  returnType : Option ValueConstraint
  lastReturnType : Option ValueConstraint
deriving Repr

def VariableReport.toJson (r : VariableReport) : Json :=
  .obj [("declared_here", .bool r.declaredHere), ("is_const", .bool r.isConst),
    ("type", .ofOption .ofPath r.typePath), ("value", .ofOption id r.value)]

namespace LookupReport

def ofConstraint (c : ValueConstraint) : Json := .text c.text

def ofSlot (s : Slot) : Json := .obj [("id", .ofNat s.id), ("is_const", .bool s.isConst)]

def toJson (r : LookupReport) : Json :=
  .obj [("class", .ofOption .ofPath r.classPath), ("global", .ofOption ofSlot r.global),
    ("id", .ofNat r.id), ("kind", .text r.kind.text),
    ("last_return_type", .ofOption ofConstraint r.lastReturnType), ("name", .text r.name),
    ("procs", .ofOption (fun ids => .arr (ids.map .ofNat)) r.procs),
    ("return_type", .ofOption ofConstraint r.returnType),
    ("variable", .ofOption VariableReport.toJson r.variableReport)]

def write (r : LookupReport) : String := r.toJson.indented

end LookupReport

namespace Hierarchy

/-- A variable counts as declared here if the class or an ancestor has an own variable of the name.
-/
def reportVariable (t : Hierarchy) (c : ClassId) (name : String) : Option VariableReport :=
  (t.findVar c name).map fun v => ⟨v.typePath, v.isConst, v.literal?, t.declaresInstanceVar c name⟩

/-- The last return type is only reported where the name means some procs. -/
def report (t : Hierarchy) (c : ClassId) (name : String) : LookupReport where
  classPath := (t.class? c).map (·.path)
  id := c
  kind := t.kind c
  name := name
  variableReport := t.reportVariable c name
  global := t.findGlobal c name
  procs := t.findProcs c name
  returnType := t.procReturnType c name
  lastReturnType := (t.findProcs c name).map fun _ => t.lastReturnType c name

end Hierarchy

end ClassTree
