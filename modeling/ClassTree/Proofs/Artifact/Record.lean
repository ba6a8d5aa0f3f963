import ClassTree.Artifact
import ClassTree.Proofs.Artifact.Literal
/-!
The records of an artifact in JSON: each is read back, and nests no deeper than the literals in it
ask for.
-/

namespace ClassTree

open Json (present AllPresent Readable idBound)

variable {n : Nat}

/-! ### Flags and constraints -/

namespace ProcFlags

lemma readable (f : ProcFlags) : Readable f.toJson := .obj (by simp [fields, Readable.bool])

lemma ofJson_toJson (f : ProcFlags) : ofJson f.toJson = .ok f := rfl

end ProcFlags

namespace ValueConstraint

variable (c : ValueConstraint)

def parts : List (String × Option Json) :=
  [("flags", some (.ofNat c.flags.bits.toNat)), ("type_path", c.path.map .ofPath)]

lemma toJson_eq : c.toJson = .obj (present c.parts) := by
  rw [parts, Json.present_some, Json.present_map, Json.present_nil, List.append_nil]
  rfl

lemma readable : Readable c.toJson := by
  rw [toJson_eq]
  apply Readable.present
  exact .some (.ofNat c.flags.bits.toNat_lt) (.map (fun p _ => .text p.text) .nil)

lemma ofJson_toJson : ofJson c.toJson = .ok c := by
  have hn : (c.parts.map (·.1)).Nodup := by simp [parts]
  have hfields : c.toJson.recordFields ["flags", "type_path"] = .ok (present c.parts) := by
    rw [toJson_eq]
    exact Json.recordFields_present hn
  have hvalue : ValueType.ofJson (.ofNat c.flags.bits.toNat) = .ok c.flags := by
    rw [ValueType.ofJson, Json.asUInt32_ofNat]
    rfl
  have hflags : Json.required (present c.parts) "flags" ValueType.ofJson = .ok c.flags :=
    Json.required_present _ hn List.mem_cons_self hvalue
  have hpath : Json.optional (present c.parts) "type_path" Json.asPath = .ok c.path :=
    Json.optional_present .ofPath hn (by simp [parts]) nofun fun p _ => Json.asPath_ofPath p
  simp only [ofJson, hfields, hflags, hpath, bind, Except.bind]
  rfl

end ValueConstraint

/-! ### Procs and slots -/

namespace ProcRecord

variable (r : ProcRecord)

def parts : List (String × Option Json) :=
  [("Id", some (.ofNat r.id)), ("Owner", some (.ofNat r.owner)), ("Name", r.name.map .text),
    ("Attributes", some r.flags.toJson), ("ReturnType", r.returnType.map ValueConstraint.toJson)]

lemma toJson_eq : r.toJson = .obj (present r.parts) := by
  rw [parts, Json.present_some, Json.present_some, Json.present_map, Json.present_some,
    Json.present_map, Json.present_nil, List.append_nil, toJson]
  simp

variable {r}

variable (hid : r.id < idBound) (howner : r.owner < idBound)

include hid howner

lemma readable : Readable r.toJson := by
  rw [toJson_eq]
  apply Readable.present
  exact .some (.ofNat hid) <| .some (.ofNat howner) <| .map (fun s _ => .text s) <|
    .some r.flags.readable <| .map (fun c _ => c.readable) .nil

lemma ofJson_toJson : ofJson r.toJson = .ok r := by
  have hn : (r.parts.map (·.1)).Nodup := by simp [parts]
  have hfields : r.toJson.recordFields ["Id", "Owner", "Name", "Attributes", "ReturnType"] =
      .ok (present r.parts) := by
    rw [toJson_eq]
    exact Json.recordFields_present hn
  have h₁ : Json.required (present r.parts) "Id" Json.asNat32 = .ok r.id :=
    Json.required_present (.ofNat r.id) hn (by simp [parts]) (Json.asNat32_ofNat hid)
  have h₂ : Json.required (present r.parts) "Owner" Json.asNat32 = .ok r.owner :=
    Json.required_present (.ofNat r.owner) hn (by simp [parts]) (Json.asNat32_ofNat howner)
  have h₃ : Json.optional (present r.parts) "Name" Json.asText = .ok r.name :=
    Json.optional_present .text hn (by simp [parts]) nofun fun _ _ => rfl
  have h₄ : Json.required (present r.parts) "Attributes" ProcFlags.ofJson = .ok r.flags :=
    Json.required_present r.flags.toJson hn (by simp [parts]) r.flags.ofJson_toJson
  have h₅ : Json.optional (present r.parts) "ReturnType" ValueConstraint.ofJson =
      .ok r.returnType :=
    Json.optional_present ValueConstraint.toJson hn (by simp [parts]) nofun
      fun c _ => c.ofJson_toJson
  simp only [ofJson, hfields, h₁, h₂, h₃, h₄, h₅, bind, Except.bind]
  rfl

end ProcRecord

namespace SlotRecord

variable {r : SlotRecord}

def parts (r : SlotRecord) : List (String × Option Json) :=
  [("Id", some (.ofNat r.id)), ("Name", some (.text r.name)), ("IsConst", some (.bool r.isConst)),
    ("Value", some r.value)]

lemma toJson_eq (r : SlotRecord) : r.toJson = .obj (present r.parts) := rfl

variable (hid : r.id < idBound) (hvalue : Literal r.value)

include hid hvalue

lemma readable : Readable r.toJson := by
  rw [toJson_eq]
  apply Readable.present
  exact .some (.ofNat hid) <| .some (.text r.name) <| .some (.bool r.isConst) <|
    .some hvalue.readable .nil

lemma ofJson_toJson : ofJson r.toJson = .ok r := by
  have hn : (r.parts.map (·.1)).Nodup := by simp [parts]
  have hfields : r.toJson.recordFields ["Id", "Name", "IsConst", "Value"] =
      .ok (present r.parts) := Json.recordFields_present hn
  have h₁ : Json.required (present r.parts) "Id" Json.asNat32 = .ok r.id :=
    Json.required_present (.ofNat r.id) hn (by simp [parts]) (Json.asNat32_ofNat hid)
  have h₂ : Json.required (present r.parts) "Name" Json.asText = .ok r.name :=
    Json.required_present (.text r.name) hn (by simp [parts]) rfl
  have h₃ : Json.required (present r.parts) "IsConst" Json.asBool = .ok r.isConst :=
    Json.required_present (.bool r.isConst) hn (by simp [parts]) rfl
  have h₄ : Json.required (present r.parts) "Value" Json.asAny = .ok r.value :=
    Json.required_present r.value hn (by simp [parts]) hvalue.asAny_eq_ok
  simp only [ofJson, hfields, h₁, h₂, h₃, h₄, bind, Except.bind]
  rfl

end SlotRecord

/-! ### Classes -/

namespace ClassRecord

variable {r : ClassRecord}

def parts (r : ClassRecord) : List (String × Option Json) :=
  [("Path", some (.text r.path)), ("Parent", r.parent.map .ofNat),
    ("Variables", r.vars.map (.ofMap id)), ("GlobalVariables", r.globals.map (.ofMap .ofNat)),
    ("ConstVariables", r.constNames.map .ofSet), ("TmpVariables", r.tmpNames.map .ofSet),
    ("InitProc", r.initializer.map .ofNat),
    ("Procs", r.procs.map fun groups => .arr (groups.map ofIds)), ("Verbs", r.verbs.map ofIds)]

lemma toJson_eq (r : ClassRecord) : r.toJson = .obj (present r.parts) := by
  simp only [toJson, parts, Json.present_some, Json.present_map, Json.present_nil,
    List.append_assoc, List.cons_append, List.nil_append, List.append_nil]

/-- What is read back of a record: ids that are words, literals, and maps and sets that hold no key
twice. -/
structure Sound (r : ClassRecord) : Prop where
  parent : ∀ c ∈ r.parent, c < idBound
  vars : ∀ m ∈ r.vars, m.Distinct ∧ ∀ x ∈ m.entries, Literal x.2
  globals : ∀ m ∈ r.globals, m.Distinct ∧ ∀ x ∈ m.entries, x.2 < idBound
  constNames : ∀ s ∈ r.constNames, s.elements.Nodup
  tmpNames : ∀ s ∈ r.tmpNames, s.elements.Nodup
  initializer : ∀ i ∈ r.initializer, i < idBound
  procs : ∀ groups ∈ r.procs, ∀ ids ∈ groups, ∀ i ∈ ids, i < idBound
  verbs : ∀ ids ∈ r.verbs, ∀ i ∈ ids, i < idBound

lemma readable_ofIds {ids : List Nat} (h : ∀ i ∈ ids, i < idBound) : Readable (ofIds ids) :=
  .arr_map fun i hi => .ofNat (h i hi)

lemma asList_ofIds {ids : List Nat} (h : ∀ i ∈ ids, i < idBound) :
    (ofIds ids).asList Json.asNat32 = .ok ids :=
  Json.asList_map fun i hi => Json.asNat32_ofNat (h i hi)

namespace Sound

variable (h : r.Sound)

include h

lemma readable : Readable r.toJson := by
  rw [toJson_eq]
  apply Readable.present
  exact .some (.text r.path) <| .map (fun c hc => .ofNat (h.parent c hc)) <|
    .map (fun m hm => .ofMap fun x hx => ((h.vars m hm).2 x hx).readable) <|
    .map (fun m hm => .ofMap fun x hx => .ofNat ((h.globals m hm).2 x hx)) <|
    .map (fun s _ => .arr_map fun n _ => .text n) <|
    .map (fun s _ => .arr_map fun n _ => .text n) <|
    .map (fun i hi => .ofNat (h.initializer i hi)) <|
    .map (fun groups hg => .arr_map fun ids hi => readable_ofIds (h.procs groups hg ids hi)) <|
    .map (fun ids hi => readable_ofIds (h.verbs ids hi)) .nil

lemma ofJson_toJson : ofJson r.toJson = .ok r := by
  have hn : (r.parts.map (·.1)).Nodup := by simp [parts]
  have hfields : r.toJson.recordFields keys = .ok (present r.parts) := by
    rw [toJson_eq]
    exact Json.recordFields_present hn
  have h₁ : Json.required (present r.parts) "Path" Json.asText = .ok r.path :=
    Json.required_present (.text r.path) hn (by simp [parts]) rfl
  have h₂ : Json.optional (present r.parts) "Parent" Json.asNat32 = .ok r.parent :=
    Json.optional_present .ofNat hn (by simp [parts]) nofun
      fun c hc => Json.asNat32_ofNat (h.parent c hc)
  have h₃ : Json.optional (present r.parts) "Variables" (Json.asMap Json.asAny) = .ok r.vars :=
    Json.optional_present (.ofMap id) hn (by simp [parts]) nofun fun m hm =>
      Json.asMap_ofMap (h.vars m hm).1 fun x hx => ((h.vars m hm).2 x hx).asAny_eq_ok
  have h₄ : Json.optional (present r.parts) "GlobalVariables" (Json.asMap Json.asNat32) =
      .ok r.globals :=
    Json.optional_present (.ofMap .ofNat) hn (by simp [parts]) nofun fun m hm =>
      Json.asMap_ofMap (h.globals m hm).1 fun x hx => Json.asNat32_ofNat ((h.globals m hm).2 x hx)
  have h₅ : Json.optional (present r.parts) "ConstVariables" Json.asSet = .ok r.constNames :=
    Json.optional_present .ofSet hn (by simp [parts]) nofun
      fun s hs => Json.asSet_ofSet (h.constNames s hs)
  have h₆ : Json.optional (present r.parts) "TmpVariables" Json.asSet = .ok r.tmpNames :=
    Json.optional_present .ofSet hn (by simp [parts]) nofun
      fun s hs => Json.asSet_ofSet (h.tmpNames s hs)
  have h₇ : Json.optional (present r.parts) "InitProc" Json.asNat32 = .ok r.initializer :=
    Json.optional_present .ofNat hn (by simp [parts]) nofun
      fun i hi => Json.asNat32_ofNat (h.initializer i hi)
  have h₈ : Json.optional (present r.parts) "Procs" (Json.asList (Json.asList Json.asNat32)) =
      .ok r.procs :=
    Json.optional_present (fun groups => .arr (groups.map ofIds)) hn (by simp [parts]) nofun
      fun groups hg => Json.asList_map fun ids hi => asList_ofIds (h.procs groups hg ids hi)
  have h₉ : Json.optional (present r.parts) "Verbs" (Json.asList Json.asNat32) = .ok r.verbs :=
    Json.optional_present ofIds hn (by simp [parts]) nofun
      fun ids hi => asList_ofIds (h.verbs ids hi)
  simp only [ofJson, hfields, h₁, h₂, h₃, h₄, h₅, h₆, h₇, h₈, h₉, bind, Except.bind]
  rfl

end Sound

end ClassRecord

end ClassTree
