import ClassTree.Proofs.Artifact.Record
import ClassTree.Proofs.Declaration.Nesting
import ClassTree.Proofs.Hierarchy.Outline
/-!
An artifact can be read back: what compiling a declaration file gives nests no deeper than a reader
follows, and its text, compact or indented, is read as the artifact itself.
-/

namespace ClassTree

open Json (present AllPresent Readable idBound)

variable {n : Nat}

/-! ### Whole artifacts -/

namespace Artifact

variable {a : Artifact}

structure Sound (a : Artifact) : Prop where
  classes : ∀ r ∈ a.classes, r.Sound
  procs : ∀ r ∈ a.procs, r.id < idBound ∧ r.owner < idBound
  slots : ∀ r ∈ a.slots, r.id < idBound ∧ Literal r.value

def parts (a : Artifact) : List (String × Option Json) :=
  [("Types", some (.arr (a.classes.map ClassRecord.toJson))),
    ("Procs", some (.arr (a.procs.map ProcRecord.toJson))),
    ("Globals", some (.arr (a.slots.map SlotRecord.toJson)))]

lemma toJson_eq (a : Artifact) : a.toJson = .obj (present a.parts) := rfl

namespace Sound

variable (h : a.Sound)

include h

lemma readable : Readable a.toJson := by
  rw [toJson_eq]
  apply Readable.present
  exact .some (.arr_map fun r hr => (h.classes r hr).readable) <|
    .some (.arr_map fun r hr => ProcRecord.readable (h.procs r hr).1 (h.procs r hr).2) <|
    .some (.arr_map fun r hr => SlotRecord.readable (h.slots r hr).1 (h.slots r hr).2) .nil

lemma ofJson_toJson : ofJson a.toJson = .ok a := by
  have hn : (a.parts.map (·.1)).Nodup := by simp [parts]
  have hfields : a.toJson.recordFields ["Types", "Procs", "Globals"] = .ok (present a.parts) :=
    Json.recordFields_present hn
  have h₁ : Json.required (present a.parts) "Types" (Json.asList ClassRecord.ofJson) =
      .ok a.classes :=
    Json.required_present _ hn (by simp [parts])
      (Json.asList_map fun r hr => (h.classes r hr).ofJson_toJson)
  have h₂ : Json.required (present a.parts) "Procs" (Json.asList ProcRecord.ofJson) =
      .ok a.procs :=
    Json.required_present _ hn (by simp [parts])
      (Json.asList_map fun r hr => ProcRecord.ofJson_toJson (h.procs r hr).1 (h.procs r hr).2)
  have h₃ : Json.required (present a.parts) "Globals" (Json.asList SlotRecord.ofJson) =
      .ok a.slots :=
    Json.required_present _ hn (by simp [parts])
      (Json.asList_map fun r hr => SlotRecord.ofJson_toJson (h.slots r hr).1 (h.slots r hr).2)
  simp only [ofJson, hfields, h₁, h₂, h₃, bind, Except.bind]
  rfl

end Sound

end Artifact

/-! ### Compiled hierarchies -/

namespace Hierarchy

variable {t t' : Hierarchy} {a : Artifact} {c : ClassId} {e : ClassEntry}

structure DistinctNames (e : ClassEntry) : Prop where
  globals : e.globals.Distinct
  consts : e.constNames.elements.Nodup
  tmps : e.tmpNames.elements.Nodup

lemma Built.distinctNames (h : Built t) (hc : t.class? c = some e) : DistinctNames e := by
  apply h.forall_class (P := fun _ _ e => DistinctNames e) _ _ hc
  · intro t i p q
    exact ⟨.nil, .nil, .nil⟩
  · intro t t' i e e' _ _ _ hed hn
    cases hed with
    | addVar v => exact { hn with consts := OrderedSet.nodup_set hn.consts v.name v.isConst }
    | addOverride v => exact { hn with consts := OrderedSet.nodup_set hn.consts v.name v.isConst }
    | setTmp name on => exact { hn with tmps := OrderedSet.nodup_set hn.tmps name on }
    | bindGlobal name => exact { hn with globals := hn.globals.insert name _ }
    | _ => exact ⟨hn.globals, hn.consts, hn.tmps⟩

end Hierarchy

end ClassTree
