import ClassTree.Proofs.Artifact.Lookup
import ClassTree.Proofs.Hierarchy.ProcUse
import ClassTree.Proofs.Hierarchy.Slots
/-!
What compiling a hierarchy gives: the records of all classes, procs and slots if nothing is wrong
with any of them and otherwise all problems, each once and in order.
-/

namespace ClassTree

/-! ### Problems -/

inductive InitialLiteral : Option Expr → Json → Prop
  | absent : InitialLiteral none .null
  | given {x : Expr} {j : Json} (h : x.toLiteral? = some j) : InitialLiteral (some x) j

inductive ValueProblem (value : Option Expr) (problem : BuildError) : List BuildError → Prop
  | literal {j : Json} (h : InitialLiteral value j) : ValueProblem value problem []
  | noLiteral (h : ∀ j, ¬ InitialLiteral value j) : ValueProblem value problem [problem]

inductive TypeProblem (t : Hierarchy) (path : TypePath) (v : Variable) : List BuildError → Prop
  | untyped (h : v.typePath = none) : TypeProblem t path v []
  | known {p : TypePath} {c : ClassId} {e : ClassEntry} (h : v.typePath = some p)
      (hc : t.class? c = some e) (hp : e.path = p) : TypeProblem t path v []
  | unknown {p : TypePath} (h : v.typePath = some p)
      (hn : ∀ c e, t.class? c = some e → e.path ≠ p) :
      TypeProblem t path v [.unknownTypePath path v.name p v.location]

inductive VariableProblems (t : Hierarchy) (path : TypePath) :
    List Variable → List BuildError → Prop
  | nil : VariableProblems t path [] []
  | cons {v : Variable} {vs : List Variable} {types values rest : List BuildError}
      (ht : TypeProblem t path v types)
      (hv : ValueProblem v.value (.unrepresentableValue path v.name v.location) values)
      (h : VariableProblems t path vs rest) :
      VariableProblems t path (v :: vs) (types ++ values ++ rest)

/-- The problems of slots that are numbered from some id on. -/
inductive SlotProblems : SlotId → List Slot → List BuildError → Prop
  | nil {k : SlotId} : SlotProblems k [] []
  | cons {k : SlotId} {s : Slot} {slots : List Slot} {values rest : List BuildError}
      (hv : ValueProblem s.value (.unrepresentableGlobal s.name k s.location) values)
      (h : SlotProblems (k + 1) slots rest) : SlotProblems k (s :: slots) (values ++ rest)

lemma initialLiteral?_eq_some_iff {x : Option Expr} {j : Json} :
    initialLiteral? x = some j ↔ InitialLiteral x j := by
  constructor
  · intro h
    cases x with
    | none => exact Option.some.inj h ▸ .absent
    | some x => exact .given h
  · rintro (_ | h)
    · rfl
    · exact h

lemma isSome_initialLiteral?_iff {x : Option Expr} :
    (initialLiteral? x).isSome = true ↔ ∃ j, InitialLiteral x j := by
  rw [Option.isSome_iff_exists]
  exact exists_congr fun j => initialLiteral?_eq_some_iff

lemma valueProblem (value : Option Expr) (problem : BuildError) :
    ValueProblem value problem (if (initialLiteral? value).isSome then [] else [problem]) := by
  split
  · next h =>
    obtain ⟨j, hj⟩ := isSome_initialLiteral?_iff.mp h
    exact .literal hj
  · next h => exact .noLiteral fun j hj => h (isSome_initialLiteral?_iff.mpr ⟨j, hj⟩)

lemma slotProblems {slots : List Slot} {k : SlotId}
    (h : ∀ i s, slots[i]? = some s → s.id = k + i) :
    SlotProblems k slots (slots.filterMap Slot.error?) := by
  induction slots generalizing k with
  | nil => exact .nil
  | cons s slots ih =>
    have hid : s.id = k := h 0 s rfl
    have hs := valueProblem s.value (.unrepresentableGlobal s.name k s.location)
    have hrest : SlotProblems (k + 1) slots (slots.filterMap Slot.error?) := by
      refine ih fun i s' hs' => ?_
      rw [h (i + 1) s' hs', Nat.add_assoc, Nat.add_comm 1]
    have herr : s.error? = if (initialLiteral? s.value).isSome then none
        else some (.unrepresentableGlobal s.name k s.location) := by
      rw [← hid]
      rfl
    rw [List.filterMap_cons, herr]
    split at hs
    · next hl => simpa [hl] using SlotProblems.cons hs hrest
    · next hl => simpa [hl] using SlotProblems.cons hs hrest

lemma getElem?_filterMap {α β : Type} {f : α → Option β} {l : List α}
    (h : ∀ x ∈ l, (f x).isSome = true) (i : Nat) : (l.filterMap f)[i]? = l[i]?.bind f := by
  induction l generalizing i with
  | nil => rfl
  | cons x l ih =>
    obtain ⟨y, hy⟩ := Option.isSome_iff_exists.mp (h x List.mem_cons_self)
    have ih := ih fun z hz => h z (List.mem_cons_of_mem x hz)
    rw [List.filterMap_cons, hy]
    cases i with
    | zero => exact hy.symm
    | succ i => exact ih i

/-! ### Records -/

lemma NamedVars.declared?_eq_some {e : ClassEntry} (h : NamedVars e.vars e.overrides) {n : String}
    {v : Variable} (hv : e.vars.get? n = some v ∨ e.overrides.get? n = some v) :
    e.declared? n = some v := by
  rw [ClassEntry.declared?]
  rcases hv with hv | hv
  · rw [hv, Option.some_or]
  · have hn : n ∉ e.vars.keys := fun hk =>
      h.disjoint n hk (List.mem_map_of_mem (OrderedMap.mem_entries_of_get? hv))
    rw [← OrderedMap.contains_iff_mem_keys, Bool.not_eq_true, ← OrderedMap.get?_eq_none_iff] at hn
    rw [hn, Option.none_or, hv]

lemma ClassEntry.keys_record (e : ClassEntry) (h : NamedVars e.vars e.overrides)
    (hl : ∀ v ∈ e.declarations, v.literal?.isSome = true) :
    (e.record.vars.getD .empty).keys = e.vars.keys ++ e.overrides.keys := by
  have hk : e.vars.keys ++ e.overrides.keys = e.declarations.map (·.name) := by
    rw [declarations, List.map_append, h.map_name_values, h.swap.map_name_values]
  rw [hk, record]
  dsimp only
  split
  · next hd => rw [List.isEmpty_iff.mp hd]; rfl
  · exact (entries_literals h hl).2

namespace Hierarchy

variable {t : Hierarchy} {a : Artifact} {c : ClassId} {e : ClassEntry} {r : ClassRecord}
  {es : List BuildError}

def classProblems (t : Hierarchy) (c : ClassId) : List BuildError :=
  match t.emitClass c with
  | .error (.build es) => es
  | _ => []

lemma Arena.variableErrors_eq (h : Arena t) (path : TypePath) (v : Variable) :
    ∃ types values, t.variableErrors path v = types ++ values ∧ TypeProblem t path v types ∧
      ValueProblem v.value (.unrepresentableValue path v.name v.location) values := by
  refine ⟨_, _, rfl, ?_, valueProblem v.value _⟩
  cases hp : v.typePath with
  | none => exact .untyped hp
  | some p =>
    dsimp only
    split
    · next hs =>
      obtain ⟨i, hi⟩ := Option.isSome_iff_exists.mp hs
      obtain ⟨e, he, hep⟩ := h.path.mp hi
      exact .known hp he hep
    · next hs =>
      refine .unknown hp fun c e hc hep => hs ?_
      rw [h.path.mpr ⟨e, hc, hep⟩]
      rfl

lemma Arena.variableProblems (h : Arena t) (path : TypePath) (vs : List Variable) :
    VariableProblems t path vs (vs.flatMap (t.variableErrors path)) := by
  induction vs with
  | nil => exact .nil
  | cons v vs ih =>
    obtain ⟨types, values, hv, htypes, hvalues⟩ := h.variableErrors_eq path v
    rw [List.flatMap_cons, hv]
    exact .cons htypes hvalues ih

/-! ### One class -/

lemma emitClass_of_class? (hc : t.class? c = some e) :
    t.emitClass c = if t.classErrors e = [] then .ok e.record
      else .error (.build (t.classErrors e)) := by
  rw [emitClass, tryClass, hc]
  dsimp only
  split
  · next h => rw [if_pos h]
  · next h => rw [if_neg h]

lemma emitClass_missing (hc : t.class? c = none) :
    t.emitClass c = .error (.hierarchy (.classNotFound c)) := by
  rw [emitClass, tryClass, hc]

lemma emitClass_eq_ok_iff : t.emitClass c = .ok r ↔
    ∃ e, t.class? c = some e ∧ t.classErrors e = [] ∧ e.record = r := by
  cases hc : t.class? c with
  | none => simp [emitClass_missing hc]
  | some e =>
    rw [emitClass_of_class? hc]
    split
    · next h => simp [h]
    · next h => simp [h]

lemma emitClass_eq_build_iff : t.emitClass c = .error (.build es) ↔
    ∃ e, t.class? c = some e ∧ t.classErrors e = es ∧ es ≠ [] := by
  cases hc : t.class? c with
  | none => simp [emitClass_missing hc]
  | some e =>
    rw [emitClass_of_class? hc]
    split
    · next h => simp [h, eq_comm]
    · next h =>
      simp only [Except.error.injEq, EmitError.build.injEq, Option.some.injEq, exists_eq_left']
      exact ⟨fun he => ⟨he, he ▸ h⟩, fun he => he.1⟩

lemma emitClass_eq_hierarchy {x : HierarchyError} (h : t.emitClass c = .error (.hierarchy x)) :
    t.class? c = none ∧ x = .classNotFound c := by
  cases hc : t.class? c with
  | none =>
    rw [emitClass_missing hc] at h
    cases h
    exact ⟨rfl, rfl⟩
  | some e =>
    rw [emitClass_of_class? hc] at h
    split at h <;> cases h

lemma exists_literal_of_classErrors (h : NamedVars e.vars e.overrides)
    (he : t.classErrors e = []) {n : String} {v : Variable}
    (hv : e.vars.get? n = some v ∨ e.overrides.get? n = some v) :
    ∃ j, InitialLiteral v.value j ∧ e.record.literal? n = some j := by
  have hl : ∀ v ∈ e.declarations, v.literal?.isSome = true :=
    fun v hv => isSome_literal?_of_classErrors he hv
  have hd := h.declared?_eq_some hv
  have hmem : v ∈ e.declarations :=
    List.mem_of_find?_eq_some ((ClassEntry.declared?_eq h n).symm.trans hd)
  obtain ⟨j, hj⟩ := Option.isSome_iff_exists.mp (hl v hmem)
  refine ⟨j, initialLiteral?_eq_some_iff.mp hj, ?_⟩
  rw [ClassEntry.literal?_record h hl, hd, Option.bind_some, hj]

lemma classProblems_of_class? (hc : t.class? c = some e) :
    t.classProblems c = t.classErrors e := by
  rw [classProblems, emitClass_of_class? hc]
  split
  · next h =>
    split at h
    · cases h
    · exact (EmitError.build.inj (Except.error.inj h)).symm
  · next h =>
    split at h
    · next hn => exact hn.symm
    · exact absurd rfl (h _)

/-! ### All classes -/

lemma flatMap_classProblems (t : Hierarchy) :
    (List.range t.classes.size).flatMap t.classProblems =
      t.classes.toList.flatMap t.classErrors := by
  rw [List.flatMap_def, List.flatMap_def]
  congr 1
  refine List.ext_getElem? fun c => ?_
  rw [List.getElem?_map, List.getElem?_map, getElem?_classes]
  cases hc : t.class? c with
  | none =>
    have hs : t.classes.size ≤ c := Array.getElem?_eq_none_iff.mp hc
    rw [List.getElem?_eq_none (by simpa using hs)]
    rfl
  | some e =>
    rw [List.getElem?_range (lt_size_of_class? hc), Option.map_some, Option.map_some,
      classProblems_of_class? hc]

lemma emit_eq_error_iff : t.emit = .error es ↔ t.buildErrors = es ∧ es ≠ [] := by
  rw [emit]
  split
  · next h => simp [h, eq_comm]
  · next h =>
    rw [Except.error.injEq]
    exact ⟨fun he => ⟨he, he ▸ h⟩, fun he => he.1⟩

lemma exists_emit_iff : (∃ a, t.emit = .ok a) ↔
    (∀ c e, t.class? c = some e → ∃ r, t.emitClass c = .ok r) ∧
      ∀ (k : SlotId) s, t.slots[k]? = some s → ∃ j, InitialLiteral s.value j := by
  rw [exists_emit_iff_buildErrors, buildErrors_eq_nil_iff]
  refine and_congr (forall_congr' fun c => forall₂_congr fun e hc => ?_)
    (forall_congr' fun k => forall₂_congr fun s hs => isSome_initialLiteral?_iff)
  simp [emitClass_eq_ok_iff, hc]

lemma slots_emit (h : SlotsBound t) (hok : t.emit = .ok a) {k : SlotId} {r : SlotRecord} :
    a.slots[k]? = some r ↔
      ∃ s j, t.slots[k]? = some s ∧ InitialLiteral s.value j ∧ r = ⟨k, s.name, s.isConst, j⟩ := by
  obtain ⟨hb, rfl⟩ := emit_eq_ok_iff.mp hok
  have hsome : ∀ s ∈ t.slots.toList, s.record?.isSome = true := by
    intro s hs
    obtain ⟨i, hi⟩ := Array.mem_iff_getElem?.mp (Array.mem_toList_iff.mp hs)
    rw [Slot.record?, Option.isSome_map, (buildErrors_eq_nil_iff.mp hb).2 i s hi]
  rw [getElem?_filterMap hsome, Array.getElem?_toList, Option.bind_eq_some_iff]
  refine exists_congr fun s => ?_
  rw [exists_and_left]
  refine and_congr_right fun hs => ?_
  rw [Slot.record?, Option.map_eq_some_iff, h.id hs]
  exact exists_congr fun j => and_congr initialLiteral?_eq_some_iff eq_comm

structure Emission (t : Hierarchy) : Prop where
  class_ok {c : ClassId} {r : ClassRecord} : t.emitClass c = .ok r → ∃ e, t.class? c = some e ∧
    VariableProblems t e.path (e.vars.values ++ e.overrides.values) [] ∧
    (r.vars.getD .empty).keys = e.vars.keys ++ e.overrides.keys ∧
    ∀ n v, e.vars.get? n = some v ∨ e.overrides.get? n = some v →
      ∃ j, InitialLiteral v.value j ∧ r.literal? n = some j
  class_problems {c : ClassId} {es : List BuildError} : t.emitClass c = .error (.build es) →
    es ≠ [] ∧ ∃ e, t.class? c = some e ∧
      VariableProblems t e.path (e.vars.values ++ e.overrides.values) es
  class_missing {c : ClassId} {x : HierarchyError} : t.emitClass c = .error (.hierarchy x) →
    t.class? c = none ∧ x = .classNotFound c
  ok_iff : (∃ a, t.emit = .ok a) ↔
    (∀ c e, t.class? c = some e → ∃ r, t.emitClass c = .ok r) ∧
      ∀ (k : SlotId) s, t.slots[k]? = some s → ∃ j, InitialLiteral s.value j
  classes {a : Artifact} : t.emit = .ok a →
    ∀ (c : ClassId) r, a.classes[c]? = some r ↔ t.emitClass c = .ok r
  procs {a : Artifact} : t.emit = .ok a → ∀ i : ProcId,
    a.procs[i]? = (t.registry.get? i).map fun p => ⟨i, p.owner, p.name, p.flags, p.returnType⟩
  slots {a : Artifact} : t.emit = .ok a → ∀ (k : SlotId) r, a.slots[k]? = some r ↔
    ∃ s j, t.slots[k]? = some s ∧ InitialLiteral s.value j ∧ r = ⟨k, s.name, s.isConst, j⟩
  problems {es : List BuildError} : t.emit = .error es → es ≠ [] ∧
    ∃ rest, SlotProblems 0 t.slots.toList rest ∧
      es = (List.range t.classes.size).flatMap t.classProblems ++ rest

theorem emission_of_reachable (h : Reachable t) : Emission t := by
  have ha := h.built.arena
  have hs := h.built.slotsBound
  refine ⟨?class_ok, ?class_problems, emitClass_eq_hierarchy, exists_emit_iff, ?classes, ?procs,
    fun hok k r => slots_emit hs hok, ?problems⟩
  case class_ok =>
    intro c r hr
    obtain ⟨e, hc, he, rfl⟩ := emitClass_eq_ok_iff.mp hr
    have hn := h.built.namedVars hc
    exact ⟨e, hc, he ▸ ha.variableProblems e.path e.declarations,
      e.keys_record hn fun v hv => isSome_literal?_of_classErrors he hv,
      fun n v hv => exists_literal_of_classErrors hn he hv⟩
  case class_problems =>
    intro c es hes
    obtain ⟨e, hc, rfl, hne⟩ := emitClass_eq_build_iff.mp hes
    exact ⟨hne, e, hc, ha.variableProblems e.path e.declarations⟩
  case classes =>
    intro a hok c r
    obtain ⟨hb, hclasses, -⟩ := eq_of_emit hok
    rw [hclasses, emitClass_eq_ok_iff, List.getElem?_map, getElem?_classes,
      Option.map_eq_some_iff]
    refine exists_congr fun e => and_congr_right fun hc => ?_
    exact (and_iff_right ((buildErrors_eq_nil_iff.mp hb).1 c e hc)).symm
  case procs =>
    intro a hok i
    rw [(eq_of_emit hok).2.2, List.getElem?_map, Array.getElem?_toList]
    refine Option.map_congr fun p hp => ?_
    rw [Proc.record, h.built.numbered i p hp]
  case problems =>
    intro es hes
    obtain ⟨rfl, hne⟩ := emit_eq_error_iff.mp hes
    have hslots : SlotProblems 0 t.slots.toList (t.slots.toList.filterMap Slot.error?) := by
      refine slotProblems fun i s hi => ?_
      rw [Array.getElem?_toList] at hi
      rw [hs.id hi, Nat.zero_add]
    exact ⟨hne, _, hslots, by rw [flatMap_classProblems, buildErrors]⟩

/-- A type that no class has, a value that only running the program gives, both at once on a later
class, and such a value of a slot; what stands between them is sound. -/
def faulty : List Call :=
  [.createClass .movable none,
    .declareVar 2 ⟨"loc", some .turf, false, some (.globalVar "tick"), .anything, .internal⟩,
    .declareOverride 1 ⟨"step", none, false, some (.globalVar "tick"), .anything, .internal⟩,
    .declareVar 1 ⟨"name", some .movable, false, some (.text "thing"), .anything, .internal⟩,
    .declareVar 1 ⟨"icon", some .mob, false, none, .anything, .internal⟩,
    .createGlobal 0 "tick" none false .anything, .createGlobal 0 "now" none false .anything,
    .setGlobalValue 1 (.globalVar "tick") .internal]

theorem emission_faulty : (bare.run faulty).buildErrors =
      [.unknownTypePath .atom "icon" .mob .internal, .unrepresentableValue .atom "step" .internal,
        .unknownTypePath .movable "loc" .turf .internal,
        .unrepresentableValue .movable "loc" .internal,
        .unrepresentableGlobal "now" 1 .internal] ∧
    Emission (bare.run faulty) :=
  ⟨by decide +kernel, emission_of_reachable (Reachable.bare.run faulty)⟩

end Hierarchy

end ClassTree
