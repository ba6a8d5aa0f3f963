import ClassTree.Proofs.Artifact.Emission
/-!
Which of the declared types compiling a hierarchy checks: those of the variables and the overrides
of all classes, wherever the class of the type was created, and those of no slot.
-/

namespace ClassTree

variable {t : Hierarchy} {c : ClassId} {e : ClassEntry} {v : Variable} {p path : TypePath}
  {n : String} {location : Location} {value : Option Expr} {problem : BuildError}
  {es : List BuildError}

def Hierarchy.HasPath (t : Hierarchy) (p : TypePath) : Prop :=
  ∃ c e, t.class? c = some e ∧ e.path = p

/-! ### Problems -/

lemma TypeProblem.eq_nil_iff (h : TypeProblem t path v es) :
    es = [] ↔ ∀ p, v.typePath = some p → t.HasPath p := by
  cases h with
  | untyped hv => exact iff_of_true rfl fun p hp => nomatch hv.symm.trans hp
  | @known q c e hv hc hq =>
    refine iff_of_true rfl fun p hp => ⟨c, e, hc, ?_⟩
    rw [hq, ← Option.some_inj, ← hv, hp]
  | @unknown q hv hq =>
    refine iff_of_false (List.cons_ne_nil _ _) fun hall => ?_
    obtain ⟨c, e, hc, he⟩ := hall q hv
    exact hq c e hc he

lemma TypeProblem.mem_iff (h : TypeProblem t path v es) {q : TypePath} :
    .unknownTypePath q n p location ∈ es ↔
      v.typePath = some p ∧ ¬ t.HasPath p ∧ path = q ∧ v.name = n ∧ v.location = location := by
  cases h with
  | untyped hv => simp [hv]
  | @known r c e hv hc hr =>
    refine iff_of_false List.not_mem_nil ?_
    rintro ⟨hp, hn, -⟩
    exact hn ⟨c, e, hc, hr.trans (Option.some.inj (hv.symm.trans hp))⟩
  | @unknown r hv hr =>
    have hn : ¬ t.HasPath r := fun ⟨c, e, hc, he⟩ => hr c e hc he
    rw [List.mem_singleton, BuildError.unknownTypePath.injEq, hv]
    constructor
    · rintro ⟨rfl, rfl, rfl, rfl⟩
      exact ⟨rfl, hn, rfl, rfl, rfl⟩
    · rintro ⟨hp, -, rfl, rfl, rfl⟩
      exact ⟨rfl, rfl, (Option.some.inj hp).symm, rfl⟩

lemma ValueProblem.eq_nil_iff (h : ValueProblem value problem es) :
    es = [] ↔ ∃ j, InitialLiteral value j := by
  cases h with
  | literal hj => exact iff_of_true rfl ⟨_, hj⟩
  | noLiteral hn => exact iff_of_false (List.cons_ne_nil _ _) fun ⟨j, hj⟩ => hn j hj

lemma ValueProblem.eq_of_mem (h : ValueProblem value problem es) {x : BuildError} (hx : x ∈ es) :
    x = problem := by
  cases h with
  | literal _ => cases hx
  | noLiteral _ => exact List.mem_singleton.mp hx

namespace Hierarchy

/-- A class declares the variable, as its own or as an override, with a type that is the path of no
class. -/
structure Dangling (t : Hierarchy) (c : ClassId) (e : ClassEntry) (v : Variable) (p : TypePath) :
    Prop where
  class_eq : t.class? c = some e
  declared : v ∈ e.vars.values ++ e.overrides.values
  typed : v.typePath = some p
  unknown : ¬ t.HasPath p

def retypeSlots (t : Hierarchy) (types : Slot → Option TypePath) : Hierarchy :=
  { t with slots := t.slots.map fun s => { s with typePath := types s } }

/-! ### Variables, classes, hierarchies -/

lemma Arena.variableErrors_eq_nil_iff (h : Arena t) : t.variableErrors path v = [] ↔
    (∀ p, v.typePath = some p → t.HasPath p) ∧ ∃ j, InitialLiteral v.value j := by
  obtain ⟨types, values, heq, htypes, hvalues⟩ := h.variableErrors_eq path v
  rw [heq, List.append_eq_nil_iff, htypes.eq_nil_iff, hvalues.eq_nil_iff]

lemma Arena.mem_variableErrors_iff (h : Arena t) {q : TypePath} :
    .unknownTypePath q n p location ∈ t.variableErrors path v ↔
      v.typePath = some p ∧ ¬ t.HasPath p ∧ path = q ∧ v.name = n ∧ v.location = location := by
  obtain ⟨types, values, heq, htypes, hvalues⟩ := h.variableErrors_eq path v
  rw [heq, List.mem_append, ← htypes.mem_iff]
  exact or_iff_left fun hx => nomatch hvalues.eq_of_mem hx

lemma Arena.classErrors_eq_nil_iff (h : Arena t) (hc : t.class? c = some e) :
    t.classErrors e = [] ↔ (∀ v p, ¬ t.Dangling c e v p) ∧
      ∀ v ∈ e.vars.values ++ e.overrides.values, ∃ j, InitialLiteral v.value j := by
  rw [classErrors, List.flatMap_eq_nil_iff]
  simp only [h.variableErrors_eq_nil_iff]
  constructor
  · exact fun hall => ⟨fun v p hd => hd.unknown ((hall v hd.declared).1 p hd.typed),
      fun v hv => (hall v hv).2⟩
  · rintro ⟨hd, hl⟩ v hv
    exact ⟨fun p hp => by_contra fun hn => hd v p ⟨hc, hv, hp, hn⟩, hl v hv⟩

lemma Arena.mem_classErrors_iff (h : Arena t) (hc : t.class? c = some e) :
    .unknownTypePath path n p location ∈ t.classErrors e ↔
      ∃ v, t.Dangling c e v p ∧ e.path = path ∧ v.name = n ∧ v.location = location := by
  rw [classErrors, List.mem_flatMap]
  simp only [h.mem_variableErrors_iff]
  constructor
  · rintro ⟨v, hv, hp, hn, heq⟩
    exact ⟨v, ⟨hc, hv, hp, hn⟩, heq⟩
  · rintro ⟨v, hd, heq⟩
    exact ⟨v, hd.declared, hd.typed, hd.unknown, heq⟩

lemma Arena.mem_buildErrors_iff (h : Arena t) :
    .unknownTypePath path n p location ∈ t.buildErrors ↔ ∃ c e v,
      t.Dangling c e v p ∧ e.path = path ∧ v.name = n ∧ v.location = location := by
  have hslots : .unknownTypePath path n p location ∉ t.slots.toList.filterMap Slot.error? := by
    intro hx
    obtain ⟨s, -, hs⟩ := List.mem_filterMap.mp hx
    rw [Slot.error?] at hs
    split at hs <;> cases hs
  rw [buildErrors, List.mem_append, or_iff_left hslots, List.mem_flatMap]
  constructor
  · rintro ⟨e, he, hx⟩
    obtain ⟨c, hc⟩ := List.mem_iff_getElem?.mp he
    rw [getElem?_classes] at hc
    exact ⟨c, e, (h.mem_classErrors_iff hc).mp hx⟩
  · rintro ⟨c, e, v, hd, heq⟩
    have hc : t.classes.toList[c]? = some e := (getElem?_classes t c).trans hd.class_eq
    exact ⟨e, List.mem_of_getElem? hc, (h.mem_classErrors_iff hd.class_eq).mpr ⟨v, hd, heq⟩⟩

lemma Arena.buildErrors_ne_nil (h : Arena t) (hd : t.Dangling c e v p) : t.buildErrors ≠ [] :=
  List.ne_nil_of_mem (h.mem_buildErrors_iff.mpr ⟨c, e, v, hd, rfl, rfl, rfl⟩)

lemma Arena.exists_emit_eq_error (h : Arena t) (hd : t.Dangling c e v p) :
    ∃ es, t.emit = .error es :=
  ⟨_, emit_eq_error_iff.mpr ⟨rfl, h.buildErrors_ne_nil hd⟩⟩

lemma Arena.classErrors_ne_nil (h : Arena t) (hd : t.Dangling c e v p) : t.classErrors e ≠ [] :=
  List.ne_nil_of_mem ((h.mem_classErrors_iff hd.class_eq).mpr ⟨v, hd, rfl, rfl, rfl⟩)

lemma Arena.exists_emit_iff_no_dangling (h : Arena t) : (∃ a, t.emit = .ok a) ↔
    (∀ c e v p, ¬ t.Dangling c e v p) ∧
      (∀ c e, t.class? c = some e →
        ∀ v ∈ e.vars.values ++ e.overrides.values, ∃ j, InitialLiteral v.value j) ∧
      ∀ (k : SlotId) s, t.slots[k]? = some s → ∃ j, InitialLiteral s.value j := by
  rw [exists_emit_iff_buildErrors, buildErrors_eq_nil_iff, ← and_assoc]
  refine and_congr ?_ (forall_congr' fun k => forall₂_congr fun s hs =>
    isSome_initialLiteral?_iff)
  constructor
  · exact fun he => ⟨fun c e v p hd => h.classErrors_ne_nil hd (he c e hd.class_eq),
      fun c e hc => ((h.classErrors_eq_nil_iff hc).mp (he c e hc)).2⟩
  · exact fun ⟨hd, hl⟩ c e hc => (h.classErrors_eq_nil_iff hc).mpr ⟨hd c e, hl c e hc⟩

/-! ### Declarations -/

lemma mem_values_insert {m : OrderedMap String Variable} (v : Variable) :
    v ∈ (m.insert v.name v).values := by
  refine List.mem_map_of_mem (OrderedMap.mem_entries_of_get? (k := v.name) ?_)
  rw [OrderedMap.get?_insert, beq_self_eq_true, if_pos rfl]

section

variable {t' : Hierarchy} (h : t.declareVar c v = .ok t' ∨ t.declareOverride c v = .ok t')

include h

lemma exists_perform_of_declares : ∃ call, (t.perform call).1 = t' := by
  rcases h with h | h
  · exact ⟨.declareVar c v, by rw [perform, h]; rfl⟩
  · exact ⟨.declareOverride c v, by rw [perform, h]; rfl⟩

lemma dangling_of_declares (hp : v.typePath = some p) (hn : ¬ t'.HasPath p) :
    ∃ e, t'.Dangling c e v p := by
  rcases h with h | h
  · obtain ⟨e, hc, -, rfl⟩ := declareVar_eq_ok_iff.mp h
    exact ⟨e.addVar v, class?_modifyClass_self hc _,
      List.mem_append_left _ (mem_values_insert v), hp, hn⟩
  · obtain ⟨e, hc, -, rfl⟩ := declareOverride_eq_ok_iff.mp h
    exact ⟨e.addOverride v, class?_modifyClass_self hc _,
      List.mem_append_right _ (mem_values_insert v), hp, hn⟩

end

/-! ### Slots -/

lemma buildErrors_retypeSlots (t : Hierarchy) (types : Slot → Option TypePath) :
    (t.retypeSlots types).buildErrors = t.buildErrors := by
  rw [buildErrors, buildErrors, retypeSlots, Array.toList_map, List.filterMap_map]
  rfl

lemma emit_retypeSlots (t : Hierarchy) (types : Slot → Option TypePath) :
    (t.retypeSlots types).emit = t.emit := by
  have hslots : (t.retypeSlots types).slots.toList.filterMap Slot.record? =
      t.slots.toList.filterMap Slot.record? := by
    rw [retypeSlots, Array.toList_map, List.filterMap_map]
    rfl
  rw [emit, emit, buildErrors_retypeSlots, hslots]
  rfl

/-- Compiling answers for the type of each declaration and does not look at that of any slot. -/
structure TypesChecked (t : Hierarchy) : Prop where
  known {a : Artifact} : t.emit = .ok a → ∀ c e, t.class? c = some e →
    ∀ v ∈ e.vars.values ++ e.overrides.values, ∀ p, v.typePath = some p → t.HasPath p
  refused {c : ClassId} {e : ClassEntry} {v : Variable} {p : TypePath} : t.Dangling c e v p →
    (∃ es, t.emit = .error es) ∧ ∃ es, t.emitClass c = .error (.build es)
  declared {t' : Hierarchy} {c : ClassId} {v : Variable} {p : TypePath} :
    t.declareVar c v = .ok t' ∨ t.declareOverride c v = .ok t' → v.typePath = some p →
      ¬ t'.HasPath p → ∃ e, t'.Dangling c e v p ∧ ∃ es, t'.emit = .error es
  reported {es : List BuildError} : t.emit = .error es → ∀ path n p location,
    .unknownTypePath path n p location ∈ es ↔
      ∃ c e v, t.Dangling c e v p ∧ e.path = path ∧ v.name = n ∧ v.location = location
  class_reported {c : ClassId} {es : List BuildError} : t.emitClass c = .error (.build es) →
    ∀ path n p location, .unknownTypePath path n p location ∈ es ↔
      ∃ e v, t.Dangling c e v p ∧ e.path = path ∧ v.name = n ∧ v.location = location
  ok_iff : (∃ a, t.emit = .ok a) ↔ (∀ c e v p, ¬ t.Dangling c e v p) ∧
    (∀ c e, t.class? c = some e →
      ∀ v ∈ e.vars.values ++ e.overrides.values, ∃ j, InitialLiteral v.value j) ∧
    ∀ (k : SlotId) s, t.slots[k]? = some s → ∃ j, InitialLiteral s.value j
  slots (types : Slot → Option TypePath) : (t.retypeSlots types).emit = t.emit

theorem typesChecked_of_reachable (h : Reachable t) : TypesChecked t := by
  have ha := h.built.arena
  refine ⟨?known, ?refused, ?declared, ?reported, ?class_reported,
    ha.exists_emit_iff_no_dangling, emit_retypeSlots t⟩
  case known =>
    intro a hok c e hc v hv p hp
    by_contra hn
    exact ha.buildErrors_ne_nil ⟨hc, hv, hp, hn⟩ (eq_of_emit hok).1
  case refused =>
    intro c e v p hd
    exact ⟨ha.exists_emit_eq_error hd,
      _, emitClass_eq_build_iff.mpr ⟨e, hd.class_eq, rfl, ha.classErrors_ne_nil hd⟩⟩
  case declared =>
    intro t' c v p hdecl hp hn
    obtain ⟨call, rfl⟩ := exists_perform_of_declares hdecl
    obtain ⟨e, hd⟩ := dangling_of_declares hdecl hp hn
    exact ⟨e, hd, (h.perform call).built.arena.exists_emit_eq_error hd⟩
  case reported =>
    intro es hes path n p location
    obtain ⟨rfl, -⟩ := emit_eq_error_iff.mp hes
    exact ha.mem_buildErrors_iff
  case class_reported =>
    intro c es hes path n p location
    obtain ⟨e, hc, rfl, -⟩ := emitClass_eq_build_iff.mp hes
    rw [ha.mem_classErrors_iff hc]
    constructor
    · exact fun ⟨v, hd, heq⟩ => ⟨e, v, hd, heq⟩
    · rintro ⟨e', v, hd, heq⟩
      obtain rfl := Option.some.inj (hc.symm.trans hd.class_eq)
      exact ⟨v, hd, heq⟩

/-- The type of the slot and that of the own variable have no class. That of the override gets its
class after the declaration. -/
def partlyTyped : List Call :=
  [.createClass .movable none, .createGlobal 0 "here" (some .area) false .anything,
    .declareVar 1 ⟨"loc", some .turf, false, none, .anything, .internal⟩,
    .declareOverride 2 ⟨"loc", some .mob, false, none, .anything, .internal⟩, .getOrCreate .mob]

theorem typesChecked_partlyTyped :
    (bare.run partlyTyped).buildErrors = [.unknownTypePath .atom "loc" .turf .internal] ∧
      TypesChecked (bare.run partlyTyped) :=
  ⟨by decide +kernel, typesChecked_of_reachable (Reachable.bare.run partlyTyped)⟩

/-- The only class is the root, and a slot is declared to hold an area. -/
def areaSlot : List Call := [.createGlobal 0 "here" (some .area) false .anything]

theorem exists_emit_areaSlot :
    Reachable (bare.run areaSlot) ∧ (∃ a, (bare.run areaSlot).emit = .ok a) ∧
      ((bare.run areaSlot).slots[0]?).map (·.typePath) = some (some .area) ∧
      ¬ (bare.run areaSlot).HasPath .area := by
  have hr := Reachable.bare.run areaSlot
  refine ⟨hr, exists_emit (by decide +kernel), by decide +kernel, ?_⟩
  rintro ⟨c, e, he⟩
  have hl := hr.built.arena.path.mpr ⟨e, he⟩
  have hn : (bare.run areaSlot).lookupPath .area = none := by decide +kernel
  rw [hn] at hl
  cases hl

end Hierarchy

end ClassTree
