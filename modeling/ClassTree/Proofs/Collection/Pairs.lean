import ClassTree.Proofs.Collection.Association
import ClassTree.Proofs.Collection.Ranges
/-!
An indexed list as the sequence of its elements, each paired with what it is associated with. Cutting,
copying and removing act on the pairs, however often a key occurs and wherever a range ends.
-/

namespace ClassTree.IndexedList

variable {l m : IndexedList} {r : ListRange} {s : Span} {v : Value}

/-! ### Fewer elements -/

lemma get?_keep {values : List Value} (h : values.contains v = true) :
    (l.keep values).associations.get? v = l.associations.get? v := by
  rw [keep, OrderedMap.get?_filterKeys fun a b => contains_congr values, if_pos h]

lemma pairs_keep (l : IndexedList) (values : List Value) :
    (l.keep values).pairs = values.map fun v => (v, (l.associations.get? v).getD .null) := by
  refine List.map_congr_left fun v hv => ?_
  have hc : values.contains v = true := contains_iff_exists_beq.mpr ⟨v, hv, BEq.rfl⟩
  rw [get?_keep hc]

lemma hasAssociated_keep {values : List Value} (h : ∃ w ∈ values, w == v) :
    (l.keep values).hasAssociated v = l.hasAssociated v := by
  rw [hasAssociated, hasAssociated, ← OrderedMap.isSome_get?, ← OrderedMap.isSome_get?,
    get?_keep (contains_iff_exists_beq.mpr h)]

lemma pairs_keep_slice (l : IndexedList) (s : Span) :
    (l.keep (s.slice l.values)).pairs = (l.pairs.take s.last).drop s.first := by
  rw [pairs_keep, Span.slice, List.map_drop, List.map_take]
  rfl

lemma pairs_keep_without (l : IndexedList) (s : Span) :
    (l.keep (s.without l.values)).pairs = l.pairs.take s.first ++ l.pairs.drop s.last := by
  rw [pairs_keep, Span.without, List.map_append, List.map_take, List.map_drop]
  rfl

/-! ### One element less -/

/-- What is released is no element, so no pair shows it. -/
lemma pairs_release (h : l.associations.Distinct) (v : Value) : (l.release v).pairs = l.pairs := by
  unfold release
  split
  · rfl
  · next hv =>
    refine List.map_congr_left fun w hw => ?_
    have hvw : ¬ v == w := fun hvw =>
      hv (contains_iff_exists_beq.mpr ⟨w, hw, BEq.symm hvw⟩)
    rw [OrderedMap.get?_erase h, if_neg hvw]

lemma remove_of_not_has (hv : ¬ l.Has v) : l.remove v = (l, false) := by
  have hi : l.values.findIdx? (· == v) = none :=
    List.findIdx?_eq_none_iff.mpr fun w hw => Bool.eq_false_iff.mpr fun hwv => hv ⟨w, hw, hwv⟩
  simp only [remove, hi]

lemma release_congr {w : Value} (h : w == v) : l.release w = l.release v := by
  have he : l.associations.erase w = l.associations.erase v := by
    simp only [OrderedMap.erase, BEq.congr_right h]
  rw [release, release, contains_congr l.values h, he]

lemma remove_of_has (hv : l.Has v) : l.remove v =
    ((⟨l.values.eraseP (· == v), l.associations⟩ : IndexedList).release v, true) := by
  obtain ⟨i, hi⟩ : ∃ i, l.values.findIdx? (· == v) = some i := by
    rw [← Option.isSome_iff_exists, List.findIdx?_isSome, List.any_eq_true]
    exact hv
  obtain ⟨hlt, hiv, -⟩ := List.findIdx?_eq_some_iff_getElem.mp hi
  simp only [remove, hi, List.getElem?_eq_getElem hlt, release_congr hiv, List.eraseP_eq_eraseIdx]

lemma snd_remove : (l.remove v).2 = true ↔ l.Has v := by
  by_cases hv : l.Has v
  · simp only [remove_of_has hv, hv]
  · simp only [remove_of_not_has hv, hv, Bool.false_eq_true]

lemma pairs_remove (h : l.associations.Distinct) (v : Value) :
    (l.remove v).1.pairs = l.pairs.eraseP (·.1 == v) := by
  by_cases hv : l.Has v
  · rw [remove_of_has hv]
    refine (pairs_release (by exact h) v).trans ?_
    rw [pairs, pairs, List.eraseP_map]
    rfl
  · rw [remove_of_not_has hv, List.eraseP_of_forall_not]
    intro x hx hxv
    obtain ⟨w, hw, rfl⟩ := List.mem_map.mp hx
    exact hv ⟨w, hw, hxv⟩

/-! ### The sequence -/

structure ActsOnPairs (l : IndexedList) : Prop where
  refuse {r : ListRange} {e : ListError} : r.resolve l.size = .error e →
    l.cut r = .error e ∧ l.copy r = .error e
  accept {r : ListRange} {a b : Nat} : r.resolve l.size = .ok ⟨a, b⟩ → a ≤ b ∧ b ≤ l.size ∧
    ∃ rest part, l.cut r = .ok rest ∧ l.copy r = .ok part ∧
      rest.pairs = l.pairs.take a ++ l.pairs.drop b ∧ part.pairs = (l.pairs.take b).drop a ∧
      (∀ v, rest.Has v → rest.hasAssociated v = l.hasAssociated v) ∧
      ∀ v, part.Has v → part.hasAssociated v = l.hasAssociated v
  remove (v : Value) : ((l.remove v).2 = true ↔ l.Has v) ∧
    (l.remove v).1.pairs = l.pairs.eraseP (·.1 == v)
  absent {v : Value} : ¬ l.Has v → (l.remove v).1 = l

theorem actsOnPairs_of_reachable (h : Container.Reachable (.indexed l)) : ActsOnPairs l := by
  have hs : l.Sound := h.sound
  constructor
  case refuse =>
    intro r e he
    rw [cut_eq, copy_eq, he]
    exact ⟨rfl, rfl⟩
  case accept =>
    intro r a b hr
    obtain ⟨hab, hb⟩ := ListRange.bounds_of_resolve hr
    refine ⟨hab, hb, l.keep (Span.without ⟨a, b⟩ l.values), l.keep (Span.slice ⟨a, b⟩ l.values),
      ?_, ?_, pairs_keep_without l ⟨a, b⟩, pairs_keep_slice l ⟨a, b⟩, fun v => hasAssociated_keep,
      fun v => hasAssociated_keep⟩
    · rw [cut_eq, hr]
      rfl
    · rw [copy_eq, hr]
      rfl
  case remove =>
    intro v
    exact ⟨snd_remove, pairs_remove hs.distinct v⟩
  case absent =>
    intro v hv
    rw [remove_of_not_has hv]

/-- One key stands in the range and once more behind it. -/
def straddling : List ListCall :=
  [.add (.text "a"), .add (.text "b"), .add (.text "a"), .add .null,
    .set (.text "a") (.text "x") false, .set (.text "b") (.text "y") false]

theorem actsOnPairs_straddling :
    ∃ l rest part, (Container.indexed (.ofValues [])).run straddling = .indexed l ∧
      ActsOnPairs l ∧ l.cut ⟨1, 3⟩ = .ok rest ∧ l.copy ⟨1, 3⟩ = .ok part ∧
      rest.pairs = [(.text "a", .text "x"), (.null, .null)] ∧
      part.pairs = [(.text "a", .text "x"), (.text "b", .text "y")] := by
  have hl : (Container.indexed (.ofValues [])).run straddling =
      .indexed ⟨[.text "a", .text "b", .text "a", .null],
        ⟨[(.text "a", .text "x"), (.text "b", .text "y")]⟩⟩ := by decide +kernel
  have hr := (Container.Reachable.indexed []).run straddling
  rw [hl] at hr
  have h := actsOnPairs_of_reachable hr
  have hs : (⟨1, 3⟩ : ListRange).resolve 4 = .ok ⟨0, 2⟩ := rfl
  obtain ⟨-, -, rest, part, hrest, hpart, hrest', hpart', -⟩ := h.accept hs
  exact ⟨_, rest, part, hl, h, hrest, hpart, hrest', hpart'⟩

end ClassTree.IndexedList
