import ClassTree.Proofs.Collection.Lockstep
/-!
What a list tells of itself in different ways: its size, its elements, its pairs, whether and where
a value occurs, and what a key means. Which of its stores an answer comes from makes no difference.
-/

namespace ClassTree

lemma Span.find_whole {α : Type} [BEq α] (items : List α) (a : α) :
    (Span.mk 0 items.length).find items a ≠ 0 ↔ ∃ b ∈ items, b == a := by
  rw [find_ne_zero_iff, slice_whole]

namespace Container

variable {l : Container} {k v : Value} {x : Value × Value}

lemma map_fst_pairs (l : Container) : l.pairs.map (·.1) = l.values := by
  cases l with
  | indexed l => exact l.map_fst_pairs
  | keyed l => rfl

lemma length_pairs (l : Container) : l.pairs.length = l.size := by
  cases l with
  | indexed l => exact l.length_pairs
  | keyed l => rfl

lemma length_values (l : Container) : l.values.length = l.size := by
  rw [← map_fst_pairs, List.length_map, length_pairs]

lemma find_all (l : Container) (v : Value) :
    l.find v .all = .ok ((Span.mk 0 l.values.length).find l.values v) := by
  have hn : ¬ (!ListRange.all.isAll && !l.isIndexableByNumber) = true := Bool.false_ne_true
  rw [find, if_neg hn, ListRange.resolve_all, l.length_values]
  rfl

/-! ### What a key means -/

/-- Numbers are positions in lists indexed by number, and keys in the others. -/
def IsKey (l : Container) (k : Value) : Prop := l.isIndexableByNumber = true → k.isNum = false

lemma Sound.get_eq_lookup (h : l.Sound) (hk : l.IsKey k) : l.get k = lookup l.pairs k := by
  cases l with
  | indexed l => exact IndexedList.get_eq_lookup h (hk rfl)
  | keyed l => exact l.get_eq_lookup k

lemma Sound.get_of_mem_pairs (h : l.Sound) (hk : l.IsKey k) (hx : x ∈ l.pairs) (hxk : x.1 == k) :
    l.get k = .ok x.2 := by
  cases l with
  | indexed l =>
    obtain ⟨w, hw, rfl⟩ := List.mem_map.mp hx
    -- All elements that count as `k` share what `k` is associated with.
    rw [OrderedMap.get?_congr hxk]
    exact IndexedList.get_of_has (hk rfl) ⟨w, hw, hxk⟩
  | keyed l =>
    rw [get, KeyedList.get, ← OrderedMap.get?_congr hxk, OrderedMap.get?_of_mem_entries h hx]

lemma Sound.exists_get_iff (h : l.Sound) (hk : l.IsKey k) :
    (∃ v, l.get k = .ok v) ↔ l.contains k = true := by
  rw [contains_iff, ← map_fst_pairs]
  constructor
  · rintro ⟨v, hv⟩
    rw [h.get_eq_lookup hk, lookup] at hv
    cases hf : l.pairs.find? (·.1 == k) with
    | none =>
      rw [hf] at hv
      cases hv
    | some x =>
      exact ⟨x.1, List.mem_map_of_mem (List.mem_of_find?_eq_some hf),
        List.find?_some (p := fun x : Value × Value => x.1 == k) hf⟩
  · rintro ⟨w, hw, hwk⟩
    obtain ⟨x, hx, rfl⟩ := List.mem_map.mp hw
    exact ⟨x.2, h.get_of_mem_pairs hk hx hwk⟩

lemma Sound.contains_of_hasAssociated (h : l.Sound) (hk : l.hasAssociated k = true) :
    l.contains k = true := by
  cases l with
  | indexed l =>
    by_contra hc
    have hn : ¬ l.Has k := mt (contains_iff (indexed l) k).mpr hc
    rw [hasAssociated, IndexedList.hasAssociated, ← OrderedMap.isSome_get?,
      IndexedList.Sound.get?_associations h hn] at hk
    cases hk
  | keyed l => exact hk

/-! ### All views -/

structure ViewsAgree (l : Container) : Prop where
  length_values : l.values.length = l.size
  length_pairs : l.pairs.length = l.size
  map_fst_pairs : l.pairs.map (·.1) = l.values
  contains_iff (v : Value) : l.contains v = true ↔ ∃ w ∈ l.values, w == v
  contains_iff_find (v : Value) : l.contains v = true ↔ ∃ n, l.find v .all = .ok n ∧ n ≠ 0
  get_iff {k : Value} : l.IsKey k → ((∃ v, l.get k = .ok v) ↔ l.contains k = true)
  get_pair {k : Value} {x : Value × Value} :
    l.IsKey k → x ∈ l.pairs → x.1 == k → l.get k = .ok x.2
  associated {k : Value} : l.hasAssociated k = true → l.contains k = true
  associative {k : Value} : l.isIndexableByNumber = false → l.hasAssociated k = l.contains k

theorem viewsAgree_of_reachable (h : Reachable l) : ViewsAgree l where
  length_values := l.length_values
  length_pairs := l.length_pairs
  map_fst_pairs := l.map_fst_pairs
  contains_iff := l.contains_iff
  contains_iff_find v := by
    rw [l.find_all, l.contains_iff, ← Span.find_whole]
    simp
  get_iff := h.sound.exists_get_iff
  get_pair := h.sound.get_of_mem_pairs
  associated := h.sound.contains_of_hasAssociated
  associative {k} hl := by
    cases l with
    | indexed l => cases hl
    | keyed l => rfl

/-- A zero, a key that stands twice, and an element without a value. -/
def repeated : List ListCall :=
  [.add (.num (.zero true)), .set (.text "a") (.text "x") false, .add (.text "a"), .add .null]

theorem viewsAgree_repeated :
    ∃ l, (indexed (.ofValues [])).run repeated = l ∧ ViewsAgree l ∧
      l.pairs = [(.num (.zero true), .null), (.text "a", .text "x"), (.text "a", .text "x"),
        (.null, .null)] ∧
      l.contains (.num (.zero false)) = true ∧ l.get (.text "a") = .ok (.text "x") ∧
      l.get .null = .ok .null ∧ l.hasAssociated .null = false :=
  ⟨_, rfl, viewsAgree_of_reachable ((Reachable.indexed []).run repeated), by decide +kernel,
    by decide +kernel, by decide +kernel, by decide +kernel, by decide +kernel⟩

end Container

end ClassTree
