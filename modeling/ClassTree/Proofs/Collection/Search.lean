import ClassTree.Proofs.Collection.Views
import Mathlib.Order.Bounds.Defs
/-!
Looking for a value in a range of a list. It is the same as looking for it in a copy of the range,
and what is found is the least position of the range at which the value stands.
-/

namespace ClassTree

/-! ### Parts of a list -/

namespace Span

variable {α : Type} [BEq α] {s : Span} {items : List α} {a : α} {i n : Nat}

/-- The positions in a part, counted from 1, at which a value stands. -/
def places (s : Span) (items : List α) (a : α) : Set Nat :=
  {n | s.first < n ∧ n ≤ s.last ∧ ∃ b, items[n - 1]? = some b ∧ b == a}

omit [BEq α] in
lemma getElem?_slice (s : Span) (items : List α) (i : Nat) :
    (s.slice items)[i]? = if s.first + i < s.last then items[s.first + i]? else none := by
  rw [slice, List.getElem?_drop, List.getElem?_take]

lemma mem_places_iff :
    n ∈ s.places items a ↔ ∃ i b, n = s.first + i + 1 ∧ (s.slice items)[i]? = some b ∧ b == a := by
  constructor
  · rintro ⟨hfirst, hlast, b, hb, hba⟩
    obtain ⟨i, rfl⟩ := Nat.exists_eq_add_of_lt hfirst
    refine ⟨i, b, rfl, ?_, hba⟩
    rw [getElem?_slice, if_pos (Nat.lt_of_succ_le hlast)]
    exact hb
  · rintro ⟨i, b, rfl, hb, hba⟩
    rw [getElem?_slice] at hb
    split at hb
    next hlt => exact ⟨by omega, hlt, b, hb, hba⟩
    next => cases hb

lemma exists_findIdx? (h : ∃ b ∈ s.slice items, b == a) :
    ∃ i, (s.slice items).findIdx? (· == a) = some i := by
  rw [← Option.isSome_iff_exists, List.findIdx?_isSome, List.any_eq_true]
  exact h

lemma find_of_findIdx? (h : (s.slice items).findIdx? (· == a) = some i) :
    s.find items a = s.first + i + 1 := by
  simp only [find, h]

lemma isLeast_find (h : ∃ b ∈ s.slice items, b == a) :
    IsLeast (s.places items a) (s.find items a) := by
  obtain ⟨i, hi⟩ := exists_findIdx? h
  obtain ⟨hlt, hia, hmin⟩ := List.findIdx?_eq_some_iff_getElem.mp hi
  rw [find_of_findIdx? hi]
  constructor
  · exact mem_places_iff.mpr ⟨i, _, rfl, List.getElem?_eq_getElem hlt, hia⟩
  · intro n hn
    obtain ⟨j, b, rfl, hj, hb⟩ := mem_places_iff.mp hn
    obtain ⟨hjlt, rfl⟩ := List.getElem?_eq_some_iff.mp hj
    have hij : i ≤ j := Nat.le_of_not_lt fun hji => hmin j hji hb
    omega

lemma places_eq_empty (h : ¬ ∃ b ∈ s.slice items, b == a) : s.places items a = ∅ := by
  refine Set.eq_empty_of_forall_notMem fun n hn => h ?_
  obtain ⟨i, b, -, hb, hba⟩ := mem_places_iff.mp hn
  exact ⟨b, List.mem_of_getElem? hb, hba⟩

/-- Positions in a part are those in the list, less what stands before the part. -/
lemma find_eq_add (h : ∃ b ∈ s.slice items, b == a) : s.find items a =
    s.first + (Span.mk 0 (s.slice items).length).find (s.slice items) a := by
  obtain ⟨i, hi⟩ := exists_findIdx? h
  rw [find_of_findIdx? hi, find_of_findIdx? (by rwa [slice_whole]), Nat.zero_add, Nat.add_assoc]

end Span

namespace IndexedList

variable {l c : IndexedList} {r : ListRange} {s : Span} {v : Value} {e : ListError}

/-! ### Ranges of a list -/

/-- The positions in a range at which an element counts as the value. -/
def occurrences (l : IndexedList) (v : Value) (r : ListRange) : Set Nat :=
  {n | r.start ≤ n ∧ (r.stop = 0 ∨ n < r.stop) ∧ ∃ w, l.values[n - 1]? = some w ∧ w == v}

lemma occurrences_eq_places (h : r.resolve l.size = .ok s) (v : Value) :
    l.occurrences v r = s.places l.values v := by
  obtain ⟨⟨hstart, -⟩, -, hfirst, hlast⟩ := ListRange.resolve_eq_ok_iff.mp h
  have hle := (ListRange.bounds_of_resolve h).2
  ext n
  constructor
  · rintro ⟨hn, hstop, w, hw, hwv⟩
    -- a range without a stop ends where the elements end
    have hlt : n - 1 < l.size := (List.getElem?_eq_some_iff.mp hw).1
    refine ⟨by omega, ?_, w, hw, hwv⟩
    split at hlast <;> omega
  · rintro ⟨hn, hstop, w, hw, hwv⟩
    refine ⟨by omega, ?_, w, hw, hwv⟩
    split at hlast <;> omega

lemma find_eq (l : IndexedList) (v : Value) (r : ListRange) :
    (Container.indexed l).find v r = (fun s => s.find l.values v) <$> r.resolve l.size := by
  have hn : ¬ (!r.isAll && !(Container.indexed l).isIndexableByNumber) = true := by
    rw [Container.isIndexableByNumber, Bool.not_true, Bool.and_false]
    exact Bool.false_ne_true
  have hsize : (Container.indexed l).size = l.size := rfl
  rw [Container.find, if_neg hn, hsize]
  cases r.resolve l.size <;> rfl

lemma find_of_resolve (h : r.resolve l.size = .ok s) (v : Value) :
    (Container.indexed l).find v r = .ok (s.find l.values v) := by
  rw [find_eq, h]
  rfl

lemma exists_of_copy_eq_ok (h : l.copy r = .ok c) :
    ∃ s, r.resolve l.size = .ok s ∧ l.keep (s.slice l.values) = c :=
  exists_of_map_eq_ok ((copy_eq l r).symm.trans h)

structure SearchesCopy (l : IndexedList) : Prop where
  refused {v : Value} {r : ListRange} {e : ListError} :
    (Container.indexed l).find v r = .error e ↔ l.copy r = .error e
  absent {v : Value} {r : ListRange} {c : IndexedList} : l.copy r = .ok c →
    ((Container.indexed l).find v r = .ok 0 ↔ ¬ c.Has v)
  present {v : Value} {r : ListRange} {c : IndexedList} : l.copy r = .ok c → c.Has v →
    ∃ n k, (Container.indexed l).find v r = .ok n ∧ (Container.indexed c).find v .all = .ok k ∧
      1 ≤ k ∧ (n : Int) = r.start - 1 + k ∧ IsLeast (l.occurrences v r) n
  nowhere {v : Value} {r : ListRange} {c : IndexedList} : l.copy r = .ok c → ¬ c.Has v →
    l.occurrences v r = ∅

theorem searchesCopy (l : IndexedList) : l.SearchesCopy := by
  constructor
  case refused =>
    intro v r e
    rw [find_eq, copy_eq, map_eq_error_iff, map_eq_error_iff]
  case absent =>
    intro v r c hc
    obtain ⟨s, hs, rfl⟩ := exists_of_copy_eq_ok hc
    rw [find_of_resolve hs, Except.ok.injEq]
    exact (not_iff_comm.mp Span.find_ne_zero_iff).symm
  case present =>
    intro v r c hc hv
    obtain ⟨s, hs, rfl⟩ := exists_of_copy_eq_ok hc
    have hfirst := (ListRange.resolve_eq_ok_iff.mp hs).2.2.1
    have hwhole := Container.find_all (.indexed (l.keep (s.slice l.values))) v
    refine ⟨s.find l.values v, _, find_of_resolve hs v, hwhole, ?_, ?_, ?_⟩
    · exact Nat.one_le_iff_ne_zero.mpr (Span.find_ne_zero_iff.mpr (by rwa [Span.slice_whole]))
    · rw [Span.find_eq_add hv, Int.natCast_add, hfirst]
      rfl
    · rw [occurrences_eq_places hs]
      exact Span.isLeast_find hv
  case nowhere =>
    intro v r c hc hv
    obtain ⟨s, hs, rfl⟩ := exists_of_copy_eq_ok hc
    rw [occurrences_eq_places hs]
    exact Span.places_eq_empty hv

/-- The value also stands before the range. -/
example :
    (Container.indexed (.ofValues [.text "a", .null, .text "a"])).find (.text "a") ⟨2, 0⟩ = .ok 3 ∧
      (Container.indexed (.ofValues [.null, .text "a"])).find (.text "a") .all = .ok 2 := by
  decide +kernel

end IndexedList

end ClassTree
