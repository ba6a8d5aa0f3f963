import ClassTree.Collection.Basic
import Mathlib.Tactic.Lemma
/-!
Parts of a list, and which of them the ranges of positions are.
-/

namespace ClassTree

namespace Span

variable {α : Type}

lemma ext_iff {s t : Span} : s = t ↔ s.first = t.first ∧ s.last = t.last := by
  cases s
  cases t
  rw [Span.mk.injEq]

lemma slice_whole (items : List α) : (Span.mk 0 items.length).slice items = items := by
  rw [slice, List.take_length, List.drop_zero]

lemma find_ne_zero_iff [BEq α] {s : Span} {items : List α} {a : α} :
    s.find items a ≠ 0 ↔ ∃ b ∈ s.slice items, b == a := by
  rw [find, ← List.any_eq_true, ← List.findIdx?_isSome]
  cases (s.slice items).findIdx? (· == a) with
  | none => simp
  | some i => simp

end Span

namespace ListRange

variable {r : ListRange} {length : Nat} {s : Span} {e : ListError}

/-- What a range comes to in a list of some length. -/
inductive Resolved (r : ListRange) (length : Nat) : Except ListError Span → Prop
  | badStart (hs : ¬ (1 ≤ r.start ∧ r.start ≤ length + 1)) :
    Resolved r length (.error (.indexOutOfRange r.start length))
  | badStop (hs : 1 ≤ r.start ∧ r.start ≤ length + 1) (hz : r.stop ≠ 0)
    (ht : ¬ (r.start ≤ r.stop ∧ r.stop ≤ length + 1)) :
    Resolved r length (.error (.indexOutOfRange r.stop length))
  | toEnd {s : Span} (hz : r.stop = 0) (ha : r.start = s.first + 1) (hb : s.last = length)
    (hl : s.first ≤ s.last) : Resolved r length (.ok s)
  | toStop {s : Span} (ha : r.start = s.first + 1) (hb : r.stop = s.last + 1)
    (hl : s.first ≤ s.last) (hlen : s.last ≤ length) : Resolved r length (.ok s)

lemma resolved_resolve (r : ListRange) (length : Nat) : Resolved r length (r.resolve length) := by
  simp only [resolve]
  split
  · exact .badStart (by omega)
  · by_cases hz : r.stop = 0
    · rw [if_pos hz, if_neg (by omega)]
      apply Resolved.toEnd hz <;> dsimp only <;> omega
    · simp only [if_neg hz]
      split
      · exact .badStop (by omega) hz (by omega)
      · apply Resolved.toStop <;> dsimp only <;> omega

lemma bounds_of_resolve (h : r.resolve length = .ok s) : s.first ≤ s.last ∧ s.last ≤ length := by
  have hr := resolved_resolve r length
  rw [h] at hr
  cases hr with
  | toEnd _ _ hb hl => exact ⟨hl, Nat.le_of_eq hb⟩
  | toStop _ _ hl hlen => exact ⟨hl, hlen⟩

lemma resolve_eq_ok_iff : r.resolve length = .ok s ↔
    (1 ≤ r.start ∧ r.start ≤ length + 1) ∧
      (r.stop = 0 ∨ (r.start ≤ r.stop ∧ r.stop ≤ length + 1)) ∧
      s.first = r.start - 1 ∧ s.last = if r.stop = 0 then (length : Int) else r.stop - 1 := by
  have hr := resolved_resolve r length
  generalize r.resolve length = x at hr
  cases hr with
  | badStart hs => exact iff_of_false nofun fun h => hs h.1
  | badStop hs hz ht => exact iff_of_false nofun fun h => ht (h.2.1.resolve_left hz)
  | toEnd hz ha hb hl =>
    rw [if_pos hz, Except.ok.injEq, Span.ext_iff]
    omega
  | toStop ha hb hl hlen =>
    rw [if_neg (by omega), Except.ok.injEq, Span.ext_iff]
    omega

lemma resolve_eq_error_iff : r.resolve length = .error e ↔
    (¬ (1 ≤ r.start ∧ r.start ≤ length + 1) ∧ e = .indexOutOfRange r.start length) ∨
      ((1 ≤ r.start ∧ r.start ≤ length + 1) ∧ r.stop ≠ 0 ∧
        ¬ (r.start ≤ r.stop ∧ r.stop ≤ length + 1) ∧ e = .indexOutOfRange r.stop length) := by
  have hr := resolved_resolve r length
  generalize r.resolve length = x at hr
  cases hr with
  | badStart hs =>
    rw [Except.error.injEq, eq_comm, and_iff_right hs, or_iff_left fun h => hs h.1]
  | badStop hs hz ht =>
    rw [Except.error.injEq, eq_comm, or_iff_right fun h => h.1 hs, and_iff_right hs,
      and_iff_right hz, and_iff_right ht]
  | toEnd hz ha hb hl => exact iff_of_false nofun fun h => by omega
  | toStop ha hb hl hlen => exact iff_of_false nofun fun h => by omega

lemma resolve_all (length : Nat) : all.resolve length = .ok ⟨0, length⟩ :=
  resolve_eq_ok_iff.mpr ⟨by simp only [all]; omega, .inl rfl, by simp [all]⟩

end ListRange

end ClassTree
