import ClassTree.Proofs.Decimal.Rounding
/-!
Which whole number a double is. A whole number that is a double is its own rounding, and neither the
sign of a zero nor the choice of a not-a-number matters.
-/

namespace ClassTree.Binary64

variable {x : Binary64} {n : Int}

lemma toInt?_eq_some_iff : x.toInt? = some n ↔ x.isFinite = true ∧ x.units = n.natAbs * one ∧
    n = if x.negative then -(n.natAbs : Int) else n.natAbs := by
  rw [toInt?]
  constructor
  · intro h
    split at h
    · next hx =>
      have hn := Option.some.inj h
      have hu := Nat.div_mul_cancel (Nat.dvd_of_mod_eq_zero hx.2)
      have habs : n.natAbs = x.units / one := by
        generalize x.units / one = k at hn ⊢
        split at hn <;> omega
      rw [habs]
      exact ⟨hx.1, hu.symm, hn.symm⟩
    · cases h
  · rintro ⟨hf, hu, hn⟩
    rw [hu, Nat.mul_mod_left, Nat.mul_div_cancel _ one_pos, if_pos ⟨hf, rfl⟩, ← hn]

lemma ofInt_eq (h : x.toInt? = some n) : ofInt n = ⟨decide (n < 0), x.rank⟩ := by
  obtain ⟨hf, hu, -⟩ := toInt?_eq_some_iff.mp h
  have hr : nearestRank (n.natAbs * one) 1 = x.rank := by
    rw [← hu, ← Nat.mul_one x.units]
    exact nearestRank_units Nat.one_pos _
  rw [ofInt, ofRatio, hr, ofRank, dif_pos (of_decide_eq_true hf)]

/-- Only the sign of zero gets lost. -/
lemma canonical_ofInt (h : x.toInt? = some n) : (ofInt n).canonical = x.canonical := by
  obtain ⟨hf, hu, hn⟩ := toInt?_eq_some_iff.mp h
  rw [ofInt_eq h, canonical, canonical]
  by_cases h0 : x.rank.val = 0
  · simp [isNaN, isZero, h0]
  · have hneg : decide (n < 0) = x.negative := by
      have hpos : 0 < n.natAbs * one := by
        rw [← hu, units]
        exact Nat.lt_of_le_of_lt (Nat.zero_le _) (unitsOfRank_pos (Nat.pos_of_ne_zero h0))
      have hpos := Nat.pos_of_mul_pos_right hpos
      split at hn
      · next hx =>
        rw [hx, decide_eq_true_iff]
        omega
      · next hx =>
        rw [Bool.not_eq_true _ |>.mp hx, decide_eq_false_iff_not]
        omega
    rw [hneg]

lemma isFinite_of_toInt? (h : x.toInt? = some n) : x.isFinite = true :=
  (toInt?_eq_some_iff.mp h).1

/-! ### Canonical forms -/

lemma canonical_canonical (x : Binary64) : x.canonical.canonical = x.canonical := by
  by_cases hn : x.isNaN
  · simp only [canonical, hn, if_true]
    rfl
  · by_cases hz : x.isZero
    · simp only [canonical, hn, hz, if_true]
      rfl
    · simp only [canonical, hn, hz, if_false, Bool.false_eq_true]

lemma toInt?_of_isNaN (h : x.isNaN = true) : x.toInt? = none := by
  refine if_neg fun hf => ?_
  have hlt : infiniteRank < x.rank.val := of_decide_eq_true h
  have hgt : x.rank.val < infiniteRank := of_decide_eq_true hf.1
  omega

lemma toInt?_zero (negative : Bool) : (zero negative).toInt? = some 0 := by
  have hr : unitsOfRank 0 = 0 := by decide
  have hu : (zero negative).units = 0 := hr
  have hf : (zero negative).isFinite = true := rfl
  rw [toInt?, hu, Nat.zero_mod, Nat.zero_div, if_pos ⟨hf, rfl⟩]
  cases negative <;> rfl

/-- Neither the sign of a zero nor the choice of a not-a-number changes which whole number it is. -/
lemma toInt?_canonical (x : Binary64) : x.canonical.toInt? = x.toInt? := by
  unfold canonical
  split
  · next hn => rw [toInt?_of_isNaN hn, toInt?_of_isNaN rfl]
  · split
    · next hz =>
      obtain ⟨negative, rank⟩ := x
      obtain rfl : rank = 0 := Fin.ext (of_decide_eq_true hz)
      exact (toInt?_zero false).trans (toInt?_zero negative).symm
    · rfl

end ClassTree.Binary64
