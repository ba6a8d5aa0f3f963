import ClassTree.Decimal.Shortest
import Mathlib.Data.Nat.Log
import Mathlib.Tactic.Lemma
import Mathlib.Tactic.Linarith
import Mathlib.Tactic.Ring
/-!
Rounding to the nearest rank. What lies between the midpoints to the neighbouring magnitudes is
rounded to the magnitude itself, in the narrower gap below a power of two as well.
-/

namespace ClassTree.Binary64

variable {a b d m q r s : Nat}

/-! ### Magnitudes -/

lemma one_pos : 0 < one := by
  unfold one
  generalize 1074 = k
  exact Nat.two_pow_pos k

/-- How often the spacing has doubled at a rank. -/
def scale (r : Nat) : Nat := r / binade - 1

def significand (r : Nat) : Nat := r - scale r * binade

lemma scale_mul_add_significand (r : Nat) : scale r * binade + significand r = r := by
  simp only [scale, significand, binade]
  omega

lemma significand_lt (r : Nat) : significand r < 2 * binade := by
  simp only [scale, significand, binade]
  omega

lemma binade_le_significand (h : 0 < scale r) : binade ≤ significand r := by
  simp only [scale, significand, binade] at *
  omega

lemma scale_eq_and_significand_eq (hs : r = s * binade + m) (hm : m < 2 * binade)
    (hb : 0 < s → binade ≤ m) : scale r = s ∧ significand r = m := by
  simp only [scale, significand, binade] at *
  omega

lemma unitsOfRank_eq (r : Nat) : unitsOfRank r = significand r * 2 ^ scale r := by
  rw [unitsOfRank]
  split
  · next h =>
    obtain ⟨hs, hm⟩ := scale_eq_and_significand_eq (r := r) (s := 0) (m := r) (by simp)
      (by simp only [binade] at *; omega) (by simp)
    simp [hs, hm]
  · next h =>
    have hm : significand r = binade + r % binade := by
      simp only [scale, significand, binade] at *
      omega
    rw [hm, scale, Nat.pow_eq]

lemma unitsOfRank_of_eq (hs : r = s * binade + m) (hm : m < 2 * binade)
    (hb : 0 < s → binade ≤ m) : unitsOfRank r = m * 2 ^ s := by
  obtain ⟨hr, hr'⟩ := scale_eq_and_significand_eq hs hm hb
  rw [unitsOfRank_eq, hr, hr']

lemma unitsOfRank_succ (r : Nat) : unitsOfRank (r + 1) = unitsOfRank r + 2 ^ scale r := by
  have hr := scale_mul_add_significand r
  have hm := significand_lt r
  have hb := binade_le_significand (r := r)
  rw [unitsOfRank_eq r]
  generalize scale r = s at *
  generalize significand r = m at *
  by_cases hc : m + 1 < 2 * binade
  · rw [unitsOfRank_of_eq (s := s) (m := m + 1) (by omega) hc (by omega), Nat.add_one_mul]
  · have hm : m + 1 = 2 * binade := by omega
    have hr' : r + 1 = (s + 1) * binade + binade := by
      rw [← hr, Nat.add_assoc, hm]
      ring
    rw [unitsOfRank_of_eq hr' (by decide) (by simp), ← Nat.add_one_mul, hm, Nat.pow_succ]
    ring

/-- Half of the way to the neighbours, and all of it when the significand is even. -/
def WithinHalf (m d a : Nat) : Prop :=
  if m % 2 = 0 then 2 * m * d ≤ 2 * a + d ∧ 2 * a ≤ (2 * m + 1) * d
  else 2 * m * d < 2 * a + d ∧ 2 * a < (2 * m + 1) * d

lemma divideToEven_of_withinHalf (hd : 0 < d) (h : WithinHalf m d a) : divideToEven a d = m := by
  have ha := Nat.div_add_mod a d
  have hx := Nat.mod_lt a hd
  have hle : 2 * m * d ≤ 2 * a + d ∧ 2 * a ≤ (2 * m + 1) * d := by
    rw [WithinHalf] at h
    split at h
    · exact h
    · exact ⟨h.1.le, h.2.le⟩
  simp only [divideToEven]
  generalize a / d = q at *
  generalize a % d = x at *
  have hq : q ≤ m := by
    by_contra hlt
    have := Nat.mul_le_mul_left d (Nat.lt_of_not_le hlt)
    nlinarith
  have hm : m ≤ q + 1 := by
    by_contra hlt
    have := Nat.mul_le_mul_left d (Nat.lt_of_not_le hlt)
    nlinarith
  have hl : 2 * m * d = 2 * (d * m) := by ring
  have hh : (2 * m + 1) * d = 2 * (d * m) + d := by ring
  rw [WithinHalf, hl, hh] at h
  obtain rfl | rfl : m = q ∨ m = q + 1 := by omega
  · split at h <;> split_ifs <;> omega
  · rw [Nat.mul_add] at h
    split at h <;> split_ifs <;> omega

/-! ### Ranks -/

lemma log2_sub_eq (hlt : q < 2 * binade * 2 ^ s) (hle : 0 < s → binade * 2 ^ s ≤ q) :
    Nat.log2 q - 52 = s := by
  have hb : binade = 2 ^ 52 := by decide
  rw [hb] at hlt hle
  by_cases h0 : q = 0
  · have hs : ¬ 0 < s := by
      intro hs
      have := hle hs
      have : 0 < 2 ^ 52 * 2 ^ s := by simp
      omega
    simp only [h0, Nat.log2_zero]
    omega
  · have hlog : Nat.log2 q < s + 53 := by
      rw [Nat.log2_lt h0, Nat.pow_add]
      omega
    by_cases hs : 0 < s
    · have hge : s + 52 ≤ Nat.log2 q := by
        rw [Nat.le_log2 h0, Nat.pow_add]
        have := hle hs
        omega
      omega
    · omega

lemma nearestRank_of_withinHalf (hb : 0 < b) (hlt : a < 2 * binade * 2 ^ s * b)
    (hle : 0 < s → binade * 2 ^ s * b ≤ a) (h : WithinHalf m (b * 2 ^ s) a) :
    nearestRank a b = s * binade + m := by
  have hs : Nat.log2 (a / b) - 52 = s := by
    apply log2_sub_eq
    · exact Nat.div_lt_of_lt_mul (by rwa [Nat.mul_comm])
    · intro hs
      exact (Nat.le_div_iff_mul_le hb).mpr (hle hs)
  have hd : 0 < b * 2 ^ s := Nat.mul_pos hb (Nat.two_pow_pos s)
  simp only [nearestRank, hs, Nat.pow_eq, divideToEven_of_withinHalf hd h]

/-- Between the midpoints to the neighbours, which belong to an even rank. -/
def Between (r a b : Nat) : Prop :=
  if r % 2 = 0 then (unitsOfRank (r - 1) + unitsOfRank r) * b ≤ 2 * a ∧
    2 * a ≤ (unitsOfRank r + unitsOfRank (r + 1)) * b
  else (unitsOfRank (r - 1) + unitsOfRank r) * b < 2 * a ∧
    2 * a < (unitsOfRank r + unitsOfRank (r + 1)) * b

lemma unitsOfRank_pred (h : ¬ (0 < scale r ∧ significand r = binade)) :
    unitsOfRank (r - 1) = (significand r - 1) * 2 ^ scale r := by
  have hr := scale_mul_add_significand r
  have hm := significand_lt r
  have hge := binade_le_significand (r := r)
  by_cases h0 : significand r = 0
  · have hs : ¬ 0 < scale r := by
      simp only [binade] at hge
      omega
    have hr : r = 0 := by simpa [h0, Nat.eq_zero_of_not_pos hs] using hr.symm
    subst hr
    rfl
  · exact unitsOfRank_of_eq (by omega) (by omega) (by omega)

lemma unitsOfRank_pred_of_binade (hs : scale r = s + 1) (hm : significand r = binade) :
    unitsOfRank (r - 1) = (2 * binade - 1) * 2 ^ s := by
  have hr := scale_mul_add_significand r
  rw [hs, hm] at hr
  refine unitsOfRank_of_eq ?_ (by decide) fun _ => by decide
  simp only [binade] at *
  omega

lemma mod_two_eq_significand_mod_two (r : Nat) : r % 2 = significand r % 2 := by
  have hr := scale_mul_add_significand r
  simp only [binade] at hr
  omega

/-- The gap below a power of two is the narrower one, and from it rounding carries into the next
binade. -/
lemma nearestRank_of_between_of_binade (hb : 0 < b) (h : Between r a b) (hs : scale r = s + 1)
    (hm : significand r = binade) : nearestRank a b = r := by
  have hr := scale_mul_add_significand r
  rw [Between, unitsOfRank_succ, unitsOfRank_eq r, mod_two_eq_significand_mod_two,
    unitsOfRank_pred_of_binade hs hm, hs, hm, if_pos (by decide), Nat.pow_succ] at h
  rw [hs, hm] at hr
  have hp := Nat.mul_pos hb (Nat.two_pow_pos s)
  simp only [binade, Nat.reduceMul, Nat.reduceSub] at h
  by_cases hlow : binade * 2 ^ (s + 1) * b ≤ a
  · rw [← hr]
    apply nearestRank_of_withinHalf hb _ (fun _ => hlow)
    · rw [WithinHalf, if_pos (by decide)]
      simp only [binade, Nat.pow_succ] at hlow ⊢
      constructor <;> linarith
    · simp only [binade, Nat.pow_succ]
      linarith
  · have hr : r = s * binade + 2 * binade := by
      rw [← hr, Nat.succ_mul]
      omega
    rw [hr]
    simp only [binade, Nat.pow_succ] at hlow
    apply nearestRank_of_withinHalf hb
    · simp only [binade]
      linarith
    · intro _
      simp only [binade]
      linarith
    · rw [WithinHalf, if_pos (by decide)]
      simp only [binade]
      constructor <;> linarith

lemma withinHalf_of_between (hb : 0 < b) (h : Between r a b)
    (hpow : ¬ (0 < scale r ∧ significand r = binade)) :
    WithinHalf (significand r) (b * 2 ^ scale r) a := by
  rw [Between, unitsOfRank_succ, unitsOfRank_eq r, mod_two_eq_significand_mod_two,
    unitsOfRank_pred hpow] at h
  have hp := Nat.mul_pos hb (Nat.two_pow_pos (scale r))
  generalize scale r = s at *
  generalize significand r = m at *
  have hhigh : (m * 2 ^ s + (m * 2 ^ s + 2 ^ s)) * b = (2 * m + 1) * (b * 2 ^ s) := by ring
  have hlow : 2 * m * (b * 2 ^ s) ≤ ((m - 1) * 2 ^ s + m * 2 ^ s) * b + b * 2 ^ s ∧
      (0 < m → 2 * m * (b * 2 ^ s) = ((m - 1) * 2 ^ s + m * 2 ^ s) * b + b * 2 ^ s) := by
    cases m with
    | zero => simp
    | succ k =>
      have hk : 2 * (k + 1) * (b * 2 ^ s) =
          ((k + 1 - 1) * 2 ^ s + (k + 1) * 2 ^ s) * b + b * 2 ^ s := by
        rw [Nat.add_sub_cancel]
        ring
      exact ⟨hk.le, fun _ => hk⟩
  rw [hhigh] at h
  rw [WithinHalf]
  split at h
  · next heven =>
    rw [if_pos heven]
    omega
  · next hodd =>
    have := hlow.2 (by omega)
    rw [if_neg hodd]
    omega

lemma nearestRank_of_between (hb : 0 < b) (h : Between r a b) : nearestRank a b = r := by
  by_cases hpow : 0 < scale r ∧ significand r = binade
  · obtain ⟨s, hs⟩ := Nat.exists_eq_succ_of_ne_zero hpow.1.ne'
    exact nearestRank_of_between_of_binade hb h hs hpow.2
  · have hwithin := withinHalf_of_between hb h hpow
    have hr := scale_mul_add_significand r
    have hm := significand_lt r
    have hge := binade_le_significand (r := r)
    generalize scale r = s at *
    generalize significand r = m at *
    have hle : 2 * m * (b * 2 ^ s) ≤ 2 * a + b * 2 ^ s ∧ 2 * a ≤ (2 * m + 1) * (b * 2 ^ s) := by
      rw [WithinHalf] at hwithin
      split at hwithin <;> omega
    have hmul : ∀ k, m < k → (m + 1) * (b * 2 ^ s) ≤ k * (b * 2 ^ s) :=
      fun k hk => Nat.mul_le_mul_right _ hk
    have hp := Nat.mul_pos hb (Nat.two_pow_pos s)
    rw [← hr]
    apply nearestRank_of_withinHalf hb _ _ hwithin
    · have := hmul _ hm
      rw [Nat.mul_assoc, Nat.mul_comm (2 ^ s) b]
      linarith
    · intro hs
      have hm : binade < m := by
        have := hge hs
        omega
      have := Nat.mul_le_mul_right (b * 2 ^ s) hm
      rw [Nat.mul_assoc, Nat.mul_comm (2 ^ s) b]
      linarith

lemma unitsOfRank_lt_succ (r : Nat) : unitsOfRank r < unitsOfRank (r + 1) := by
  rw [unitsOfRank_succ]
  exact Nat.lt_add_of_pos_right (Nat.two_pow_pos _)

lemma unitsOfRank_pos (h : 0 < r) : 0 < unitsOfRank r := by
  obtain ⟨k, rfl⟩ := Nat.exists_eq_succ_of_ne_zero h.ne'
  exact Nat.lt_of_le_of_lt (Nat.zero_le _) (unitsOfRank_lt_succ k)

lemma between_units (hb : 0 < b) (r : Nat) : Between r (unitsOfRank r * b) b := by
  have hhigh := Nat.mul_lt_mul_of_pos_right (unitsOfRank_lt_succ r) hb
  have hlow : r = 0 ∨ unitsOfRank (r - 1) * b < unitsOfRank r * b := by
    cases r with
    | zero => exact .inl rfl
    | succ r => exact .inr (Nat.mul_lt_mul_of_pos_right (unitsOfRank_lt_succ r) hb)
  rw [Between, Nat.add_mul, Nat.add_mul]
  rcases hlow with rfl | hlow
  · simp [unitsOfRank, binade]
  · split <;> omega

lemma nearestRank_units (hb : 0 < b) (r : Nat) : nearestRank (unitsOfRank r * b) b = r :=
  nearestRank_of_between hb (between_units hb r)

end ClassTree.Binary64
