import ClassTree.TypePath.Lemmas
import Mathlib.Tactic.Lemma
/-!
Which paths are above which. The paths above a path are the proper prefixes of its segments, and
`ancestors` lists all of them.
-/

namespace ClassTree.TypePath

variable {p q r : TypePath}

lemma segments_inj : p.segments = q.segments ↔ p = q := by
  cases p
  cases q
  rw [TypePath.mk.injEq]

lemma isBelow_iff_length : p.isBelow q = true ↔
    q.segments <+: p.segments ∧ q.segments.length < p.segments.length := by
  rw [isBelow, Bool.and_eq_true, List.isPrefixOf_iff_prefix, decide_eq_true_eq]

lemma isBelow_iff : p.isBelow q = true ↔ q.segments <+: p.segments ∧ q ≠ p := by
  rw [isBelow_iff_length]
  refine and_congr_right fun h => ⟨?_, fun hne => ?_⟩
  · rintro hlt rfl
    omega
  · exact Nat.lt_of_le_of_ne h.length_le fun hl => hne (segments_inj.mp (h.eq_of_length hl))

lemma eq_root_or_isBelow (p : TypePath) : p = .root ∨ p.isBelow .root = true :=
  Decidable.or_iff_not_imp_left.mpr fun hp => isBelow_iff.mpr ⟨List.nil_prefix, Ne.symm hp⟩

lemma eq_or_isBelow_iff : (q = p ∨ q.isBelow p = true) ↔ p.segments <+: q.segments := by
  rw [isBelow_iff]
  constructor
  · rintro (rfl | ⟨h, -⟩)
    · exact List.prefix_rfl
    · exact h
  · intro h
    by_cases hq : q = p
    · exact .inl hq
    · exact .inr ⟨h, Ne.symm hq⟩

lemma isBelow_trans (h : p.isBelow q = true) (h' : q.isBelow r = true) : p.isBelow r = true := by
  rw [isBelow_iff_length] at *
  exact ⟨h'.1.trans h.1, Nat.lt_trans h'.2 h.2⟩

/-! ### The paths above a path, one by one -/

lemma length_of_parent? (h : p.parent? = some q) :
    p.segments.length = q.segments.length + 1 := by
  have hlt := parent?_length h
  unfold parent? at h
  split at h
  · cases h
  · obtain rfl := Option.some.inj h
    rw [List.length_dropLast] at hlt ⊢
    omega

lemma isBelow_iff_of_parent? (h : p.parent? = some q) :
    p.isBelow r = true ↔ r = q ∨ q.isBelow r = true := by
  have hlen := length_of_parent? h
  rw [isBelow_iff_length, eq_comm, eq_or_isBelow_iff]
  constructor
  · rintro ⟨hr, hlt⟩
    exact List.prefix_of_prefix_length_le hr (segments_parent? h) (by omega)
  · intro hr
    have hle := hr.length_le
    exact ⟨hr.trans (segments_parent? h), by omega⟩

lemma ancestors_of_parent? (h : p.parent? = some q) : p.ancestors = q :: q.ancestors := by
  rw [ancestors]
  split
  · next hn => simp [hn] at h
  · next r hr =>
    obtain rfl := Option.some.inj (h.symm.trans hr)
    rfl

lemma ancestors_root : root.ancestors = [] := by
  rw [ancestors]
  rfl

lemma mem_ancestors_iff : q ∈ p.ancestors ↔ p.isBelow q = true := by
  fun_induction ancestors p with
  | case1 p hp =>
    obtain rfl := parent?_eq_none_iff.mp hp
    rw [isBelow_iff_length]
    simp [root]
  | case2 p r hr _ ih => rw [List.mem_cons, isBelow_iff_of_parent? hr, ih]

end ClassTree.TypePath
