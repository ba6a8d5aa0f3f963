import ClassTree.Proofs.Collection.Assignment
import Mathlib.Algebra.Group.Nat.Defs
/-!
Whole numbers as keys of indexed lists, and how they fail. An index that is out of range is reported
as a signed word of 64 bits, which is the number itself below 2⁶³ only.
-/

namespace ClassTree

lemma Value.position?_of_toInt? {x : Binary64} {k : Nat} (hx : x.toInt? = some (k : Int))
    (hk : 1 ≤ k) :
    (Value.num x).position? = if k ≤ 2 ^ 64 then some (min k maxPosition) else none := by
  have hp : (Value.num x).position? =
      if 1 ≤ k ∧ k ≤ maxPosition + 1 then some (min k maxPosition) else none := by
    rw [position?]
    split
    · next n hn =>
      obtain rfl := Int.ofNat.inj (Option.some.inj (hn.symm.trans hx))
      rfl
    · next hn => exact (hn k hx).elim
  rw [hp]
  exact if_congr (and_iff_right hk) rfl rfl

namespace IndexedList

variable {l : IndexedList} {key value : Value} {growth : Bool} {e : ListError} {k n : Nat}
  {index : Int} {length : Nat}

/-- What a report makes of a number. The one above all positions stands for the greatest. -/
def reportedIndex (k : Nat) : Int := signed (min k Value.maxPosition)

lemma reportedIndex_eq_iff : reportedIndex k = k ↔ k < 2 ^ 63 := by
  rw [reportedIndex, signed, Value.maxPosition]
  split <;> omega

lemma reportedIndex_neg_iff : reportedIndex k < 0 ↔ 2 ^ 63 ≤ k := by
  rw [reportedIndex, signed, Value.maxPosition]
  split <;> omega

/-! ### Failing -/

/-- How a whole number from 1 on fails as a key. -/
inductive Unusable (l : IndexedList) (key : Value) (k : Nat) : ListError → Prop
  | pastEnd (hk : k ≤ 2 ^ 64) (hl : l.size < min k Value.maxPosition) :
    Unusable l key k (.indexOutOfRange (reportedIndex k) l.size)
  | tooLarge (hk : 2 ^ 64 < k) : Unusable l key k (.invalidKey key)

/-- A number that is out of range is reported as it is, with the length of the list. -/
structure ReportsIndex (l : IndexedList) (key : Value) (k : Nat) : Prop where
  get {index : Int} {length : Nat} : l.get key = .error (.indexOutOfRange index length) →
    index = k ∧ length = l.size ∧ l.size < k
  set {value : Value} {growth : Bool} {index : Int} {length : Nat} :
    l.set key value growth = .error (.indexOutOfRange index length) →
      index = k ∧ length = l.size ∧ l.size < k

lemma unusable_outOfRange_iff : l.Unusable key k (.indexOutOfRange index length) ↔
    (k ≤ 2 ^ 64 ∧ l.size < min k Value.maxPosition) ∧
      index = reportedIndex k ∧ length = l.size := by
  constructor
  · rintro ⟨⟩
    exact ⟨⟨‹_›, ‹_›⟩, rfl, rfl⟩
  · rintro ⟨⟨hk, hl⟩, rfl, rfl⟩
    exact .pastEnd hk hl

section

variable (hp : key.position? = if k ≤ 2 ^ 64 then some (min k Value.maxPosition) else none)

include hp

lemma position_eq_error_iff : l.position key = .error e ↔ l.Unusable key k e := by
  by_cases hk : k ≤ 2 ^ 64
  · rw [if_pos hk] at hp
    by_cases hl : l.size < min k Value.maxPosition
    · rw [position_of_size_lt hp hl, Except.error.injEq]
      constructor
      · rintro rfl
        exact .pastEnd hk hl
      · intro he
        cases he with
        | pastEnd _ _ => rfl
        | tooLarge hk' => exact (Nat.not_le.mpr hk' hk).elim
    · have hpos : l.position key = .ok (min k Value.maxPosition - 1) := by
        simp only [position, hp, if_pos (Nat.not_lt.mp hl)]
      rw [hpos]
      constructor
      · intro h
        cases h
      · intro he
        cases he with
        | pastEnd _ hl' => exact (hl hl').elim
        | tooLarge hk' => exact (Nat.not_le.mpr hk' hk).elim
  · rw [if_neg hk] at hp
    have hpos : l.position key = .error (.invalidKey key) := by simp only [position, hp]
    rw [hpos, Except.error.injEq]
    constructor
    · rintro rfl
      exact .tooLarge (Nat.not_le.mp hk)
    · intro he
      cases he with
      | pastEnd hk' _ => exact (hk hk').elim
      | tooLarge _ => rfl

variable (hn : key.isNum = true)

include hn

lemma get_eq_error_iff : l.get key = .error e ↔ l.Unusable key k e := by
  rw [get_of_isNum hn, map_eq_error_iff, position_eq_error_iff hp]

lemma set_eq_error_iff : l.set key value growth = .error e ↔
    l.Unusable key k e ∧ ¬ (growth = true ∧ key.position? = some (l.size + 1)) := by
  rw [set_of_isNum hn]
  split
  · next hg => exact iff_of_false nofun fun he => he.2 hg
  · next hg => rw [map_eq_error_iff, position_eq_error_iff hp, and_iff_left hg]

end

/-! ### Reports -/

structure IndexErrors (l : IndexedList) (key : Value) (k : Nat) : Prop where
  get {e : ListError} : l.get key = .error e ↔ l.Unusable key k e
  set {value : Value} {growth : Bool} {e : ListError} : l.set key value growth = .error e ↔
    l.Unusable key k e ∧ ¬ (growth = true ∧ key.position? = some (l.size + 1))
  out_of_range {index : Int} {length : Nat} :
    l.Unusable key k (.indexOutOfRange index length) →
      l.size < k ∧ length = l.size ∧ (index = k ↔ k < 2 ^ 63) ∧ (index < 0 ↔ 2 ^ 63 ≤ k)
  reports_iff : l.ReportsIndex key k ↔
    k < 2 ^ 63 ∨ ∀ index length, ¬ l.Unusable key k (.indexOutOfRange index length)

theorem indexErrors_of_toInt? (l : IndexedList) {x : Binary64} {k : Nat}
    (hx : x.toInt? = some (k : Int)) (hk : 1 ≤ k) : l.IndexErrors (.num x) k := by
  have hp := Value.position?_of_toInt? hx hk
  have hget {e : ListError} : l.get (.num x) = .error e ↔ l.Unusable (.num x) k e :=
    get_eq_error_iff hp rfl
  have hset {value : Value} {growth : Bool} {e : ListError} :
      l.set (.num x) value growth = .error e ↔ l.Unusable (.num x) k e ∧
        ¬ (growth = true ∧ (Value.num x).position? = some (l.size + 1)) :=
    set_eq_error_iff hp rfl
  have hout {index : Int} {length : Nat}
      (he : l.Unusable (.num x) k (.indexOutOfRange index length)) :
      l.size < k ∧ length = l.size ∧ (index = k ↔ k < 2 ^ 63) ∧ (index < 0 ↔ 2 ^ 63 ≤ k) := by
    obtain ⟨⟨-, hl⟩, rfl, rfl⟩ := unusable_outOfRange_iff.mp he
    exact ⟨(Nat.lt_min.mp hl).1, rfl, reportedIndex_eq_iff, reportedIndex_neg_iff⟩
  refine ⟨hget, hset, hout, ?_⟩
  constructor
  · intro hr
    by_cases hlt : k < 2 ^ 63
    · exact .inl hlt
    · refine .inr fun index length he => ?_
      have hi := (hr.get (hget.mpr he)).1
      exact hlt ((hout he).2.2.1.mp hi)
  · intro h
    have hnamed {index : Int} {length : Nat}
        (he : l.Unusable (.num x) k (.indexOutOfRange index length)) :
        index = k ∧ length = l.size ∧ l.size < k := by
      obtain ⟨hl, hlen, hi, -⟩ := hout he
      exact ⟨hi.mpr (h.resolve_right fun hn => hn _ _ he), hlen, hl⟩
    exact ⟨fun he => hnamed (hget.mp he), fun he => hnamed (hset.mp he).1⟩

/-- The least number whose report has another sign: 2⁶³. -/
def signBit : Binary64 := .ofInt 9223372036854775808

theorem indexErrors_signBit :
    signBit.toInt? = some ((9223372036854775808 : Nat) : Int) ∧ 1 ≤ 9223372036854775808 ∧
      (ofValues [.null]).IndexErrors (.num signBit) 9223372036854775808 ∧
      (ofValues [.null]).set (.num signBit) .null true =
        .error (.indexOutOfRange (-9223372036854775808) 1) := by
  have hx : signBit.toInt? = some ((9223372036854775808 : Nat) : Int) := by decide +kernel
  exact ⟨hx, by decide, indexErrors_of_toInt? (ofValues [.null]) hx (by decide), by decide +kernel⟩

theorem not_reportsIndex_signBit :
    signBit.toInt? = some ((9223372036854775808 : Nat) : Int) ∧
      (ofValues [.null]).get (.num signBit) =
        .error (.indexOutOfRange (-9223372036854775808) 1) ∧
      ¬ (ofValues [.null]).ReportsIndex (.num signBit) 9223372036854775808 := by
  have hget : (ofValues [.null]).get (.num signBit) =
      .error (.indexOutOfRange (-9223372036854775808) 1) := by decide +kernel
  refine ⟨by decide +kernel, hget, fun hr => ?_⟩
  have hi := (hr.get hget).1
  omega

end IndexedList

end ClassTree
