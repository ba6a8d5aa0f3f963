import ClassTree.Proofs.Collection.Assignment
import ClassTree.Proofs.Collection.Search
import Mathlib.Algebra.Group.Int.Defs
import Mathlib.Algebra.Group.Nat.Defs
/-!
Ranges and positions do not leave a list. The operations that take a part of a list, or the element
at a position, stand here once more with a check on every access and on every number that a word of
64 bits has to hold. No check fails, and what comes out is the same.
-/

namespace ClassTree

/-! ### Checks -/

/-- Outcomes of operations that break off at the first check that fails. -/
abbrev Checked (α : Type) := ExceptT ListError Option α

namespace Checked

variable {α β : Type}

lemma run_bind_some {z : Option α} {a : α} (hz : z = some a) (f : α → Checked β) :
    ((liftM z : Checked α) >>= f).run = (f a).run := by
  subst hz
  rfl

lemma run_bind_map {x : Checked α} {y : Except ListError α} {f : α → Checked β} {g : α → β}
    (hx : x.run = some y) (hf : ∀ a, y = .ok a → (f a).run = some (.ok (g a))) :
    (x >>= f).run = some (g <$> y) := by
  have hrun : (x >>= f).run = x.run >>= ExceptT.bindCont f := rfl
  rw [hrun, hx]
  cases y with
  | error e => rfl
  | ok a => exact hf a rfl

end Checked

/-- A number that is the same as a signed and as an unsigned word of 64 bits. -/
def word? (x : Int) : Option Nat := if 0 ≤ x ∧ x < 2 ^ 63 then some x.toNat else none

lemma word?_of_eq {x : Int} {n : Nat} (hx : x = n) (hn : n < 2 ^ 63) : word? x = some n := by
  rw [word?, if_pos (by omega), hx, Int.toNat_natCast]

def Span.inside? (s : Span) (length : Nat) : Option Span :=
  if s.first ≤ s.last ∧ s.last ≤ length then some s else none

/-! ### Ranges -/

namespace ListRange

variable {r : ListRange} {length : Nat} {s : Span}

def resolve? (r : ListRange) (length : Nat) : Checked Span := do
  let pastEnd ← word? (length + 1)
  if r.start < 1 ∨ pastEnd < r.start then throw (.indexOutOfRange r.start length)
  else
    let stop : Int := if r.stop = 0 then pastEnd else r.stop
    if stop < r.start ∨ pastEnd < stop then throw (.indexOutOfRange r.stop length)
    else return ⟨← word? (r.start - 1), ← word? (stop - 1)⟩

lemma run_resolve? (h : length + 1 < 2 ^ 63) (r : ListRange) :
    (r.resolve? length).run = some (r.resolve length) := by
  have hpast : word? ((length : Int) + 1) = some (length + 1) := word?_of_eq rfl h
  have hcast : ((length + 1 : Nat) : Int) = length + 1 := rfl
  rw [resolve?, Checked.run_bind_some hpast, hcast]
  simp only [resolve]
  generalize (if r.stop = 0 then (length : Int) + 1 else r.stop) = stop
  split
  · rfl
  · split
    · rfl
    · -- both bounds lie between 1 and the position past the end
      have hfirst : word? (r.start - 1) = some (r.start - 1).toNat :=
        word?_of_eq (by omega) (by omega)
      have hlast : word? (stop - 1) = some (stop - 1).toNat := word?_of_eq (by omega) (by omega)
      rw [Checked.run_bind_some hfirst, Checked.run_bind_some hlast]
      rfl

def part? (r : ListRange) (length : Nat) : Checked Span := do
  let s ← r.resolve? length
  s.inside? length

lemma run_part?_bind {α : Type} (h : length + 1 < 2 ^ 63) (r : ListRange) (g : Span → α) :
    (do return g (← r.part? length) : Checked α).run = some (g <$> r.resolve length) := by
  rw [part?, bind_assoc]
  apply Checked.run_bind_map (run_resolve? h r)
  intro s hs
  have hin : s.inside? length = some s := if_pos (bounds_of_resolve hs)
  rw [Checked.run_bind_some hin]
  rfl

end ListRange

/-! ### Positions -/

namespace IndexedList

variable {l : IndexedList} {key value : Value} {growth : Bool} {i : Nat}

def position? (l : IndexedList) (key : Value) : Checked Nat :=
  key.position?.elim (throw (.invalidKey key)) fun n =>
    if n ≤ l.size then word? (n - 1) else throw (.indexOutOfRange (signed n) l.size)

def replace? (l : IndexedList) (i : Nat) (v : Value) : Option IndexedList :=
  if i < l.size then some (l.replace i v) else none

lemma lt_of_position (h : l.position key = .ok i) : i < l.size := by
  cases hp : key.position? with
  | none => simp only [position, hp, reduceCtorEq] at h
  | some n =>
    have hpos := Value.position?_pos hp
    simp only [position, hp] at h
    split at h
    · obtain rfl := Except.ok.inj h
      omega
    · cases h

lemma run_position? (h : l.size < 2 ^ 63) (key : Value) :
    (l.position? key).run = some (l.position key) := by
  cases hp : key.position? with
  | none =>
    simp only [position?, position, hp]
    rfl
  | some n =>
    have hpos := Value.position?_pos hp
    simp only [position?, position, hp, Option.elim_some]
    split
    · have hword : word? ((n : Int) - 1) = some (n - 1) := word?_of_eq (by omega) (by omega)
      rw [hword]
      rfl
    · rfl

/-! ### Operations -/

def cut? (l : IndexedList) (r : ListRange) : Checked IndexedList := do
  return l.keep ((← r.part? l.size).without l.values)

def copy? (l : IndexedList) (r : ListRange) : Checked IndexedList := do
  return l.keep ((← r.part? l.size).slice l.values)

def get? (l : IndexedList) (key : Value) : Checked Value :=
  if key.isNum then do
    let i ← l.position? key
    (l.values[i]? : Option Value)
  else .mk (some (l.get key)) -- no other key is a position

def set? (l : IndexedList) (key value : Value) (growth : Bool) : Checked IndexedList :=
  if key.isNum then do
    let next ← word? (l.size + 1)
    if growth ∧ key.position? = some next then return l.add value
    else do
      let i ← l.position? key
      l.replace? i value
  else .mk (some (l.set key value growth))

lemma run_cut? (h : l.size + 1 < 2 ^ 63) (r : ListRange) : (l.cut? r).run = some (l.cut r) := by
  rw [cut_eq]
  exact ListRange.run_part?_bind h r fun s => l.keep (s.without l.values)

lemma run_copy? (h : l.size + 1 < 2 ^ 63) (r : ListRange) : (l.copy? r).run = some (l.copy r) := by
  rw [copy_eq]
  exact ListRange.run_part?_bind h r fun s => l.keep (s.slice l.values)

lemma run_get? (h : l.size < 2 ^ 63) (key : Value) : (l.get? key).run = some (l.get key) := by
  by_cases hn : key.isNum = true
  · rw [get?, if_pos hn, get_of_isNum hn]
    apply Checked.run_bind_map (run_position? h key)
    intro i hi
    rw [List.getElem?_eq_getElem (lt_of_position hi)]
    rfl
  · rw [get?, if_neg hn]
    rfl

lemma run_set? (h : l.size + 1 < 2 ^ 63) (key value : Value) (growth : Bool) :
    (l.set? key value growth).run = some (l.set key value growth) := by
  by_cases hn : key.isNum = true
  · have hnext : word? ((l.size : Int) + 1) = some (l.size + 1) := word?_of_eq rfl h
    rw [set?, if_pos hn, set_of_isNum hn, Checked.run_bind_some hnext]
    split
    · rfl
    · apply Checked.run_bind_map (run_position? (Nat.lt_of_succ_lt h) key)
      intro i hi
      rw [replace?, if_pos (lt_of_position hi)]
      rfl
  · rw [set?, if_neg hn]
    rfl

end IndexedList

namespace Container

variable {l : Container}

def find? (l : Container) (v : Value) (r : ListRange) : Checked Nat :=
  if !r.isAll && !l.isIndexableByNumber then throw (.invalidOperation .find)
  else do return (← r.part? l.size).find l.values v

lemma run_find? (h : l.size + 1 < 2 ^ 63) (v : Value) (r : ListRange) :
    (l.find? v r).run = some (l.find v r) := by
  rw [find?, find]
  split
  · rfl
  · exact ListRange.run_part?_bind h r fun s => s.find l.values v

end Container

/-! ### Nothing leaves the list -/

/-- What ranges and positions come to in lists of some length. Each operation passes its checks. -/
structure StaysInside (length : Nat) : Prop where
  resolve_ok {r : ListRange} {a b : Nat} : r.resolve length = .ok ⟨a, b⟩ ↔
    (1 ≤ r.start ∧ r.start ≤ length + 1) ∧
      (r.stop = 0 ∨ (r.start ≤ r.stop ∧ r.stop ≤ length + 1)) ∧
      a = r.start - 1 ∧ b = if r.stop = 0 then (length : Int) else r.stop - 1
  inside {r : ListRange} {a b : Nat} : r.resolve length = .ok ⟨a, b⟩ → a ≤ b ∧ b ≤ length
  resolve_error {r : ListRange} {e : ListError} : r.resolve length = .error e ↔
    (¬ (1 ≤ r.start ∧ r.start ≤ length + 1) ∧ e = .indexOutOfRange r.start length) ∨
      ((1 ≤ r.start ∧ r.start ≤ length + 1) ∧ r.stop ≠ 0 ∧
        ¬ (r.start ≤ r.stop ∧ r.stop ≤ length + 1) ∧ e = .indexOutOfRange r.stop length)
  resolve (r : ListRange) : (r.resolve? length).run = some (r.resolve length)
  position {l : IndexedList} {key : Value} {i : Nat} : l.size = length →
    l.position key = .ok i → i < length
  cut {l : IndexedList} (r : ListRange) : l.size = length → (l.cut? r).run = some (l.cut r)
  copy {l : IndexedList} (r : ListRange) : l.size = length → (l.copy? r).run = some (l.copy r)
  find {l : Container} (v : Value) (r : ListRange) : l.size = length →
    (l.find? v r).run = some (l.find v r)
  get {l : IndexedList} (key : Value) : l.size = length → (l.get? key).run = some (l.get key)
  set {l : IndexedList} (key value : Value) (growth : Bool) : l.size = length →
    (l.set? key value growth).run = some (l.set key value growth)

theorem staysInside_of_lt {length : Nat} (h : length < 2 ^ 63 - 1) : StaysInside length := by
  have hword : length + 1 < 2 ^ 63 := by omega
  have hlt : length < 2 ^ 63 := Nat.lt_of_succ_lt hword
  constructor
  case resolve_ok => exact ListRange.resolve_eq_ok_iff
  case inside => exact ListRange.bounds_of_resolve
  case resolve_error => exact ListRange.resolve_eq_error_iff
  case resolve => exact ListRange.run_resolve? hword
  case position =>
    rintro l key i rfl hi
    exact IndexedList.lt_of_position hi
  case cut =>
    rintro l r rfl
    exact IndexedList.run_cut? hword r
  case copy =>
    rintro l r rfl
    exact IndexedList.run_copy? hword r
  case find =>
    rintro l v r rfl
    exact Container.run_find? hword v r
  case get =>
    rintro l key rfl
    exact IndexedList.run_get? hlt key
  case set =>
    rintro l key value growth rfl
    exact IndexedList.run_set? hword key value growth

/-- The greatest length with the greatest and the least bounds, and two elements with the position
past the end and the double above all positions as keys. -/
theorem staysInside_extremes :
    9223372036854775806 < 2 ^ 63 - 1 ∧ StaysInside 9223372036854775806 ∧
      ListRange.resolve ⟨9223372036854775807, 9223372036854775807⟩ 9223372036854775806 =
        .ok ⟨9223372036854775806, 9223372036854775806⟩ ∧
      ListRange.resolve ⟨1, -9223372036854775808⟩ 9223372036854775806 =
        .error (.indexOutOfRange (-9223372036854775808) 9223372036854775806) ∧
      StaysInside 2 ∧ ∃ l : IndexedList, l.size = 2 ∧
        (l.set? (.num (.ofInt 3)) .null true).run = some (.ok (l.add .null)) ∧
        (l.get? (.num (.ofInt 18446744073709551616))).run =
          some (.error (.indexOutOfRange (-1) 2)) ∧
        (l.copy? ⟨3, 3⟩).run = some (.ok (.ofValues [])) :=
  ⟨by decide, staysInside_of_lt (by decide), by decide +kernel, by decide +kernel,
    staysInside_of_lt (by decide), .ofValues [.text "a", .text "b"], rfl, by decide +kernel,
    by decide +kernel, by decide +kernel⟩

/-- The bound on the length is sharp. -/
example : (ListRange.all.resolve? 9223372036854775807).run = none := by decide

end ClassTree
