/-!
Double precision numbers. A number is a sign and the rank of its magnitude in the increasing list of
all magnitudes, so that neighbouring numbers have neighbouring ranks. Every finite magnitude is a
whole number of units of 2⁻¹⁰⁷⁴, and `Binary64.ofRatio` picks the rank whose units lie nearest to a
quotient.
-/

namespace ClassTree

/-- Rank 0 is zero. The ranks of the finite magnitudes are below that of infinity, and the ranks
above it are not numbers. There are 2⁶³ ranks. -/
structure Binary64 where
  negative : Bool
  rank : Fin 9223372036854775808
deriving DecidableEq, Repr

namespace Binary64

/-- How many magnitudes are equally spaced before the spacing doubles: 2⁵². -/
def binade : Nat := 4503599627370496

def infiniteRank : Nat := 2047 * binade

/-- Units of 2⁻¹⁰⁷⁴ in the magnitude of a rank: the first two binades are spaced by one unit, and
each later one twice as widely as the one before it. -/
def unitsOfRank (r : Nat) : Nat :=
  if r < binade then r else (binade + r % binade) * Nat.pow 2 (r / binade - 1)

def one : Nat := Nat.pow 2 1074

def units (x : Binary64) : Nat := unitsOfRank x.rank

def isFinite (x : Binary64) : Bool := x.rank.val < infiniteRank

def isNaN (x : Binary64) : Bool := infiniteRank < x.rank.val

def isZero (x : Binary64) : Bool := x.rank.val = 0

def zero (negative : Bool) : Binary64 := ⟨negative, 0⟩

def infinity (negative : Bool) : Binary64 := ⟨negative, ⟨infiniteRank, by decide⟩⟩

def nan (negative : Bool) : Binary64 := ⟨negative, ⟨infiniteRank + binade / 2, by decide⟩⟩

/-- One representative for all that compare as the same key: zero loses its sign and every
not-a-number becomes one of them. -/
def canonical (x : Binary64) : Binary64 :=
  if x.isNaN then nan false else if x.isZero then zero false else x

def divideToEven (a b : Nat) : Nat :=
  let q := a / b
  let r := a % b
  if 2 * r < b then q
  else if b < 2 * r then q + 1
  else q + q % 2

/-- The rank nearest to `a / b` units, a tie to the even rank. The spacing at a magnitude is the
power of two that leaves 53 binary digits, and a carry out of the last of them is the next binade.
-/
def nearestRank (a b : Nat) : Nat :=
  let spacing := Nat.log2 (a / b) - 52
  spacing * binade + divideToEven a (b * Nat.pow 2 spacing)

def ofRank (negative : Bool) (r : Nat) : Binary64 :=
  if h : r < infiniteRank then ⟨negative, ⟨r, Nat.lt_trans h (by decide)⟩⟩ else infinity negative

def ofRatio (negative : Bool) (num den : Nat) : Binary64 :=
  ofRank negative (nearestRank (num * one) den)

def ofInt (n : Int) : Binary64 := ofRatio (n < 0) n.natAbs 1

def decimalLength (n : Nat) : Nat := if n = 0 then 0 else (Nat.toDigits 10 n).length

/-- The number nearest to a decimal, given by its digits and the exponent of the last one. Exponents
far outside the range of finite numbers are settled without the power of ten. -/
def ofDecimal (negative : Bool) (digits : Nat) (exponent : Int) : Binary64 :=
  let top := exponent + decimalLength digits
  if digits = 0 ∨ top < -330 then zero negative
  else if 310 < top then infinity negative
  else ofRatio negative (digits * Nat.pow 10 exponent.toNat) (Nat.pow 10 (-exponent).toNat)

def toInt? (x : Binary64) : Option Int :=
  if x.isFinite ∧ x.units % one = 0 then
    some (if x.negative then -(x.units / one : Nat) else (x.units / one : Nat))
  else none

end Binary64

end ClassTree
