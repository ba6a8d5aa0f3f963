import ClassTree.Decimal.Binary64
/-!
The shortest decimal that reads back as a given number. Decimals are counted in units of 10⁻³⁴⁰,
fine enough for seventeen digits of the least magnitude, so that every comparison is one of natural
numbers.
-/

namespace ClassTree

/-- A number by its decimal digits and the exponent of the last one. -/
structure Decimal where
  digits : Nat
  exponent : Int
deriving DecidableEq, Repr

namespace Decimal

/-- Moves the last zero of the digits into the exponent, as often as `n` times. -/
def trim : Nat → Decimal → Decimal
  | 0, d => d
  | n + 1, d => if d.digits % 10 = 0 then trim n ⟨d.digits / 10, d.exponent + 1⟩ else d

def leading (d : Decimal) : Int := d.exponent + Binary64.decimalLength d.digits - 1

end Decimal

/-- Which of two equally near decimals of the least length is taken. -/
inductive Tie where
  | even
  | up
deriving DecidableEq, Repr

namespace Binary64

def decimalOne : Nat := Nat.pow 10 340

/-- Whether the decimal `c` units of 10⁻³⁴⁰ is read back as the magnitude of rank `r`: it lies
between the midpoints to the neighbouring magnitudes, and a midpoint itself belongs to the even
rank. -/
def readsBack (r c : Nat) : Bool :=
  let value := c * 2 * one
  let low := (unitsOfRank (r - 1) + unitsOfRank r) * decimalOne
  let high := (unitsOfRank r + unitsOfRank (r + 1)) * decimalOne
  if r % 2 = 0 then low ≤ value && value ≤ high else low < value && value < high

/-- The multiple of `step` that is nearest to the magnitude among the two around it that read back.
-/
def onGrid (tie : Tie) (r step : Nat) : Option Nat :=
  let value := unitsOfRank r * decimalOne
  let below := value / (one * step)
  let above := below + 1
  match readsBack r (below * step), readsBack r (above * step) with
  | true, false => some below
  | false, true => some above
  | true, true =>
    let remainder := 2 * (value % (one * step))
    if remainder < one * step then some below
    else if one * step < remainder then some above
    else if tie = .even ∧ below % 2 = 0 then some below else some above
  | false, false => none

/-- Tries `n` grids, from the one spaced by the power `p` of ten on, each finer than the one before.
-/
def searchGrids (tie : Tie) (r : Nat) : Nat → Nat → Option Decimal
  | 0, _ => none
  | n + 1, p =>
    match onGrid tie r (Nat.pow 10 p) with
    | some c => some ⟨c, (p : Int) - 340⟩
    | none => searchGrids tie r n (p - 1)

/-- The shortest decimal that reads back as the magnitude of a finite rank above zero, and of those
the nearest. -/
def shortest (tie : Tie) (r : Nat) : Decimal :=
  let top := decimalLength (unitsOfRank r * decimalOne / one) - 1
  match searchGrids tie r 17 top with
  | some d => d.trim 20
  | none => ⟨0, 0⟩

end Binary64

end ClassTree
