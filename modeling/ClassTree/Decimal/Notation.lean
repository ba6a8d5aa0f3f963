import ClassTree.Decimal.Shortest
/-!
Number text. A `NumberStyle` holds the decisions of one format, `NumberStyle.write` follows them.
-/

namespace ClassTree

/-- Numbers whose leading digit stands between the two exponents are written without an exponent,
whole ones then followed by `wholeTail`. -/
structure NumberStyle where
  least : Int
  greatest : Int
  wholeTail : String
  tie : Tie

namespace NumberStyle

def zeros (n : Nat) : String := String.ofList (List.replicate n '0')

def digits (n : Nat) : String := String.ofList (Nat.toDigits 10 n)

def plain (s : NumberStyle) (d : Decimal) : String :=
  if 0 ≤ d.exponent then
    digits d.digits ++ zeros d.exponent.toNat ++ s.wholeTail
  else
    let places := (-d.exponent).toNat
    let text := Nat.toDigits 10 d.digits
    let text := List.replicate (places + 1 - text.length) '0' ++ text
    String.ofList (text.take (text.length - places)) ++ "." ++
      String.ofList (text.drop (text.length - places))

/-- One digit before the point, and an exponent that shows its sign. -/
def scientific (d : Decimal) : String :=
  let text := Nat.toDigits 10 d.digits
  let head := String.ofList (text.take 1)
  let tail := String.ofList (text.drop 1)
  let exponent := d.leading
  head ++ (if tail.isEmpty then "" else "." ++ tail) ++ "e" ++
    (if exponent < 0 then "-" else "+") ++ digits exponent.natAbs

def magnitude (s : NumberStyle) (r : Nat) : String :=
  if r = 0 then "0" ++ s.wholeTail
  else
    let d := Binary64.shortest s.tie r
    if s.least ≤ d.leading ∧ d.leading ≤ s.greatest then s.plain d else scientific d

def write (s : NumberStyle) (x : Binary64) : String :=
  (if x.negative then "-" else "") ++ s.magnitude x.rank

end NumberStyle

end ClassTree
