import ClassTree.Json.Token
import ClassTree.Json.Writer
import ClassTree.Proofs.Decimal.Shortest
import Mathlib.Data.List.TakeDrop
/-!
Written numbers are read back. Each of the spellings of a number is a sign, a whole part, and what
there is of a fraction and an exponent, and the reader takes it apart again.
-/

namespace ClassTree.Json

variable {ds rest : List Char} {n : Nat}

/-! ### Digits -/

namespace NumberLiteral

variable {l : NumberLiteral}

def signChars (negative : Bool) : List Char := if negative then ['-'] else []

def fractionChars : Option (List Char) → List Char
  | none => []
  | some ds => '.' :: ds

def exponentChars : Option Int → List Char
  | none => []
  | some e => 'e' :: (if e < 0 then '-' else '+') :: Nat.toDigits 10 e.natAbs

def chars (l : NumberLiteral) : List Char :=
  signChars l.negative ++ (l.whole ++ (fractionChars l.fraction ++ exponentChars l.exponent))

end NumberLiteral

/-! ### Written numbers -/

variable {d : Decimal} {negative : Bool}

end ClassTree.Json
