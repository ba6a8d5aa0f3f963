import ClassTree.Decimal.Notation
import ClassTree.Json.Decode
/-!
Values of a running program, as elements and keys of lists. Two values are the same key if their
canonical forms are equal: the zeros are one key and so are all that is not a number.
-/

namespace ClassTree

inductive Value where
  | null
  | num (x : Binary64)
  | text (s : String)
  | resource (s : String)
  | path (p : TypePath)
  /-- An object of the running program, by its handle. -/
  | object (handle : UInt32)
deriving DecidableEq, Repr, Inhabited

/-- Numbers are always written without an exponent, and of two nearest decimals the greater one. -/
def Value.numberStyle : NumberStyle := ⟨-400, 400, "", .up⟩

def Binary64.text (x : Binary64) : String :=
  if x.isNaN then "NaN"
  else if x.isFinite then Value.numberStyle.write x
  else if x.negative then "-inf" else "inf"

namespace Value

def canonical : Value → Value
  | .num x => .num x.canonical
  | v => v

instance : BEq Value := ⟨fun v w => decide (v.canonical = w.canonical)⟩

theorem beq_iff {v w : Value} : (v == w) = true ↔ v.canonical = w.canonical := decide_eq_true_iff

instance : EquivBEq Value where
  rfl := beq_iff.2 rfl
  symm h := beq_iff.2 (beq_iff.1 h).symm
  trans h h' := beq_iff.2 ((beq_iff.1 h).trans (beq_iff.1 h'))

def isNull (v : Value) : Bool := v = .null

def isNum : Value → Bool
  | .num _ => true
  | _ => false

def typeName : Value → String
  | .null => "null"
  | .num _ => "num"
  | .text _ => "text"
  | .resource _ => "resource"
  | .path _ => "path"
  | .object _ => "object"

def display : Value → String
  | .null => "null"
  | .num x => x.text
  | .text s => "\"" ++ s ++ "\""
  | .resource s => "'" ++ s ++ "'"
  | .path p => p.text
  | .object handle => "[0x" ++ String.ofList (Nat.toDigits 16 handle.toNat) ++ "]"

/-- The greatest position, as positions are words of 64 bits: 2⁶⁴ - 1. -/
def maxPosition : Nat := 18446744073709551615

/-- The position in a list that a whole number from 1 on names. The double above all positions
stands for the greatest. -/
def position? : Value → Option Nat
  | .num x =>
    match x.toInt? with
    | some (.ofNat n) => if 1 ≤ n ∧ n ≤ maxPosition + 1 then some (min n maxPosition) else none
    | _ => none
  | _ => none

def ofLiteral? : Json → Option Value
  | .null => some .null
  | .int n => some (.num (Binary64.ofInt n))
  | .double x => some (.num x)
  | .text s => some (.text s)
  | .obj fields =>
    match Json.field? "type" fields with
    | some (.text "path") =>
      match Json.field? "value" fields with
      | some (.text raw) => (TypePath.parse raw).toOption.map .path
      | _ => none
    | some (.text "resource") =>
      match Json.field? "resourcePath" fields with
      | some (.text s) => some (.resource s)
      | _ => none
    | _ => none
  | _ => none

def toJson : Value → Json
  | .null => .text "null"
  | .num x => .obj [("num", .ofDouble x)]
  | .text s => .obj [("text", .text s)]
  | .resource s => .obj [("resource", .text s)]
  | .path p => .obj [("path", .ofPath p)]
  | .object handle => .obj [("object", .ofNat handle.toNat)]

def ofJson (j : Json) : Decoded Value := do
  match ← j.asVariant with
  | ("null", none) => return .null
  | (_, none) => .error .shape
  | (name, some j) =>
    match name with
    | "null" => do
      j.asNull
      return .null
    | "num" => .num <$> j.asDouble
    | "text" => .text <$> j.asText
    | "resource" => .resource <$> j.asText
    | "path" => .path <$> j.asPath
    | "object" => .object <$> j.asUInt32
    | _ => .error .shape

end Value

end ClassTree
