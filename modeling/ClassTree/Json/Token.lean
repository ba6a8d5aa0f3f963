import ClassTree.Json.Basic
/-!
The tokens of JSON text: punctuation, text literals, and the words between them, which are the
keywords and the numbers.
-/

namespace ClassTree.Json

/-- `text none` is a text literal with a lone surrogate. -/
inductive Token where
  | openArr
  | closeArr
  | openObj
  | closeObj
  | comma
  | colon
  | text (s : Option String)
  | word (j : Json)
deriving Repr, Inhabited

def isBlank (c : Char) : Bool := c = ' ' || c = '\t' || c = '\n' || c = '\r'

def isDigit (c : Char) : Bool := '0' ≤ c && c ≤ '9'

def isWordChar (c : Char) : Bool := c.isAlphanum || c = '+' || c = '-' || c = '.'

def ofDigits (ds : List Char) : Nat := ds.foldl (fun n c => 10 * n + (c.toNat - '0'.toNat)) 0

/-! ### Numbers -/

structure NumberLiteral where
  negative : Bool
  whole : List Char
  fraction : Option (List Char)
  exponent : Option Int

namespace NumberLiteral

/-- A sign, and digits without a leading zero. -/
def whole? (cs : List Char) : Option (Bool × List Char × List Char) :=
  let (negative, cs) := match cs with
    | '-' :: rest => (true, rest)
    | _ => (false, cs)
  let (ds, rest) := cs.span isDigit
  if ds = [] ∨ (ds.head? = some '0' ∧ ds ≠ ['0']) then none else some (negative, ds, rest)

def fraction? : List Char → Option (Option (List Char) × List Char)
  | '.' :: rest =>
    let (ds, rest) := rest.span isDigit
    if ds = [] then none else some (some ds, rest)
  | rest => some (none, rest)

def exponent? : List Char → Option (Option Int)
  | [] => some none
  | c :: rest =>
    if c = 'e' ∨ c = 'E' then
      let (negative, ds) := match rest with
        | '-' :: ds => (true, ds)
        | '+' :: ds => (false, ds)
        | ds => (false, ds)
      if ds = [] ∨ ds.any (fun c => !isDigit c) then none
      else some (some (if negative then -(ofDigits ds : Int) else ofDigits ds))
    else none

def ofChars? (cs : List Char) : Option NumberLiteral := do
  let (negative, whole, rest) ← whole? cs
  let (fraction, rest) ← fraction? rest
  let exponent ← exponent? rest
  return ⟨negative, whole, fraction, exponent⟩

/-- Neither fraction nor exponent, and in the range of 64 bits, unsigned above zero and signed
below. -/
def toInt? (l : NumberLiteral) : Option Int :=
  let n := ofDigits l.whole
  if l.fraction = none ∧ l.exponent = none then
    if l.negative then
      if 0 < n ∧ n ≤ 9223372036854775808 then some (-(n : Int)) else none
    else if n < 18446744073709551616 then some n else none
  else none

def toBinary64 (l : NumberLiteral) : Binary64 :=
  let fraction := l.fraction.getD []
  Binary64.ofDecimal l.negative (ofDigits (l.whole ++ fraction))
    (l.exponent.getD 0 - fraction.length)

def toJson (l : NumberLiteral) : Json :=
  match l.toInt? with
  | some n => .int n
  | none => if l.toBinary64.isFinite then .double l.toBinary64 else .beyond

end NumberLiteral

def word? (cs : List Char) : Option Json :=
  if cs = ['n', 'u', 'l', 'l'] then some .null
  else if cs = ['t', 'r', 'u', 'e'] then some (.bool true)
  else if cs = ['f', 'a', 'l', 's', 'e'] then some (.bool false)
  else (NumberLiteral.ofChars? cs).map NumberLiteral.toJson

/-! ### Text literals -/

/-- Splits at the quote that ends a literal. Control characters have to be escaped. -/
def splitText : List Char → Option (List Char × List Char)
  | [] => none
  | '"' :: rest => some ([], rest)
  | '\\' :: c :: rest => (splitText rest).map fun (s, r) => ('\\' :: c :: s, r)
  | c :: rest => if c < ' ' then none else (splitText rest).map fun (s, r) => (c :: s, r)

def hexDigit? (c : Char) : Option Nat :=
  if isDigit c then some (c.toNat - '0'.toNat)
  else if 'a' ≤ c ∧ c ≤ 'f' then some (c.toNat - 'a'.toNat + 10)
  else if 'A' ≤ c ∧ c ≤ 'F' then some (c.toNat - 'A'.toNat + 10)
  else none

def simpleEscape? : Char → Option Char
  | '"' => some '"'
  | '\\' => some '\\'
  | '/' => some '/'
  | 'b' => some '\x08'
  | 'f' => some '\x0c'
  | 'n' => some '\n'
  | 'r' => some '\r'
  | 't' => some '\t'
  | _ => none

/-- The code points that the inside of a literal writes, escaped surrogates each on its own. -/
def codePoints? : List Char → Option (List Nat)
  | [] => some []
  | '\\' :: 'u' :: a :: b :: c :: d :: rest => do
    let n := 4096 * (← hexDigit? a) + 256 * (← hexDigit? b) + 16 * (← hexDigit? c) + (← hexDigit? d)
    return n :: (← codePoints? rest)
  | '\\' :: c :: rest => do
    let e ← simpleEscape? c
    return e.toNat :: (← codePoints? rest)
  | c :: rest => return c.toNat :: (← codePoints? rest)

def isHighSurrogate (n : Nat) : Bool := 0xD800 ≤ n && n < 0xDC00

def isLowSurrogate (n : Nat) : Bool := 0xDC00 ≤ n && n < 0xE000

/-- Joins the pairs of surrogates; `none` if one stands alone. -/
def joinSurrogates? : List Nat → Option (List Char)
  | [] => some []
  | [n] => if isHighSurrogate n || isLowSurrogate n then none else some [Char.ofNat n]
  | n :: m :: rest =>
    if isHighSurrogate n then
      if isLowSurrogate m then
        (joinSurrogates? rest).map (Char.ofNat (0x10000 + 1024 * (n - 0xD800) + (m - 0xDC00)) :: ·)
      else none
    else if isLowSurrogate n then none
    else (joinSurrogates? (m :: rest)).map (Char.ofNat n :: ·)

def text? (inside : List Char) : Option Token :=
  (codePoints? inside).map fun points => .text ((joinSurrogates? points).map String.ofList)

/-! ### Token sequences -/

def punctuation? : Char → Option Token
  | '[' => some .openArr
  | ']' => some .closeArr
  | '{' => some .openObj
  | '}' => some .closeObj
  | ',' => some .comma
  | ':' => some .colon
  | _ => none

theorem splitText_length {cs s r : List Char} (h : splitText cs = some (s, r)) :
    r.length < cs.length := by
  fun_induction splitText cs generalizing s with
  | case1 => simp at h
  | case2 rest =>
    obtain ⟨-, rfl⟩ := Prod.mk.inj (Option.some.inj h)
    simp
  | case3 c rest ih =>
    obtain ⟨⟨s', r'⟩, hs, he⟩ := Option.map_eq_some_iff.1 h
    obtain ⟨-, rfl⟩ := Prod.mk.inj he
    have := ih hs
    simp only [List.length_cons]
    omega
  | case4 c rest _ _ hc => simp at h
  | case5 c rest _ _ hc ih =>
    obtain ⟨⟨s', r'⟩, hs, he⟩ := Option.map_eq_some_iff.1 h
    obtain ⟨-, rfl⟩ := Prod.mk.inj he
    have := ih hs
    simp only [List.length_cons]
    omega

def tokens? : List Char → Option (List Token)
  | [] => some []
  | c :: rest =>
    if isBlank c then tokens? rest
    else match punctuation? c with
      | some t => (tokens? rest).map (t :: ·)
      | none =>
        if c = '"' then
          match h : splitText rest with
          | none => none
          | some (inside, after) => do
            have := splitText_length h
            let t ← text? inside
            return t :: (← tokens? after)
        else do
          have : (rest.dropWhile isWordChar).length ≤ rest.length :=
            (List.dropWhile_sublist isWordChar).length_le
          let j ← word? (c :: rest.takeWhile isWordChar)
          return .word j :: (← tokens? (rest.dropWhile isWordChar))
termination_by cs => cs.length

end ClassTree.Json
