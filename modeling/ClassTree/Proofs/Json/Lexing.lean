import ClassTree.Proofs.Json.Number
/-!
The tokens of written JSON text. Both ways of writing a value give the tokens of the value, as the
blanks between them make no token.
-/

namespace ClassTree.Json

variable {c : Char} {cs cs' rest inside : List Char} {t : Token} {ts ts' : List Token} {j : Json}

/-! ### Text literals -/

def IsPlain (c : Char) : Prop := c ≠ '"' ∧ c ≠ '\\' ∧ ¬ c < ' '

lemma isPlain_hexDigit {n : Nat} (h : n < 16) : IsPlain (hexDigit n) := by
  have hall : ∀ n < 16, hexDigit n ≠ '"' ∧ hexDigit n ≠ '\\' ∧ ¬ hexDigit n < ' ' := by decide
  exact hall n h

lemma hexDigit?_hexDigit {n : Nat} (h : n < 16) : hexDigit? (hexDigit n) = some n := by
  have hall : ∀ n < 16, hexDigit? (hexDigit n) = some n := by decide
  exact hall n h

lemma splitText_plain (h : IsPlain c) :
    splitText (c :: rest) = (splitText rest).map fun (s, r) => (c :: s, r) := by
  rw [splitText, if_neg h.2.2]
  · exact h.1
  · exact fun _ _ hc _ => h.2.1 hc

lemma toNat_lt_of_lt (h : c < ' ') : c.toNat < 32 := h

lemma splitText_escape (c : Char) (h : splitText cs = some (inside, rest)) :
    splitText (escape c ++ cs) = some (escape c ++ inside, rest) := by
  unfold escape
  split_ifs with h₁ h₂ h₃ h₄ h₅ h₆ h₇ h₈
  on_goal 8 =>
    have hc := toNat_lt_of_lt h₈
    have h0 : IsPlain '0' := by simp [IsPlain]
    have hhigh : IsPlain (hexDigit (c.toNat / 16)) := isPlain_hexDigit (by omega)
    have hlow : IsPlain (hexDigit (c.toNat % 16)) := isPlain_hexDigit (by omega)
    simp [splitText, splitText_plain h0, splitText_plain hhigh, splitText_plain hlow, h]
  on_goal 8 => simp [splitText_plain ⟨h₁, h₂, h₈⟩, h]
  all_goals simp [splitText, h]

lemma splitText_flatMap_escape (cs rest : List Char) :
    splitText (cs.flatMap escape ++ '"' :: rest) = some (cs.flatMap escape, rest) := by
  induction cs with
  | nil => simp [splitText]
  | cons c cs ih =>
    rw [List.flatMap_cons, List.append_assoc]
    exact splitText_escape c ih

lemma codePoints?_plain (h : c ≠ '\\') :
    codePoints? (c :: rest) = (codePoints? rest).map (c.toNat :: ·) := by
  rw [codePoints?]
  · cases codePoints? rest <;> rfl
  · exact fun _ _ _ _ _ hc _ => h hc
  · exact fun _ _ hc _ => h hc

lemma codePoints?_escape {points : List Nat} (c : Char) (h : codePoints? cs = some points) :
    codePoints? (escape c ++ cs) = some (c.toNat :: points) := by
  unfold escape
  split_ifs with h₁ h₂ h₃ h₄ h₅ h₆ h₇ h₈
  on_goal 8 =>
    have hc := toNat_lt_of_lt h₈
    have h0 : hexDigit? '0' = some 0 := by decide
    have hhigh : hexDigit? (hexDigit (c.toNat / 16)) = some (c.toNat / 16) :=
      hexDigit?_hexDigit (by omega)
    have hlow : hexDigit? (hexDigit (c.toNat % 16)) = some (c.toNat % 16) :=
      hexDigit?_hexDigit (by omega)
    simp [codePoints?, h0, hhigh, hlow, h]
    omega
  on_goal 8 => simp [codePoints?_plain h₂, h]
  all_goals simp [codePoints?, simpleEscape?, *]

lemma codePoints?_flatMap_escape (cs : List Char) :
    codePoints? (cs.flatMap escape) = some (cs.map Char.toNat) := by
  induction cs with
  | nil => rfl
  | cons c cs ih =>
    rw [List.flatMap_cons]
    exact codePoints?_escape c ih

lemma not_isSurrogate (c : Char) :
    isHighSurrogate c.toNat = false ∧ isLowSurrogate c.toNat = false := by
  have hv : c.toNat < 0xD800 ∨ 0xDFFF < c.toNat ∧ c.toNat < 0x110000 := c.valid
  simp only [isHighSurrogate, isLowSurrogate, Bool.and_eq_false_iff, decide_eq_false_iff_not]
  omega

lemma joinSurrogates?_toNat (cs : List Char) : joinSurrogates? (cs.map Char.toNat) = some cs := by
  induction cs with
  | nil => rfl
  | cons c cs ih =>
    cases cs with
    | nil => simp [joinSurrogates?, not_isSurrogate c]
    | cons c' cs =>
      rw [List.map_cons] at ih
      rw [List.map_cons, List.map_cons, joinSurrogates?, ih]
      simp [not_isSurrogate c]

/-! ### Tokens -/

/-- No word goes on here. -/
def StopsWord (rest : List Char) : Prop := ∀ c ∈ rest.head?, isWordChar c = false

/-- A piece of text is cut into the same tokens whatever comes after it. -/
def Lexes (cs : List Char) (ts : List Token) : Prop :=
  ∀ rest, StopsWord rest → tokens? (cs ++ rest) = (tokens? rest).map (ts ++ ·)

lemma tokens?_quote (s : String) (rest : List Char) :
    tokens? ((quote s).toList ++ rest) = (tokens? rest).map (.text (some s) :: ·) := by
  have hs : (quote s).toList ++ rest = '"' :: (s.toList.flatMap escape ++ '"' :: rest) := by
    simp [quote]
  have ht : text? (s.toList.flatMap escape) = some (.text (some s)) := by
    simp [text?, codePoints?_flatMap_escape, joinSurrogates?_toNat]
  have hsplit := splitText_flatMap_escape s.toList rest
  have hblank : isBlank '"' = false := by decide
  have hpunct : punctuation? '"' = none := rfl
  rw [hs, tokens?, hpunct]
  simp only [hblank, Bool.false_eq_true, if_false, if_true]
  split
  · next h =>
    rw [hsplit] at h
    cases h
  · next inside after h =>
    rw [hsplit] at h
    cases h
    rw [ht]
    cases tokens? rest <;> rfl

lemma delimits_nothing (h : isWordChar c = true) :
    isBlank c = false ∧ punctuation? c = none ∧ c ≠ '"' := by
  have hne {d : Char} (hd : isWordChar d = false) : c ≠ d := by
    rintro rfl
    rw [h] at hd
    cases hd
  refine ⟨?_, ?_, hne (by decide)⟩
  · have h₁ : c ≠ ' ' := hne (by decide)
    have h₂ : c ≠ '\t' := hne (by decide)
    have h₃ : c ≠ '\n' := hne (by decide)
    have h₄ : c ≠ '\r' := hne (by decide)
    simp [isBlank, h₁, h₂, h₃, h₄]
  · unfold punctuation?
    split
    all_goals first
      | rfl
      | exact absurd rfl (hne (by decide))

lemma tokens?_word (hne : cs ≠ []) (hw : ∀ c ∈ cs, isWordChar c = true) (hj : word? cs = some j)
    (hr : StopsWord rest) : tokens? (cs ++ rest) = (tokens? rest).map (.word j :: ·) := by
  obtain ⟨c, cs, rfl⟩ := List.exists_cons_of_ne_nil hne
  have hc := hw c List.mem_cons_self
  have htail : ∀ c ∈ cs, isWordChar c = true := fun d hd => hw d (List.mem_cons_of_mem c hd)
  have hstop : rest.takeWhile isWordChar = [] ∧ rest.dropWhile isWordChar = rest := by
    cases rest with
    | nil => exact ⟨rfl, rfl⟩
    | cons d rest => simp [hr d rfl]
  have htake : (cs ++ rest).takeWhile isWordChar = cs := by
    rw [List.takeWhile_append_of_pos htail, hstop.1, List.append_nil]
  have hdrop : (cs ++ rest).dropWhile isWordChar = rest := by
    rw [List.dropWhile_append_of_pos htail, hstop.2]
  obtain ⟨hblank, hpunct, hquote⟩ := delimits_nothing hc
  rw [List.cons_append, tokens?, hpunct]
  simp only [hblank, hquote, htake, hdrop, hj]
  cases tokens? rest <;> simp

namespace Lexes

lemma nil : Lexes [] [] := by
  intro rest _
  simp

lemma append (h : Lexes cs ts) (h' : Lexes cs' ts') (hs : StopsWord cs') :
    Lexes (cs ++ cs') (ts ++ ts') := by
  intro rest hr
  have hr' : StopsWord (cs' ++ rest) := by
    cases cs' with
    | nil => exact hr
    | cons c cs' => exact hs
  rw [List.append_assoc, h _ hr', h' _ hr, Option.map_map]
  congr 1
  funext us
  simp

lemma blank (h : Lexes cs ts) (hc : isBlank c = true) : Lexes (c :: cs) ts := by
  intro rest hr
  rw [List.cons_append, tokens?, if_pos hc, h rest hr]

lemma quote (s : String) : Lexes (quote s).toList [.text (some s)] :=
  fun rest _ => tokens?_quote s rest

lemma word (hne : cs ≠ []) (hw : ∀ c ∈ cs, isWordChar c = true) (hj : word? cs = some j) :
    Lexes cs [.word j] :=
  fun _ hr => tokens?_word hne hw hj hr

end Lexes

/-! ### Written values -/

mutual

def tokens : Json → List Token
  | .arr items => .openArr :: (tokensOfItems items ++ [.closeArr])
  | .obj fields => .openObj :: (tokensOfFields fields ++ [.closeObj])
  | .text s => [.text (some s)]
  | j => [.word j]
termination_by structural j => j

def tokensOfItems : List Json → List Token
  | [] => []
  | [j] => j.tokens
  | j :: rest => j.tokens ++ .comma :: tokensOfItems rest
termination_by structural l => l

def tokensOfFields : List (String × Json) → List Token
  | [] => []
  | [(k, j)] => .text (some k) :: .colon :: j.tokens
  | (k, j) :: rest => .text (some k) :: .colon :: (j.tokens ++ .comma :: tokensOfFields rest)
termination_by structural l => l

end

/-- Values whose text says what they are: whole numbers fit 64 bits and doubles are finite. -/
inductive Readable : Json → Prop
  | null : Readable .null
  | bool (b : Bool) : Readable (.bool b)
  | int {n : Int} (hl : -9223372036854775808 ≤ n) (hu : n < 18446744073709551616) :
      Readable (.int n)
  | double {x : Binary64} (h : x.isFinite = true) : Readable (.double x)
  | text (s : String) : Readable (.text s)
  | arr {items : List Json} (h : ∀ j ∈ items, Readable j) : Readable (.arr items)
  | obj {fields : List (String × Json)} (h : ∀ f ∈ fields, Readable f.2) : Readable (.obj fields)

lemma Lexes.newLine (h : Lexes cs ts) (level : Nat) : Lexes ((newLine level).toList ++ cs) ts := by
  have hspaces (n : Nat) : Lexes (List.replicate n ' ' ++ cs) ts := by
    induction n with
    | zero => exact h
    | succ n ih => exact ih.blank rfl
  simpa [Json.newLine] using (hspaces (2 * level)).blank (c := '\n') rfl

end ClassTree.Json
