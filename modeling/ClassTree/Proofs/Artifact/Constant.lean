import ClassTree.Proofs.Artifact.Literal
/-!
Constant expressions: which expressions have a literal, and what a literal tells of the expression
it was made from. Reading a literal back gives the expression, except that no zero has a sign.
-/

namespace ClassTree

/-! ### Numbers -/

namespace Binary64

variable {x : Binary64} {j : Json}

def unsignedZero (x : Binary64) : Binary64 := if x.isZero then zero false else x

lemma canonical_of_isFinite (h : x.isFinite = true) : x.canonical = x.unsignedZero := by
  have hn : x.isNaN = false := by
    rw [isFinite, decide_eq_true_eq] at h
    rw [isNaN, decide_eq_false_iff_not]
    omega
  rw [canonical, hn, if_neg Bool.false_ne_true, unsignedZero]

lemma unsignedZero_ofInt {n : Int} (h : x.toInt? = some n) :
    (ofInt n).unsignedZero = x.unsignedZero := by
  have hx := isFinite_of_toInt? h
  have hi : (ofInt n).isFinite = true := by rwa [ofInt_eq h]
  rw [← canonical_of_isFinite hx, ← canonical_of_isFinite hi, canonical_ofInt h]

lemma toLiteral?_zero (negative : Bool) : (zero negative).toLiteral? = some (.int 0) := by
  rw [toLiteral?, toInt?_zero]
  rfl

lemma toLiteral?_unsignedZero (x : Binary64) : x.unsignedZero.toLiteral? = x.toLiteral? := by
  rw [unsignedZero]
  split
  · next hz =>
    obtain ⟨negative, rank⟩ := x
    obtain rfl : rank = 0 := Fin.ext (of_decide_eq_true hz)
    exact (toLiteral?_zero false).trans (toLiteral?_zero negative).symm
  · rfl

end Binary64

namespace Expr

variable {e x : Expr} {items : List Expr} {j : Json} {values : List Json}

/-! ### Constants -/

inductive Constant : Expr → Prop
  | null : Constant .null
  | num {x : Binary64} (h : x.isFinite = true) : Constant (.num x)
  | text (s : String) : Constant (.text s)
  | resource (s : String) : Constant (.resource s)
  | path (p : TypePath) : Constant (.path p)
  | list {items : List Expr} (h : ∀ e ∈ items, Constant e) : Constant (.list items)

/-- What only the running program can evaluate, and numbers that no literal can hold. -/
inductive Unwritable : Expr → Prop
  | num {x : Binary64} (h : x.isFinite = false) : Unwritable (.num x)
  | globalVar (name : String) : Unwritable (.globalVar name)
  | call (name : String) (args : List Expr) : Unwritable (.call name args)
  | new (p : TypePath) (args : List Expr) : Unwritable (.new p args)
  | assignField (name : String) (value : Expr) : Unwritable (.assignField name value)

/-- The first expression is the second one or stands in it, in lists of lists at any depth. -/
inductive Within : Expr → Expr → Prop
  | self (e : Expr) : Within e e
  | item {x e : Expr} {items : List Expr} (he : e ∈ items) (h : Within x e) :
    Within x (.list items)

lemma constant_or_unwritable (h : ∀ items, e ≠ .list items) : e.Constant ∨ e.Unwritable := by
  cases e with
  | null => exact .inl .null
  | num x =>
    cases hx : x.isFinite with
    | true => exact .inl (.num hx)
    | false => exact .inr (.num hx)
  | text s => exact .inl (.text s)
  | resource s => exact .inl (.resource s)
  | path p => exact .inl (.path p)
  | list items => exact absurd rfl (h items)
  | globalVar name => exact .inr (.globalVar name)
  | call name args => exact .inr (.call name args)
  | new p args => exact .inr (.new p args)
  | assignField name value => exact .inr (.assignField name value)

lemma Constant.not_unwritable (h : e.Constant) : ¬ e.Unwritable := by
  intro hu
  cases h with
  | num hx =>
    cases hu with
    | num hx' => simp [hx] at hx'
  | _ => cases hu

lemma constant_list_iff : (Expr.list items).Constant ↔ ∀ e ∈ items, e.Constant := by
  constructor
  · rintro ⟨⟩
    assumption
  · exact .list

lemma Constant.within (h : e.Constant) (hx : Within x e) : x.Constant := by
  induction hx with
  | self => exact h
  | item he _ ih => exact ih (constant_list_iff.mp h _ he)

lemma constant_iff : e.Constant ↔ ∀ x, Within x e → ¬ x.Unwritable := by
  constructor
  · exact fun h x hx => (h.within hx).not_unwritable
  · induction e using list_induction with
    | list items ih =>
      intro h
      exact .list fun e he => ih e he fun x hx => h x (.item he hx)
    | single e hl =>
      intro h
      exact (constant_or_unwritable hl).resolve_right (h e (.self e))

/-! ### Expressions with a literal -/

lemma exists_toLiterals?_iff : (∃ values, toLiterals? items = some values) ↔
    ∀ e ∈ items, ∃ j, e.toLiteral? = some j := by
  simp only [toLiterals?_eq_some_iff]
  induction items with
  | nil => exact iff_of_true ⟨[], .nil⟩ fun e he => (List.not_mem_nil he).elim
  | cons e rest ih =>
    rw [List.forall_mem_cons, ← ih]
    constructor
    · rintro ⟨_, hj | ⟨hj, hjs⟩⟩
      exact ⟨⟨_, hj⟩, _, hjs⟩
    · rintro ⟨⟨j, hj⟩, js, hjs⟩
      exact ⟨j :: js, .cons hj hjs⟩

lemma exists_toLiteral?_num_iff {x : Binary64} :
    (∃ j, (Expr.num x).toLiteral? = some j) ↔ x.isFinite = true := by
  constructor
  · rintro ⟨j, h⟩
    exact isFinite_of_toLiteral? h
  · intro h
    obtain ⟨j, -, hj, -⟩ := decoded_num h
    exact ⟨j, hj⟩

lemma exists_toLiteral?_iff : (∃ j, e.toLiteral? = some j) ↔ e.Constant := by
  induction e using list_induction with
  | list items ih =>
    rw [constant_list_iff, ← forall₂_congr ih, ← exists_toLiterals?_iff]
    constructor
    · rintro ⟨j, h⟩
      obtain ⟨values, hv, -⟩ := Option.map_eq_some_iff.mp h
      exact ⟨values, hv⟩
    · rintro ⟨values, hv⟩
      exact ⟨_, Option.map_eq_some_iff.mpr ⟨values, hv, rfl⟩⟩
  | single e hl =>
    constructor
    · rintro ⟨j, h⟩
      refine (constant_or_unwritable hl).resolve_right fun hu => ?_
      cases hu with
      | num hx => simp [isFinite_of_toLiteral? h] at hx
      | _ => cases h
    · intro h
      cases h with
      | num hx => exact exists_toLiteral?_num_iff.mpr hx
      | list _ => exact absurd rfl (hl _)
      | _ => exact ⟨_, rfl⟩

/-! ### What a literal tells -/

mutual

def unsignedZeros : Expr → Expr
  | .num x => .num x.unsignedZero
  | .list items => .list (allUnsignedZeros items)
  | .call name args => .call name (allUnsignedZeros args)
  | .new p args => .new p (allUnsignedZeros args)
  | .assignField name value => .assignField name value.unsignedZeros
  | e => e
termination_by structural e => e

def allUnsignedZeros : List Expr → List Expr
  | [] => []
  | e :: rest => e.unsignedZeros :: allUnsignedZeros rest
termination_by structural l => l

end

mutual

/-- The expression that a literal was made from. -/
def ofLiteral : Json → Expr
  | .int n => .num (Binary64.ofInt n).unsignedZero
  | .double x => .num x.unsignedZero
  | .text s => .text s
  | .obj [("resourcePath", .text s), ("type", .text "resource")] => .resource s
  | .obj [("type", .text "path"), ("value", .text s)] =>
    match TypePath.parse s with
    | .ok p => .path p
    | .error _ => .null
  | .obj [("type", .text "list"), ("values", .arr values)] => .list (ofLiterals values)
  | _ => .null
termination_by structural j => j

def ofLiterals : List Json → List Expr
  | [] => []
  | j :: rest => ofLiteral j :: ofLiterals rest
termination_by structural l => l

end

lemma ofLiteral_num {x : Binary64} (h : x.toLiteral? = some j) :
    ofLiteral j = .num x.unsignedZero := by
  obtain ⟨-, ⟨n, hn, -, rfl⟩ | rfl⟩ := Binary64.toLiteral?_cases h
  · exact congrArg num (Binary64.unsignedZero_ofInt hn)
  · rfl

lemma ofLiteral_pathLiteral (p : TypePath) : ofLiteral (pathLiteral p) = .path p := by
  change (match TypePath.parse p.text with
    | .ok p => Expr.path p
    | .error _ => .null) = _
  rw [TypePath.parse_text]

lemma ofLiteral_of_toLiteral? (h : e.toLiteral? = some j) : ofLiteral j = e.unsignedZeros := by
  induction e using list_induction generalizing j with
  | list items ih =>
    obtain ⟨values, hv, rfl⟩ := Option.map_eq_some_iff.mp h
    have hall : ofLiterals values = allUnsignedZeros items := by
      replace hv := toLiterals?_eq_some_iff.mp hv
      clear h
      induction hv with
      | nil => rfl
      | @cons e j rest js hj _ ihrest =>
        obtain ⟨he, hrest⟩ := List.forall_mem_cons.mp ih
        rw [ofLiterals, allUnsignedZeros, he hj, ihrest hrest]
    exact congrArg list hall
  | single e hl =>
    cases e with
    | num x => exact ofLiteral_num h
    | path p =>
      cases h
      exact ofLiteral_pathLiteral p
    | list items => exact absurd rfl (hl items)
    | null | text _ | resource _ =>
      cases h
      rfl
    | _ => cases h

lemma toLiteral?_unsignedZeros (e : Expr) : e.unsignedZeros.toLiteral? = e.toLiteral? := by
  induction e using list_induction with
  | list items ih =>
    have hall : toLiterals? (allUnsignedZeros items) = toLiterals? items := by
      induction items with
      | nil => rfl
      | cons e rest ihrest =>
        obtain ⟨he, hrest⟩ := List.forall_mem_cons.mp ih
        rw [allUnsignedZeros, toLiterals?, toLiterals?, he, ihrest hrest]
    exact congrArg (Option.map listLiteral) hall
  | single e hl =>
    cases e with
    | num x => exact x.toLiteral?_unsignedZero
    | list items => exact absurd rfl (hl items)
    | _ => rfl

structure LiteralForm (e : Expr) : Prop where
  literal_iff : (∃ j, e.toLiteral? = some j) ↔ e.Constant
  isLiteral_iff : e.isLiteral = true ↔ e.Constant
  constant_iff : e.Constant ↔ ∀ x, Within x e → ¬ x.Unwritable
  same_literal_iff {e' : Expr} {j : Json} : e.toLiteral? = some j →
    (e'.toLiteral? = some j ↔ e'.unsignedZeros = e.unsignedZeros)

theorem literalForm (e : Expr) : e.LiteralForm := by
  refine ⟨exists_toLiteral?_iff, ?isLiteral, constant_iff, ?same⟩
  case isLiteral => rw [isLiteral, Option.isSome_iff_exists, exists_toLiteral?_iff]
  case same =>
    intro e' j h
    constructor
    · intro h'
      rw [← ofLiteral_of_toLiteral? h', ofLiteral_of_toLiteral? h]
    · intro he
      rw [← toLiteral?_unsignedZeros e', he, toLiteral?_unsignedZeros, h]

end Expr

end ClassTree
