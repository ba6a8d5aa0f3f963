import Mathlib.Data.List.Forall2
import ClassTree.Proofs.Collection.Lockstep
import ClassTree.Proofs.Decimal.Whole
/-!
Values that stand for one another because they are equal, and what it means for lists, for requests
to a list and for its answers to differ in nothing but such values.
-/

namespace ClassTree

/-! ### Equal values -/

namespace Value

variable {v w : Value} {xs ys : List Value}

lemma canonical_canonical (v : Value) : v.canonical.canonical = v.canonical := by
  cases v with
  | num x => exact congrArg num x.canonical_canonical
  | _ => rfl

lemma canonical_beq (v : Value) : v.canonical == v := beq_iff.mpr v.canonical_canonical

lemma isNum_congr (h : v == w) : v.isNum = w.isNum := by
  have hc (u : Value) : u.canonical.isNum = u.isNum := by cases u <;> rfl
  rw [← hc v, beq_iff.mp h, hc]

lemma isNull_congr (h : v == w) : v.isNull = w.isNull := by
  have hc (u : Value) : u.canonical.isNull = u.isNull := by cases u <;> rfl
  rw [← hc v, beq_iff.mp h, hc]

lemma position?_congr (h : v == w) : v.position? = w.position? := by
  have hc (u : Value) : u.canonical.position? = u.position? := by
    cases u with
    | num x => simp only [canonical, position?, x.toInt?_canonical]
    | _ => rfl
  rw [← hc v, beq_iff.mp h, hc]

lemma forall₂_beq_iff :
    List.Forall₂ (fun v w : Value => v == w) xs ys ↔ xs.map canonical = ys.map canonical := by
  rw [← List.forall₂_eq_eq_eq, List.forall₂_map_left_iff, List.forall₂_map_right_iff]
  simp only [beq_iff]

lemma contains_alike (h : xs.map canonical = ys.map canonical) (hv : v == w) :
    xs.contains v = ys.contains w := by
  have hc (zs : List Value) (u : Value) : zs.contains u = (zs.map canonical).contains u := by
    rw [List.contains_eq_any_beq, List.contains_eq_any_beq, List.any_map]
    congr 1
    exact funext fun x => BEq.congr_right (BEq.symm x.canonical_beq)
  rw [contains_congr xs hv, hc, h, ← hc]

lemma findIdx?_alike (h : xs.map canonical = ys.map canonical) (hv : v == w) :
    xs.findIdx? (· == v) = ys.findIdx? (· == w) := by
  have hc (zs : List Value) (u : Value) :
      zs.findIdx? (· == u) = (zs.map canonical).findIdx? (· == u) := by
    rw [List.findIdx?_map]
    congr 1
    exact funext fun x => BEq.congr_left (BEq.symm x.canonical_beq)
  have hw : (fun x : Value => x == v) = fun x => x == w := funext fun x => BEq.congr_right hv
  rw [hw, hc, h, ← hc]

lemma eraseP_alike (h : xs.map canonical = ys.map canonical) (hv : v == w) :
    (xs.eraseP (· == v)).map canonical = (ys.eraseP (· == w)).map canonical := by
  have hc (zs : List Value) (u : Value) :
      (zs.eraseP (· == u)).map canonical = (zs.map canonical).eraseP (· == u) := by
    rw [List.eraseP_map]
    congr 2
    exact funext fun x => BEq.congr_left (BEq.symm x.canonical_beq)
  have hw : (fun x : Value => x == v) = fun x => x == w := funext fun x => BEq.congr_right hv
  rw [hw, hc, h, ← hc]

lemma alike_cases {x y : Option Value} (h : x.map canonical = y.map canonical) :
    (x = none ∧ y = none) ∨ ∃ a b, x = some a ∧ y = some b ∧ a == b := by
  cases x with
  | none => exact .inl ⟨rfl, Option.map_eq_none_iff.mp h.symm⟩
  | some a =>
    obtain ⟨b, hb, hab⟩ := Option.map_eq_some_iff.mp h.symm
    exact .inr ⟨a, b, rfl, hb, beq_iff.mpr hab.symm⟩

lemma getD_alike {x y : Option Value} (h : x.map canonical = y.map canonical) :
    x.getD .null == y.getD .null := by
  have hc (z : Option Value) : (z.getD .null).canonical = (z.map canonical).getD .null := by
    cases z <;> rfl
  rw [beq_iff, hc, h, ← hc]

lemma alike_of_getD {x y : Option Value} (hs : x.isSome = y.isSome)
    (h : x.getD .null == y.getD .null) : x.map canonical = y.map canonical := by
  cases x with
  | none =>
    cases y with
    | none => rfl
    | some b => cases hs
  | some a =>
    cases y with
    | none => cases hs
    | some b => exact congrArg some (beq_iff.mp h)

end Value

/-! ### Alike lists, requests and answers -/

/-- Values that may stand for each other in two maps mean such values there. -/
def OrderedMap.Alike (m n : OrderedMap Value Value) : Prop :=
  ∀ k, (m.get? k).map Value.canonical = (n.get? k).map Value.canonical

def PairAlike (x y : Value × Value) : Prop := x.1 == y.1 ∧ x.2 == y.2

/-- The same list, up to equality of values, to whoever sees its pairs and which keys have a value.
-/
structure Container.Alike (l m : Container) : Prop where
  kind : l.isIndexableByNumber = m.isIndexableByNumber
  pairs : List.Forall₂ PairAlike l.pairs m.pairs
  associated (k : Value) : l.hasAssociated k = m.hasAssociated k

inductive ListCall.Alike : ListCall → ListCall → Prop
  | set {k k' v v' : Value} (hk : k == k') (hv : v == v') (growth : Bool) :
      Alike (.set k v growth) (.set k' v' growth)
  | add {v w : Value} (hv : v == w) : Alike (.add v) (.add w)
  | remove {v w : Value} (hv : v == w) : Alike (.remove v) (.remove w)
  | cut (r : ListRange) : Alike (.cut r) (.cut r)

inductive ListRequest.Alike : ListRequest → ListRequest → Prop
  | call {c d : ListCall} (h : c.Alike d) : Alike (.call c) (.call d)
  | get {k k' : Value} (hk : k == k') : Alike (.get k) (.get k')
  | hasAssociated {k k' : Value} (hk : k == k') : Alike (.hasAssociated k) (.hasAssociated k')
  | contains {v w : Value} (hv : v == w) : Alike (.contains v) (.contains w)
  | find {v w : Value} (hv : v == w) (r : ListRange) : Alike (.find v r) (.find w r)
  | copy (r : ListRange) : Alike (.copy r) (.copy r)

inductive ListError.Alike : ListError → ListError → Prop
  | keyNotFound {k k' : Value} (hk : k == k') : Alike (.keyNotFound k) (.keyNotFound k')
  | invalidKey {k k' : Value} (hk : k == k') : Alike (.invalidKey k) (.invalidKey k')
  | invalidOperation (o : WholeOperation) : Alike (.invalidOperation o) (.invalidOperation o)
  | indexOutOfRange (i : Int) (n : Nat) : Alike (.indexOutOfRange i n) (.indexOutOfRange i n)

inductive ListReply.Alike : ListReply → ListReply → Prop
  | done (removed : Option Bool) : Alike (.done removed) (.done removed)
  | value {v w : Value} (hv : v == w) : Alike (.value v) (.value w)
  | flag (b : Bool) : Alike (.flag b) (.flag b)
  | position (n : Nat) : Alike (.position n) (.position n)
  | copied {xs ys : List (Value × Value)} (h : List.Forall₂ PairAlike xs ys) :
      Alike (.copied xs) (.copied ys)

/-- Two outcomes that are both a success, with results in relation, or both the same refusal. -/
inductive OutcomeAlike {α β : Type} (R : α → β → Prop) :
    Except ListError α → Except ListError β → Prop
  | ok {a : α} {b : β} (h : R a b) : OutcomeAlike R (.ok a) (.ok b)
  | error {e e' : ListError} (h : e.Alike e') : OutcomeAlike R (.error e) (.error e')

/-- What is seen of two lists after a request: replies, sizes, elements and pairs. -/
structure SeenAlike (s t : Except ListError ListReply × Nat × List Value × List (Value × Value)) :
    Prop where
  reply : OutcomeAlike ListReply.Alike s.1 t.1
  size : s.2.1 = t.2.1
  values : List.Forall₂ (fun v w => v == w) s.2.2.1 t.2.2.1
  pairs : List.Forall₂ PairAlike s.2.2.2 t.2.2.2

lemma ListError.Alike.refl (e : ListError) : e.Alike e := by
  cases e with
  | keyNotFound k => exact .keyNotFound BEq.rfl
  | invalidOperation o => exact .invalidOperation o
  | indexOutOfRange i n => exact .indexOutOfRange i n
  | invalidKey k => exact .invalidKey BEq.rfl

namespace OutcomeAlike

variable {α β γ δ : Type} {R : α → β → Prop} {S : γ → δ → Prop}
  {x : Except ListError α} {y : Except ListError β}

lemma map {f : α → γ} {g : β → δ} (h : OutcomeAlike R x y) (hfg : ∀ a b, R a b → S (f a) (g b)) :
    OutcomeAlike S (f <$> x) (g <$> y) := by
  cases h with
  | ok h => exact .ok (hfg _ _ h)
  | error h => exact .error h

lemma refl (x : Except ListError α) : OutcomeAlike Eq x x := by
  cases x with
  | ok a => exact .ok rfl
  | error e => exact .error (.refl e)

end OutcomeAlike

/-! ### Maps -/

namespace OrderedMap.Alike

variable {m n : OrderedMap Value Value} {k k' v v' : Value}

lemma of_entries (h : List.Forall₂ PairAlike m.entries n.entries) : m.Alike n := by
  intro k
  obtain ⟨xs⟩ := m
  obtain ⟨ys⟩ := n
  simp only [OrderedMap.get?] at h ⊢
  induction h with
  | nil => rfl
  | @cons x y xs ys hxy _ ih =>
    by_cases hx : x.1 == k
    · rw [List.find?_cons_of_pos (by exact hx),
        List.find?_cons_of_pos (by exact BEq.trans (BEq.symm hxy.1) hx)]
      exact congrArg some (Value.beq_iff.mp hxy.2)
    · rw [List.find?_cons_of_neg (by exact hx),
        List.find?_cons_of_neg (by exact fun hy => hx (BEq.trans hxy.1 hy)), ih]

lemma get? (h : m.Alike n) (hk : k == k') :
    (m.get? k).map Value.canonical = (n.get? k').map Value.canonical := by
  rw [get?_congr hk]
  exact h k'

lemma contains (h : m.Alike n) (hk : k == k') : m.contains k = n.contains k' := by
  have hs := congrArg Option.isSome (h.get? hk)
  rwa [Option.isSome_map, Option.isSome_map, isSome_get?, isSome_get?] at hs

lemma insert (h : m.Alike n) (hk : k == k') (hv : v == v') :
    (m.insert k v).Alike (n.insert k' v') := by
  intro j
  rw [get?_insert, get?_insert, BEq.congr_left hk]
  split
  · exact congrArg some (Value.beq_iff.mp hv)
  · exact h j

lemma erase (h : m.Alike n) (hm : m.Distinct) (hn : n.Distinct) (hk : k == k') :
    (m.erase k).Alike (n.erase k') := by
  intro j
  rw [get?_erase hm, get?_erase hn, BEq.congr_left hk]
  split
  · rfl
  · exact h j

lemma filterKeys {p q : Value → Bool} (h : m.Alike n) (hp : ∀ j j', j == j' → p j = q j') :
    (m.filterKeys p).Alike (n.filterKeys q) := by
  have hpp (a b : Value) (hab : a == b) : p a = p b := (hp a b hab).trans (hp b b BEq.rfl).symm
  have hqq (a b : Value) (hab : a == b) : q a = q b := (hp a a BEq.rfl).symm.trans (hp a b hab)
  intro j
  rw [get?_filterKeys hpp, get?_filterKeys hqq, hp j j BEq.rfl]
  split
  · exact h j
  · rfl

end OrderedMap.Alike

end ClassTree
