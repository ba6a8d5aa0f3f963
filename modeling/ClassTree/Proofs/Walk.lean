import Mathlib.Tactic.Lemma
/-!
Walks along references, where each entry of a table may name the place of the next one. No measure
bounds a walk: from a place whose references lead round in a circle there is none.
-/

namespace ClassTree

variable {α β : Type}

inductive Walk (get? : Nat → Option α) (next? : α → Option Nat) : Option Nat → List α → Prop
  | done : Walk get? next? none []
  | missing {i : Nat} (h : get? i = none) : Walk get? next? (some i) []
  | entry {i : Nat} {a : α} {l : List α} (h : get? i = some a)
      (hl : Walk get? next? (next? a) l) : Walk get? next? (some i) (a :: l)

namespace Walk

variable {get? : Nat → Option α} {next? : α → Option Nat}

lemma unique {i : Option Nat} {l l' : List α} (h : Walk get? next? i l)
    (h' : Walk get? next? i l') : l = l' := by
  induction h generalizing l' with
  | done =>
    cases h'
    rfl
  | missing he =>
    cases h' with
    | missing _ => rfl
    | entry he' _ => simp [he] at he'
  | entry he _ ih =>
    cases h' with
    | missing he' => simp [he] at he'
    | entry he' hl' =>
      obtain rfl := Option.some.inj (he.symm.trans he')
      rw [ih hl']

lemma map {get?' : Nat → Option β} {next?' : β → Option Nat} (f : α → β)
    (he : ∀ i, get?' i = (get? i).map f) (hn : ∀ a, next?' (f a) = next? a) {i : Option Nat}
    {l : List α} (h : Walk get? next? i l) : Walk get?' next?' i (l.map f) := by
  induction h with
  | done => exact .done
  | missing hi => exact .missing (by rw [he, hi, Option.map_none])
  | entry hi _ ih =>
    refine .entry (by rw [he, hi, Option.map_some]) ?_
    rwa [hn]

end Walk

end ClassTree
