import Mathlib.Data.List.Basic
import Mathlib.Data.List.TakeWhile
/-!
The first answer along a list.
-/

namespace ClassTree

variable {α β γ : Type} {f g : α → Option β} {l l₁ l₂ : List α}

lemma findSome?_congr (h : ∀ x ∈ l, f x = g x) : l.findSome? f = l.findSome? g := by
  rw [← List.head?_filterMap, ← List.head?_filterMap, List.filterMap_congr h]

lemma any_congr {p q : α → Bool} (h : ∀ x ∈ l, p x = q x) : l.any p = l.any q := by
  rw [Bool.eq_iff_iff, List.any_eq_true, List.any_eq_true]
  exact exists_congr fun x => and_congr_right fun hx => by rw [h x hx]

lemma findSome?_bind {g : β → Option γ}
    (h : ∀ x ∈ l, ∀ y, f x = some y → (g y).isSome = true) :
    l.findSome? (fun x => (f x).bind g) = (l.findSome? f).bind g := by
  induction l with
  | nil => rfl
  | cons x l ih =>
    have ih := ih fun z hz => h z (.tail _ hz)
    rw [List.findSome?_cons, List.findSome?_cons]
    cases hx : f x with
    | none => exact ih
    | some y =>
      obtain ⟨z, hz⟩ := Option.isSome_iff_exists.mp (h x (.head _) y hx)
      simp only [Option.bind_some, hz]

/-- What comes after an answer does not matter. -/
lemma findSome?_append_of_isSome (h : ∃ x ∈ l₁, (f x).isSome = true) :
    (l₁ ++ l₂).findSome? f = l₁.findSome? f := by
  obtain ⟨x, hx, hs⟩ := h
  rw [List.findSome?_append, Option.or_of_isSome]
  exact List.findSome?_isSome_iff.mpr ⟨x, hx, hs⟩

lemma findSome?_takeWhile_eq_some_iff {p : α → Bool} {b : β} :
    (l.takeWhile p).findSome? f = some b ↔ ∃ l₁ a l₂, l = l₁ ++ a :: l₂ ∧ f a = some b ∧
      (∀ x ∈ l₁, f x = none) ∧ p a = true ∧ ∀ x ∈ l₁, p x = true := by
  rw [List.findSome?_eq_some_iff]
  constructor
  · rintro ⟨l₁, a, l₂, hl, ha, hn⟩
    have hp : ∀ x ∈ l₁ ++ a :: l₂, p x = true := fun x hx => List.mem_takeWhile_imp (hl ▸ hx)
    refine ⟨l₁, a, l₂ ++ l.dropWhile p, ?_, ha, hn, hp a (by simp), fun x hx => hp x (by simp [hx])⟩
    rw [← List.cons_append, ← List.append_assoc, ← hl, List.takeWhile_append_dropWhile]
  · rintro ⟨l₁, a, l₂, rfl, ha, hn, hpa, hp⟩
    refine ⟨l₁, a, l₂.takeWhile p, ?_, ha, hn⟩
    rw [List.takeWhile_append_of_pos hp, List.takeWhile_cons_of_pos hpa]

end ClassTree
