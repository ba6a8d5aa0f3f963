/-!
Sets that keep the order in which elements were first put in.
-/

namespace ClassTree

structure OrderedSet (α : Type) where
  elements : List α
deriving DecidableEq, Repr

namespace OrderedSet

variable {α : Type}

def empty : OrderedSet α := ⟨[]⟩

instance : Inhabited (OrderedSet α) := ⟨empty⟩

def isEmpty (s : OrderedSet α) : Bool := s.elements.isEmpty

variable [BEq α]

def contains (s : OrderedSet α) (a : α) : Bool := s.elements.contains a

def insert (s : OrderedSet α) (a : α) : OrderedSet α :=
  if s.contains a then s else ⟨s.elements ++ [a]⟩

def erase (s : OrderedSet α) (a : α) : OrderedSet α := ⟨s.elements.erase a⟩

def set (s : OrderedSet α) (a : α) (on : Bool) : OrderedSet α :=
  if on then s.insert a else s.erase a

def ofList (items : List α) : OrderedSet α := items.foldl insert empty

/-! ### What the operations do to the elements -/

theorem contains_iff [LawfulBEq α] {s : OrderedSet α} {a : α} :
    s.contains a = true ↔ a ∈ s.elements := List.contains_iff_mem

@[simp] theorem mem_insert [LawfulBEq α] {s : OrderedSet α} {a b : α} :
    b ∈ (s.insert a).elements ↔ b ∈ s.elements ∨ b = a := by
  unfold insert
  split
  next h =>
    rw [contains_iff] at h
    exact ⟨.inl, fun hb => hb.elim id fun hb => hb ▸ h⟩
  next => simp

theorem nodup_insert [LawfulBEq α] {s : OrderedSet α} (h : s.elements.Nodup) (a : α) :
    (s.insert a).elements.Nodup := by
  unfold insert
  split
  · exact h
  next ha =>
    rw [contains_iff] at ha
    refine List.nodup_append.2 ⟨h, by simp, fun b hb c hc => ?_⟩
    obtain rfl := List.mem_singleton.1 hc
    exact fun hbc => ha (hbc ▸ hb)

theorem mem_erase [LawfulBEq α] {s : OrderedSet α} (h : s.elements.Nodup) {a b : α} :
    b ∈ (s.erase a).elements ↔ b ∈ s.elements ∧ b ≠ a := by
  unfold erase
  rw [h.mem_erase_iff, and_comm]

theorem nodup_erase [LawfulBEq α] {s : OrderedSet α} (h : s.elements.Nodup) (a : α) :
    (s.erase a).elements.Nodup := h.erase a

theorem mem_set [LawfulBEq α] {s : OrderedSet α} (h : s.elements.Nodup) {a b : α} {on : Bool} :
    b ∈ (s.set a on).elements ↔ b = a ∧ on = true ∨ b ≠ a ∧ b ∈ s.elements := by
  cases on <;> by_cases hb : b = a <;> simp [set, mem_erase h, hb]

theorem nodup_set [LawfulBEq α] {s : OrderedSet α} (h : s.elements.Nodup) (a : α) (on : Bool) :
    (s.set a on).elements.Nodup := by
  cases on
  · exact nodup_erase h a
  · exact nodup_insert h a

theorem ofList_elements [LawfulBEq α] {s : OrderedSet α} (h : s.elements.Nodup) :
    ofList s.elements = s := by
  have fold (l : List α) (s : OrderedSet α) (h : (s.elements ++ l).Nodup) :
      l.foldl insert s = ⟨s.elements ++ l⟩ := by
    induction l generalizing s with
    | nil => simp
    | cons a l ih =>
      have ha : s.contains a = false := by
        rw [Bool.eq_false_iff, ne_eq, contains_iff]
        intro ha
        exact (List.nodup_append.1 h).2.2 a ha a List.mem_cons_self rfl
      have hs : s.insert a = ⟨s.elements ++ [a]⟩ := by simp [insert, ha]
      rw [List.foldl_cons, hs, ih _ (by simpa using h)]
      simp
  exact fold s.elements empty h

end OrderedSet

end ClassTree
