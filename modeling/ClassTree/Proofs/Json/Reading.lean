import ClassTree.Json.Reader
import ClassTree.Proofs.Json.Lexing
import ClassTree.Proofs.Outcome
/-!
Reading JSON text. What has been written is read back if it does not nest too deep, and nothing that
is read nests deeper.
-/

namespace ClassTree.Json

variable {j : Json} {items : List Json} {fields : List (String × Json)} {stack : List Frame}
  {r r' : Reader} {t : Token}

/-! ### Reading what was written -/

def Runs (r : Reader) (ts : List Token) (r' : Reader) : Prop := ts.foldlM Reader.step r = some r'

namespace Runs

variable {ts ts' : List Token} {r'' : Reader}

lemma nil (r : Reader) : Runs r [] r := rfl

lemma cons (h : r.step t = some r') (h' : Runs r' ts r'') : Runs r (t :: ts) r'' := by
  rw [Runs, List.foldlM_cons, h]
  exact h'

lemma append (h : Runs r ts r') (h' : Runs r' ts' r'') : Runs r (ts ++ ts') r'' := by
  rw [Runs, List.foldlM_append, h]
  exact h'

end Runs

/-- A reader that waits for a value takes this one in. -/
def Taken (j : Json) (stack : List Frame) : Prop :=
  ∀ e, e = Expected.value ∨ e = Expected.valueOrClose →
    Runs ⟨stack, e, none⟩ j.tokens (Reader.finish stack j)

lemma depth_le_depthItems (h : j ∈ items) : j.depth ≤ depthItems items := by
  induction items with
  | nil => cases h
  | cons k rest ih =>
    rw [depthItems]
    rcases List.mem_cons.mp h with rfl | h
    · exact Nat.le_max_left _ _
    · exact Nat.le_trans (ih h) (Nat.le_max_right _ _)

lemma depth_le_depthFields {f : String × Json} (h : f ∈ fields) :
    f.2.depth ≤ depthFields fields := by
  induction fields with
  | nil => cases h
  | cons g rest ih =>
    rw [depthFields]
    rcases List.mem_cons.mp h with rfl | h
    · exact Nat.le_max_left _ _
    · exact Nat.le_trans (ih h) (Nat.le_max_right _ _)

lemma close_of_lt (h : stack.length < maxDepth) (j : Json) :
    Reader.close stack j = Reader.finish stack j := by
  have hs : Reader.isShallow stack = true := by
    simp only [Reader.isShallow, List.isEmpty_iff, List.drop_eq_nil_iff]
    omega
  rw [Reader.close, if_pos hs]

lemma runs_items {acc : List Json} {e : Expected} (he : e = .value ∨ e = .valueOrClose)
    (hne : items ≠ []) (h : ∀ j ∈ items, ∀ acc, Taken j (.arr acc :: stack)) :
    Runs ⟨.arr acc :: stack, e, none⟩ (tokensOfItems items)
      ⟨.arr (items.reverse ++ acc) :: stack, .commaOrClose, none⟩ := by
  induction items generalizing acc e with
  | nil => exact absurd rfl hne
  | cons j rest ih =>
    obtain ⟨hj, hrest⟩ := List.forall_mem_cons.mp h
    cases rest with
    | nil => exact hj acc e he
    | cons k rest =>
      have hnext : Runs ⟨.arr (j :: acc) :: stack, .value, none⟩ _ _ :=
        ih (.inl rfl) (List.cons_ne_nil k rest) hrest
      simpa [tokensOfItems] using (hj acc e he).append (hnext.cons rfl)

lemma runs_fields {acc : List (String × Json)} {e : Expected} (he : e = .key ∨ e = .keyOrClose)
    (hne : fields ≠ []) (h : ∀ f ∈ fields, ∀ acc, Taken f.2 (.member acc true f.1 :: stack)) :
    Runs ⟨.obj acc true :: stack, e, none⟩ (tokensOfFields fields)
      ⟨.obj (fields.reverse ++ acc) true :: stack, .commaOrClose, none⟩ := by
  induction fields generalizing acc e with
  | nil => exact absurd rfl hne
  | cons f rest ih =>
    obtain ⟨k, j⟩ := f
    obtain ⟨hj, hrest⟩ := List.forall_mem_cons.mp h
    have hkey : Reader.step ⟨.obj acc true :: stack, e, none⟩ (.text (some k)) =
        some ⟨.member acc true k :: stack, .colon, none⟩ := by
      rcases he with rfl | rfl <;> rfl
    have hfield {ts : List Token} {r : Reader}
        (hr : Runs ⟨.obj ((k, j) :: acc) true :: stack, .commaOrClose, none⟩ ts r) :
        Runs ⟨.obj acc true :: stack, e, none⟩ (.text (some k) :: .colon :: (j.tokens ++ ts)) r :=
      .cons hkey (.cons rfl ((hj acc .value (.inl rfl)).append hr))
    cases rest with
    | nil => simpa [tokensOfFields] using hfield (.nil _)
    | cons f rest =>
      have hnext : Runs ⟨.obj ((k, j) :: acc) true :: stack, .key, none⟩ _ _ :=
        ih (.inl rfl) (List.cons_ne_nil f rest) hrest
      simpa [tokensOfFields] using hfield (hnext.cons rfl)

lemma taken_arr (hlt : stack.length < maxDepth)
    (h : ∀ j ∈ items, ∀ acc, Taken j (.arr acc :: stack)) : Taken (.arr items) stack := by
  intro e he
  have hopen : Reader.step ⟨stack, e, none⟩ .openArr =
      some ⟨.arr [] :: stack, .valueOrClose, none⟩ := by
    rcases he with rfl | rfl <;> rfl
  rw [← close_of_lt hlt]
  apply Runs.cons hopen
  by_cases hne : items = []
  · subst hne
    exact .cons rfl (.nil _)
  · apply (runs_items (.inr rfl) hne h).append
    exact .cons (by simp [Reader.step]) (.nil _)

lemma taken_obj (hlt : stack.length < maxDepth)
    (h : ∀ f ∈ fields, ∀ acc, Taken f.2 (.member acc true f.1 :: stack)) :
    Taken (.obj fields) stack := by
  intro e he
  have hopen : Reader.step ⟨stack, e, none⟩ .openObj =
      some ⟨.obj [] true :: stack, .keyOrClose, none⟩ := by
    rcases he with rfl | rfl <;> rfl
  rw [← close_of_lt hlt]
  apply Runs.cons hopen
  by_cases hne : fields = []
  · subst hne
    exact .cons rfl (.nil _)
  · apply (runs_fields (.inr rfl) hne h).append
    exact .cons (by simp [Reader.step]) (.nil _)

lemma taken_leaf (hd : j.depth = 0) (hj : j ≠ .beyond) : Taken j stack := by
  rintro e (rfl | rfl) <;> cases j
  all_goals first
    | exact .cons rfl (.nil _)
    | exact absurd rfl hj
    | simp [depth] at hd

lemma Readable.taken (h : Readable j) (hd : j.depth + stack.length ≤ maxDepth) :
    Taken j stack := by
  induction h generalizing stack with
  | arr h ih =>
    rw [depth] at hd
    apply taken_arr (by omega)
    intro j hj acc
    have hle := depth_le_depthItems hj
    apply ih j hj
    rw [List.length_cons]
    omega
  | obj h ih =>
    rw [depth] at hd
    apply taken_obj (by omega)
    intro f hf acc
    have hle := depth_le_depthFields hf
    apply ih f hf
    rw [List.length_cons]
    omega
  | _ => exact taken_leaf rfl nofun

def Frame.parts : Frame → List Json
  | .arr items => items
  | .obj fields _ => fields.map (·.2)
  | .member fields _ _ => fields.map (·.2)

/-- What is open leaves room for the arrays and objects around it. -/
def Room : List Frame → Prop
  | [] => True
  | f :: rest => (∀ j ∈ f.parts, j.depth ≤ maxDepth - (rest.length + 1)) ∧ Room rest

structure Within (r : Reader) : Prop where
  room : Room r.stack
  result : ∀ j ∈ r.result, j.depth ≤ maxDepth

end ClassTree.Json
