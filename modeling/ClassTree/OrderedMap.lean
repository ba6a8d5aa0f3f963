/-!
Maps that keep the order in which keys were first put in. Keys are told apart by `==`, which need
not be equality, and a key that is put in again keeps its place and its first spelling. What an
operation does is said by what `get?` and `keys` give after it.
-/

namespace ClassTree

structure OrderedMap (α β : Type) where
  entries : List (α × β)
deriving DecidableEq, Repr

namespace OrderedMap

variable {α β γ : Type}

def empty : OrderedMap α β := ⟨[]⟩

instance : Inhabited (OrderedMap α β) := ⟨empty⟩

def keys (m : OrderedMap α β) : List α := m.entries.map (·.1)

def values (m : OrderedMap α β) : List β := m.entries.map (·.2)

def size (m : OrderedMap α β) : Nat := m.entries.length

def isEmpty (m : OrderedMap α β) : Bool := m.entries.isEmpty

def map (f : β → γ) (m : OrderedMap α β) : OrderedMap α γ := ⟨m.entries.map fun (k, v) => (k, f v)⟩

def filterKeys (p : α → Bool) (m : OrderedMap α β) : OrderedMap α β := ⟨m.entries.filter (p ·.1)⟩

@[simp] theorem keys_empty : (empty : OrderedMap α β).keys = [] := rfl

@[simp] theorem keys_map (f : β → γ) (m : OrderedMap α β) : (m.map f).keys = m.keys := by
  simp [keys, map]

variable [BEq α]

def get? (m : OrderedMap α β) (k : α) : Option β := (m.entries.find? (·.1 == k)).map (·.2)

def contains (m : OrderedMap α β) (k : α) : Bool := m.entries.any (·.1 == k)

def insertEntries (k : α) (v : β) : List (α × β) → List (α × β)
  | [] => [(k, v)]
  | e :: rest => if e.1 == k then (e.1, v) :: rest else e :: insertEntries k v rest

/-- A new key goes to the end, a known one gets the new value in its place. -/
def insert (m : OrderedMap α β) (k : α) (v : β) : OrderedMap α β := ⟨insertEntries k v m.entries⟩

def insertIfNew (m : OrderedMap α β) (k : α) (v : β) : OrderedMap α β :=
  if m.contains k then m else m.insert k v

def erase (m : OrderedMap α β) (k : α) : OrderedMap α β := ⟨m.entries.eraseP (·.1 == k)⟩

def ofList (pairs : List (α × β)) : OrderedMap α β :=
  pairs.foldl (fun m e => m.insert e.1 e.2) empty

/-! ### What the operations do to `get?` and `keys` -/

@[simp] theorem get?_empty (k : α) : (empty : OrderedMap α β).get? k = none := rfl

theorem isSome_get? (m : OrderedMap α β) (k : α) : (m.get? k).isSome = m.contains k := by
  rw [Bool.eq_iff_iff]
  simp [get?, contains]

theorem contains_eq_any_keys (m : OrderedMap α β) (k : α) :
    m.contains k = m.keys.any (· == k) := by
  simp [contains, keys, Function.comp_def]

theorem get?_map (f : β → γ) (m : OrderedMap α β) (k : α) :
    (m.map f).get? k = (m.get? k).map f := by
  simp [get?, map, List.find?_map, Function.comp_def]

theorem find?_insertEntries [PartialEquivBEq α] (k k' : α) (v : β) (l : List (α × β)) :
    ((insertEntries k v l).find? (·.1 == k')).map (·.2) =
      if k == k' then some v else (l.find? (·.1 == k')).map (·.2) := by
  induction l with
  | nil => by_cases h : k == k' <;> simp [insertEntries, h]
  | cons e l ih =>
    rw [insertEntries]
    split
    next he =>
      have := BEq.congr_left (c := k') he
      by_cases h : k == k' <;> simp_all
    next he =>
      by_cases h' : e.1 == k'
      · have : ¬ k == k' := fun h => he (BEq.trans h' (BEq.symm h))
        simp [h', this]
      · simp [h', ih]

theorem get?_insert [PartialEquivBEq α] (m : OrderedMap α β) (k k' : α) (v : β) :
    (m.insert k v).get? k' = if k == k' then some v else m.get? k' :=
  find?_insertEntries k k' v m.entries

theorem keys_insertEntries (k : α) (v : β) (l : List (α × β)) :
    (insertEntries k v l).map (·.1) =
      if l.any (·.1 == k) then l.map (·.1) else l.map (·.1) ++ [k] := by
  induction l with
  | nil => rfl
  | cons e l ih =>
    by_cases he : e.1 == k
    · simp [insertEntries, he]
    · by_cases hl : l.any (·.1 == k) <;> simp [insertEntries, he, hl, ih]

/-- A key keeps its place, and a new one comes last. -/
theorem keys_insert (m : OrderedMap α β) (k : α) (v : β) :
    (m.insert k v).keys = if m.contains k then m.keys else m.keys ++ [k] :=
  keys_insertEntries k v m.entries

theorem contains_insert [PartialEquivBEq α] (m : OrderedMap α β) (k k' : α) (v : β) :
    (m.insert k v).contains k' = (k == k' || m.contains k') := by
  rw [← isSome_get?, get?_insert, ← isSome_get?]
  split <;> simp_all

theorem keys_insertIfNew (m : OrderedMap α β) (k : α) (v : β) :
    (m.insertIfNew k v).keys = if m.contains k then m.keys else m.keys ++ [k] := by
  by_cases h : m.contains k <;> simp [insertIfNew, h, keys_insert]

def Distinct (m : OrderedMap α β) : Prop := m.keys.Pairwise fun k k' => ¬ k == k'

theorem Distinct.insert [PartialEquivBEq α] {m : OrderedMap α β} (h : m.Distinct) (k : α) (v : β) :
    (m.insert k v).Distinct := by
  unfold Distinct
  rw [keys_insert]
  split
  · exact h
  next hk =>
    refine List.pairwise_append.2 ⟨h, List.pairwise_singleton .., fun a ha b hb => ?_⟩
    obtain rfl := List.mem_singleton.1 hb
    rw [contains_eq_any_keys, List.any_eq_true] at hk
    exact fun hab => hk ⟨a, ha, hab⟩

theorem Distinct.erase {m : OrderedMap α β} (h : m.Distinct) (k : α) : (m.erase k).Distinct :=
  h.sublist (List.Sublist.map _ List.eraseP_sublist)

theorem find?_eraseP [PartialEquivBEq α] {l : List (α × β)}
    (h : (l.map (·.1)).Pairwise fun k k' => ¬ k == k') (k k' : α) :
    (l.eraseP (·.1 == k)).find? (·.1 == k') = if k == k' then none else l.find? (·.1 == k') := by
  induction l with
  | nil => simp
  | cons e l ih =>
    obtain ⟨he, hl⟩ := List.pairwise_cons.1 h
    by_cases hk : e.1 == k
    · rw [List.eraseP_cons_of_pos (by exact hk)]
      by_cases hk' : k == k'
      · simp only [hk', if_true]
        refine List.find?_eq_none.2 fun a ha haa => ?_
        exact he a.1 (List.mem_map_of_mem ha) (BEq.trans (BEq.trans hk hk') (BEq.symm haa))
      · have : ¬ e.1 == k' := fun h => hk' (BEq.trans (BEq.symm hk) h)
        simp [hk', this]
    · rw [List.eraseP_cons_of_neg (by exact hk)]
      by_cases hek : e.1 == k'
      · have : ¬ k == k' := fun h => hk (BEq.trans hek (BEq.symm h))
        simp [hek, this]
      · simp [hek, ih hl]

theorem get?_erase [PartialEquivBEq α] {m : OrderedMap α β} (h : m.Distinct) (k k' : α) :
    (m.erase k).get? k' = if k == k' then none else m.get? k' := by
  unfold get? erase
  rw [find?_eraseP h]
  split <;> rfl

end OrderedMap

end ClassTree
