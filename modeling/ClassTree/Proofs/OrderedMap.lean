import Mathlib.Data.List.Find
import ClassTree.OrderedMap
/-!
Ordered maps as lists of entries, first with any test that tells keys apart, then with equality.
-/

namespace ClassTree.OrderedMap

variable {α β : Type} {m : OrderedMap α β} {k : α} {v : β}

lemma keys_filterKeys (p : α → Bool) : (m.filterKeys p).keys = m.keys.filter p := by
  rw [keys, keys, filterKeys, List.filter_map]
  rfl

variable [BEq α]

/-- A test that tells the key of each entry from its value finds what the key means. -/
lemma get?_eq_find?_values {test : β → Bool} (h : ∀ e ∈ m.entries, test e.2 = (e.1 == k)) :
    m.get? k = m.values.find? test := by
  rw [get?, values, List.find?_map]
  congr 1
  exact List.find?_congr fun e he => (h e he).symm

lemma entries_insert_of_contains_eq_false (h : m.contains k = false) (v : β) :
    (m.insert k v).entries = m.entries ++ [(k, v)] := by
  obtain ⟨l⟩ := m
  simp only [insert, contains] at h ⊢
  induction l with
  | nil => rfl
  | cons e l ih =>
    obtain ⟨he, hl⟩ := Bool.or_eq_false_iff.mp ((List.any_cons).symm.trans h)
    rw [insertEntries, if_neg (Bool.eq_false_iff.mp he), ih hl]
    rfl

lemma get?_eq_none_iff : m.get? k = none ↔ m.contains k = false := by
  rw [← isSome_get?, Option.isSome_eq_false_iff, Option.isNone_iff_eq_none]

lemma Distinct.filterKeys (h : m.Distinct) (p : α → Bool) : (m.filterKeys p).Distinct := by
  rw [Distinct, keys_filterKeys]
  exact h.sublist List.filter_sublist

lemma Distinct.insertIfNew [PartialEquivBEq α] (h : m.Distinct) (k : α) (v : β) :
    (m.insertIfNew k v).Distinct := by
  unfold OrderedMap.insertIfNew
  split
  · exact h
  · exact h.insert k v

lemma distinct_ofList [PartialEquivBEq α] (pairs : List (α × β)) : (ofList pairs).Distinct := by
  have fold (l : List (α × β)) {m : OrderedMap α β} (hm : m.Distinct) :
      (l.foldl (fun m e => m.insert e.1 e.2) m).Distinct := by
    induction l generalizing m with
    | nil => exact hm
    | cons e l ih => exact ih (hm.insert e.1 e.2)
  exact fold pairs .nil

lemma get?_congr [PartialEquivBEq α] {k' : α} (h : k == k') : m.get? k = m.get? k' := by
  have hk : (fun e : α × β => e.1 == k) = fun e => e.1 == k' := funext fun e => BEq.congr_right h
  rw [get?, get?, hk]

lemma get?_insertIfNew [PartialEquivBEq α] (m : OrderedMap α β) (k k' : α) (v : β) :
    (m.insertIfNew k v).get? k' = if k == k' then some ((m.get? k').getD v) else m.get? k' := by
  unfold OrderedMap.insertIfNew
  split
  · next hk =>
    split
    · next hkk =>
      rw [← isSome_get?, get?_congr hkk] at hk
      obtain ⟨w, hw⟩ := Option.isSome_iff_exists.mp hk
      rw [hw, Option.getD_some]
    · rfl
  · next hk =>
    rw [get?_insert]
    split
    · next hkk =>
      rw [Bool.not_eq_true, ← get?_eq_none_iff, get?_congr hkk] at hk
      rw [hk, Option.getD_none]
    · rfl

/-- Leaving out keys, and all that count as the same key with each, hides those keys only. -/
lemma get?_filterKeys {p : α → Bool} (hp : ∀ a b, a == b → p a = p b) :
    (m.filterKeys p).get? k = if p k then m.get? k else none := by
  rw [get?, OrderedMap.filterKeys, List.find?_filter]
  split
  · next hk =>
    congr 1
    refine List.find?_congr fun e _ => ?_
    by_cases he : e.1 == k
    · simp [he, hp _ _ he, hk]
    · simp [he]
  · next hk =>
    rw [Option.map_eq_none_iff, List.find?_eq_none]
    intro e _ he
    obtain ⟨hpe, hek⟩ := decide_eq_true_iff.mp he
    exact hk ((hp _ _ hek).symm.trans hpe)

lemma not_beq_of_mem_keys_erase [EquivBEq α] (h : m.Distinct) {k' : α}
    (hk : k' ∈ (m.erase k).keys) : ¬ k == k' := by
  intro hkk
  have hc : (m.erase k).contains k' = true := by
    rw [contains_eq_any_keys, List.any_eq_true]
    exact ⟨k', hk, BEq.rfl⟩
  rw [← isSome_get?, get?_erase h, if_pos hkk] at hc
  cases hc

lemma mem_keys_of_mem_keys_erase {k' : α} (hk : k' ∈ (m.erase k).keys) : k' ∈ m.keys :=
  (List.Sublist.map _ List.eraseP_sublist).subset hk

/-- No other entry has the key, so looking it up gives the value of the entry. -/
lemma get?_of_mem_entries [EquivBEq α] (h : m.Distinct) (he : (k, v) ∈ m.entries) :
    m.get? k = some v := by
  obtain ⟨l⟩ := m
  simp only [Distinct, keys, get?] at h he ⊢
  induction l with
  | nil => cases he
  | cons e l ih =>
    obtain ⟨hne, hl⟩ := List.pairwise_cons.mp h
    rcases List.mem_cons.mp he with rfl | he
    · rw [List.find?_cons_of_pos (by exact BEq.rfl), Option.map_some]
    · have hk : ¬ (e.1 == k) = true := hne k (List.mem_map_of_mem he)
      rw [List.find?_cons_of_neg (by exact hk), ih hl he]

/-- Keys and what they mean make up the map. -/
lemma entries_eq_map_keys [EquivBEq α] (h : m.Distinct) (d : β) :
    m.entries = m.keys.map fun k => (k, (m.get? k).getD d) := by
  have he : ∀ e ∈ m.entries, e = (e.1, (m.get? e.1).getD d) := by
    intro e he
    rw [get?_of_mem_entries h he, Option.getD_some]
  rw [keys, List.map_map]
  exact (List.map_id m.entries).symm.trans (List.map_congr_left he)

lemma keys_prefix_insert (m : OrderedMap α β) (k : α) (v : β) : m.keys <+: (m.insert k v).keys := by
  rw [keys_insert]
  split
  · exact List.prefix_rfl
  · exact List.prefix_append m.keys [k]

variable [LawfulBEq α]

lemma contains_iff_mem_keys : m.contains k = true ↔ k ∈ m.keys := by
  rw [contains_eq_any_keys, List.any_beq', List.contains_iff_mem]

lemma distinct_iff : m.Distinct ↔ m.keys.Nodup := by
  simp [Distinct, List.Nodup]

lemma mem_keys_insert {k' : α} : k' ∈ (m.insert k v).keys ↔ k' ∈ m.keys ∨ k' = k := by
  rw [keys_insert]
  split
  · next hk =>
    rw [contains_iff_mem_keys] at hk
    exact ⟨.inl, fun h => h.elim (fun h => h) fun h => h ▸ hk⟩
  · rw [List.mem_append, List.mem_singleton]

lemma mem_entries_of_get? (h : m.get? k = some v) : (k, v) ∈ m.entries := by
  obtain ⟨⟨k', v'⟩, hf, rfl⟩ := Option.map_eq_some_iff.mp h
  have hk : k' = k := eq_of_beq (List.find?_some (p := fun e : α × β => e.1 == k) hf)
  rw [← hk]
  exact List.mem_of_find?_eq_some hf

lemma mem_insertEntries {l : List (α × β)} {x : α × β} (h : x ∈ insertEntries k v l) :
    x = (k, v) ∨ x ∈ l := by
  induction l with
  | nil => exact .inl (List.mem_singleton.mp h)
  | cons e l ih =>
    rw [insertEntries] at h
    split at h
    · next he =>
      rcases List.mem_cons.mp h with rfl | h
      · exact .inl (by rw [eq_of_beq he])
      · exact .inr (.tail _ h)
    · rcases List.mem_cons.mp h with rfl | h
      · exact .inr (.head _)
      · exact (ih h).imp id (.tail _)

lemma mem_entries_insert {x : α × β} (h : x ∈ (m.insert k v).entries) :
    x = (k, v) ∨ x ∈ m.entries :=
  mem_insertEntries h

lemma entries_insert_of_new (h : k ∉ m.keys) : (m.insert k v).entries = m.entries ++ [(k, v)] :=
  entries_insert_of_contains_eq_false
    (Bool.eq_false_iff.mpr fun hc => h (contains_iff_mem_keys.mp hc)) v

lemma entries_insert_of_getElem? {i : Nat} {w : β} (h : m.keys.Nodup)
    (hi : m.entries[i]? = some (k, w)) : (m.insert k v).entries = m.entries.set i (k, v) := by
  obtain ⟨l⟩ := m
  simp only [insert, keys] at h hi ⊢
  induction l generalizing i with
  | nil => cases hi
  | cons e l ih =>
    obtain ⟨he, hl⟩ := List.nodup_cons.mp h
    cases i with
    | zero =>
      obtain rfl := Option.some.inj hi
      rw [insertEntries, if_pos BEq.rfl, List.set_cons_zero]
    | succ i =>
      rw [List.getElem?_cons_succ] at hi
      -- The key stands farther on, so it is not that of the first entry.
      have hk : k ∈ l.map (·.1) := List.mem_map_of_mem (List.mem_of_getElem? hi)
      have hne : ¬ e.1 == k := by
        intro hek
        obtain rfl := eq_of_beq hek
        exact he hk
      rw [insertEntries, if_neg hne, ih hl hi, List.set_cons_succ]

lemma entries_ofList {pairs : List (α × β)} (h : (pairs.map (·.1)).Nodup) :
    (ofList pairs).entries = pairs := by
  have fold (l : List (α × β)) (m : OrderedMap α β) (hl : (m.keys ++ l.map (·.1)).Nodup) :
      (l.foldl (fun m e => m.insert e.1 e.2) m).entries = m.entries ++ l := by
    induction l generalizing m with
    | nil => simp
    | cons e l ih =>
      have hnew : e.1 ∉ m.keys := by
        intro hk
        exact (List.nodup_append.mp hl).2.2 _ hk _ (List.mem_cons_self ..) rfl
      have hkeys : (m.insert e.1 e.2).keys = m.keys ++ [e.1] := by
        rw [keys, entries_insert_of_new hnew, List.map_append]
        rfl
      rw [List.foldl_cons, ih _ (by rw [hkeys]; simpa using hl), entries_insert_of_new hnew]
      simp
  exact fold pairs .empty h

end ClassTree.OrderedMap
