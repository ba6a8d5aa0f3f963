import ClassTree.Proofs.Collection.Lockstep
/-!
Setting a value in a list, by position or by key: what becomes of the elements, and what all other
keys mean afterwards. A list that refuses a request stays as it is.
-/

namespace ClassTree

/-! ### Positions -/

lemma Value.isNum_of_position? {v : Value} {n : Nat} (h : v.position? = some n) :
    v.isNum = true := by
  cases v with
  | num x => rfl
  | _ => cases h

lemma Value.position?_pos {v : Value} {n : Nat} (h : v.position? = some n) : 1 ≤ n := by
  cases v with
  | num x =>
    simp only [position?] at h
    split at h
    · split at h
      · next hn =>
        obtain rfl := Option.some.inj h
        exact Nat.le_min.mpr ⟨hn.1, by decide⟩
      · cases h
    · cases h
  | _ => cases h

lemma Value.isNum_of_isLabel {v : Value} (h : v.isLabel = true) : v.isNum = false :=
  (Bool.not_eq_true' _).mp (Bool.and_eq_true_iff.mp h).1

namespace IndexedList

variable {l m : IndexedList} {key value k v : Value} {growth : Bool} {i n : Nat}

lemma position_of_lt (hp : key.position? = some (i + 1)) (hi : i < l.size) :
    l.position key = .ok i := by
  simp only [position, hp, if_pos (Nat.succ_le_of_lt hi), Nat.add_sub_cancel]

lemma position_of_size_lt (hp : key.position? = some n) (hn : l.size < n) :
    l.position key = .error (.indexOutOfRange (signed n) l.size) := by
  simp only [position, hp, if_neg (Nat.not_le.mpr hn)]

/-! ### Outcomes -/

/-- What setting a value comes to. -/
inductive Stored (l : IndexedList) (key value : Value) (growth : Bool) :
    Except ListError IndexedList → Prop
  | replaced {i : Nat} (hp : key.position? = some (i + 1)) (hi : i < l.size) :
    Stored l key value growth (.ok (l.replace i value))
  | appended (hp : key.position? = some (l.size + 1)) (hg : growth = true) :
    Stored l key value growth (.ok (l.add value))
  | associated (hk : key.isLabel = true) :
    Stored l key value growth (.ok (l.associate key value))
  | outside {n : Nat} (hp : key.position? = some n) (hn : l.size < n)
      (hg : ¬ (growth = true ∧ n = l.size + 1)) :
    Stored l key value growth (.error (.indexOutOfRange (signed n) l.size))
  | invalid (hk : key.isLabel = false) (hp : key.position? = none) :
    Stored l key value growth (.error (.invalidKey key))

lemma set_of_lt (hp : key.position? = some (i + 1)) (hi : i < l.size) :
    l.set key value growth = .ok (l.replace i value) := by
  have hne : ¬ (growth = true ∧ key.position? = some (l.size + 1)) := by
    rintro ⟨-, hp'⟩
    have heq := Option.some.inj (hp.symm.trans hp')
    omega
  rw [set_of_isNum (Value.isNum_of_position? hp), if_neg hne, position_of_lt hp hi]
  rfl

lemma set_growing (hp : key.position? = some (l.size + 1)) :
    l.set key value true = .ok (l.add value) := by
  rw [set_of_isNum (Value.isNum_of_position? hp), if_pos ⟨rfl, hp⟩]

lemma set_of_size_lt (hp : key.position? = some n) (hn : l.size < n)
    (hg : ¬ (growth = true ∧ n = l.size + 1)) :
    l.set key value growth = .error (.indexOutOfRange (signed n) l.size) := by
  rw [set_of_isNum (Value.isNum_of_position? hp), position_of_size_lt hp hn, if_neg]
  · rfl
  · rwa [hp, Option.some.injEq]

lemma stored_set (l : IndexedList) (key value : Value) (growth : Bool) :
    Stored l key value growth (l.set key value growth) := by
  cases hp : key.position? with
  | some n =>
    obtain ⟨i, rfl⟩ := Nat.exists_eq_add_of_le' (Value.position?_pos hp)
    by_cases hi : i < l.size
    · rw [set_of_lt hp hi]
      exact .replaced hp hi
    by_cases hg : growth = true ∧ i + 1 = l.size + 1
    · obtain ⟨rfl, hn⟩ := hg
      rw [hn] at hp
      rw [set_growing hp]
      exact .appended hp rfl
    · have hn : l.size < i + 1 := by omega
      rw [set_of_size_lt hp hn hg]
      exact .outside hp hn hg
  | none =>
    by_cases hk : key.isLabel = true
    · rw [set_of_isLabel hk]
      exact .associated hk
    · have hset : l.set key value growth = .error (.invalidKey key) := by
        by_cases hn : key.isNum = true
        · rw [set_of_isNum hn, if_neg (by simp [hp]), position, hp]
          rfl
        · refine set_of_isNull ?_ growth
          simpa [Value.isLabel, hn] using hk
      rw [hset]
      exact .invalid (Bool.eq_false_iff.mpr hk) hp

lemma values_release (l : IndexedList) (v : Value) : (l.release v).values = l.values := by
  unfold release
  split <;> rfl

lemma values_replace (l : IndexedList) (i : Nat) (v : Value) :
    (l.replace i v).values = l.values.set i v := by
  unfold replace
  dsimp only
  split
  · exact values_release _ _
  · rfl

lemma get_of_position (hp : key.position? = some (i + 1)) (hv : l.values[i]? = some v) :
    l.get key = .ok v := by
  have hi : i < l.size := (List.getElem?_eq_some_iff.mp hv).1
  rw [get_of_isNum (Value.isNum_of_position? hp), position_of_lt hp hi]
  exact congrArg (fun v? => Except.ok (Option.getD v? .null)) hv

lemma Stored.get_self (h : Stored l key value growth (.ok m)) : m.get key = .ok value := by
  cases h with
  | replaced hp hi =>
    refine get_of_position hp ?_
    rw [values_replace]
    exact List.getElem?_set_self hi
  | appended hp hg => exact get_of_position hp List.getElem?_concat_length
  | associated hk =>
    rw [get_of_not_num _ (Value.isNum_of_isLabel hk), associate, OrderedMap.get?_insert,
      if_pos BEq.rfl]
    rfl

/-! ### The other keys -/

/-- What the other keys mean is as before, unless they have come in or gone as elements. -/
structure OthersKept (l m : IndexedList) (key value : Value) : Prop where
  kept {k : Value} : k.isNum = false → ¬ k == key → (m.Has k ↔ l.Has k) → m.get k = l.get k
  gone {k : Value} : k.isNum = false → ¬ k == key → ¬ m.Has k → l.Has k →
    m.get k = .error (.keyNotFound k) ∧
      ∃ i old, key.position? = some (i + 1) ∧ l.values[i]? = some old ∧ old == k
  fresh {k : Value} : k.isNum = false → ¬ k == key → m.Has k → ¬ l.Has k →
    m.get k = .ok .null ∧ value == k

lemma has_add : (l.add v).Has k ↔ l.Has k ∨ v == k := by
  simp only [Has, add, List.mem_append, List.mem_singleton, or_and_right, exists_or,
    exists_eq_left]

lemma has_associate : (l.associate key v).Has k ↔ l.Has k ∨ key == k := by
  unfold associate
  split
  · next hk =>
    refine ⟨.inl, ?_⟩
    rintro (h | h)
    · exact h
    · obtain ⟨w, hw, hwk⟩ := contains_iff_exists_beq.mp hk
      exact ⟨w, hw, BEq.trans hwk h⟩
  · exact has_add

lemma get?_release (h : l.associations.Distinct) (hk : l.Has k) :
    (l.release v).associations.get? k = l.associations.get? k := by
  unfold release
  split
  · rfl
  · next hv =>
    have hvk : ¬ v == k := fun hvk => by
      rw [contains_congr _ hvk, contains_iff_exists_beq] at hv
      exact hv hk
    rw [OrderedMap.get?_erase h, if_neg hvk]

lemma get?_replace (h : l.associations.Distinct) (hk : (l.replace i v).Has k) :
    (l.replace i v).associations.get? k = l.associations.get? k := by
  rw [Has, values_replace] at hk
  unfold replace
  dsimp only
  split
  · exact get?_release (l := ⟨l.values.set i v, l.associations⟩) h hk
  · rfl

lemma OthersKept.of_associations (hl : l.Sound) (hm : m.Sound)
    (hget : ∀ k, ¬ k == key → m.Has k → m.associations.get? k = l.associations.get? k)
    (hfresh : ∀ k, ¬ k == key → m.Has k → l.Has k ∨ value == k)
    (hgone : ∀ k, l.Has k → m.Has k ∨
      ∃ i old, key.position? = some (i + 1) ∧ l.values[i]? = some old ∧ old == k) :
    OthersKept l m key value where
  kept {k} hn hne hiff := by
    by_cases hk : m.Has k
    · rw [get_of_has hn hk, get_of_has hn (hiff.mp hk), hget k hne hk]
    · rw [hm.get_of_not_has hk hn, hl.get_of_not_has (mt hiff.mpr hk) hn]
  gone {k} hn _ hk hk' := ⟨hm.get_of_not_has hk hn, (hgone k hk').resolve_left hk⟩
  fresh {k} hn hne hk hk' := by
    refine ⟨?_, (hfresh k hne hk).resolve_left hk'⟩
    rw [get_of_has hn hk, hget k hne hk, hl.get?_associations hk', Option.getD_none]

lemma Stored.others (h : Stored l key value growth (.ok m)) (hl : l.Sound) (hm : m.Sound) :
    OthersKept l m key value := by
  cases h with
  | @replaced i hp hi =>
    have hold : l.values[i]? = some l.values[i] := List.getElem?_eq_getElem hi
    refine .of_associations hl hm (fun k _ => get?_replace hl.distinct) ?_ ?_
    · rintro k - ⟨w, hw, hwk⟩
      rw [values_replace] at hw
      rcases List.mem_or_eq_of_mem_set hw with hw | rfl
      · exact .inl ⟨w, hw, hwk⟩
      · exact .inr hwk
    · intro k hk
      have hset : ∀ j w, j ≠ i → l.values[j]? = some w → w ∈ l.values.set i value := by
        intro j w hj hw
        exact List.mem_iff_getElem?.mpr ⟨j, by rw [List.getElem?_set_ne (Ne.symm hj), hw]⟩
      rcases contains_or_beq hold hset (contains_iff_exists_beq.mpr hk) with hk | hk
      · rw [← values_replace] at hk
        exact .inl (contains_iff_exists_beq.mp hk)
      · exact .inr ⟨i, _, hp, hold, hk⟩
  | appended hp hg =>
    exact .of_associations hl hm (fun k _ _ => rfl) (fun k _ => has_add.mp)
      fun k hk => .inl (has_add.mpr (.inl hk))
  | associated hk =>
    refine .of_associations hl hm (fun k hne _ => ?_) (fun k hne hk => ?_)
      fun k hk => .inl (has_associate.mpr (.inl hk))
    · rw [associate, OrderedMap.get?_insert, if_neg (mt BEq.symm hne)]
    · exact .inl ((has_associate.mp hk).resolve_right (mt BEq.symm hne))

/-! ### Setting a value -/

structure Assigns (l : IndexedList) : Prop where
  at_position {key value : Value} {growth : Bool} {i : Nat} :
    key.position? = some (i + 1) → i < l.size →
      ∃ m, l.set key value growth = .ok m ∧ m.values = l.values.set i value
  past_end {key value : Value} : key.position? = some (l.size + 1) →
    l.set key value true = .ok ⟨l.values ++ [value], l.associations⟩ ∧
      l.set key value false = .error (.indexOutOfRange (signed (l.size + 1)) l.size)
  label {key value : Value} {growth : Bool} : key.isLabel = true →
    ∃ m, l.set key value growth = .ok m ∧
      m.values = if l.Has key then l.values else l.values ++ [key]
  only {key value : Value} {growth : Bool} {m : IndexedList} : l.set key value growth = .ok m →
    (∃ i < l.size, key.position? = some (i + 1)) ∨
      (key.position? = some (l.size + 1) ∧ growth = true) ∨ key.isLabel = true
  others {key value : Value} {growth : Bool} {m : IndexedList} :
    l.set key value growth = .ok m → OthersKept l m key value

lemma Sound.assigns (h : l.Sound) : l.Assigns where
  at_position {key value growth i} hp hi := ⟨_, set_of_lt hp hi, values_replace l i value⟩
  past_end {key value} hp := by
    refine ⟨set_growing hp, set_of_size_lt hp (Nat.lt_succ_self _) ?_⟩
    simp
  label {key value growth} hk :=
    ⟨_, set_of_isLabel hk growth, if_congr contains_iff_exists_beq rfl rfl⟩
  only {key value growth m} hm := by
    have hs := stored_set l key value growth
    rw [hm] at hs
    cases hs with
    | replaced hp hi => exact .inl ⟨_, hi, hp⟩
    | appended hp hg => exact .inr (.inl ⟨hp, hg⟩)
    | associated hk => exact .inr (.inr hk)
  others {key value growth m} hm := by
    have hs := stored_set l key value growth
    rw [hm] at hs
    exact hs.others h (h.set hm)

end IndexedList

structure KeyedList.Assigns (l : KeyedList) : Prop where
  values (key value : Value) :
    (l.set key value).values = if l.contains key then l.values else l.values ++ [key]
  others {key k : Value} (value : Value) : ¬ k == key → (l.set key value).get k = l.get k

lemma KeyedList.assigns (l : KeyedList) : l.Assigns where
  values key value := OrderedMap.keys_insert _ _ _
  others {key k} value hne := by
    rw [get, set, OrderedMap.get?_insert, if_neg (mt BEq.symm hne), get]

namespace Container

variable {l : Container}

/-- What setting a value does and leaves alone, whichever kind a list is of. -/
structure Assigns (l : Container) : Prop where
  refused {q : ListRequest} {e : ListError} : l.reply q = .error e → l.after q = l
  reads_back {key value : Value} {growth : Bool} {m : Container} :
    l.set key value growth = .ok m → m.get key = .ok value
  indexed {u : IndexedList} : l = .indexed u → u.Assigns
  keyed {u : KeyedList} : l = .keyed u → u.Assigns

lemma fst_perform_of_error {call : ListCall} {e : ListError} (h : (l.perform call).2 = .error e) :
    (l.perform call).1 = l := by
  cases call with
  | set key value growth =>
    cases hm : l.set key value growth with
    | error e => simp only [perform, hm]
    | ok m => simp [perform, hm] at h
  | cut r =>
    cases hm : l.cut r with
    | error e => simp only [perform, hm]
    | ok m => simp [perform, hm] at h
  | _ => cases h

lemma after_of_error {q : ListRequest} {e : ListError} (h : l.reply q = .error e) :
    l.after q = l := by
  cases q with
  | call call => exact fst_perform_of_error (map_eq_error_iff.mp h)
  | _ => rfl

lemma get_of_set {key value : Value} {growth : Bool} {m : Container}
    (h : l.set key value growth = .ok m) : m.get key = .ok value := by
  cases l with
  | indexed l =>
    obtain ⟨u, hu, rfl⟩ := exists_of_map_eq_ok h
    have hs := IndexedList.stored_set l key value growth
    rw [hu] at hs
    exact hs.get_self
  | keyed l =>
    cases h
    rw [get, KeyedList.get, KeyedList.set, OrderedMap.get?_insert, if_pos BEq.rfl]

theorem assigns_of_reachable (h : Reachable l) : l.Assigns where
  refused := after_of_error
  reads_back := get_of_set
  indexed {u} hl := by
    subst hl
    exact IndexedList.Sound.assigns h.sound
  keyed {u} _ := u.assigns

/-- An element that occurs twice is overwritten once, and then a third time as a label. -/
def assigned : List ListCall :=
  [.add (.text "a"), .add (.text "b"), .add (.text "a"), .set (.text "a") (.text "x") false,
    .set (.text "b") (.text "y") false]

theorem assigns_assigned :
    ∃ l, (indexed (.ofValues [])).run assigned = .indexed l ∧ (indexed l).Assigns ∧
      l.values = [.text "a", .text "b", .text "a"] ∧
      ∃ m, l.set (.num (Binary64.ofInt 2)) (.text "c") false = .ok m ∧
        m.values = [.text "a", .text "c", .text "a"] ∧
        m.get (.text "a") = .ok (.text "x") ∧
        m.get (.text "b") = .error (.keyNotFound (.text "b")) ∧
        m.get (.text "c") = .ok .null ∧
        m.set (.num (Binary64.ofInt 5)) .null true = .error (.indexOutOfRange 5 3) := by
  have hl : (indexed (.ofValues [])).run assigned =
      .indexed ⟨[.text "a", .text "b", .text "a"],
        ⟨[(.text "a", .text "x"), (.text "b", .text "y")]⟩⟩ := by decide +kernel
  have hr := (Reachable.indexed []).run assigned
  rw [hl] at hr
  have h := assigns_of_reachable hr
  exact ⟨_, hl, h, rfl, ⟨[.text "a", .text "c", .text "a"], ⟨[(.text "a", .text "x")]⟩⟩,
    by decide +kernel⟩

end Container

end ClassTree
