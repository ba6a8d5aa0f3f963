import Mathlib.Data.List.Basic
import ClassTree.Collection.Container
import ClassTree.Proofs.OrderedMap
import ClassTree.Proofs.Outcome
/-!
Only elements of an indexed list have associated values. However an element leaves the list, what it
was associated with goes with its last occurrence and does not come back with it.
-/

namespace ClassTree

def Value.isLabel (v : Value) : Bool := !v.isNum && !v.isNull

namespace Container

/-- The lists that calls make, refused ones among them, from given elements or pairs, and the copies
of such lists. -/
inductive Reachable : Container → Prop
  | indexed (values : List Value) : Reachable (.indexed (.ofValues values))
  | keyed (pairs : List (Value × Value)) : Reachable (.keyed (.ofPairs pairs))
  | perform {l : Container} (call : ListCall) (h : Reachable l) : Reachable (l.perform call).1
  | copy {l m : Container} {r : ListRange} (h : Reachable l) (hm : l.copy r = .ok m) : Reachable m

lemma Reachable.run {l : Container} (h : Reachable l) (calls : List ListCall) :
    Reachable (l.run calls) := by
  induction calls generalizing l with
  | nil => exact h
  | cons call calls ih => exact ih (.perform call h)

end Container

/-! ### Elements -/

lemma contains_congr {v w : Value} (l : List Value) (h : v == w) : l.contains v = l.contains w := by
  rw [List.contains_eq_any_beq, List.contains_eq_any_beq]
  congr 1
  exact funext fun x => BEq.congr_left h

lemma contains_iff_exists_beq {l : List Value} {v : Value} :
    l.contains v = true ↔ ∃ w ∈ l, w == v := by
  rw [List.contains_iff_exists_mem_beq]
  exact exists_congr fun w => and_congr_right fun _ => ⟨BEq.symm, BEq.symm⟩

lemma contains_or_beq {l l' : List Value} {i : Nat} {old k : Value} (hi : l[i]? = some old)
    (h : ∀ j w, j ≠ i → l[j]? = some w → w ∈ l') (hk : l.contains k = true) :
    l'.contains k = true ∨ old == k := by
  obtain ⟨w, hw, hwk⟩ := contains_iff_exists_beq.mp hk
  obtain ⟨j, hj⟩ := List.mem_iff_getElem?.mp hw
  -- only the element at `i` may be gone
  by_cases hij : j = i
  · subst hij
    obtain rfl := Option.some.inj (hi.symm.trans hj)
    exact .inr hwk
  · exact .inl (contains_iff_exists_beq.mpr ⟨w, h j w hij hj, hwk⟩)

namespace IndexedList

variable {l m : IndexedList} {k v : Value}

/-- All keys of the associations are elements, and of the kind that may have an association. -/
structure Sound (l : IndexedList) : Prop where
  distinct : l.associations.Distinct
  element {k : Value} : k ∈ l.associations.keys → l.values.contains k = true
  label {k : Value} : k ∈ l.associations.keys → k.isLabel = true

/-- A value comes in for a label: at the end, if the label is no element. -/
def associate (l : IndexedList) (k v : Value) : IndexedList :=
  ⟨if l.values.contains k then l.values else l.values ++ [k], l.associations.insert k v⟩

lemma set_of_isLabel (hk : k.isLabel = true) (growth : Bool) :
    l.set k v growth = .ok (l.associate k v) := by
  unfold set associate
  split
  · cases hk
  · cases hk
  · split <;> rfl

lemma set_of_isNum (hk : k.isNum = true) (growth : Bool) : l.set k v growth =
    if growth ∧ k.position? = some (l.size + 1) then .ok (l.add v)
    else (l.replace · v) <$> l.position k := by
  cases k with
  | num x =>
    unfold set
    dsimp only
    cases l.position (.num x) <;> rfl
  | _ => cases hk

lemma set_of_isNull (hk : k.isNull = true) (growth : Bool) :
    l.set k v growth = .error (.invalidKey k) := by
  obtain rfl : k = .null := of_decide_eq_true hk
  rfl

lemma cut_eq (l : IndexedList) (r : ListRange) :
    l.cut r = (fun s => l.keep (s.without l.values)) <$> r.resolve l.size := by
  unfold cut
  cases r.resolve l.size <;> rfl

lemma copy_eq (l : IndexedList) (r : ListRange) :
    l.copy r = (fun s => l.keep (s.slice l.values)) <$> r.resolve l.size := by
  unfold copy
  cases r.resolve l.size <;> rfl

namespace Sound

lemma ofValues (values : List Value) : Sound (.ofValues values) := ⟨.nil, nofun, nofun⟩

lemma add (h : l.Sound) (v : Value) : (l.add v).Sound where
  distinct := h.distinct
  element hk := by
    obtain ⟨w, hw, hwk⟩ := contains_iff_exists_beq.mp (h.element hk)
    exact contains_iff_exists_beq.mpr ⟨w, List.mem_append_left _ hw, hwk⟩
  label := h.label

/-- Whatever may have left the list is released. -/
lemma release (hd : l.associations.Distinct)
    (he : ∀ k ∈ l.associations.keys, l.values.contains k = true ∨ v == k)
    (hl : ∀ k ∈ l.associations.keys, k.isLabel = true) : (l.release v).Sound := by
  unfold IndexedList.release
  split
  · next hv =>
    refine ⟨hd, fun {k} hk => ?_, fun {k} hk => hl k hk⟩
    rcases he k hk with hc | hvk
    · exact hc
    · rw [← contains_congr _ hvk, hv]
  · refine ⟨hd.erase v, fun {k} hk => ?_, fun {k} hk => ?_⟩
    · refine (he k (OrderedMap.mem_keys_of_mem_keys_erase hk)).resolve_right ?_
      exact OrderedMap.not_beq_of_mem_keys_erase hd hk
    · exact hl k (OrderedMap.mem_keys_of_mem_keys_erase hk)

lemma replace (h : l.Sound) (i : Nat) (v : Value) : (l.replace i v).Sound := by
  unfold IndexedList.replace
  dsimp only
  split
  · next old hi =>
    refine release h.distinct (fun k hk => contains_or_beq hi ?_ (h.element hk)) fun k => h.label
    intro j w hij hj
    exact List.mem_iff_getElem?.mpr ⟨j, by rw [List.getElem?_set_ne (Ne.symm hij), hj]⟩
  · next hi =>
    rw [List.set_eq_of_length_le (List.getElem?_eq_none_iff.mp hi)]
    exact h

lemma associate (h : l.Sound) (hk : k.isLabel = true) (v : Value) : (l.associate k v).Sound := by
  have hmem {j : Value} (hj : j ∈ (l.associations.insert k v).keys) :
      j ∈ l.associations.keys ∨ j = k := by
    rw [OrderedMap.keys_insert] at hj
    split at hj
    · exact .inl hj
    · rcases List.mem_append.mp hj with hj | hj
      · exact .inl hj
      · exact .inr (List.mem_singleton.mp hj)
  refine ⟨h.distinct.insert k v, fun {j} hj => ?_, fun {j} hj => ?_⟩
  · unfold IndexedList.associate
    dsimp only
    rcases hmem hj with hj | rfl
    · split
      · exact h.element hj
      · exact (h.add k).element hj
    · split
      · next hc => exact hc
      · exact contains_iff_exists_beq.mpr ⟨j, List.mem_append_right _ List.mem_cons_self, BEq.rfl⟩
  · rcases hmem hj with hj | rfl
    · exact h.label hj
    · exact hk

lemma set {growth : Bool} (h : l.Sound) (hm : l.set k v growth = .ok m) : m.Sound := by
  cases k with
  | null => cases hm
  | num x =>
    simp only [IndexedList.set] at hm
    split at hm
    · cases hm
      exact h.add v
    · cases hp : l.position (.num x) with
      | error e =>
        rw [hp] at hm
        cases hm
      | ok i =>
        rw [hp] at hm
        cases hm
        exact h.replace i v
  | text _ | resource _ | path _ | object _ =>
    rw [set_of_isLabel rfl] at hm
    cases hm
    exact h.associate rfl v

lemma remove (h : l.Sound) (v : Value) : (l.remove v).1.Sound := by
  unfold IndexedList.remove
  split
  · exact h
  · next i hi =>
    split
    · next old hold =>
      refine release h.distinct (fun k hk => contains_or_beq hold ?_ (h.element hk)) fun k => h.label
      intro j w hij hj
      exact List.mem_eraseIdx_iff_getElem?.mpr ⟨j, hij, hj⟩
    · next hnone =>
      have hlt := (List.findIdx?_eq_some_iff_getElem.mp hi).1
      rw [List.getElem?_eq_getElem hlt] at hnone
      cases hnone

lemma keep (h : l.Sound) (values : List Value) : (l.keep values).Sound := by
  have hmem {k : Value} (hk : k ∈ (l.keep values).associations.keys) :
      k ∈ l.associations.keys ∧ values.contains k = true := by
    rw [IndexedList.keep, OrderedMap.keys_filterKeys] at hk
    exact List.mem_filter.mp hk
  exact ⟨h.distinct.filterKeys _, fun hk => (hmem hk).2, fun hk => h.label (hmem hk).1⟩

lemma cut {r : ListRange} (h : l.Sound) (hm : l.cut r = .ok m) : m.Sound := by
  rw [cut_eq] at hm
  obtain ⟨s, -, rfl⟩ := exists_of_map_eq_ok hm
  exact h.keep _

lemma copy {r : ListRange} (h : l.Sound) (hm : l.copy r = .ok m) : m.Sound := by
  rw [copy_eq] at hm
  obtain ⟨s, -, rfl⟩ := exists_of_map_eq_ok hm
  exact h.keep _

end Sound

end IndexedList

/-! ### Runs -/

namespace Container

variable {l m : Container}

def Sound : Container → Prop
  | indexed l => l.Sound
  | keyed l => l.entries.Distinct

namespace Sound

lemma set {k v : Value} {growth : Bool} (h : l.Sound) (hm : l.set k v growth = .ok m) :
    m.Sound := by
  cases l with
  | indexed l =>
    obtain ⟨u, hu, rfl⟩ := exists_of_map_eq_ok hm
    exact IndexedList.Sound.set h hu
  | keyed l =>
    cases hm
    exact OrderedMap.Distinct.insert h k v

lemma add (h : l.Sound) (v : Value) : (l.add v).Sound := by
  cases l with
  | indexed l => exact IndexedList.Sound.add h v
  | keyed l => exact OrderedMap.Distinct.insertIfNew h v .null

lemma remove (h : l.Sound) (v : Value) : (l.remove v).1.Sound := by
  cases l with
  | indexed l => exact IndexedList.Sound.remove h v
  | keyed l => exact OrderedMap.Distinct.erase h v

lemma cut {r : ListRange} (h : l.Sound) (hm : l.cut r = .ok m) : m.Sound := by
  cases l with
  | indexed l =>
    obtain ⟨u, hu, rfl⟩ := exists_of_map_eq_ok hm
    exact IndexedList.Sound.cut h hu
  | keyed l =>
    obtain ⟨u, hu, rfl⟩ := exists_of_map_eq_ok hm
    unfold KeyedList.cut at hu
    split at hu
    · cases hu
      exact List.Pairwise.nil
    · cases hu

lemma copy {r : ListRange} (h : l.Sound) (hm : l.copy r = .ok m) : m.Sound := by
  cases l with
  | indexed l =>
    obtain ⟨u, hu, rfl⟩ := exists_of_map_eq_ok hm
    exact IndexedList.Sound.copy h hu
  | keyed l =>
    obtain ⟨u, hu, rfl⟩ := exists_of_map_eq_ok hm
    unfold KeyedList.copy at hu
    split at hu
    · cases hu
      exact h
    · cases hu

lemma perform (h : l.Sound) (call : ListCall) : (l.perform call).1.Sound := by
  cases call with
  | set k v growth =>
    cases hm : l.set k v growth with
    | error e => simpa only [Container.perform, hm] using h
    | ok m => simpa only [Container.perform, hm] using h.set hm
  | add v => exact h.add v
  | remove v => exact h.remove v
  | cut r =>
    cases hm : l.cut r with
    | error e => simpa only [Container.perform, hm] using h
    | ok m => simpa only [Container.perform, hm] using h.cut hm

end Sound

lemma Reachable.sound (h : Reachable l) : l.Sound := by
  induction h with
  | indexed values => exact IndexedList.Sound.ofValues values
  | keyed pairs => exact OrderedMap.distinct_ofList pairs
  | perform call _ ih => exact ih.perform call
  | copy _ hm ih => exact ih.copy hm

end Container

/-! ### Values that are no elements -/

namespace IndexedList

variable {l : IndexedList} {v : Value}

/-- The value counts as one of the elements. -/
def Has (l : IndexedList) (v : Value) : Prop := ∃ w ∈ l.values, w == v

instance : Decidable (l.Has v) := inferInstanceAs (Decidable (∃ w ∈ l.values, w == v))

structure Current (l : IndexedList) : Prop where
  key {k : Value} : k ∈ l.associations.keys → l.Has k ∧ k.isLabel = true
  hasAssociated {v : Value} : ¬ l.Has v → l.hasAssociated v = false
  get {v : Value} : ¬ l.Has v → v.isNum = false → l.get v = .error (.keyNotFound v)
  add {v : Value} : ¬ l.Has v →
    (l.add v).pairs = l.pairs ++ [(v, .null)] ∧ ∀ x ∈ l.pairs, ¬ x.1 == v

lemma Sound.get?_associations (h : l.Sound) (hv : ¬ l.Has v) : l.associations.get? v = none := by
  rw [OrderedMap.get?_eq_none_iff, OrderedMap.contains_eq_any_keys, List.any_eq_false]
  intro k hk hkv
  obtain ⟨w, hw, hwk⟩ := contains_iff_exists_beq.mp (h.element hk)
  exact hv ⟨w, hw, BEq.trans hwk hkv⟩

lemma get_of_not_num (l : IndexedList) (hn : v.isNum = false) : l.get v =
    ((l.associations.get? v).map .ok).getD
      (if l.values.contains v then .ok .null else .error (.keyNotFound v)) := by
  unfold get
  split
  · cases hn
  · cases l.associations.get? v <;> rfl

lemma get_of_isNum (hn : v.isNum = true) :
    l.get v = (fun i => (l.values[i]?).getD .null) <$> l.position v := by
  cases v with
  | num x =>
    unfold get
    dsimp only
    cases l.position (.num x) <;> rfl
  | _ => cases hn

lemma Sound.get_of_not_has (h : l.Sound) (hv : ¬ l.Has v) (hn : v.isNum = false) :
    l.get v = .error (.keyNotFound v) := by
  have hc : ¬ l.values.contains v = true := fun hc => hv (contains_iff_exists_beq.mp hc)
  rw [get_of_not_num l hn, h.get?_associations hv, if_neg hc]
  rfl

lemma Sound.pairs_add (h : l.Sound) (hv : ¬ l.Has v) : (l.add v).pairs = l.pairs ++ [(v, .null)] := by
  simp only [pairs, IndexedList.add, List.map_append, List.map_cons, List.map_nil,
    h.get?_associations hv, Option.getD_none]

theorem current_of_reachable (h : Container.Reachable (.indexed l)) : Current l := by
  have hs : l.Sound := h.sound
  constructor
  case key =>
    intro k hk
    exact ⟨contains_iff_exists_beq.mp (hs.element hk), hs.label hk⟩
  case hasAssociated =>
    intro v hv
    exact OrderedMap.get?_eq_none_iff.mp (hs.get?_associations hv)
  case get =>
    intro v hv hn
    exact hs.get_of_not_has hv hn
  case add =>
    intro v hv
    refine ⟨hs.pairs_add hv, fun x hx hxv => ?_⟩
    obtain ⟨w, hw, rfl⟩ := List.mem_map.mp hx
    exact hv ⟨w, hw, hxv⟩

/-- The first of two occurrences is removed and the other one overwritten. -/
def overwritten : List ListCall :=
  [.set (.text "key") (.text "value") false, .add (.text "key"), .remove (.text "key"),
    .set (.num (Binary64.ofInt 1)) (.text "other") false]

theorem current_overwritten :
    ∃ l, (Container.indexed (.ofValues [])).run overwritten = .indexed l ∧ Current l ∧
      ¬ l.Has (.text "key") ∧
      (l.add (.text "key")).pairs = [(.text "other", .null), (.text "key", .null)] := by
  have hl : (Container.indexed (.ofValues [])).run overwritten =
      .indexed ⟨[.text "other"], .empty⟩ := by decide +kernel
  have hr := (Container.Reachable.indexed []).run overwritten
  rw [hl] at hr
  exact ⟨_, hl, current_of_reachable hr, by decide +kernel, by decide +kernel⟩

end IndexedList

end ClassTree
