import Mathlib.Data.List.DropRight
import ClassTree.Collection.Container
import ClassTree.Proofs.OrderedMap
/-!
An associative list is determined by what was done to it. Of each key the history tells when it came
in, counting from when it last left, and what it was last set to since.
-/

namespace ClassTree

namespace ListCall

/-- The call leaves the key in an associative list. -/
def puts (k : Value) : ListCall → Bool
  | set key _ _ | add key => key == k
  | remove _ | cut _ => false

/-- The call leaves an associative list without the key. -/
def drops (k : Value) : ListCall → Bool
  | set _ _ _ | add _ => false
  | remove v => v == k
  | cut r => r.isAll

/-- The value that the call sets the key to. -/
def valueOf? (k : Value) : ListCall → Option Value
  | set key value _ => if key == k then some value else none
  | add _ | remove _ | cut _ => none

lemma valueOf?_eq_none {c : ListCall} {k : Value} (h : c.puts k = false) : c.valueOf? k = none := by
  cases c with
  | set key v _ => exact if_neg (Bool.eq_false_iff.mp h)
  | _ => rfl

end ListCall

abbrev History := List ListCall

namespace History

variable {h : History} {c : ListCall} {k : Value} {i : Nat}

/-- Giving a list its pairs counts as setting one after the other. -/
def ofPairs (pairs : List (Value × Value)) : History := pairs.map fun x => .set x.1 x.2 false

/-- The calls since the last one that left the list without the key. -/
def since (h : History) (k : Value) : History := h.rtakeWhile fun c => !c.drops k

/-- The number of the call, counted from 0, by which the key came in. -/
def entered? (h : History) (k : Value) : Option Nat :=
  ((h.since k).findIdx? (·.puts k)).map (h.length - (h.since k).length + ·)

/-- What a key that is in has been set to last, null if it was only added. -/
def meaning? (h : History) (k : Value) : Option Value :=
  (h.entered? k).map fun _ => ((h.since k).reverse.findSome? (·.valueOf? k)).getD .null

/-! ### One more call -/

lemma since_concat (h : History) (c : ListCall) (k : Value) :
    since (h ++ [c]) k = if c.drops k then [] else h.since k ++ [c] := by
  rw [since, List.rtakeWhile_concat]
  cases c.drops k <;> rfl

lemma length_since_le (h : History) (k : Value) : (h.since k).length ≤ h.length :=
  List.IsSuffix.length_le (List.rtakeWhile_suffix _ _)

lemma entered?_concat (h : History) (c : ListCall) (k : Value) : entered? (h ++ [c]) k =
    if c.drops k then none else (h.entered? k).or (if c.puts k then some h.length else none) := by
  have hle := h.length_since_le k
  rw [entered?, since_concat]
  split
  · rfl
  · have hoffset : (h ++ [c]).length - (h.since k ++ [c]).length =
        h.length - (h.since k).length := by
      simp only [List.length_append, List.length_singleton]
      omega
    rw [hoffset, List.findIdx?_append, entered?]
    cases (h.since k).findIdx? (·.puts k) with
    | some i => rfl
    | none =>
      cases hc : c.puts k with
      | false => simp [List.findIdx?_cons, hc]
      | true =>
        simp [List.findIdx?_cons, hc]
        omega

lemma lt_length_of_entered? (hi : h.entered? k = some i) : i < h.length := by
  obtain ⟨j, hj, rfl⟩ := Option.map_eq_some_iff.mp hi
  have hlt := (List.findIdx?_eq_some_iff_getElem.mp hj).1
  have hle := h.length_since_le k
  omega

lemma meaning?_concat (h : History) (c : ListCall) (k : Value) : meaning? (h ++ [c]) k =
    if c.drops k then none
    else if c.puts k then some ((c.valueOf? k).getD ((h.meaning? k).getD .null))
    else h.meaning? k := by
  rw [meaning?, entered?_concat, since_concat, meaning?]
  split
  · rfl
  rw [List.reverse_append, List.reverse_singleton, List.singleton_append, List.findSome?_cons]
  cases hi : h.entered? k with
  | some i =>
    cases hc : c.puts k with
    | true => cases c.valueOf? k <;> rfl
    | false => rw [ListCall.valueOf?_eq_none hc]; rfl
  | none =>
    -- Nothing in `since` puts the key in, so nothing there sets it either.
    have hnone : (h.since k).reverse.findSome? (·.valueOf? k) = none := by
      refine List.findSome?_eq_none_iff.mpr fun d hd => ListCall.valueOf?_eq_none ?_
      exact List.findIdx?_eq_none_iff.mp (Option.map_eq_none_iff.mp hi) d (List.mem_reverse.mp hd)
    cases hc : c.puts k with
    | true => cases hv : c.valueOf? k <;> simp [hnone]
    | false => rfl

/-! ### The map that a history makes -/

structure Recorded (h : History) (m : OrderedMap Value Value) : Prop where
  distinct : m.Distinct
  get? (k : Value) : m.get? k = h.meaning? k
  ordered : m.keys.Pairwise fun a b =>
    ∃ i j, h.entered? a = some i ∧ h.entered? b = some j ∧ i < j

namespace Recorded

variable {m m' : OrderedMap Value Value}

lemma empty : Recorded [] .empty := ⟨.nil, fun _ => rfl, .nil⟩

lemma contains (hm : Recorded h m) (k : Value) : m.contains k = (h.entered? k).isSome := by
  rw [← OrderedMap.isSome_get?, hm.get?, meaning?, Option.isSome_map]

lemma exists_entered (hm : Recorded h m) (hk : k ∈ m.keys) : ∃ i, h.entered? k = some i := by
  rw [← Option.isSome_iff_exists, ← hm.contains, OrderedMap.contains_eq_any_keys, List.any_eq_true]
  exact ⟨k, hk, BEq.rfl⟩

/-- Keys that stay in keep the numbers of the calls by which they came in. -/
lemma ordered_concat (hm : Recorded h m) {l : List Value} (hl : l.Sublist m.keys)
    (hc : ∀ k ∈ l, c.drops k = false) : l.Pairwise fun a b => ∃ i j,
      entered? (h ++ [c]) a = some i ∧ entered? (h ++ [c]) b = some j ∧ i < j := by
  have hkept : ∀ {k i}, k ∈ l → h.entered? k = some i → entered? (h ++ [c]) k = some i := by
    intro k i hk hi
    rw [entered?_concat, hc k hk, hi]
    rfl
  refine (hm.ordered.sublist hl).imp_of_mem ?_
  rintro a b ha hb ⟨i, j, hi, hj, hij⟩
  exact ⟨i, j, hkept ha hi, hkept hb hj, hij⟩

lemma idle (hm : Recorded h m) (hd : ∀ k, c.drops k = false) (hp : ∀ k, c.puts k = false) :
    Recorded (h ++ [c]) m where
  distinct := hm.distinct
  get? k := by
    rw [meaning?_concat, hd, hp, hm.get?]
    rfl
  ordered := hm.ordered_concat (List.Sublist.refl _) fun k _ => hd k

/-- The call makes sure that `k` is in and gives it a value, if it is new or the call sets it. -/
lemma put (hm : Recorded h m) (hd : ∀ j, c.drops j = false) (hp : ∀ j, c.puts j = (k == j))
    (hm' : m'.Distinct) (hkeys : m'.keys = if m.contains k then m.keys else m.keys ++ [k])
    (hget : ∀ j, m'.get? j =
      if k == j then some ((c.valueOf? j).getD ((m.get? j).getD .null)) else m.get? j) :
    Recorded (h ++ [c]) m' where
  distinct := hm'
  get? j := by
    rw [hget, meaning?_concat, hd, hp, hm.get?]
    rfl
  ordered := by
    have hold := hm.ordered_concat (List.Sublist.refl _) fun k _ => hd k
    rw [hkeys]
    split
    · exact hold
    next hk =>
      refine List.pairwise_append.mpr ⟨hold, List.pairwise_singleton .., fun a ha b hb => ?_⟩
      obtain rfl := List.mem_singleton.mp hb
      obtain ⟨i, hi⟩ := hm.exists_entered ha
      have hnew : h.entered? b = none := by
        rw [← Option.isNone_iff_eq_none, ← Option.not_isSome, ← hm.contains]
        simpa using hk
      refine ⟨i, h.length, ?_, ?_, lt_length_of_entered? hi⟩
      · rw [entered?_concat, hd, hi]
        rfl
      · rw [entered?_concat, hd, hp, hnew, BEq.rfl]
        rfl

lemma insert (hm : Recorded h m) (k v : Value) (growth : Bool) :
    Recorded (h ++ [.set k v growth]) (m.insert k v) := by
  refine hm.put (fun _ => rfl) (fun _ => rfl) (hm.distinct.insert k v) (m.keys_insert k v) ?_
  intro j
  rw [OrderedMap.get?_insert, ListCall.valueOf?]
  split <;> rfl

lemma insertIfNew (hm : Recorded h m) (k : Value) :
    Recorded (h ++ [.add k]) (m.insertIfNew k .null) := by
  refine hm.put (fun _ => rfl) (fun _ => rfl) (hm.distinct.insertIfNew k .null)
    (m.keys_insertIfNew k .null) ?_
  intro j
  exact m.get?_insertIfNew k j .null

lemma erase (hm : Recorded h m) (k : Value) : Recorded (h ++ [.remove k]) (m.erase k) where
  distinct := hm.distinct.erase k
  get? j := by
    rw [OrderedMap.get?_erase hm.distinct, meaning?_concat, hm.get?]
    rfl
  ordered := by
    refine hm.ordered_concat (List.Sublist.map _ List.eraseP_sublist) fun j hj => ?_
    exact Bool.eq_false_iff.mpr (OrderedMap.not_beq_of_mem_keys_erase hm.distinct hj)

lemma clear (hc : ∀ k, c.drops k = true) : Recorded (h ++ [c]) .empty where
  distinct := .nil
  get? k := by
    rw [meaning?_concat, hc]
    rfl
  ordered := .nil

lemma perform {l : KeyedList} (hl : Recorded h l.entries) (c : ListCall) :
    ∃ l', ((Container.keyed l).perform c).1 = .keyed l' ∧ Recorded (h ++ [c]) l'.entries := by
  cases c with
  | set k v growth => exact ⟨_, rfl, hl.insert k v growth⟩
  | add k => exact ⟨_, rfl, hl.insertIfNew k⟩
  | remove k => exact ⟨_, rfl, hl.erase k⟩
  | cut r =>
    cases hr : r.isAll with
    | true =>
      refine ⟨⟨.empty⟩, ?_, clear fun _ => hr⟩
      simp [Container.perform, Container.cut, KeyedList.cut, hr]
    | false =>
      refine ⟨l, ?_, hl.idle (fun _ => hr) fun _ => rfl⟩
      simp [Container.perform, Container.cut, KeyedList.cut, hr]

lemma run {l : KeyedList} (hl : Recorded h l.entries) (calls : List ListCall) :
    ∃ l', (Container.keyed l).run calls = .keyed l' ∧ Recorded (h ++ calls) l'.entries := by
  induction calls generalizing h l with
  | nil => exact ⟨l, rfl, by rwa [List.append_nil]⟩
  | cons c calls ih =>
    obtain ⟨l', hl', hr⟩ := hl.perform c
    obtain ⟨l'', hl'', hr⟩ := ih hr
    refine ⟨l'', ?_, by rwa [List.append_cons]⟩
    rw [Container.run, List.foldl_cons, hl']
    exact hl''

end Recorded

lemma run_ofPairs (pairs : List (Value × Value)) :
    (Container.keyed ⟨.empty⟩).run (ofPairs pairs) = .keyed (.ofPairs pairs) := by
  have fold (m : OrderedMap Value Value) : (Container.keyed ⟨m⟩).run (ofPairs pairs) =
      .keyed ⟨pairs.foldl (fun m e => m.insert e.1 e.2) m⟩ := by
    induction pairs generalizing m with
    | nil => rfl
    | cons x pairs ih => exact ih (m.insert x.1 x.2)
  exact fold .empty

end History

/-! ### Lists -/

/-- All that is seen of a list is told by the history. -/
structure KeyedList.FollowsHistory (h : History) (l : KeyedList) : Prop where
  distinct : l.values.Pairwise fun a b => ¬ a == b
  ordered : l.values.Pairwise fun a b =>
    ∃ i j, h.entered? a = some i ∧ h.entered? b = some j ∧ i < j
  contains (k : Value) : l.contains k = (h.entered? k).isSome
  hasAssociated (k : Value) : (Container.keyed l).hasAssociated k = (h.entered? k).isSome
  get (k : Value) : l.get k = ((h.meaning? k).map .ok).getD (.error (.keyNotFound k))
  pairs : l.pairs = l.values.map fun k => (k, (h.meaning? k).getD .null)
  size : l.size = l.values.length
  add_present {k : Value} : l.contains k = true → l.add k = l
  set_present {k : Value} (v : Value) : l.contains k = true → (l.set k v).values = l.values
  whole : l.cut .all = .ok ⟨.empty⟩ ∧ l.copy .all = .ok l
  part {r : ListRange} : r ≠ .all →
    l.cut r = .error (.invalidOperation .cut) ∧ l.copy r = .error (.invalidOperation .copy)

lemma History.Recorded.followsHistory {h : History} {l : KeyedList} (hl : Recorded h l.entries) :
    l.FollowsHistory h where
  distinct := hl.distinct
  ordered := hl.ordered
  contains := hl.contains
  hasAssociated := hl.contains
  get k := by
    rw [KeyedList.get, hl.get?]
    cases h.meaning? k <;> rfl
  pairs := by
    rw [KeyedList.pairs, OrderedMap.entries_eq_map_keys hl.distinct .null]
    exact List.map_congr_left fun k _ => by rw [hl.get?]
  size := (List.length_map _).symm
  add_present {k} hk := congrArg KeyedList.mk (if_pos hk)
  set_present {k} v hk := (l.entries.keys_insert k v).trans (if_pos hk)
  whole := ⟨rfl, rfl⟩
  part {r} hr := ⟨if_neg (mt of_decide_eq_true hr), if_neg (mt of_decide_eq_true hr)⟩

theorem KeyedList.followsHistory_of_run (pairs : List (Value × Value)) (calls : List ListCall) :
    ∃ l, (Container.keyed (.ofPairs pairs)).run calls = .keyed l ∧
      l.FollowsHistory (History.ofPairs pairs ++ calls) := by
  have h₀ : History.Recorded [] (KeyedList.mk .empty).entries := .empty
  obtain ⟨l, hl, hr⟩ := h₀.run (History.ofPairs pairs ++ calls)
  refine ⟨l, ?_, hr.followsHistory⟩
  rw [← hl, ← History.run_ofPairs, Container.run, Container.run, Container.run, List.foldl_append]

/-- A key comes back behind a zero, which is one key whatever its sign. -/
example :
    let h := History.ofPairs [(.text "a", .null), (.num (.zero true), .text "x")] ++
      [.set (.text "a") (.text "y") false, .remove (.text "a"), .cut ⟨1, 2⟩,
        .set (.num (.zero false)) (.text "z") false, .add (.text "a")]
    h.entered? (.num (.zero false)) = some 1 ∧ h.entered? (.text "a") = some 6 ∧
      h.meaning? (.num (.zero true)) = some (.text "z") ∧ h.meaning? (.text "a") = some .null := by
  decide +kernel

end ClassTree
