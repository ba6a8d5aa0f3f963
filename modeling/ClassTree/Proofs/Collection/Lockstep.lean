import ClassTree.Proofs.Collection.Pairs
/-!
A list indexed by number and an associative one, used alike with labels as keys, cannot be told apart:
from empty lists on, every request gets the same reply and leaves the same elements and pairs.
-/

namespace ClassTree

/-! ### Requests -/

inductive ListRequest where
  | call (c : ListCall)
  | get (key : Value)
  | hasAssociated (key : Value)
  | contains (v : Value)
  | find (v : Value) (r : ListRange)
  | copy (r : ListRange)
deriving DecidableEq, Repr

inductive ListReply where
  | done (removed : Option Bool)
  | value (v : Value)
  | flag (b : Bool)
  | position (n : Nat)
  | copied (pairs : List (Value × Value))
deriving DecidableEq, Repr

namespace Container

def after (l : Container) : ListRequest → Container
  | .call c => (l.perform c).1
  | _ => l

def reply (l : Container) : ListRequest → Except ListError ListReply
  | .call c => .done <$> (l.perform c).2
  | .get key => .value <$> l.get key
  | .hasAssociated key => .ok (.flag (l.hasAssociated key))
  | .contains v => .ok (.flag (l.contains v))
  | .find v r => .position <$> l.find v r
  | .copy r => (fun m => .copied m.pairs) <$> l.copy r

/-- What is seen of a list while it serves some requests. -/
def transcript (l : Container) :
    List ListRequest → List (Except ListError ListReply × Nat × List Value × List (Value × Value))
  | [] => []
  | q :: qs =>
    (l.reply q, (l.after q).size, (l.after q).values, (l.after q).pairs) :: (l.after q).transcript qs

/-- Labels as keys and the whole list as range. Only what is no element is added. -/
def isKeyedUse (l : Container) : ListRequest → Bool
  | .call (.set key _ _) => key.isLabel
  | .call (.add key) => key.isLabel && !l.contains key
  | .call (.remove key) => key.isLabel
  | .call (.cut r) => r.isAll
  | .get key => key.isLabel
  -- a key that was merely added has a value in the associative list alone
  | .hasAssociated _ => false
  | .contains key => key.isLabel
  | .find key r => key.isLabel && r.isAll
  | .copy r => r.isAll

def isKeyedRun (l : Container) : List ListRequest → Bool
  | [] => true
  | q :: qs => l.isKeyedUse q && (l.after q).isKeyedRun qs

end Container

variable {l l' : IndexedList} {m m' : KeyedList} {k v : Value} {q : ListRequest}

/-! ### Answers from the pairs -/

def lookup (pairs : List (Value × Value)) (k : Value) : Except ListError Value :=
  ((pairs.find? (·.1 == k)).map fun x => .ok x.2).getD (.error (.keyNotFound k))

namespace Container

lemma contains_iff (l : Container) (v : Value) : l.contains v = true ↔ ∃ w ∈ l.values, w == v := by
  cases l with
  | indexed l => exact List.any_eq_true
  | keyed l =>
    rw [contains, KeyedList.contains, OrderedMap.contains_eq_any_keys, List.any_eq_true]
    rfl

lemma contains_eq (l : Container) (v : Value) : l.contains v = l.values.contains v := by
  rw [Bool.eq_iff_iff, contains_iff, contains_iff_exists_beq]

end Container

namespace IndexedList

lemma map_fst_pairs (l : IndexedList) : l.pairs.map (·.1) = l.values := by
  rw [pairs, List.map_map]
  exact List.map_id _

lemma length_pairs (l : IndexedList) : l.pairs.length = l.size := List.length_map _

lemma find?_pairs_of_not_has (h : ¬ l.Has k) : l.pairs.find? (·.1 == k) = none := by
  refine List.find?_eq_none.mpr fun x hx hk => ?_
  obtain ⟨w, hw, rfl⟩ := List.mem_map.mp hx
  exact h ⟨w, hw, hk⟩

lemma find?_pairs_of_has (h : l.Has k) :
    ∃ w, l.pairs.find? (·.1 == k) = some (w, (l.associations.get? k).getD .null) := by
  obtain ⟨w, hw⟩ : ∃ w, l.values.find? (· == k) = some w := by
    rw [← Option.isSome_iff_exists, List.find?_isSome]
    exact h
  have hk : w == k := List.find?_some (p := (· == k)) hw
  have hf : l.values.find? ((·.1 == k) ∘ fun v => (v, (l.associations.get? v).getD .null)) = some w :=
    hw
  exact ⟨w, by rw [pairs, List.find?_map, hf, Option.map_some, OrderedMap.get?_congr hk]⟩

lemma getD_get?_associations (h : l.Sound) (k : Value) : (l.associations.get? k).getD .null =
    ((l.pairs.find? (·.1 == k)).map (·.2)).getD .null := by
  by_cases hk : l.Has k
  · obtain ⟨w, hw⟩ := find?_pairs_of_has hk
    rw [hw]
    rfl
  · rw [find?_pairs_of_not_has hk, h.get?_associations hk]
    rfl

lemma get_of_has (hn : k.isNum = false) (h : l.Has k) :
    l.get k = .ok ((l.associations.get? k).getD .null) := by
  rw [get_of_not_num l hn, if_pos (contains_iff_exists_beq.mpr h)]
  cases l.associations.get? k <;> rfl

lemma get_eq_lookup (h : l.Sound) (hn : k.isNum = false) : l.get k = lookup l.pairs k := by
  by_cases hk : l.Has k
  · obtain ⟨w, hw⟩ := find?_pairs_of_has hk
    rw [get_of_has hn hk, lookup, hw]
    rfl
  · rw [h.get_of_not_has hk hn, lookup, find?_pairs_of_not_has hk]
    rfl

end IndexedList

lemma KeyedList.get_eq_lookup (m : KeyedList) (k : Value) : m.get k = lookup m.pairs k := by
  have hg : m.entries.get? k = (m.pairs.find? (·.1 == k)).map (·.2) := rfl
  unfold get lookup
  rw [hg]
  cases m.pairs.find? (·.1 == k) <;> rfl

/-! ### Lists with the same pairs -/

structure Agree (l : IndexedList) (m : KeyedList) : Prop where
  sound : l.Sound
  distinct : m.entries.Distinct
  pairs : l.pairs = m.pairs

namespace Agree

lemma values (h : Agree l m) : l.values = m.values := by
  rw [← l.map_fst_pairs, h.pairs]
  rfl

lemma size (h : Agree l m) : l.size = m.size := by
  rw [IndexedList.size, h.values]
  exact List.length_map _

lemma getD_get? (h : Agree l m) (k : Value) :
    (l.associations.get? k).getD .null = (m.entries.get? k).getD .null := by
  rw [IndexedList.getD_get?_associations h.sound, h.pairs]
  rfl

lemma contains (h : Agree l m) (k : Value) : l.values.contains k = m.contains k := by
  rw [h.values]
  exact (Container.contains_eq (.keyed m) k).symm

lemma associate (h : Agree l m) (hk : k.isLabel = true) (v : Value) :
    Agree (l.associate k v) (m.set k v) where
  sound := h.sound.associate hk v
  distinct := h.distinct.insert k v
  pairs := by
    have hkeys : (l.associate k v).values = (m.entries.insert k v).keys := by
      rw [OrderedMap.keys_insert, IndexedList.associate, h.contains, h.values]
      rfl
    rw [KeyedList.pairs, KeyedList.set, OrderedMap.entries_eq_map_keys (h.distinct.insert k v) .null,
      IndexedList.pairs, hkeys]
    refine List.map_congr_left fun w _ => ?_
    -- elements other than `k` mean in either list what they meant before
    rw [IndexedList.associate, OrderedMap.get?_insert, OrderedMap.get?_insert]
    split
    · rfl
    · rw [h.getD_get?]

lemma add (h : Agree l m) (hk : l.values.contains k = false) : Agree (l.add k) (m.add k) where
  sound := h.sound.add k
  distinct := h.distinct.insertIfNew k .null
  pairs := by
    have hm : m.entries.contains k = false := (h.contains k).symm.trans hk
    have hl : ¬ l.Has k := fun hl => Bool.false_ne_true (hk.symm.trans (contains_iff_exists_beq.mpr hl))
    rw [h.sound.pairs_add hl, KeyedList.pairs, KeyedList.add, OrderedMap.insertIfNew, hm, h.pairs]
    exact (OrderedMap.entries_insert_of_contains_eq_false hm .null).symm

lemma remove (h : Agree l m) (k : Value) : Agree (l.remove k).1 (m.remove k).1 where
  sound := h.sound.remove k
  distinct := h.distinct.erase k
  pairs := by
    rw [IndexedList.pairs_remove h.sound.distinct, h.pairs]
    rfl

lemma snd_remove (h : Agree l m) (k : Value) : (l.remove k).2 = (m.remove k).2 := by
  have hc : (m.remove k).2 = l.values.contains k := (h.contains k).symm
  rw [hc, Bool.eq_iff_iff, IndexedList.snd_remove, contains_iff_exists_beq]
  rfl

lemma empty : Agree (.ofValues []) (.ofPairs []) := ⟨.ofValues [], .nil, rfl⟩

lemma cut_all (h : Agree l m) : ∃ l', l.cut .all = .ok l' ∧ Agree l' ⟨.empty⟩ := by
  refine ⟨l.keep (Span.without ⟨0, l.size⟩ l.values), ?_, h.sound.keep _, .nil, ?_⟩
  · rw [IndexedList.cut_eq, ListRange.resolve_all]
    rfl
  · rw [IndexedList.pairs_keep_without, List.take_zero, List.nil_append, List.drop_eq_nil_iff.mpr]
    · rfl
    · rw [l.length_pairs]

lemma copy_all (h : Agree l m) : ∃ l', l.copy .all = .ok l' ∧ l'.pairs = m.pairs := by
  refine ⟨l.keep (Span.slice ⟨0, l.size⟩ l.values), ?_, ?_⟩
  · rw [IndexedList.copy_eq, ListRange.resolve_all]
    rfl
  · rw [IndexedList.pairs_keep_slice, List.drop_zero, List.take_of_length_le, h.pairs]
    rw [l.length_pairs]

/-! ### Requests to both lists -/

lemma perform (h : Agree l m) {c : ListCall}
    (hc : (Container.indexed l).isKeyedUse (.call c) = true) : ∃ l' m' r,
      (Container.indexed l).perform c = (.indexed l', .ok r) ∧
        (Container.keyed m).perform c = (.keyed m', .ok r) ∧ Agree l' m' := by
  cases c with
  | set k v growth =>
    refine ⟨l.associate k v, m.set k v, none, ?_, rfl, h.associate hc v⟩
    simp only [Container.perform, Container.set, IndexedList.set_of_isLabel hc]
    rfl
  | add k =>
    obtain ⟨-, hn⟩ := Bool.and_eq_true_iff.mp hc
    refine ⟨l.add k, m.add k, none, rfl, rfl, h.add ?_⟩
    exact (Container.contains_eq (.indexed l) k).symm.trans ((Bool.not_eq_true' _).mp hn)
  | remove k =>
    refine ⟨(l.remove k).1, (m.remove k).1, some (l.remove k).2, rfl, ?_, h.remove k⟩
    rw [h.snd_remove]
    rfl
  | cut r =>
    obtain rfl : r = .all := of_decide_eq_true hc
    obtain ⟨l', hl, h'⟩ := h.cut_all
    refine ⟨l', ⟨.empty⟩, none, ?_, rfl, h'⟩
    simp only [Container.perform, Container.cut, hl]
    rfl

lemma find (h : Agree l m) (k : Value) :
    (Container.indexed l).find k .all = (Container.keyed m).find k .all := by
  simp only [Container.find, Container.size, Container.values, h.size, h.values]
  rfl

lemma respond (h : Agree l m) (hq : (Container.indexed l).isKeyedUse q = true) :
    (Container.indexed l).reply q = (Container.keyed m).reply q ∧
      ∃ l' m', (Container.indexed l).after q = .indexed l' ∧
        (Container.keyed m).after q = .keyed m' ∧ Agree l' m' := by
  cases q with
  | call c =>
    obtain ⟨l', m', r, hl, hm, h'⟩ := h.perform hq
    refine ⟨?_, l', m', ?_, ?_, h'⟩
    · rw [Container.reply, Container.reply, hl, hm]
    · rw [Container.after, hl]
    · rw [Container.after, hm]
  | get k =>
    refine ⟨?_, l, m, rfl, rfl, h⟩
    have hn : k.isNum = false := (Bool.not_eq_true' _).mp (Bool.and_eq_true_iff.mp hq).1
    have hget : l.get k = m.get k := by
      rw [IndexedList.get_eq_lookup h.sound hn, KeyedList.get_eq_lookup, h.pairs]
    exact congrArg (ListReply.value <$> ·) hget
  | hasAssociated k => cases hq
  | contains k =>
    refine ⟨?_, l, m, rfl, rfl, h⟩
    rw [Container.reply, Container.reply, Container.contains_eq]
    exact congrArg (Except.ok ∘ ListReply.flag) (h.contains k)
  | find k r =>
    obtain ⟨-, hr⟩ := Bool.and_eq_true_iff.mp hq
    obtain rfl : r = .all := of_decide_eq_true hr
    exact ⟨congrArg (ListReply.position <$> ·) (h.find k), l, m, rfl, rfl, h⟩
  | copy r =>
    obtain rfl : r = .all := of_decide_eq_true hq
    obtain ⟨l', hl, hpairs⟩ := h.copy_all
    refine ⟨?_, l, m, rfl, rfl, h⟩
    simp only [Container.reply, Container.copy, hl]
    exact congrArg (Except.ok ∘ ListReply.copied) hpairs

lemma transcript (h : Agree l m) (qs : List ListRequest)
    (hqs : (Container.indexed l).isKeyedRun qs = true) :
    (Container.indexed l).transcript qs = (Container.keyed m).transcript qs := by
  induction qs generalizing l m with
  | nil => rfl
  | cons q qs ih =>
    obtain ⟨hq, hrest⟩ := Bool.and_eq_true_iff.mp hqs
    obtain ⟨hreply, l', m', hl, hm, h'⟩ := h.respond hq
    rw [hl] at hrest
    simp only [Container.transcript, hl, hm, hreply, Container.size, Container.values,
      Container.pairs, h'.size, h'.values, h'.pairs, ih h' hrest]

end Agree

namespace Container

theorem transcript_of_isKeyedRun (qs : List ListRequest)
    (h : (indexed (.ofValues [])).isKeyedRun qs = true) :
    (indexed (.ofValues [])).transcript qs = (keyed (.ofPairs [])).transcript qs :=
  Agree.empty.transcript qs h

/-- The first key leaves and comes back behind the second one, without its value. -/
def comingBack : List ListRequest :=
  [.call (.set (.text "a") (.text "x") false), .call (.set (.text "b") (.text "y") true),
    .call (.remove (.text "a")), .get (.text "a"), .call (.add (.text "a")), .get (.text "a"),
    .find (.text "a") .all, .copy .all, .call (.cut .all), .contains (.text "a")]

theorem transcript_comingBack :
    (indexed (.ofValues [])).isKeyedRun comingBack = true ∧
      (indexed (.ofValues [])).transcript comingBack = (keyed (.ofPairs [])).transcript comingBack ∧
      ((indexed (.ofValues [])).transcript comingBack).map (·.1) =
        [.ok (.done none), .ok (.done none), .ok (.done (some true)),
          .error (.keyNotFound (.text "a")), .ok (.done none), .ok (.value .null),
          .ok (.position 2), .ok (.copied [(.text "b", .text "y"), (.text "a", .null)]),
          .ok (.done none), .ok (.flag false)] := by
  have h : (indexed (.ofValues [])).isKeyedRun comingBack = true := by decide +kernel
  exact ⟨h, transcript_of_isKeyedRun comingBack h, by decide +kernel⟩

end Container

end ClassTree
