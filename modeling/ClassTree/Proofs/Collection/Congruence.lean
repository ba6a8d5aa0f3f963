import ClassTree.Proofs.Collection.Alike
import ClassTree.Proofs.Collection.Views
/-!
Equal values do the same in a list. Runs that differ in the sign of zeros and in which not-a-number
they use get equal answers, refusals among them, and their lists stay equal pair by pair.
-/

namespace ClassTree

/-! ### Indexed lists told apart by elements and what they mean -/

namespace IndexedList

/-- Equal elements in the same order, and equal associations in any order. -/
structure Twin (l m : IndexedList) : Prop where
  values : l.values.map Value.canonical = m.values.map Value.canonical
  associations : l.associations.Alike m.associations

variable {l m : IndexedList} {k k' v v' : Value}

namespace Twin

lemma size (h : Twin l m) : l.size = m.size := by
  have hs := congrArg List.length h.values
  rwa [List.length_map, List.length_map] at hs

lemma contains (h : Twin l m) (hv : v == v') : l.values.contains v = m.values.contains v' :=
  Value.contains_alike h.values hv

lemma has_iff (h : Twin l m) (hv : v == v') : l.Has v ↔ m.Has v' := by
  rw [Has, Has, ← contains_iff_exists_beq, ← contains_iff_exists_beq, h.contains hv]

lemma getElem? (h : Twin l m) (i : Nat) :
    (l.values[i]?).map Value.canonical = (m.values[i]?).map Value.canonical := by
  rw [← List.getElem?_map, ← List.getElem?_map, h.values]

lemma add (h : Twin l m) (hv : v == v') : Twin (l.add v) (m.add v') where
  values := by
    simp only [IndexedList.add, List.map_append, h.values, List.map_cons, Value.beq_iff.mp hv]
  associations := h.associations

lemma release (h : Twin l m) (hl : l.associations.Distinct) (hm : m.associations.Distinct)
    (hv : v == v') : Twin (l.release v) (m.release v') := by
  unfold IndexedList.release
  rw [h.contains hv]
  split
  · exact h
  · exact ⟨h.values, h.associations.erase hl hm hv⟩

lemma replace (h : Twin l m) (hl : l.Sound) (hm : m.Sound) (i : Nat) (hv : v == v') :
    Twin (l.replace i v) (m.replace i v') := by
  have hset : Twin ⟨l.values.set i v, l.associations⟩ ⟨m.values.set i v', m.associations⟩ := by
    refine ⟨?_, h.associations⟩
    rw [List.map_set, List.map_set, h.values, Value.beq_iff.mp hv]
  have hold := h.getElem? i
  unfold IndexedList.replace
  obtain ⟨ha, hb⟩ | ⟨a, b, ha, hb, hab⟩ := Value.alike_cases hold
  · rw [ha, hb]
    exact hset
  · rw [ha, hb]
    exact hset.release hl.distinct hm.distinct hab

lemma associate (h : Twin l m) (hk : k == k') (hv : v == v') :
    Twin (l.associate k v) (m.associate k' v') where
  values := by
    unfold IndexedList.associate
    dsimp only
    rw [h.contains hk]
    split
    · exact h.values
    · exact (h.add hk).values
  associations := h.associations.insert hk hv

lemma remove (h : Twin l m) (hl : l.Sound) (hm : m.Sound) (hv : v == v') :
    Twin (l.remove v).1 (m.remove v').1 := by
  by_cases hl' : l.Has v
  · rw [remove_of_has hl', remove_of_has ((h.has_iff hv).mp hl')]
    exact release ⟨Value.eraseP_alike h.values hv, h.associations⟩ hl.distinct hm.distinct hv
  · rw [remove_of_not_has hl', remove_of_not_has (mt (h.has_iff hv).mpr hl')]
    exact h

lemma snd_remove (h : Twin l m) (hv : v == v') : (l.remove v).2 = (m.remove v').2 := by
  rw [Bool.eq_iff_iff, IndexedList.snd_remove, IndexedList.snd_remove, h.has_iff hv]

lemma keep (h : Twin l m) {xs ys : List Value}
    (hxy : xs.map Value.canonical = ys.map Value.canonical) : Twin (l.keep xs) (m.keep ys) :=
  ⟨hxy, h.associations.filterKeys fun _ _ => Value.contains_alike hxy⟩

lemma position (h : Twin l m) (hk : k == k') : OutcomeAlike Eq (l.position k) (m.position k') := by
  unfold IndexedList.position
  rw [Value.position?_congr hk, h.size]
  cases k'.position? with
  | none => exact .error (.invalidKey hk)
  | some n => exact .refl _

lemma set (h : Twin l m) (hl : l.Sound) (hm : m.Sound) (hk : k == k') (hv : v == v')
    (growth : Bool) : OutcomeAlike Twin (l.set k v growth) (m.set k' v' growth) := by
  -- Equal keys are both numbers, both null or both labels.
  have hn := Value.isNum_congr hk
  have hz := Value.isNull_congr hk
  by_cases hkn : k.isNum = true
  · rw [set_of_isNum hkn, set_of_isNum (hn ▸ hkn), Value.position?_congr hk, h.size]
    split
    · exact .ok (h.add hv)
    · refine (h.position hk).map ?_
      rintro i _ rfl
      exact h.replace hl hm i hv
  · by_cases hkz : k.isNull = true
    · rw [set_of_isNull hkz, set_of_isNull (hz ▸ hkz)]
      exact .error (.invalidKey hk)
    · have hkl : k.isLabel = true := by simp [Value.isLabel, hkn, hkz]
      have hkl' : k'.isLabel = true := by simp [Value.isLabel, ← hn, ← hz, hkn, hkz]
      rw [set_of_isLabel hkl, set_of_isLabel hkl']
      exact .ok (h.associate hk hv)

lemma get (h : Twin l m) (hk : k == k') :
    OutcomeAlike (fun v w => v == w) (l.get k) (m.get k') := by
  have hn := Value.isNum_congr hk
  by_cases hkn : k.isNum = true
  · rw [get_of_isNum hkn, get_of_isNum (hn ▸ hkn)]
    refine (h.position hk).map ?_
    rintro i _ rfl
    exact Value.getD_alike (h.getElem? i)
  · have hkn' : k.isNum = false := Bool.eq_false_iff.mpr hkn
    rw [get_of_not_num l hkn', get_of_not_num m (hn ▸ hkn'), h.contains hk]
    obtain ⟨ha, hb⟩ | ⟨a, b, ha, hb, hab⟩ := Value.alike_cases (h.associations.get? hk)
    · simp only [ha, hb, Option.map_none, Option.getD_none]
      split
      · exact .ok BEq.rfl
      · exact .error (.keyNotFound hk)
    · rw [ha, hb]
      exact .ok hab

lemma cut (h : Twin l m) (r : ListRange) : OutcomeAlike Twin (l.cut r) (m.cut r) := by
  rw [cut_eq, cut_eq, h.size]
  refine (OutcomeAlike.refl (r.resolve m.size)).map ?_
  rintro s _ rfl
  refine h.keep ?_
  simp only [Span.without, List.map_append, List.map_take, List.map_drop, h.values]

lemma copy (h : Twin l m) (r : ListRange) : OutcomeAlike Twin (l.copy r) (m.copy r) := by
  rw [copy_eq, copy_eq, h.size]
  refine (OutcomeAlike.refl (r.resolve m.size)).map ?_
  rintro s _ rfl
  refine h.keep ?_
  simp only [Span.slice, List.map_take, List.map_drop, h.values]

end Twin

end IndexedList

/-! ### Associative lists -/

namespace KeyedList

structure Twin (l m : KeyedList) : Prop where
  keys : l.entries.keys.map Value.canonical = m.entries.keys.map Value.canonical
  entries : l.entries.Alike m.entries

variable {l m : KeyedList} {k k' v v' : Value}

namespace Twin

lemma set (h : Twin l m) (hk : k == k') (hv : v == v') : Twin (l.set k v) (m.set k' v') where
  keys := by
    rw [KeyedList.set, KeyedList.set, OrderedMap.keys_insert, OrderedMap.keys_insert,
      h.entries.contains hk]
    split
    · exact h.keys
    · rw [List.map_append, List.map_append, h.keys]
      exact congrArg (_ ++ [·]) (Value.beq_iff.mp hk)
  entries := h.entries.insert hk hv

lemma add (h : Twin l m) (hk : k == k') : Twin (l.add k) (m.add k') := by
  unfold KeyedList.add OrderedMap.insertIfNew
  rw [h.entries.contains hk]
  split
  · exact h
  · exact h.set hk BEq.rfl

lemma remove (h : Twin l m) (hl : l.entries.Distinct) (hm : m.entries.Distinct) (hk : k == k') :
    Twin (l.remove k).1 (m.remove k').1 where
  keys := by
    have he (n : KeyedList) (j : Value) :
        (n.remove j).1.entries.keys = n.entries.keys.eraseP (· == j) := by
      rw [OrderedMap.keys, OrderedMap.keys, List.eraseP_map]
      rfl
    rw [he, he]
    exact Value.eraseP_alike h.keys hk
  entries := h.entries.erase hl hm hk

lemma get (h : Twin l m) (hk : k == k') :
    OutcomeAlike (fun v w => v == w) (l.get k) (m.get k') := by
  unfold KeyedList.get
  obtain ⟨ha, hb⟩ | ⟨a, b, ha, hb, hab⟩ := Value.alike_cases (h.entries.get? hk)
  · rw [ha, hb]
    exact .error (.keyNotFound hk)
  · rw [ha, hb]
    exact .ok hab

lemma cut (r : ListRange) : OutcomeAlike Twin (l.cut r) (m.cut r) := by
  unfold KeyedList.cut
  split
  · exact .ok ⟨rfl, fun _ => rfl⟩
  · exact .error (.refl _)

lemma copy (h : Twin l m) (r : ListRange) : OutcomeAlike Twin (l.copy r) (m.copy r) := by
  unfold KeyedList.copy
  split
  · exact .ok h
  · exact .error (.refl _)

end Twin

end KeyedList

/-! ### Steps of either list -/

namespace Container

inductive Twin : Container → Container → Prop
  | indexed {l m : IndexedList} (h : l.Twin m) : Twin (.indexed l) (.indexed m)
  | keyed {l m : KeyedList} (h : l.Twin m) : Twin (.keyed l) (.keyed m)

def meanings : Container → OrderedMap Value Value
  | indexed l => l.associations
  | keyed l => l.entries

variable {l m : Container} {k k' v w : Value} {c d : ListCall} {q q' : ListRequest}

lemma hasAssociated_eq (l : Container) (k : Value) : l.hasAssociated k = l.meanings.contains k := by
  cases l <;> rfl

lemma Sound.pairs_eq (h : l.Sound) :
    l.pairs = l.values.map fun v => (v, (l.meanings.get? v).getD .null) := by
  cases l with
  | indexed l => rfl
  | keyed l => exact OrderedMap.entries_eq_map_keys h .null

lemma Sound.getD_get?_meanings (h : l.Sound) (k : Value) : (l.meanings.get? k).getD .null =
    ((⟨l.pairs⟩ : OrderedMap Value Value).get? k).getD .null := by
  cases l with
  | indexed l => exact IndexedList.getD_get?_associations h k
  | keyed l => rfl

namespace Twin

lemma values (h : Twin l m) : l.values.map Value.canonical = m.values.map Value.canonical := by
  cases h with
  | indexed h => exact h.values
  | keyed h => exact h.keys

lemma meanings (h : Twin l m) : l.meanings.Alike m.meanings := by
  cases h with
  | indexed h => exact h.associations
  | keyed h => exact h.entries

lemma size (h : Twin l m) : l.size = m.size := by
  have hs := congrArg List.length h.values
  rwa [List.length_map, List.length_map, length_values, length_values] at hs

lemma contains (h : Twin l m) (hv : v == w) : l.contains v = m.contains w := by
  rw [contains_eq, contains_eq, Value.contains_alike h.values hv]

lemma hasAssociated (h : Twin l m) (hk : k == k') : l.hasAssociated k = m.hasAssociated k' := by
  rw [hasAssociated_eq, hasAssociated_eq, h.meanings.contains hk]

lemma alike (h : Twin l m) (hl : l.Sound) (hm : m.Sound) : l.Alike m where
  kind := by cases h <;> rfl
  pairs := by
    rw [hl.pairs_eq, hm.pairs_eq, List.forall₂_map_left_iff, List.forall₂_map_right_iff]
    refine (Value.forall₂_beq_iff.mpr h.values).imp fun v w hvw => ?_
    exact ⟨hvw, Value.getD_alike (h.meanings.get? hvw)⟩
  associated _ := h.hasAssociated BEq.rfl

end Twin

/-- Lists that show equal pairs and have values for the same keys give equal values to a key. -/
lemma Alike.twin (h : l.Alike m) (hl : l.Sound) (hm : m.Sound) : Twin l m := by
  have hvalues : l.values.map Value.canonical = m.values.map Value.canonical := by
    rw [← Value.forall₂_beq_iff, ← l.map_fst_pairs, ← m.map_fst_pairs, List.forall₂_map_left_iff,
      List.forall₂_map_right_iff]
    exact h.pairs.imp fun _ _ => And.left
  have hmeanings : l.meanings.Alike m.meanings := by
    intro k
    have hk := h.associated k
    rw [hasAssociated_eq, hasAssociated_eq, ← OrderedMap.isSome_get?,
      ← OrderedMap.isSome_get?] at hk
    have hpairs : (⟨l.pairs⟩ : OrderedMap Value Value).Alike ⟨m.pairs⟩ := .of_entries h.pairs
    have hgetD := Value.getD_alike (hpairs k)
    rw [← hl.getD_get?_meanings, ← hm.getD_get?_meanings] at hgetD
    exact Value.alike_of_getD hk hgetD
  cases l with
  | indexed l =>
    cases m with
    | indexed m => exact .indexed ⟨hvalues, hmeanings⟩
    | keyed m => cases h.kind
  | keyed l =>
    cases m with
    | indexed m => cases h.kind
    | keyed m => exact .keyed ⟨hvalues, hmeanings⟩

lemma Sound.after (h : l.Sound) (q : ListRequest) : (l.after q).Sound := by
  cases q with
  | call c => exact h.perform c
  | _ => exact h

def serve (l : Container) (qs : List ListRequest) : Container := qs.foldl after l

lemma Sound.serve (h : l.Sound) (qs : List ListRequest) : (l.serve qs).Sound := by
  induction qs generalizing l with
  | nil => exact h
  | cons q qs ih => exact ih (h.after q)

namespace Twin

lemma set (h : Twin l m) (hl : l.Sound) (hm : m.Sound) (hk : k == k') (hv : v == w)
    (growth : Bool) : OutcomeAlike Twin (l.set k v growth) (m.set k' w growth) := by
  cases h with
  | indexed h => exact (h.set hl hm hk hv growth).map fun _ _ => .indexed
  | keyed h => exact .ok (.keyed (h.set hk hv))

lemma add (h : Twin l m) (hv : v == w) : Twin (l.add v) (m.add w) := by
  cases h with
  | indexed h => exact .indexed (h.add hv)
  | keyed h => exact .keyed (h.add hv)

lemma remove (h : Twin l m) (hl : l.Sound) (hm : m.Sound) (hv : v == w) :
    Twin (l.remove v).1 (m.remove w).1 ∧ (l.remove v).2 = (m.remove w).2 := by
  cases h with
  | indexed h => exact ⟨.indexed (h.remove hl hm hv), h.snd_remove hv⟩
  | keyed h => exact ⟨.keyed (h.remove hl hm hv), h.entries.contains hv⟩

lemma cut (h : Twin l m) (r : ListRange) : OutcomeAlike Twin (l.cut r) (m.cut r) := by
  cases h with
  | indexed h => exact (h.cut r).map fun _ _ => .indexed
  | keyed h => exact (KeyedList.Twin.cut r).map fun _ _ => .keyed

lemma copy (h : Twin l m) (r : ListRange) : OutcomeAlike Twin (l.copy r) (m.copy r) := by
  cases h with
  | indexed h => exact (h.copy r).map fun _ _ => .indexed
  | keyed h => exact (h.copy r).map fun _ _ => .keyed

lemma get (h : Twin l m) (hk : k == k') :
    OutcomeAlike (fun v w => v == w) (l.get k) (m.get k') := by
  cases h with
  | indexed h => exact h.get hk
  | keyed h => exact h.get hk

lemma find (h : Twin l m) (hv : v == w) (r : ListRange) : l.find v r = m.find w r := by
  have hkind : l.isIndexableByNumber = m.isIndexableByNumber := by cases h <;> rfl
  have hslice (s : Span) :
      (s.slice l.values).map Value.canonical = (s.slice m.values).map Value.canonical := by
    simp only [Span.slice, List.map_take, List.map_drop, h.values]
  simp only [Container.find, hkind, h.size, Span.find, Value.findIdx?_alike (hslice _) hv]

lemma perform (h : Twin l m) (hl : l.Sound) (hm : m.Sound) (hc : c.Alike d) :
    Twin (l.perform c).1 (m.perform d).1 ∧
      OutcomeAlike Eq (l.perform c).2 (m.perform d).2 := by
  cases hc with
  | @set k k' v w hk hv growth =>
    have hset := h.set hl hm hk hv growth
    unfold Container.perform
    dsimp only
    generalize l.set k v growth = x at hset
    generalize m.set k' w growth = y at hset
    cases hset with
    | ok h' => exact ⟨h', .ok rfl⟩
    | error he => exact ⟨h, .error he⟩
  | add hv => exact ⟨h.add hv, .ok rfl⟩
  | remove hv =>
    obtain ⟨hr, hb⟩ := h.remove hl hm hv
    exact ⟨hr, .ok (congrArg some hb)⟩
  | cut r =>
    have hcut := h.cut r
    unfold Container.perform
    dsimp only
    generalize l.cut r = x at hcut
    generalize m.cut r = y at hcut
    cases hcut with
    | ok h' => exact ⟨h', .ok rfl⟩
    | error he => exact ⟨h, .error he⟩

lemma copy_alike (h : Twin l m) (hl : l.Sound) (hm : m.Sound) (r : ListRange) :
    OutcomeAlike Alike (l.copy r) (m.copy r) := by
  have hcopy := h.copy r
  generalize hx : l.copy r = x at hcopy ⊢
  generalize hy : m.copy r = y at hcopy ⊢
  cases hcopy with
  | ok h' => exact .ok (h'.alike (hl.copy hx) (hm.copy hy))
  | error he => exact .error he

lemma after (h : Twin l m) (hl : l.Sound) (hm : m.Sound) (hq : q.Alike q') :
    Twin (l.after q) (m.after q') := by
  cases hq with
  | call hc => exact (h.perform hl hm hc).1
  | _ => exact h

lemma reply (h : Twin l m) (hl : l.Sound) (hm : m.Sound) (hq : q.Alike q') :
    OutcomeAlike ListReply.Alike (l.reply q) (m.reply q') := by
  cases hq with
  | call hc =>
    refine (h.perform hl hm hc).2.map ?_
    rintro r _ rfl
    exact .done r
  | get hk => exact (h.get hk).map fun _ _ => .value
  | hasAssociated hk =>
    rw [Container.reply, Container.reply, h.hasAssociated hk]
    exact .ok (.flag _)
  | contains hv =>
    rw [Container.reply, Container.reply, h.contains hv]
    exact .ok (.flag _)
  | find hv r =>
    rw [Container.reply, Container.reply, h.find hv r]
    refine (OutcomeAlike.refl _).map ?_
    rintro n _ rfl
    exact .position n
  | copy r => exact (h.copy_alike hl hm r).map fun _ _ hab => .copied hab.pairs

/-! ### Runs -/

lemma transcript (h : Twin l m) (hl : l.Sound) (hm : m.Sound) {qs rs : List ListRequest}
    (hqs : List.Forall₂ ListRequest.Alike qs rs) :
    List.Forall₂ SeenAlike (l.transcript qs) (m.transcript rs) ∧
      Twin (l.serve qs) (m.serve rs) := by
  -- Both runs at once, each pair of requests keeping the lists `Twin`.
  induction hqs generalizing l m with
  | nil => exact ⟨.nil, h⟩
  | @cons q r qs rs hq _ ih =>
    have h' := h.after hl hm hq
    have hl' := hl.after q
    have hm' := hm.after r
    obtain ⟨hrest, hend⟩ := ih h' hl' hm'
    refine ⟨.cons ⟨h.reply hl hm hq, h'.size, ?_, (h'.alike hl' hm').pairs⟩ hrest, hend⟩
    exact Value.forall₂_beq_iff.mpr h'.values

end Twin

/-- Two runs that cannot be told apart: by what is seen of them, by their lists in the end, and by
the copies of these. -/
structure RunsAlike (l m : Container) (qs rs : List ListRequest) : Prop where
  transcript : List.Forall₂ SeenAlike (l.transcript qs) (m.transcript rs)
  lists : (l.serve qs).Alike (m.serve rs)
  copies (r : ListRange) : OutcomeAlike Alike ((l.serve qs).copy r) ((m.serve rs).copy r)

theorem runsAlike_of_reachable {qs rs : List ListRequest} (hl : Reachable l) (hm : Reachable m)
    (h : l.Alike m) (hqs : List.Forall₂ ListRequest.Alike qs rs) : RunsAlike l m qs rs := by
  obtain ⟨htranscript, hend⟩ := (h.twin hl.sound hm.sound).transcript hl.sound hm.sound hqs
  have hl' := hl.sound.serve qs
  have hm' := hm.sound.serve rs
  exact ⟨htranscript, hend.alike hl' hm', hend.copy_alike hl' hm'⟩

/-! ### Where runs start -/

lemma alike_ofValues {xs ys : List Value} (h : List.Forall₂ (fun v w => v == w) xs ys) :
    (indexed (.ofValues xs)).Alike (indexed (.ofValues ys)) := by
  refine Twin.alike (.indexed ⟨?_, fun _ => rfl⟩) (Reachable.indexed xs).sound
    (Reachable.indexed ys).sound
  exact Value.forall₂_beq_iff.mp h

lemma alike_ofPairs {xs ys : List (Value × Value)} (h : List.Forall₂ PairAlike xs ys) :
    (keyed (.ofPairs xs)).Alike (keyed (.ofPairs ys)) := by
  have fold {l m : KeyedList} (hlm : l.Twin m) :
      KeyedList.Twin ⟨xs.foldl (fun m e => m.insert e.1 e.2) l.entries⟩
        ⟨ys.foldl (fun m e => m.insert e.1 e.2) m.entries⟩ := by
    induction h generalizing l m with
    | nil => exact hlm
    | cons hxy _ ih => exact ih (hlm.set hxy.1 hxy.2)
  refine Twin.alike (.keyed ?_) (Reachable.keyed xs).sound (Reachable.keyed ys).sound
  have hempty : KeyedList.Twin ⟨.empty⟩ ⟨.empty⟩ := ⟨rfl, fun _ => rfl⟩
  exact fold hempty

/-- Zeros and what is not a number, under one sign. -/
def signedRun (negative : Bool) : List ListRequest :=
  [.call (.add (.num (.nan negative))), .call (.add (.num (.zero negative))),
    .find (.num (.nan negative)) .all, .get (.num (.zero negative)),
    .call (.set (.num (.zero negative)) (.num (.nan negative)) true),
    .hasAssociated (.num (.zero negative)), .call (.remove (.num (.zero negative))), .copy .all]

lemma alike_signedRun (a b : Bool) :
    List.Forall₂ ListRequest.Alike (signedRun a) (signedRun b) := by
  have hn : Value.num (.nan a) == .num (.nan b) := by cases a <;> cases b <;> rfl
  have hz : Value.num (.zero a) == .num (.zero b) := by cases a <;> cases b <;> rfl
  exact .cons (.call (.add hn)) (.cons (.call (.add hz)) (.cons (.find hn .all)
    (.cons (.get hz) (.cons (.call (.set hz hn true)) (.cons (.hasAssociated hz)
      (.cons (.call (.remove hz)) (.cons (.copy .all) .nil)))))))

theorem runsAlike_signedRun :
    (RunsAlike (indexed (.ofValues [.num (.zero true)])) (indexed (.ofValues [.num (.zero false)]))
        (signedRun true) (signedRun false) ∧
      RunsAlike (keyed (.ofPairs [(.num (.nan true), .num (.zero true))]))
        (keyed (.ofPairs [(.num (.nan false), .num (.zero false))]))
        (signedRun true) (signedRun false)) ∧
      ((indexed (.ofValues [.num (.zero true)])).transcript (signedRun true)).map (·.1) =
        [.ok (.done none), .ok (.done none), .ok (.position 2),
          .error (.invalidKey (.num (.zero true))), .error (.invalidKey (.num (.zero true))),
          .ok (.flag false), .ok (.done (some true)),
          .ok (.copied [(.num (.nan true), .null), (.num (.zero true), .null)])] := by
  have hz : Value.num (.zero true) == .num (.zero false) := rfl
  have hn : Value.num (.nan true) == .num (.nan false) := rfl
  refine ⟨⟨runsAlike_of_reachable (.indexed _) (.indexed _) (alike_ofValues (.cons hz .nil))
      (alike_signedRun true false), ?_⟩, by decide +kernel⟩
  exact runsAlike_of_reachable (.keyed _) (.keyed _) (alike_ofPairs (.cons ⟨hn, hz⟩ .nil))
    (alike_signedRun true false)

end Container

end ClassTree
