import ClassTree.Proofs.Artifact.RoundTrip
import ClassTree.Proofs.Hierarchy.ConstNames
/-!
An artifact is closed: each id in it leads to the record of that id, which names the class and the
name under which it is referred to, so that a loader can bind ids by their place alone.
-/

namespace ClassTree

namespace ClassRecord

/-- The lists of procs, one for each name. -/
def listings (r : ClassRecord) : List (List ProcId) := r.procs.getD []

end ClassRecord

namespace Artifact

structure Closed (a : Artifact) : Prop where
  proc_id {i : ProcId} {p : ProcRecord} : a.procs[i]? = some p → p.id = i
  slot_id {k : SlotId} {s : SlotRecord} : a.slots[k]? = some s → s.id = k
  root : ∃ r, a.classes[rootId]? = some r ∧ r.parent = none
  parent {c : ClassId} {r : ClassRecord} :
    a.classes[c]? = some r → c ≠ rootId → ∃ q, r.parent = some q ∧ q < c
  slot {c : ClassId} {r : ClassRecord} {n : String} {k : SlotId} : a.classes[c]? = some r →
    (n, k) ∈ (r.globals.getD .empty).entries → ∃ s, a.slots[k]? = some s ∧ s.name = n
  listed {c : ClassId} {r : ClassRecord} {ids : List ProcId} : a.classes[c]? = some r →
    ids ∈ r.listings → ids ≠ [] ∧
      ∃ n, ∀ i ∈ ids, ∃ p, a.procs[i]? = some p ∧ p.owner = c ∧ p.name = some n
  listed_apart {c : ClassId} {r : ClassRecord} : a.classes[c]? = some r →
    r.listings.Pairwise fun ids ids' => ∀ i ∈ ids, ∀ i' ∈ ids', a.procName? i ≠ a.procName? i'
  listed_once : (a.classes.flatMap fun r => r.listings.flatten).Nodup
  initializer {c : ClassId} {r : ClassRecord} {i : ProcId} : a.classes[c]? = some r →
    r.initializer = some i → ∃ p, a.procs[i]? = some p ∧ p.owner = c ∧ p.name = none
  verb {c : ClassId} {r : ClassRecord} {i : ProcId} : a.classes[c]? = some r →
    i ∈ r.verbs.getD [] → i ∈ r.listings.flatten ∧
      ∃ p, a.procs[i]? = some p ∧ p.flags.isVerb = true

end Artifact

/-! ### Records without what is left out -/

namespace ClassEntry

variable (e : ClassEntry)

lemma listings_record : e.record.listings = e.procs.values := e.procs_record

lemma globals_record : e.record.globals.getD .empty = e.globals :=
  getD_ite_none fun h => (congrArg OrderedMap.mk (List.isEmpty_iff.mp h)).symm

lemma constNames_record : e.record.constNames.getD .empty = e.constNames :=
  getD_ite_none fun h => (congrArg OrderedSet.mk (List.isEmpty_iff.mp h)).symm

lemma verbs_record : e.record.verbs.getD [] = e.verbs :=
  getD_ite_none fun h => (List.isEmpty_iff.mp h).symm

lemma flatten_values_procs : e.procs.values.flatten = e.listings.map (·.2) := by
  simp [OrderedMap.values, listings, List.flatMap_def, Function.comp_def]

end ClassEntry

namespace Hierarchy

variable {t : Hierarchy} {a : Artifact} {c : ClassId} {e : ClassEntry} {r : ClassRecord}
  {i : ProcId} {k : SlotId} {n : String}

/-! ### Records of a compiled hierarchy -/

lemma classes_emit (ha : t.emit = .ok a) :
    a.classes[c]? = some r ↔ ∃ e, t.class? c = some e ∧ e.record = r := by
  rw [(eq_of_emit ha).2.1, List.getElem?_map, getElem?_classes, Option.map_eq_some_iff]

lemma procs_emit (ha : t.emit = .ok a) (i : ProcId) :
    a.procs[i]? = (t.registry.get? i).map Proc.record := by
  rw [(eq_of_emit ha).2.2, List.getElem?_map, Array.getElem?_toList]
  rfl

lemma listings_emit (ha : t.emit = .ok a) :
    (a.classes.flatMap fun r => r.listings.flatten) = t.listings.map (·.2.2) := by
  rw [(eq_of_emit ha).2.1, List.flatMap_map, listings, List.map_flatMap]
  congr 1
  funext e
  rw [e.listings_record, e.flatten_values_procs, List.map_map]
  rfl

/-! ### Where ids lead -/

lemma Built.distinct_procs (h : Built t) (hc : t.class? c = some e) : e.procs.Distinct := by
  refine h.forall_class (P := fun _ _ e => e.procs.Distinct) (fun _ _ _ _ => .nil) ?_ hc
  intro t t' i e e' _ _ _ hed hn
  cases hed with
  | addProc name => exact hn.insert name _
  | _ => exact hn

lemma Built.slot_emit (h : Built t) (ha : t.emit = .ok a) (hc : t.class? c = some e)
    (hk : (n, k) ∈ e.globals.entries) : ∃ s, a.slots[k]? = some s ∧ s.name = n := by
  have hown : t.ownGlobal c n = some k :=
    (ownGlobal_of_class? hc).trans
      (OrderedMap.get?_of_mem_entries (h.distinctNames hc).globals hk)
  obtain ⟨s, hs, hl⟩ := Option.map_eq_some_iff.mp (h.slotsBound.named hown)
  -- Without build errors each slot has a literal, and so a record.
  obtain ⟨j, hj⟩ := isSome_initialLiteral?_iff.mp
    ((buildErrors_eq_nil_iff.mp (eq_of_emit ha).1).2 k s hs)
  exact ⟨_, (slots_emit h.slotsBound ha).mpr ⟨s, j, hs, hj, rfl⟩, congrArg Prod.snd hl⟩

lemma Built.listed_emit (h : Built t) (ha : t.emit = .ok a) (hc : t.class? c = some e)
    {ids : List ProcId} (hx : (n, ids) ∈ e.procs.entries) (hi : i ∈ ids) :
    ∃ p, a.procs[i]? = some p ∧ p.owner = c ∧ p.name = some n := by
  obtain ⟨p, hp, ho, hn⟩ := (h.namedProcs hc _ hx).2 i hi
  exact ⟨p.record, by rw [procs_emit ha, hp, Option.map_some], ho, hn⟩

lemma Built.listed_apart_emit (h : Built t) (ha : t.emit = .ok a) (hc : t.class? c = some e) :
    e.procs.values.Pairwise fun ids ids' =>
      ∀ i ∈ ids, ∀ i' ∈ ids', a.procName? i ≠ a.procName? i' := by
  have hname {n : String} {ids : List ProcId} {i : ProcId} (hx : (n, ids) ∈ e.procs.entries)
      (hi : i ∈ ids) : a.procName? i = some n := by
    obtain ⟨p, hp, -, hn⟩ := h.listed_emit ha hc hx hi
    rw [Artifact.procName?, hp, Option.bind_some, hn]
  have hd : e.procs.entries.Pairwise fun x y => ¬ x.1 == y.1 :=
    List.pairwise_map.mp (h.distinct_procs hc)
  refine List.pairwise_map.mpr (hd.imp_of_mem ?_)
  intro x y hx hy hxy i hi i' hi' heq
  rw [hname hx hi, hname hy hi', Option.some.injEq] at heq
  exact hxy (beq_iff_eq.mpr heq)

lemma Built.initializer_emit (h : Built t) (ha : t.emit = .ok a) (hc : t.class? c = some e)
    (hi : e.initializer = some i) : ∃ p, a.procs[i]? = some p ∧ p.owner = c ∧ p.name = none := by
  obtain ⟨p, hp, ho, hn⟩ :=
    h.usedOnce.fits (h.arena.initializer_mem_procUses.mpr ⟨e, hc, hi⟩)
  have hp : t.registry.get? i = some p := hp
  exact ⟨p.record, by rw [procs_emit ha, hp, Option.map_some], ho, hn⟩

lemma Built.verb_emit (h : Built t) (ha : t.emit = .ok a) (hc : t.class? c = some e)
    (hi : i ∈ e.verbs) : i ∈ e.procs.values.flatten ∧
      ∃ p, a.procs[i]? = some p ∧ p.flags.isVerb = true := by
  obtain ⟨n, p, hl, hp, hv⟩ := (h.inOrder hc).verb.mp hi
  refine ⟨?_, p.record, by rw [procs_emit ha, hp, Option.map_some], hv⟩
  rw [e.flatten_values_procs]
  exact List.mem_map_of_mem hl

lemma Built.closed_emit (h : Built t) (ha : t.emit = .ok a) : a.Closed := by
  constructor
  case proc_id =>
    intro i p hp
    rw [procs_emit ha] at hp
    obtain ⟨q, hq, rfl⟩ := Option.map_eq_some_iff.mp hp
    exact h.numbered i q hq
  case slot_id =>
    intro k s hs
    obtain ⟨_, _, -, -, rfl⟩ := (slots_emit h.slotsBound ha).mp hs
    rfl
  case root =>
    obtain ⟨e, he, -, hn⟩ := h.arena.root
    exact ⟨e.record, (classes_emit ha).mpr ⟨e, he, rfl⟩, hn⟩
  case parent =>
    intro c r hr h0
    obtain ⟨e, he, rfl⟩ := (classes_emit ha).mp hr
    exact h.arena.parent he h0
  case slot =>
    intro c r n k hr hk
    obtain ⟨e, he, rfl⟩ := (classes_emit ha).mp hr
    rw [e.globals_record] at hk
    exact h.slot_emit ha he hk
  case listed =>
    intro c r ids hr hids
    obtain ⟨e, he, rfl⟩ := (classes_emit ha).mp hr
    rw [e.listings_record] at hids
    obtain ⟨⟨n, ids⟩, hx, rfl⟩ := List.mem_map.mp hids
    exact ⟨(h.namedProcs he _ hx).1, n, fun i hi => h.listed_emit ha he hx hi⟩
  case listed_apart =>
    intro c r hr
    obtain ⟨e, he, rfl⟩ := (classes_emit ha).mp hr
    rw [e.listings_record]
    exact h.listed_apart_emit ha he
  case listed_once =>
    rw [listings_emit ha]
    exact h.usedOnce.nodup_listings
  case initializer =>
    intro c r i hr hi
    obtain ⟨e, he, rfl⟩ := (classes_emit ha).mp hr
    exact h.initializer_emit ha he hi
  case verb =>
    intro c r i hr hi
    obtain ⟨e, he, rfl⟩ := (classes_emit ha).mp hr
    rw [e.verbs_record] at hi
    rw [e.listings_record]
    exact h.verb_emit ha he hi

/-! ### Const names -/

/-- The class declares the name itself, as an own variable or as an override, and as a const one. -/
def DeclaresConst (t : Hierarchy) (c : ClassId) (n : String) : Prop :=
  ∃ e v, t.class? c = some e ∧ (e.vars.get? n = some v ∨ e.overrides.get? n = some v) ∧
    v.isConst = true

lemma Built.mem_constNames_record (h : Built t) (hc : t.class? c = some e)
    (he : t.classErrors e = []) : n ∈ (e.record.constNames.getD .empty).elements ↔
      n ∈ (e.record.vars.getD .empty).keys ∧ t.DeclaresConst c n := by
  have hl : ∀ v ∈ e.declarations, v.literal?.isSome = true :=
    fun v hv => isSome_literal?_of_classErrors he hv
  rw [e.constNames_record, e.keys_record (h.namedVars hc) hl, (h.constNames hc).mem]
  constructor
  · rintro ⟨v, hv, hconst⟩
    refine ⟨?_, e, v, hc, hv, hconst⟩
    rcases hv with hv | hv
    · exact List.mem_append_left _ (List.mem_map_of_mem (OrderedMap.mem_entries_of_get? hv))
    · exact List.mem_append_right _ (List.mem_map_of_mem (OrderedMap.mem_entries_of_get? hv))
  · rintro ⟨-, f, v, hf, hv, hconst⟩
    obtain rfl := Option.some.inj (hc.symm.trans hf)
    exact ⟨v, hv, hconst⟩

theorem closed_of_emit (h : Reachable t) (ha : t.emit = .ok a) : a.Closed ∧
    ∀ (c : ClassId) r, a.classes[c]? = some r →
      (r.constNames.getD .empty).elements.Nodup ∧
      ∀ n, n ∈ (r.constNames.getD .empty).elements ↔
        n ∈ (r.vars.getD .empty).keys ∧ t.DeclaresConst c n := by
  refine ⟨h.built.closed_emit ha, fun c r hr => ?_⟩
  obtain ⟨e, hc, rfl⟩ := (classes_emit ha).mp hr
  have he := (buildErrors_eq_nil_iff.mp (eq_of_emit ha).1).1 c e hc
  refine ⟨?_, fun n => h.built.mem_constNames_record hc he⟩
  rw [e.constNames_record]
  exact (h.built.constNames hc).nodup

/-- A name for a proc of the root and for a global one, two verbs of one name, a global that is made
again, and variables that become const or cease to be. -/
def crossReferences : List Call :=
  [.createClass .movable none, .addProc 0 "tick" .none none, .addGlobalProc "tick" none,
    .pushPending 2 ⟨.internal, .assignField "loc" .null⟩, .createInitializer 2,
    .addProc 2 "Move" ⟨false, true, false⟩ none, .addProc 2 "Bump" .none none,
    .addProc 2 "Move" ⟨true, true, true⟩ none, .createGlobal 0 "count" none false .anything,
    .createGlobal 2 "count" none false .anything, .createGlobal 2 "count" none true .anything,
    .declareVar 2 ⟨"loc", none, true, none, .anything, .internal⟩,
    .declareOverride 2 ⟨"name", none, false, some (.text "thing"), .anything, .internal⟩,
    .declareVar 2 ⟨"loc", none, false, none, .anything, .internal⟩,
    .declareOverride 2 ⟨"name", none, true, some (.text "thing"), .anything, .internal⟩]

theorem closed_crossReferences : ∃ a r, (bare.run crossReferences).emit = .ok a ∧ a.Closed ∧
    a.classes[2]? = some r ∧ r.parent = some 1 ∧ r.listings = [[3, 5], [4]] ∧
    r.verbs = some [3, 5] ∧ r.initializer = some 2 ∧
    (r.globals.getD .empty).entries = [("count", 2)] ∧
    (r.vars.getD .empty).keys = ["loc", "name"] ∧
    (r.constNames.getD .empty).elements = ["name"] ∧
    (bare.run crossReferences).DeclaresConst 2 "name" ∧
    ¬ (bare.run crossReferences).DeclaresConst 2 "loc" := by
  obtain ⟨a, ha⟩ : ∃ a, (bare.run crossReferences).emit = .ok a :=
    exists_emit (List.isEmpty_iff.mp (by decide +kernel))
  have hv : ((bare.run crossReferences).class? 2).any (fun e => decide
      (e.record.parent = some 1 ∧ e.record.listings = [[3, 5], [4]] ∧
        e.record.verbs = some [3, 5] ∧ e.record.initializer = some 2 ∧
        (e.record.globals.getD .empty).entries = [("count", 2)] ∧
        (e.record.vars.getD .empty).keys = ["loc", "name"] ∧
        (e.record.constNames.getD .empty).elements = ["name"])) = true := by
    decide +kernel
  obtain ⟨e, he, hv⟩ := (Option.any_eq_true _ _).mp hv
  have hr : a.classes[2]? = some e.record := (classes_emit ha).mpr ⟨e, he, rfl⟩
  obtain ⟨hclosed, hconst⟩ := closed_of_emit (Reachable.bare.run crossReferences) ha
  have hmem := (hconst 2 e.record hr).2
  obtain ⟨hparent, hlistings, hverbs, hinit, hglobals, hkeys, hnames⟩ := of_decide_eq_true hv
  rw [hnames, hkeys] at hmem
  exact ⟨a, e.record, ha, hclosed, hr, hparent, hlistings, hverbs, hinit, hglobals, hkeys, hnames,
    ((hmem "name").mp (by simp)).2, fun hloc => absurd ((hmem "loc").mpr ⟨by simp, hloc⟩) (by simp)⟩

end Hierarchy

end ClassTree
