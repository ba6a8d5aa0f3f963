import ClassTree.Hierarchy.Resolve
import ClassTree.Proofs.FirstAnswer
import ClassTree.Proofs.Hierarchy.Lineage
import ClassTree.Proofs.Hierarchy.Naming
/-!
What a name means by an artifact alone. A loader follows the parents of the records and looks into
each for the name; for every hierarchy that can be compiled it finds what the hierarchy itself does.
-/

namespace ClassTree

/-! ### Looking up -/

def ClassRecord.literal? (r : ClassRecord) (n : String) : Option Json := r.vars.bind (·.get? n)

def ClassRecord.slot? (r : ClassRecord) (n : String) : Option SlotId := r.globals.bind (·.get? n)

namespace Artifact

def Above (a : Artifact) (c : ClassId) : List ClassRecord → Prop :=
  Walk (fun i => a.classes[i]?) ClassRecord.parent (some c)

def procName? (a : Artifact) (id : ProcId) : Option String := a.procs[id]?.bind (·.name)

/-- The procs of a record that have a name in the table of procs. -/
def procs? (a : Artifact) (n : String) (r : ClassRecord) : Option (List ProcId) :=
  (r.procs.getD []).find? fun ids => !ids.isEmpty && ids.all fun id => a.procName? id == some n

/-- The records whose globals count: only a class without a parent sees the globals of one. -/
def globalScope (a : Artifact) (c : ClassId) (above : List ClassRecord) : List ClassRecord :=
  above.takeWhile fun r => (a.classes[c]?.bind (·.parent)).isNone || r.parent.isSome

end Artifact

/-! ### Records -/

variable {e : ClassEntry}

lemma NamedVars.get?_eq {vars overrides : OrderedMap String Variable}
    (h : NamedVars vars overrides) (n : String) :
    vars.get? n = vars.values.find? fun v => v.name == n :=
  OrderedMap.get?_eq_find?_values fun x hx => by rw [h.vars_name x hx]

lemma NamedVars.map_name_values {vars overrides : OrderedMap String Variable}
    (h : NamedVars vars overrides) : vars.values.map (·.name) = vars.keys := by
  rw [OrderedMap.values, OrderedMap.keys, List.map_map]
  exact List.map_congr_left h.vars_name

lemma ClassEntry.declared?_eq (h : NamedVars e.vars e.overrides) (n : String) :
    e.declared? n = e.declarations.find? fun v => v.name == n := by
  rw [declared?, declarations, List.find?_append, h.get?_eq, h.swap.get?_eq]

lemma ClassEntry.nodup_names (h : NamedVars e.vars e.overrides) :
    (e.declarations.map (·.name)).Nodup := by
  rw [declarations, List.map_append, h.map_name_values, h.swap.map_name_values, List.nodup_append]
  refine ⟨h.vars_distinct, h.overrides_distinct, ?_⟩
  rintro n hn _ ho rfl
  exact h.disjoint n hn ho

/-- With all literals there, no declaration is left out and none stands in for another. -/
lemma ClassEntry.entries_literals (h : NamedVars e.vars e.overrides)
    (hl : ∀ v ∈ e.declarations, v.literal?.isSome = true) :
    e.literals.entries = e.declarations.filterMap (fun v => v.literal?.map (v.name, ·)) ∧
      e.literals.keys = e.declarations.map (·.name) := by
  have hnames : (e.declarations.filterMap fun v => v.literal?.map (v.name, ·)).map (·.1) =
      e.declarations.map (·.name) := by
    rw [List.map_filterMap, ← List.filterMap_eq_map]
    refine List.filterMap_congr fun v hv => ?_
    obtain ⟨j, hj⟩ := Option.isSome_iff_exists.mp (hl v hv)
    rw [hj]
    rfl
  have hentries := OrderedMap.entries_ofList (hnames ▸ nodup_names h)
  exact ⟨hentries, by rw [OrderedMap.keys, literals, hentries, hnames]⟩

lemma ClassEntry.get?_literals (h : NamedVars e.vars e.overrides)
    (hl : ∀ v ∈ e.declarations, v.literal?.isSome = true) (n : String) :
    e.literals.get? n = (e.declared? n).bind (·.literal?) := by
  rw [OrderedMap.get?, (entries_literals h hl).1, List.find?_filterMap, declared?_eq h]
  have hfind : (e.declarations.find? fun v => (v.literal?.map (v.name, ·)).any (·.1 == n)) =
      e.declarations.find? fun v => v.name == n := by
    refine List.find?_congr fun v hv => ?_
    obtain ⟨j, hj⟩ := Option.isSome_iff_exists.mp (hl v hv)
    rw [hj]
    rfl
  rw [hfind, Option.map_bind]
  congr 1
  funext v
  cases hv : v.literal? <;> simp [hv]

lemma ClassEntry.literal?_record (h : NamedVars e.vars e.overrides)
    (hl : ∀ v ∈ e.declarations, v.literal?.isSome = true) (n : String) :
    e.record.literal? n = (e.declared? n).bind (·.literal?) := by
  rw [← get?_literals h hl, ClassRecord.literal?, record]
  dsimp only
  split
  · next hd => rw [literals, List.isEmpty_iff.mp hd]; rfl
  · rfl

lemma ClassEntry.slot?_record (e : ClassEntry) (n : String) :
    e.record.slot? n = e.globals.get? n := by
  rw [ClassRecord.slot?, record]
  dsimp only
  split
  · next hg => rw [OrderedMap.get?, List.isEmpty_iff.mp hg]; rfl
  · rfl

/-- What is left out when there is nothing in it is read as the default. -/
lemma getD_ite_none {α : Type} {c : Prop} [Decidable c] {x d : α} (h : c → d = x) :
    (if c then none else some x).getD d = x := by
  split
  · next hc => exact h hc
  · rfl

lemma ClassEntry.procs_record (e : ClassEntry) : e.record.procs.getD [] = e.procs.values := by
  refine getD_ite_none fun h => ?_
  rw [OrderedMap.values, List.isEmpty_iff.mp h, List.map_nil]

lemma Artifact.procs?_record {a : Artifact} {r : ProcRegistry} {c : ClassId}
    (hp : a.procs = r.procs.toList.map Proc.record) (h : NamedProcs r c e.procs) (n : String) :
    a.procs? n e.record = e.procs.get? n := by
  rw [Artifact.procs?, e.procs_record]
  refine (OrderedMap.get?_eq_find?_values fun x hx => ?_).symm
  obtain ⟨hne, hids⟩ := h x hx
  have hname : ∀ id ∈ x.2, a.procName? id = some x.1 := by
    intro id hid
    obtain ⟨p, hg, -, hn⟩ := hids id hid
    have hg' : r.procs[id]? = some p := hg
    rw [procName?, hp, List.getElem?_map, Array.getElem?_toList, hg']
    exact hn
  rw [Bool.eq_iff_iff]
  simp only [Bool.and_eq_true, Bool.not_eq_true', List.isEmpty_eq_false_iff, List.all_eq_true,
    beq_iff_eq]
  constructor
  · rintro ⟨-, hall⟩
    obtain ⟨id, hid⟩ := List.exists_mem_of_ne_nil _ hne
    exact Option.some.inj ((hname id hid).symm.trans (hall id hid))
  · rintro rfl
    exact ⟨hne, hname⟩

/-! ### Emission -/

namespace Hierarchy

variable {t : Hierarchy} {a : Artifact} {c : ClassId} {n : String}

lemma emit_eq_ok_iff : t.emit = .ok a ↔ t.buildErrors = [] ∧
    ⟨t.classes.toList.map ClassEntry.record, t.registry.procs.toList.map Proc.record,
      t.slots.toList.filterMap Slot.record?⟩ = a := by
  rw [emit]
  split
  · next hb => simp [hb]
  · next hb => exact iff_of_false nofun fun h => hb h.1

lemma eq_of_emit (h : t.emit = .ok a) :
    t.buildErrors = [] ∧ a.classes = t.classes.toList.map ClassEntry.record ∧
      a.procs = t.registry.procs.toList.map Proc.record := by
  obtain ⟨hb, rfl⟩ := emit_eq_ok_iff.mp h
  exact ⟨hb, rfl, rfl⟩

lemma isSome_literal?_of_classErrors (h : t.classErrors e = []) {v : Variable}
    (hv : v ∈ e.declarations) : v.literal?.isSome = true := by
  obtain ⟨-, hlit⟩ := List.append_eq_nil_iff.mp (List.flatMap_eq_nil_iff.mp h v hv)
  split at hlit
  · next hs => exact hs
  · cases hlit

lemma buildErrors_eq_nil_iff : t.buildErrors = [] ↔
    (∀ c e, t.class? c = some e → t.classErrors e = []) ∧
      ∀ (k : SlotId) s, t.slots[k]? = some s → s.literal?.isSome = true := by
  rw [buildErrors, List.append_eq_nil_iff, List.flatMap_eq_nil_iff, List.filterMap_eq_nil_iff]
  refine and_congr ⟨?_, ?_⟩ ⟨?_, ?_⟩
  · exact fun h c e hc => h e (Array.mem_toList_iff.mpr (Array.mem_of_getElem? hc))
  · intro h e he
    obtain ⟨c, hc⟩ := Array.mem_iff_getElem?.mp (Array.mem_toList_iff.mp he)
    exact h c e hc
  · intro h k s hs
    have he := h s (Array.mem_toList_iff.mpr (Array.mem_of_getElem? hs))
    simpa [Slot.error?, Option.isSome_iff_ne_none] using he
  · intro h s hs
    obtain ⟨k, hk⟩ := Array.mem_iff_getElem?.mp (Array.mem_toList_iff.mp hs)
    simp [Slot.error?, h k s hk]

lemma isSome_literal?_of_buildErrors (h : t.buildErrors = []) (hc : t.class? c = some e)
    {v : Variable} (hv : v ∈ e.declarations) : v.literal?.isSome = true :=
  isSome_literal?_of_classErrors ((buildErrors_eq_nil_iff.mp h).1 c e hc) hv

lemma getElem?_classes (t : Hierarchy) (c : ClassId) : t.classes.toList[c]? = t.class? c :=
  Array.getElem?_toList

lemma Arena.above_lineage (h : Arena t) (ha : t.emit = .ok a) (c : ClassId) :
    a.Above c ((t.lineage c).map ClassEntry.record) := by
  refine (h.walk_lineage c).map ClassEntry.record (fun i => ?_) fun _ => rfl
  rw [(eq_of_emit ha).2.1, List.getElem?_map, getElem?_classes]

lemma Arena.globalScope_lineage (h : Arena t) (ha : t.emit = .ok a) (c : ClassId) :
    a.globalScope c ((t.lineage c).map ClassEntry.record) =
      (t.globalScope c).map ClassEntry.record := by
  rw [Artifact.globalScope, List.takeWhile_map, globalScope]
  cases hc : t.class? c with
  | none => rw [lineage_missing hc]; rfl
  | some e =>
    have hr : a.classes[c]?.bind (·.parent) = e.parent := by
      rw [(eq_of_emit ha).2.1, List.getElem?_map, getElem?_classes, hc]
      rfl
    have hroot : e.parent.isNone = decide (c = rootId) := by
      rw [Bool.eq_iff_iff, Option.isNone_iff_eq_none, decide_eq_true_iff,
        h.parent_eq_none_iff hc]
    congr 2
    funext f
    rw [hr, hroot, ClassEntry.isRoot, Option.not_isNone]
    rfl

section

variable (h : Built t) (hb : t.buildErrors = [])

include h

lemma findProcs_record (hp : a.procs = t.registry.procs.toList.map Proc.record) (c : ClassId)
    (n : String) :
    ((t.lineage c).map ClassEntry.record).findSome? (a.procs? n) = t.findProcs c n := by
  rw [List.findSome?_map, findProcs]
  refine findSome?_congr fun e he => ?_
  exact Artifact.procs?_record hp (h.namedProcs (h.arena.mem_lineage he).2) n

include hb

lemma isSome_literal?_of_declared? (hc : t.class? c = some e) {v : Variable}
    (hv : e.declared? n = some v) : v.literal?.isSome = true := by
  rw [ClassEntry.declared?_eq (h.namedVars hc)] at hv
  exact isSome_literal?_of_buildErrors hb hc (List.mem_of_find?_eq_some hv)

lemma isSome_literal?_of_findVar {v : Variable} (hv : t.findVar c n = some v) :
    v.literal?.isSome = true := by
  obtain ⟨e, he, hev⟩ := List.exists_of_findSome?_eq_some hv
  exact isSome_literal?_of_declared? h hb (h.arena.mem_lineage he).2 hev

lemma findVar_record (c : ClassId) (n : String) :
    ((t.lineage c).map ClassEntry.record).findSome? (·.literal? n) =
      (t.findVar c n).bind (·.literal?) := by
  have hlit : ∀ e ∈ t.lineage c, ∀ v, e.declared? n = some v → v.literal?.isSome = true :=
    fun e he v hv => isSome_literal?_of_declared? h hb (h.arena.mem_lineage he).2 hv
  rw [List.findSome?_map, findVar, ← findSome?_bind hlit]
  refine findSome?_congr fun e he => ?_
  have hc := (h.arena.mem_lineage he).2
  exact ClassEntry.literal?_record (h.namedVars hc)
    (fun v hv => isSome_literal?_of_buildErrors hb hc hv) n

end

theorem lookup_emit (h : Reachable t) (ha : t.emit = .ok a) (c : ClassId) (n : String) :
    ∃ above, (∀ rs, a.Above c rs ↔ rs = above) ∧
      above.findSome? (·.literal? n) = (t.findVar c n).bind (·.literal?) ∧
      (above.findSome? (·.literal? n) = none ↔ t.findVar c n = none) ∧
      (a.globalScope c above).findSome? (·.slot? n) = t.globalId c n ∧
      above.findSome? (a.procs? n) = t.findProcs c n ∧
      ∀ p : TypePath, (∃ r ∈ above, r.path = p.text) ↔ t.isSubtypeOf c p = true := by
  have harena := h.built.arena
  obtain ⟨hb, -, hprocs⟩ := eq_of_emit ha
  have hvar := findVar_record h.built hb c n
  refine ⟨(t.lineage c).map ClassEntry.record, ?walk, hvar, ?undeclared, ?globals,
    findProcs_record h.built hprocs c n, ?subtype⟩
  case walk =>
    have hw := harena.above_lineage ha c
    exact fun rs => ⟨fun hrs => hrs.unique hw, fun hrs => hrs ▸ hw⟩
  case undeclared =>
    rw [hvar]
    cases hv : t.findVar c n with
    | none => exact iff_of_true rfl rfl
    | some v =>
      have hs := Option.isSome_iff_ne_none.mp (isSome_literal?_of_findVar h.built hb hv)
      exact iff_of_false hs (Option.some_ne_none v)
  case globals =>
    rw [harena.globalScope_lineage ha, List.findSome?_map, globalId]
    exact findSome?_congr fun e _ => e.slot?_record n
  case subtype =>
    intro p
    rw [isSubtypeOf, List.any_eq_true]
    constructor
    · rintro ⟨r, hr, hp⟩
      obtain ⟨e, he, rfl⟩ := List.mem_map.mp hr
      exact ⟨e, he, decide_eq_true (TypePath.text_injective hp)⟩
    · rintro ⟨e, he, hp⟩
      exact ⟨e.record, List.mem_map_of_mem he, congrArg TypePath.text (of_decide_eq_true hp)⟩

lemma exists_emit (h : t.buildErrors = []) : ∃ a, t.emit = .ok a :=
  ⟨_, emit_eq_ok_iff.mpr ⟨h, rfl⟩⟩

lemma exists_emit_iff_buildErrors : (∃ a, t.emit = .ok a) ↔ t.buildErrors = [] :=
  ⟨fun ⟨_, ha⟩ => (emit_eq_ok_iff.mp ha).1, exists_emit⟩

/-- Two classes, the second of which hides what it declares again. -/
def shadowing : List Call :=
  [.createClass .movable none, .createGlobal 0 "tick" none false .anything,
    .declareVar 1 ⟨"name", none, false, some (.text "thing"), .anything, .internal⟩,
    .declareOverride 2 ⟨"name", none, true, none, .anything, .internal⟩,
    .declareVar 2 ⟨"name", none, false, some (.globalVar "tick"), .anything, .internal⟩,
    .addProc 1 "Move" .none none, .addProc 2 "Move" ⟨true, false, false⟩ none]

theorem lookup_emit_shadowing :
    ∃ a, (bare.run shadowing).emit = .ok a ∧ ∃ above, (∀ rs, a.Above 2 rs ↔ rs = above) ∧
      above.findSome? (a.procs? "Move") = (bare.run shadowing).findProcs 2 "Move" ∧
      (bare.run shadowing).findProcs 2 "Move" = some [1] := by
  obtain ⟨a, ha⟩ : ∃ a, (bare.run shadowing).emit = .ok a :=
    exists_emit (List.isEmpty_iff.mp (by decide +kernel))
  obtain ⟨above, hw, -, -, -, hp, -⟩ := lookup_emit (Reachable.bare.run shadowing) ha 2 "Move"
  exact ⟨a, ha, above, hw, hp, by decide +kernel⟩

end Hierarchy

end ClassTree
