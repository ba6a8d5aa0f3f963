import ClassTree.Proofs.Hierarchy.Atomicity
import ClassTree.Proofs.Hierarchy.ConstNames
/-!
Variables that are declared again. A class has one entry for each name that it declares, as an own
variable or as an override, and no call moves it; the const names are those whose entry is const now.
-/

namespace ClassTree

namespace Declared

def other : Declared → Declared
  | own => override
  | override => own

def call (k : Declared) (c : ClassId) (v : Variable) : Call :=
  match k with
  | own => .declareVar c v
  | override => .declareOverride c v

def add (k : Declared) (v : Variable) (e : ClassEntry) : ClassEntry :=
  match k with
  | own => e.addVar v
  | override => e.addOverride v

end Declared

namespace ClassEntry

/-- The variables of a class that are declared in one way. -/
def table (e : ClassEntry) : Declared → OrderedMap String Variable
  | .own => e.vars
  | .override => e.overrides

variable {e : ClassEntry} {k : Declared} {v : Variable}

lemma table_add : (k.add v e).table k = (e.table k).insert v.name v := by
  cases k <;> rfl

lemma table_other_add : (k.add v e).table k.other = e.table k.other := by
  cases k <;> rfl

end ClassEntry

namespace Hierarchy

variable {t t' : Hierarchy} {c : ClassId} {e e' : ClassEntry} {k : Declared} {n : String}
  {v w : Variable} {i : Nat}

/-! ### The entries of a class -/

lemma Built.name_of_mem_table (h : Built t) (hc : t.class? c = some e)
    (hm : (n, v) ∈ (e.table k).entries) : v.name = n := by
  have hn := h.namedVars hc
  cases k with
  | own => exact hn.vars_name _ hm
  | override => exact hn.overrides_name _ hm

lemma Built.nodup_table (h : Built t) (hc : t.class? c = some e) (k : Declared) :
    (e.table k).keys.Nodup := by
  have hn := h.namedVars hc
  cases k with
  | own => exact hn.vars_distinct
  | override => exact hn.overrides_distinct

lemma Built.notMem_table_other (h : Built t) (hc : t.class? c = some e)
    (hm : n ∈ (e.table k).keys) : n ∉ (e.table k.other).keys := by
  have hn := h.namedVars hc
  cases k with
  | own => exact hn.disjoint n hm
  | override => exact hn.swap.disjoint n hm

lemma Built.get?_table_iff (h : Built t) (hc : t.class? c = some e) :
    (e.table k).get? n = some v ↔ (n, v) ∈ (e.table k).entries :=
  ⟨OrderedMap.mem_entries_of_get?,
    OrderedMap.get?_of_mem_entries (OrderedMap.distinct_iff.mpr (h.nodup_table hc k))⟩

lemma Built.mem_constNames_iff (h : Built t) (hc : t.class? c = some e) :
    n ∈ e.constNames.elements ↔ ∃ k v, (n, v) ∈ (e.table k).entries ∧ v.isConst = true := by
  rw [(h.constNames hc).mem]
  constructor
  · rintro ⟨v, hv | hv, hconst⟩
    · exact ⟨.own, v, OrderedMap.mem_entries_of_get? hv, hconst⟩
    · exact ⟨.override, v, OrderedMap.mem_entries_of_get? hv, hconst⟩
  · rintro ⟨k, v, hm, hconst⟩
    have hv := (h.get?_table_iff hc).mpr hm
    cases k with
    | own => exact ⟨v, .inl hv, hconst⟩
    | override => exact ⟨v, .inr hv, hconst⟩

/-! ### One declaration -/

lemma perform_declare (hc : t.class? c = some e) (hv : (e.table k.other).contains v.name = false) :
    t.perform (k.call c v) = (t.modifyClass c (k.add v), .ok none) := by
  cases k with
  | own =>
    have hd := declareVar_eq_ok_iff.mpr ⟨e, hc, hv, rfl⟩
    rw [Declared.call, perform, hd]
    rfl
  | override =>
    have hd := declareOverride_eq_ok_iff.mpr ⟨e, hc, hv, rfl⟩
    rw [Declared.call, perform, hd]
    rfl

lemma commit_of_error {α : Type} {result : Except HierarchyError α} {next : α → Hierarchy}
    {id : α → Option Nat} {x : HierarchyError} (h : result = .error x) :
    t.commit result next id = (t, .error x) := by
  rw [h, commit]

lemma perform_declare_conflict (hc : t.class? c = some e)
    (hv : (e.table k.other).contains v.name = true) :
    t.perform (k.call c v) = (t, .error (.variableConflict e.path v.name k.other)) := by
  cases k with
  | own => exact commit_of_error (declareVar_eq_error_iff.mpr (.overridden hc hv))
  | override => exact commit_of_error (declareOverride_eq_error_iff.mpr (.owned hc hv))

/-- A name that has an entry has none of the other kind, so declaring it again is never refused. -/
lemma Built.exists_redeclared (h : Built t) (hc : t.class? c = some e)
    (hi : (e.table k).entries[i]? = some (v.name, w)) : ∃ t' e',
      t.perform (k.call c v) = (t', .ok none) ∧ t'.class? c = some e' ∧
      (e'.table k).entries = (e.table k).entries.set i (v.name, v) ∧
      e'.table k.other = e.table k.other := by
  have hm : v.name ∈ (e.table k).keys := List.mem_map_of_mem (List.mem_of_getElem? hi)
  have hv : (e.table k.other).contains v.name = false := by
    rw [Bool.eq_false_iff, Ne, OrderedMap.contains_iff_mem_keys]
    exact h.notMem_table_other hc hm
  refine ⟨_, k.add v e, perform_declare hc hv, class?_modifyClass_self hc _, ?_,
    ClassEntry.table_other_add⟩
  rw [ClassEntry.table_add, OrderedMap.entries_insert_of_getElem? (h.nodup_table hc k) hi]

/-! ### Any calls -/

lemma Edit.table_grows (h : Edit t t' c e e') (k : Declared) :
    (e.table k).keys <+: (e'.table k).keys := by
  cases h with
  | addVar v _ =>
    cases k with
    | own => exact OrderedMap.keys_prefix_insert e.vars v.name v
    | override => exact List.prefix_rfl
  | addOverride v _ =>
    cases k with
    | own => exact List.prefix_rfl
    | override => exact OrderedMap.keys_prefix_insert e.overrides v.name v
  | _ => cases k <;> exact List.prefix_rfl

lemma Changes.table_grows (h : Changes t t') (hc : t.class? c = some e) (k : Declared) :
    ∃ e', t'.class? c = some e' ∧ (e.table k).keys <+: (e'.table k).keys := by
  induction h with
  | refl => exact ⟨e, hc, List.prefix_rfl⟩
  | tail _ hch ih =>
    obtain ⟨f, hf, hpre⟩ := ih
    obtain ⟨f', hf', hed⟩ := hch.edit hf
    exact ⟨f', hf', hpre.trans (hed.table_grows k)⟩

/-- What the tables and the const names of each class have to do with each other, and what further
calls do to the tables. -/
structure ConsistentNames (t : Hierarchy) : Prop where
  named {c : ClassId} {e : ClassEntry} {k : Declared} {n : String} {v : Variable} :
    t.class? c = some e → (n, v) ∈ (e.table k).entries → v.name = n
  once {c : ClassId} {e : ClassEntry} (k : Declared) :
    t.class? c = some e → (e.table k).keys.Nodup
  disjoint {c : ClassId} {e : ClassEntry} {k : Declared} {n : String} :
    t.class? c = some e → n ∈ (e.table k).keys → n ∉ (e.table k.other).keys
  const_once {c : ClassId} {e : ClassEntry} :
    t.class? c = some e → e.constNames.elements.Nodup
  const_iff {c : ClassId} {e : ClassEntry} {n : String} : t.class? c = some e →
    (n ∈ e.constNames.elements ↔ ∃ k v, (n, v) ∈ (e.table k).entries ∧ v.isConst = true)
  redeclared {c : ClassId} {e : ClassEntry} {k : Declared} {i : Nat} {v w : Variable} :
    t.class? c = some e → (e.table k).entries[i]? = some (v.name, w) → ∃ t' e',
      t.perform (k.call c v) = (t', .ok none) ∧ t'.class? c = some e' ∧
      (e'.table k).entries = (e.table k).entries.set i (v.name, v) ∧
      e'.table k.other = e.table k.other
  conflicting {c : ClassId} {e : ClassEntry} {k : Declared} {v : Variable} :
    t.class? c = some e → v.name ∈ (e.table k.other).keys →
      t.perform (k.call c v) = (t, .error (.variableConflict e.path v.name k.other))
  placed {c : ClassId} {e : ClassEntry} (k : Declared) (calls : List Call) :
    t.class? c = some e → ∃ e', (t.run calls).class? c = some e' ∧
      (e.table k).keys <+: (e'.table k).keys

theorem consistentNames_of_reachable (h : Reachable t) : ConsistentNames t := by
  have hb := h.built
  constructor
  case named => exact hb.name_of_mem_table
  case once => exact fun k hc => hb.nodup_table hc k
  case disjoint => exact hb.notMem_table_other
  case const_once => exact fun hc => (hb.constNames hc).nodup
  case const_iff => exact hb.mem_constNames_iff
  case redeclared => exact hb.exists_redeclared
  case conflicting =>
    exact fun hc hn => perform_declare_conflict hc (OrderedMap.contains_iff_mem_keys.mpr hn)
  case placed => exact fun k calls hc => (run_changes hb.arena calls).table_grows hc k

/-- `max` is const no longer, `hp` has become so, and `max` and `icon` are each asked for once in the
way that they are not declared in. -/
def redeclaring : List Call :=
  [.getOrCreate .obj, .declareVar 1 ⟨"max", none, true, none, .anything, .internal⟩,
    .declareOverride 1 ⟨"icon", none, true, none, .anything, .internal⟩,
    .declareVar 1 ⟨"hp", none, false, none, .anything, .internal⟩,
    .declareVar 1 ⟨"max", none, false, some .null, .anything, .internal⟩,
    .declareOverride 1 ⟨"max", none, true, none, .anything, .internal⟩,
    .declareVar 1 ⟨"hp", none, true, none, .anything, .internal⟩,
    .declareVar 1 ⟨"icon", none, false, none, .anything, .internal⟩]

theorem consistentNames_redeclaring : Reachable (bare.run redeclaring) ∧
    ((bare.run redeclaring).class? 1).map (fun e => (e.vars.keys, e.overrides.keys)) =
      some (["max", "hp"], ["icon"]) ∧
    ((bare.run redeclaring).class? 1).map (·.constNames.elements) = some ["icon", "hp"] ∧
    ConsistentNames (bare.run redeclaring) := by
  have hr := Reachable.bare.run redeclaring
  exact ⟨hr, by decide +kernel, by decide +kernel, consistentNames_of_reachable hr⟩

end Hierarchy

end ClassTree
