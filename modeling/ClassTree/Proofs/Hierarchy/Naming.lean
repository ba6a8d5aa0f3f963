import ClassTree.Hierarchy.Emit
import ClassTree.Proofs.Hierarchy.Arena
import ClassTree.Proofs.OrderedMap
/-!
Declarations stand under their own names. A class declares a name as an own variable or as an
override but not both, and what it lists under a name are procs of that name that it owns.
-/

namespace ClassTree

/-! ### Variables -/

structure NamedVars (vars overrides : OrderedMap String Variable) : Prop where
  vars_name : ∀ x ∈ vars.entries, x.2.name = x.1
  overrides_name : ∀ x ∈ overrides.entries, x.2.name = x.1
  vars_distinct : vars.keys.Nodup
  overrides_distinct : overrides.keys.Nodup
  disjoint : ∀ n ∈ vars.keys, n ∉ overrides.keys

namespace NamedVars

variable {vars overrides : OrderedMap String Variable}

lemma swap (h : NamedVars vars overrides) : NamedVars overrides vars where
  vars_name := h.overrides_name
  overrides_name := h.vars_name
  vars_distinct := h.overrides_distinct
  overrides_distinct := h.vars_distinct
  disjoint n ho hv := h.disjoint n hv ho

lemma insert (h : NamedVars vars overrides) {v : Variable}
    (hv : overrides.contains v.name = false) : NamedVars (vars.insert v.name v) overrides where
  vars_name x hx := by
    rcases OrderedMap.mem_entries_insert hx with rfl | hx
    · rfl
    · exact h.vars_name x hx
  overrides_name := h.overrides_name
  vars_distinct := by
    rw [OrderedMap.keys_insert]
    split
    · exact h.vars_distinct
    · next hn =>
      rw [OrderedMap.contains_iff_mem_keys] at hn
      exact List.nodup_append.mpr ⟨h.vars_distinct, by simp, by
        rintro a ha b hb rfl
        exact hn (List.mem_singleton.mp hb ▸ ha)⟩
  overrides_distinct := h.overrides_distinct
  disjoint n hn := by
    rcases OrderedMap.mem_keys_insert.mp hn with hn | rfl
    · exact h.disjoint n hn
    · rw [← OrderedMap.contains_iff_mem_keys, hv]
      exact Bool.false_ne_true

end NamedVars

/-! ### Procs -/

lemma ProcRegistry.get?_register (r : ProcRegistry) (owner : ClassId) (name : Option String)
    (flags : ProcFlags) (returnType : Option ValueConstraint) (body : List ProcStep)
    (id : ProcId) :
    (r.register owner name flags returnType body).get? id =
      if id = r.size then some ⟨r.size, owner, name, flags, returnType, body⟩ else r.get? id :=
  Array.getElem?_push

lemma ProcRegistry.lt_size {r : ProcRegistry} {id : ProcId} {p : Proc} (h : r.get? id = some p) :
    id < r.size := by
  obtain ⟨hi, -⟩ := Array.getElem?_eq_some_iff.mp h
  exact hi

/-- Each name of a class stands for some procs, all of that name and owned by the class. -/
def NamedProcs (r : ProcRegistry) (c : ClassId) (procs : OrderedMap String (List ProcId)) : Prop :=
  ∀ x ∈ procs.entries, x.2 ≠ [] ∧
    ∀ id ∈ x.2, ∃ p, r.get? id = some p ∧ p.owner = c ∧ p.name = some x.1

lemma NamedProcs.mono {r r' : ProcRegistry} {c : ClassId} {procs : OrderedMap String (List ProcId)}
    (h : NamedProcs r c procs) (hr : ∀ id p, r.get? id = some p → r'.get? id = some p) :
    NamedProcs r' c procs := by
  intro x hx
  refine ⟨(h x hx).1, fun id hid => ?_⟩
  obtain ⟨p, hp, ho, hn⟩ := (h x hx).2 id hid
  exact ⟨p, hr id p hp, ho, hn⟩

lemma NamedProcs.insert {r : ProcRegistry} {c : ClassId} {procs : OrderedMap String (List ProcId)}
    (h : NamedProcs r c procs) {name : String} {id : ProcId} {p : Proc} (hp : r.get? id = some p)
    (ho : p.owner = c) (hn : p.name = some name) :
    NamedProcs r c (procs.insert name ((procs.get? name).getD [] ++ [id])) := by
  intro x hx
  rcases OrderedMap.mem_entries_insert hx with rfl | hx
  · refine ⟨by simp, fun id' hid => ?_⟩
    rcases List.mem_append.mp hid with hid | hid
    · cases hg : procs.get? name with
      | none =>
        rw [hg] at hid
        cases hid
      | some ids =>
        rw [hg] at hid
        exact (h _ (OrderedMap.mem_entries_of_get? hg)).2 id' hid
    · obtain rfl := List.mem_singleton.mp hid
      exact ⟨p, hp, ho, hn⟩
  · exact h x hx

namespace Hierarchy

variable {t t' : Hierarchy} {c : ClassId} {e : ClassEntry}

lemma Change.get?_registry (h : Change t t') {id : ProcId} {p : Proc}
    (hp : t.registry.get? id = some p) : t'.registry.get? id = some p := by
  have registered (owner : ClassId) (name : Option String) (flags : ProcFlags)
      (returnType : Option ValueConstraint) (body : List ProcStep) :
      (t.registry.register owner name flags returnType body).get? id = some p := by
    rw [ProcRegistry.get?_register, if_neg (Nat.ne_of_lt (ProcRegistry.lt_size hp)), hp]
  cases h with
  | addProc _ | addGlobalProc _ | addInitializer _ _ _ => exact registered _ _ _ _ _
  | _ => exact hp

lemma Built.namedVars (h : Built t) (hc : t.class? c = some e) :
    NamedVars e.vars e.overrides := by
  refine h.forall_class (P := fun _ _ e => NamedVars e.vars e.overrides) ?_ ?_ hc
  · intro t i p q
    exact ⟨by simp [ClassEntry.new, OrderedMap.empty], by simp [ClassEntry.new, OrderedMap.empty],
      .nil, .nil, by simp [ClassEntry.new]⟩
  · intro t t' i e e' _ _ _ hed hn
    cases hed with
    | addVar v hv => exact hn.insert hv
    | addOverride v hv => exact (hn.swap.insert hv).swap
    | _ => exact hn

lemma Built.namedProcs (h : Built t) (hc : t.class? c = some e) :
    NamedProcs t.registry c e.procs := by
  refine h.forall_class (P := fun t c e => NamedProcs t.registry c e.procs) ?_ ?_ hc
  · intro t i p q x hx
    cases hx
  · intro t t' i e e' _ hch _ hed hn
    have hmono := hn.mono fun id p => hch.get?_registry
    cases hed with
    | addProc name flags returnType hr =>
      have hp : t'.registry.get? t.registry.size =
          some ⟨t.registry.size, i, some name, flags, returnType, []⟩ := by
        rw [hr, ProcRegistry.get?_register, if_pos rfl]
      exact hmono.insert hp rfl rfl
    | _ => exact hmono

end Hierarchy

end ClassTree
