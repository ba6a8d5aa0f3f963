import ClassTree.Proofs.Hierarchy.BreadthFirst
import ClassTree.Proofs.Hierarchy.Naming
/-!
Finalizing makes the initializers that are missing, in the order of the search, and changes nothing
else.
-/

namespace ClassTree

def ClassEntry.isDue (e : ClassEntry) : Bool := !e.pending.isEmpty && e.initializer.isNone

lemma ClassEntry.isDue_iff {e : ClassEntry} :
    e.isDue = true ↔ e.pending ≠ [] ∧ e.initializer = none := by
  simp [isDue]

namespace Hierarchy

variable {t t' : Hierarchy} {c i : ClassId} {e : ClassEntry} {order : List ClassId}

def isDue (t : Hierarchy) (c : ClassId) : Bool := (t.class? c).any ClassEntry.isDue

structure Initialized (t : Hierarchy) (order : List ClassId) (t' : Hierarchy) : Prop where
  paths : t'.paths = t.paths
  links : t'.links = t.links
  slots : t'.slots = t.slots
  globals : t'.registry.globals = t.registry.globals
  class_count : t'.classes.size = t.classes.size
  proc_count : t'.registry.size = t.registry.size + order.length
  old_proc {id : ProcId} : id < t.registry.size → t'.registry.get? id = t.registry.get? id
  old_class {c : ClassId} : c ∉ order → t'.class? c = t.class? c
  made {k : Nat} {c : ClassId} : order[k]? = some c →
    ∃ e, t.class? c = some e ∧ t'.class? c = some (e.setInitializer (t.registry.size + k)) ∧
      t'.registry.get? (t.registry.size + k) =
        some ⟨t.registry.size + k, c, none, .none, none, initializerBody e.pending⟩

/-! ### One class -/

lemma createInitializer_of_isDue (hc : t.class? c = some e) (hd : e.isDue = true) :
    t.createInitializer c = .ok (t.addInitializer c e.pending, some t.registry.size) := by
  obtain ⟨hp, hi⟩ := ClassEntry.isDue_iff.mp hd
  have hn : (e.pending.isEmpty || e.initializer.isSome) = false := by simp [hp, hi]
  simp only [createInitializer, tryClass, hc]
  exact if_neg (Bool.eq_false_iff.mp hn)

lemma createInitializer_of_not_isDue (hc : t.class? c = some e) (hd : e.isDue = false) :
    t.createInitializer c = .ok (t, e.initializer) := by
  have hn : (e.pending.isEmpty || e.initializer.isSome) = true := by
    cases hp : e.pending.isEmpty <;> cases hi : e.initializer <;> simp_all [ClassEntry.isDue]
  simp only [createInitializer, tryClass, hc]
  exact if_pos hn

lemma class?_addInitializer (t : Hierarchy) (c i : ClassId) (pending : List PendingExpr) :
    (t.addInitializer c pending).class? i =
      if c = i then (t.class? i).map (·.setInitializer t.registry.size) else t.class? i :=
  class?_modifyClass _ _ _ _

lemma size_addInitializer (t : Hierarchy) (c : ClassId) (pending : List PendingExpr) :
    (t.addInitializer c pending).registry.size = t.registry.size + 1 :=
  Array.size_push _

lemma get?_addInitializer (t : Hierarchy) (c : ClassId) (pending : List PendingExpr) (id : ProcId) :
    (t.addInitializer c pending).registry.get? id =
      if id = t.registry.size then
        some ⟨t.registry.size, c, none, .none, none, initializerBody pending⟩
      else t.registry.get? id :=
  ProcRegistry.get?_register _ _ _ _ _ _ _

/-! ### Many classes -/

lemma Initialized.nil (t : Hierarchy) : Initialized t [] t where
  paths := rfl
  links := rfl
  slots := rfl
  globals := rfl
  class_count := rfl
  proc_count := rfl
  old_proc _ := rfl
  old_class _ := rfl
  made hk := by cases hk

lemma Initialized.cons (hc : t.class? c = some e) (hn : c ∉ order)
    (h : Initialized (t.addInitializer c e.pending) order t') : Initialized t (c :: order) t' where
  paths := h.paths
  links := h.links
  slots := h.slots
  globals := h.globals
  class_count := h.class_count.trans Array.size_modify
  proc_count := by
    rw [h.proc_count, size_addInitializer, List.length_cons]
    omega
  old_proc {id} hid := by
    have hlt : id < (t.addInitializer c e.pending).registry.size := by
      rw [size_addInitializer]
      exact Nat.lt_succ_of_lt hid
    rw [h.old_proc hlt, get?_addInitializer, if_neg (Nat.ne_of_lt hid)]
  old_class {i} hi := by
    have hic : c ≠ i := fun hci => hi (hci ▸ List.mem_cons_self)
    have hio : i ∉ order := fun hio => hi (List.mem_cons_of_mem _ hio)
    rw [h.old_class hio, class?_addInitializer, if_neg hic]
  made {k i} hk := by
    cases k with
    | zero =>
      obtain rfl := Option.some.inj hk
      have hlt : t.registry.size < (t.addInitializer c e.pending).registry.size := by
        rw [size_addInitializer]
        exact Nat.lt_succ_self _
      rw [Nat.add_zero]
      refine ⟨e, hc, ?_, ?_⟩
      · rw [h.old_class hn, class?_addInitializer, if_pos rfl, hc, Option.map_some]
      · rw [h.old_proc hlt, get?_addInitializer, if_pos rfl]
    | succ k =>
      have hk : order[k]? = some i := hk
      have hci : c ≠ i := fun hci => hn (hci ▸ List.mem_of_getElem? hk)
      obtain ⟨f, hf, hf', hp⟩ := h.made hk
      rw [size_addInitializer, Nat.add_assoc, Nat.add_comm 1 k] at hf' hp
      rw [class?_addInitializer, if_neg hci] at hf
      exact ⟨f, hf, hf', hp⟩

lemma isDue_addInitializer (pending : List PendingExpr) (h : c ≠ i) :
    (t.addInitializer c pending).isDue i = t.isDue i := by
  rw [isDue, isDue, class?_addInitializer, if_neg h]

lemma foldlM_createInitializer (hn : order.Nodup)
    (he : ∀ c ∈ order, ∃ e, t.class? c = some e) :
    ∃ t', order.foldlM (fun t c => (·.1) <$> t.createInitializer c) t = .ok t' ∧
      Initialized t (order.filter t.isDue) t' := by
  induction order generalizing t with
  | nil => exact ⟨t, rfl, .nil t⟩
  | cons c order ih =>
    obtain ⟨hco, hn⟩ := List.nodup_cons.mp hn
    obtain ⟨e, hc⟩ := he c List.mem_cons_self
    rw [List.foldlM_cons]
    cases hd : e.isDue with
    | true =>
      have hne {i : ClassId} (hi : i ∈ order) : c ≠ i := fun hci => hco (hci ▸ hi)
      have he' : ∀ i ∈ order, ∃ f, (t.addInitializer c e.pending).class? i = some f := by
        intro i hi
        rw [class?_addInitializer, if_neg (hne hi)]
        exact he i (List.mem_cons_of_mem _ hi)
      obtain ⟨t', ht', h⟩ := ih hn he'
      rw [List.filter_congr fun i hi => isDue_addInitializer e.pending (hne hi)] at h
      have hdue : t.isDue c = true := by rw [isDue, hc, Option.any_some, hd]
      rw [createInitializer_of_isDue hc hd, List.filter_cons_of_pos hdue]
      exact ⟨t', ht', h.cons hc fun hm => hco (List.mem_filter.mp hm).1⟩
    | false =>
      have hdue : ¬ t.isDue c = true := by rw [isDue, hc, Option.any_some, hd]; exact nofun
      obtain ⟨t', ht', h⟩ := ih hn fun i hi => he i (List.mem_cons_of_mem _ hi)
      rw [createInitializer_of_not_isDue hc hd, List.filter_cons_of_neg hdue]
      exact ⟨t', ht', h⟩

lemma Arena.exists_initialized (h : Arena t) :
    ∃ t', t.finalize = .ok t' ∧ Initialized t (t.breadthFirst.filter t.isDue) t' :=
  foldlM_createInitializer h.nodup_breadthFirst fun _ => h.mem_breadthFirst.mp

namespace Initialized

lemma class?_some (h : Initialized t order t') (hc : t'.class? c = some e) :
    ∃ e, t.class? c = some e :=
  class?_of_lt (h.class_count ▸ lt_size_of_class? hc)

lemma kept_or_made (h : Initialized t order t') (hc : t.class? c = some e) :
    (c ∉ order ∧ t'.class? c = some e) ∨ ∃ k, order[k]? = some c ∧
      t'.class? c = some (e.setInitializer (t.registry.size + k)) := by
  by_cases hm : c ∈ order
  · obtain ⟨k, hk⟩ := List.mem_iff_getElem?.mp hm
    obtain ⟨f, hf, hf', -⟩ := h.made hk
    obtain rfl := Option.some.inj (hc.symm.trans hf)
    exact .inr ⟨k, hk, hf'⟩
  · exact .inl ⟨hm, (h.old_class hm).trans hc⟩

lemma sameShape (h : Initialized t order t') : SameShape t t' where
  paths := h.paths
  links := h.links
  stem i := by
    cases hi : t.class? i with
    | none =>
      cases hi' : t'.class? i with
      | none => rfl
      | some e' =>
        obtain ⟨e, he⟩ := h.class?_some hi'
        rw [hi] at he
        cases he
    | some e =>
      rcases h.kept_or_made hi with ⟨-, hi'⟩ | ⟨k, -, hi'⟩
      · rw [hi']
      · rw [hi']
        rfl

end Initialized

/-! ### All classes -/

section

variable {visits : List ClassId} (h : Initialized t (visits.filter t.isDue) t')
  (hv : ∀ c, c ∈ visits ↔ ∃ e, t.class? c = some e)

include h hv

end

end Hierarchy

end ClassTree
