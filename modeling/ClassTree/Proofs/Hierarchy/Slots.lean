import ClassTree.Hierarchy.Resolve
import ClassTree.Proofs.FirstAnswer
import ClassTree.Proofs.Hierarchy.Growth
import ClassTree.Proofs.OrderedMap
/-!
Globals and their slots. Each slot is bound once, to its own name, by the last call that made a
global of that name on its class, and a class sees the nearest slot of a name that is not the root's.
-/

namespace ClassTree

def Slot.label (s : Slot) : SlotId × String := (s.id, s.name)

namespace Hierarchy

variable {t t' u : Hierarchy} {c d i : ClassId} {e : ClassEntry} {f : ClassEntry → ClassEntry}
  {m n : String} {k : SlotId}

/-! ### Bindings -/

lemma ownGlobal_of_class? (hc : t.class? c = some e) : t.ownGlobal c n = e.globals.get? n := by
  rw [ownGlobal, hc, Option.bind_some]

lemma Grown.ownGlobal (h : Grown t t') : t'.ownGlobal = t.ownGlobal := by
  funext c n
  cases hc : t.class? c with
  | some e => rw [ownGlobal_of_class? hc, ownGlobal_of_class? (h.old hc)]
  | none =>
    cases hc' : t'.class? c with
    | none => simp [Hierarchy.ownGlobal, hc, hc']
    | some e =>
      obtain ⟨p, q, rfl⟩ := h.new hc hc'
      simp [Hierarchy.ownGlobal, hc, hc', ClassEntry.new]

lemma ownGlobal_modifyClass (hf : ∀ e, (f e).globals = e.globals) :
    (u.modifyClass d f).ownGlobal = u.ownGlobal := by
  funext c n
  rw [ownGlobal, ownGlobal, class?_modifyClass]
  split
  · rw [Option.bind_map]
    congr 1
    funext e
    rw [Function.comp_apply, hf]
  · rfl

lemma ownGlobal_bindGlobal (hd : u.class? d = some e) (k : SlotId) (c : ClassId) (n : String) :
    (u.modifyClass d (·.bindGlobal m k)).ownGlobal c n =
      if d = c ∧ m = n then some k else u.ownGlobal c n := by
  rw [ownGlobal, class?_modifyClass]
  by_cases hdc : d = c
  · subst hdc
    simp [hd, ClassEntry.bindGlobal, OrderedMap.get?_insert, ownGlobal_of_class? hd]
  · simp [hdc, ownGlobal]

/-! ### One change -/

inductive SlotChange (t t' : Hierarchy) : Prop
  | kept (hs : ∀ k : SlotId, t'.slots[k]?.map Slot.label = t.slots[k]?.map Slot.label)
      (hb : t'.ownGlobal = t.ownGlobal)
  | bound {d : ClassId} {m : String} {s : Slot} (hs : t'.slots = t.slots.push s)
      (hl : s.label = (t.slots.size, m))
      (hb : ∀ c n, t'.ownGlobal c n =
        if d = c ∧ m = n then some t.slots.size else t.ownGlobal c n)

lemma Change.slotChange (h : Change t t') : SlotChange t t' := by
  cases h with
  | @addClass p q _ _ => exact .kept (fun _ => rfl) (Grown.addClass t p q).ownGlobal
  | createGlobal hc => exact .bound rfl rfl (ownGlobal_bindGlobal hc _)
  | @setSlot id value location _ =>
    refine .kept (fun k => ?_) rfl
    change ((t.slots.modify id _)[k]?).map Slot.label = _
    rw [Array.getElem?_modify]
    split
    · rw [Option.map_map]
      rfl
    · rfl
  | addGlobalProc _ => exact .kept (fun _ => rfl) rfl
  | _ =>
    refine .kept (fun _ => rfl) ?_
    exact ownGlobal_modifyClass fun _ => rfl

/-! ### All changes -/

structure SlotsBound (t : Hierarchy) : Prop where
  id {k : SlotId} {s : Slot} : t.slots[k]? = some s → s.id = k
  named {c : ClassId} {n : String} {k : SlotId} : t.ownGlobal c n = some k →
    t.slots[k]?.map Slot.label = some (k, n)
  once {c d : ClassId} {m n : String} {k : SlotId} :
    t.ownGlobal c n = some k → t.ownGlobal d m = some k → c = d ∧ n = m

lemma SlotsBound.lt_size (h : SlotsBound t) (hk : t.ownGlobal c n = some k) :
    k < t.slots.size := by
  obtain ⟨s, hs, -⟩ := Option.map_eq_some_iff.mp (h.named hk)
  exact (Array.getElem?_eq_some_iff.mp hs).1

lemma SlotsBound.change (h : SlotsBound t) (hc : SlotChange t t') : SlotsBound t' := by
  cases hc with
  | kept hs hb =>
    refine ⟨fun {k s} hk => ?_, fun {c n k} hk => ?_, fun {c d m n k} hk hk' => ?_⟩
    · have hl := hs k
      rw [hk, Option.map_some] at hl
      obtain ⟨s', hs', hl'⟩ := Option.map_eq_some_iff.mp hl.symm
      exact (congrArg Prod.fst hl').symm.trans (h.id hs')
    · rw [hb] at hk
      rw [hs, h.named hk]
    · rw [hb] at hk hk'
      exact h.once hk hk'
  | @bound d m s hs hl hb =>
    have hlt {c : ClassId} {n : String} {k : SlotId} (hk : t.ownGlobal c n = some k) :
        k ≠ t.slots.size := Nat.ne_of_lt (h.lt_size hk)
    refine ⟨fun {k s'} hk => ?_, fun {c n k} hk => ?_, fun {c c' n' n k} hk hk' => ?_⟩
    · rw [hs, Array.getElem?_push] at hk
      split at hk
      · next hk' =>
        rw [← Option.some.inj hk, hk']
        exact congrArg Prod.fst hl
      · exact h.id hk
    · rw [hb] at hk
      rw [hs, Array.getElem?_push]
      split at hk
      · next hdm =>
        rw [if_pos (Option.some.inj hk).symm, Option.map_some, hl, Option.some.inj hk, hdm.2]
      · rw [if_neg (hlt hk), h.named hk]
    -- The new slot is bound to one name, which no older slot is bound to any more.
    · rw [hb] at hk hk'
      split at hk <;> split at hk'
      · next h1 h2 => exact ⟨h1.1.symm.trans h2.1, h1.2.symm.trans h2.2⟩
      · exact (hlt hk' (Option.some.inj hk).symm).elim
      · exact (hlt hk (Option.some.inj hk').symm).elim
      · exact h.once hk hk'

lemma Built.slotsBound (h : Built t) : SlotsBound t := by
  induction h with
  | refl =>
    have hb (c : ClassId) (n : String) : bare.ownGlobal c n = none := by
      cases c <;> simp [ownGlobal, bare, class?, ClassEntry.new]
    exact ⟨by simp [bare], by simp [hb], by simp [hb]⟩
  | tail _ hc ih => exact ih.change hc.slotChange

/-! ### A run of calls -/

def log (t : Hierarchy) : List Call → List (Call × Answer)
  | [] => []
  | call :: calls => (call, (t.perform call).2) :: (t.perform call).1.log calls

/-- The slot that a call has made for a name on a class. -/
def slotMade? (c : ClassId) (n : String) : Call × Answer → Option SlotId
  | (.createGlobal d m _ _ _, .ok made) => if d = c ∧ m = n then made else none
  | _ => none

lemma createInitializer_ownGlobal {r : Hierarchy × Option ProcId}
    (h : t.createInitializer d = .ok r) : r.1.ownGlobal = t.ownGlobal := by
  obtain ⟨e, -, he | ⟨-, -, he⟩⟩ := createInitializer_eq_or h
  · rw [he]
  · rw [he]
    exact ownGlobal_modifyClass fun _ => rfl

lemma Performed.ownGlobal {call : Call} {result : Hierarchy × Answer}
    (h : Performed t call result) (c : ClassId) (n : String) :
    result.1.ownGlobal c n = (slotMade? c n (call, result.2)).or (t.ownGlobal c n) := by
  have kept {u : Hierarchy} (hu : u.ownGlobal = t.ownGlobal) :
      u.ownGlobal c n = (none : Option SlotId).or (t.ownGlobal c n) := congrFun₂ hu c n
  cases h with
  | @refused call x => cases call <;> exact kept rfl
  | getOrCreate p => exact kept (getOrCreate_grown t p).ownGlobal
  | createClass p parent => exact kept (createClass_grown t p parent).ownGlobal
  | createGlobal hd =>
    refine (ownGlobal_bindGlobal hd _ c n).trans ?_
    simp only [slotMade?]
    split <;> simp [Hierarchy.ownGlobal]
  | setGlobalValue _ | addGlobalProc _ => exact kept rfl
  | createInitializer hr => exact kept (createInitializer_ownGlobal hr)
  | finalize hu =>
    refine kept (finalize_keeps (P := fun u => u.ownGlobal = t.ownGlobal) rfl ?_ hu)
    exact fun c u r hr hu => (createInitializer_ownGlobal hr).trans hu
  | _ => exact kept (ownGlobal_modifyClass fun _ => rfl)

lemma ownGlobal_perform (t : Hierarchy) (call : Call) (c : ClassId) (n : String) :
    (t.perform call).1.ownGlobal c n =
      (slotMade? c n (call, (t.perform call).2)).or (t.ownGlobal c n) :=
  (performed t call).ownGlobal c n

lemma ownGlobal_run (t : Hierarchy) (calls : List Call) (c : ClassId) (n : String) :
    (t.run calls).ownGlobal c n =
      ((t.log calls).reverse.findSome? (slotMade? c n)).or (t.ownGlobal c n) := by
  induction calls generalizing t with
  | nil => rfl
  | cons call calls ih =>
    rw [run, List.foldl_cons, ← run, ih, ownGlobal_perform, log, List.reverse_cons,
      List.findSome?_append, Option.or_assoc]
    simp

/-! ### What a class sees -/

lemma Arena.ownGlobal_of_mem_lineage (h : Arena t) (he : e ∈ t.lineage c) (n : String) :
    t.ownGlobal e.id n = e.globals.get? n :=
  ownGlobal_of_class? (h.mem_lineage he).2

lemma Arena.mem_scope_iff (h : Arena t) (he : e ∈ t.lineage c) :
    (decide (c = rootId) || !e.isRoot) = true ↔ (e.id = rootId → c = rootId) := by
  have hr := h.parent_eq_none_iff (h.mem_lineage he).2
  rw [← hr, ClassEntry.isRoot]
  cases e.parent <;> simp

lemma Arena.nearer_in_scope (h : Arena t) {nearer farther : List ClassEntry} {a : ClassEntry}
    (hl : t.lineage c = nearer ++ e :: farther) (ha : a ∈ nearer) :
    (decide (c = rootId) || !a.isRoot) = true := by
  have hlt := h.id_lt_of_nearer hl ha
  refine (h.mem_scope_iff (by simp [hl, ha])).mpr fun hr => ?_
  rw [hr] at hlt
  exact (Nat.not_lt_zero _ hlt).elim

lemma Arena.globalId_eq_some_iff (h : Arena t) : t.globalId c n = some k ↔
    ∃ nearer e farther, t.lineage c = nearer ++ e :: farther ∧ t.ownGlobal e.id n = some k ∧
      (∀ a ∈ nearer, t.ownGlobal a.id n = none) ∧ (e.id = rootId → c = rootId) := by
  rw [globalId, globalScope, findSome?_takeWhile_eq_some_iff]
  refine exists_congr fun nearer => exists_congr fun e => exists_congr fun farther => ?_
  refine and_congr_right fun hl => ?_
  have he : e ∈ t.lineage c := by simp [hl]
  have ha {a : ClassEntry} (ha : a ∈ nearer) : a ∈ t.lineage c := by simp [hl, ha]
  rw [h.ownGlobal_of_mem_lineage he, ← h.mem_scope_iff he]
  refine and_congr_right fun _ => and_congr ?_ (and_iff_left fun a => h.nearer_in_scope hl)
  exact forall₂_congr fun a hm => by rw [h.ownGlobal_of_mem_lineage (ha hm)]

/-- How slots are numbered, bound and seen once the calls of a log have been made. -/
structure Scoped (t : Hierarchy) (log : List (Call × Answer)) : Prop where
  slot_id {k : SlotId} {s : Slot} : t.slots[k]? = some s → s.id = k
  bound_once {c d : ClassId} {m n : String} {k : SlotId} :
    t.ownGlobal c n = some k → t.ownGlobal d m = some k → c = d ∧ n = m
  bound_name {c : ClassId} {n : String} {k : SlotId} : t.ownGlobal c n = some k →
    ∃ s, t.slots[k]? = some s ∧ s.name = n
  bound_last (c : ClassId) (n : String) :
    t.ownGlobal c n = log.reverse.findSome? (slotMade? c n)
  hasGlobal (c : ClassId) (n : String) : t.hasGlobal c n = (t.findGlobal c n).isSome
  globalId {c : ClassId} {n : String} {k : SlotId} : t.globalId c n = some k ↔
    ∃ nearer e farther, t.lineage c = nearer ++ e :: farther ∧ t.ownGlobal e.id n = some k ∧
      (∀ a ∈ nearer, t.ownGlobal a.id n = none) ∧ (e.id = rootId → c = rootId)
  root_hidden {c : ClassId} {n : String} {k : SlotId} : c ≠ rootId →
    t.ownGlobal rootId n = some k → ∀ m, t.globalId c m ≠ some k

theorem scoped_of_run {start : Hierarchy} (hs : start = bare ∨ start = builtin)
    (calls : List Call) : Scoped (start.run calls) (start.log calls) := by
  have hr : Reachable start ∧ start.slots = #[] := by
    rcases hs with rfl | rfl
    · exact ⟨.bare, rfl⟩
    · exact ⟨.builtin, grown_builtin.slots⟩
  have ha := (hr.1.run calls).built.arena
  have hb := (hr.1.run calls).built.slotsBound
  refine ⟨hb.id, hb.once, ?name, ?last, ?has, ha.globalId_eq_some_iff, ?hidden⟩
  case name =>
    intro c n k hk
    obtain ⟨s, hs, hl⟩ := Option.map_eq_some_iff.mp (hb.named hk)
    exact ⟨s, hs, congrArg Prod.snd hl⟩
  case last =>
    intro c n
    have hn : start.ownGlobal c n = none := by
      refine Option.eq_none_iff_forall_not_mem.mpr fun k hk => ?_
      have hlt := hr.1.built.slotsBound.lt_size hk
      simp [hr.2] at hlt
    rw [ownGlobal_run, hn, Option.or_none]
  case has =>
    intro c n
    rw [Hierarchy.hasGlobal, findGlobal]
    cases hg : (start.run calls).globalId c n with
    | none => rfl
    | some k =>
      obtain ⟨-, e, -, -, hk, -⟩ := ha.globalId_eq_some_iff.mp hg
      rw [Option.bind_some, Array.getElem?_eq_getElem (hb.lt_size hk)]
      rfl
  case hidden =>
    intro c n k hc hk m hg
    obtain ⟨-, e, -, -, hk', -, he⟩ := ha.globalId_eq_some_iff.mp hg
    exact hc (he (hb.once hk' hk).1)

/-- A global of the root, and one of `/atom` that is made again after a call that is refused. -/
def rebinding : List Call :=
  [.createClass .movable none, .createGlobal 0 "tick" none false .anything,
    .createGlobal 1 "count" none false .anything, .createGlobal 9 "count" none false .anything,
    .createGlobal 1 "count" none true .anything]

theorem scoped_rebinding : (bare.run rebinding).globalId 2 "count" = some 2 ∧
    (bare.run rebinding).globalId 2 "tick" = none ∧
    Scoped (bare.run rebinding) (bare.log rebinding) :=
  ⟨by decide +kernel, by decide +kernel, scoped_of_run (.inl rfl) rebinding⟩

end Hierarchy

end ClassTree
