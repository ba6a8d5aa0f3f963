import ClassTree.Proofs.Hierarchy.Inheritance
import ClassTree.Proofs.Hierarchy.Naming
/-!
What later calls leave as it is. No call takes a class, a proc or a slot away or makes another one
of it, so all that hangs on numbers and paths alone can be asked once and for all.
-/

namespace ClassTree

/-- What a slot keeps when it gets a value. -/
def Slot.signature (s : Slot) : SlotId × String × Option TypePath × Bool × ValueConstraint :=
  (s.id, s.name, s.typePath, s.isConst, s.constraint)

namespace Hierarchy

variable {t t' t'' : Hierarchy} {c i : ClassId} {e e' : ClassEntry}

structure Retains (t t' : Hierarchy) : Prop where
  stem {c : ClassId} {e : ClassEntry} :
    t.class? c = some e → ∃ e', t'.class? c = some e' ∧ e'.stem = e.stem
  proc {id : ProcId} {p : Proc} : t.registry.get? id = some p → t'.registry.get? id = some p
  slot {k : SlotId} {s : Slot} :
    t.slots[k]? = some s → ∃ s', t'.slots[k]? = some s' ∧ s'.signature = s.signature

/-! ### Calls -/

namespace Retains

lemma refl (t : Hierarchy) : Retains t t where
  stem hc := ⟨_, hc, rfl⟩
  proc hp := hp
  slot hs := ⟨_, hs, rfl⟩

lemma trans (h : Retains t t') (h' : Retains t' t'') : Retains t t'' where
  stem hc := by
    obtain ⟨e', hc', hst⟩ := h.stem hc
    obtain ⟨e'', hc'', hst'⟩ := h'.stem hc'
    exact ⟨e'', hc'', hst'.trans hst⟩
  proc hp := h'.proc (h.proc hp)
  slot hs := by
    obtain ⟨s', hs', hsig⟩ := h.slot hs
    obtain ⟨s'', hs'', hsig'⟩ := h'.slot hs'
    exact ⟨s'', hs'', hsig'.trans hsig⟩

end Retains

lemma Edit.stem (h : Edit t t' c e e') : e'.stem = e.stem := by
  cases h <;> rfl

lemma Change.signature (h : Change t t') {k : SlotId} {s : Slot} (hs : t.slots[k]? = some s) :
    ∃ s', t'.slots[k]? = some s' ∧ s'.signature = s.signature := by
  cases h with
  | createGlobal _ =>
    obtain ⟨hk, rfl⟩ := Array.getElem?_eq_some_iff.mp hs
    exact ⟨_, Array.getElem?_push_lt hk, rfl⟩
  | @setSlot id value location _ =>
    have hm : (t.setSlot id value location).slots[k]? = _ := Array.getElem?_modify
    rw [hm, hs]
    split
    · exact ⟨_, rfl, rfl⟩
    · exact ⟨s, rfl, rfl⟩
  | _ => exact ⟨s, hs, rfl⟩

lemma Change.retains (h : Change t t') : Retains t t' where
  stem hc := by
    obtain ⟨e', hc', hed⟩ := h.edit hc
    exact ⟨e', hc', hed.stem⟩
  proc hp := h.get?_registry hp
  slot hs := h.signature hs

lemma Changes.retains (h : Changes t t') : Retains t t' := by
  induction h with
  | refl => exact .refl t
  | tail _ hc ih => exact ih.trans hc.retains

/-! ### Answers -/

lemma lookup_eq_ok_iff {raw : String} :
    t.lookup raw = .ok c ↔ ∃ p, TypePath.parse raw = .ok p ∧ t.lookupPath p = some c := by
  rw [lookup]
  cases TypePath.parse raw with
  | error x => simp
  | ok p => cases hl : t.lookupPath p <;> simp [hl]

namespace Retains

variable (h : Retains t t') (ha : Arena t) (ha' : Arena t')

include h ha ha'

lemma lineage (hc : t.class? c = some e) :
    (t'.lineage c).map ClassEntry.stem = (t.lineage c).map ClassEntry.stem := by
  refine ha.induction (motive := fun c =>
    (t'.lineage c).map ClassEntry.stem = (t.lineage c).map ClassEntry.stem) ?_ ?_ hc
  · obtain ⟨r, hr, -, hn⟩ := ha.root
    obtain ⟨r', hr', hst⟩ := h.stem hr
    have hn' : r'.parent = none := (congrArg (·.2.2) hst).trans hn
    rw [lineage_parentless hr hn, lineage_parentless hr' hn', List.map_singleton, hst,
      List.map_singleton]
  · intro c e p hc hp ih
    obtain ⟨e', hc', hst⟩ := h.stem hc
    have hp' : e'.parent = some p := (congrArg (·.2.2) hst).trans hp
    rw [ha.lineage_child hc hp, ha'.lineage_child hc' hp', List.map_cons, List.map_cons, hst, ih]

lemma isSubclassOf (hc : t.class? c = some e) (a : ClassId) :
    t'.isSubclassOf c a = t.isSubclassOf c a := by
  have hl := congrArg (List.any · fun s => decide (s.1 = a)) (h.lineage ha ha' hc)
  simp only [List.any_map] at hl
  exact hl

lemma isSubtypeOf (hc : t.class? c = some e) (p : TypePath) :
    t'.isSubtypeOf c p = t.isSubtypeOf c p := by
  have hl := congrArg (List.any · fun s => decide (s.2.1 = p)) (h.lineage ha ha' hc)
  simp only [List.any_map] at hl
  exact hl

lemma kind (hc : t.class? c = some e) : t'.kind c = t.kind c := by
  simp only [Hierarchy.kind, h.isSubtypeOf ha ha' hc]

lemma lookupPath {p : TypePath} (hp : t.lookupPath p = some c) : t'.lookupPath p = some c := by
  obtain ⟨e, hc, rfl⟩ := ha.path.mp hp
  obtain ⟨e', hc', hst⟩ := h.stem hc
  exact ha'.path.mpr ⟨e', hc', congrArg (·.2.1) hst⟩

lemma lookup {raw : String} (hr : t.lookup raw = .ok c) : t'.lookup raw = .ok c := by
  obtain ⟨p, hp, hl⟩ := lookup_eq_ok_iff.mp hr
  exact lookup_eq_ok_iff.mpr ⟨p, hp, h.lookupPath ha ha' hl⟩

end Retains

/-- What can be asked about the classes, procs and slots of a hierarchy, and about paths that have a
class in it, with the same answers ever after. -/
structure Settled (t t' : Hierarchy) : Prop where
  class_kept {c : ClassId} {e : ClassEntry} : t.class? c = some e →
    ∃ e', t'.class? c = some e' ∧ e'.id = e.id ∧ e'.path = e.path ∧ e'.parent = e.parent
  lineage {c : ClassId} {e : ClassEntry} : t.class? c = some e →
    (t'.lineage c).map (fun a => (a.id, a.path, a.parent)) =
      (t.lineage c).map fun a => (a.id, a.path, a.parent)
  subclass {c : ClassId} {e : ClassEntry} : t.class? c = some e →
    ∀ a, t'.isSubclassOf c a = t.isSubclassOf c a
  subtype {c : ClassId} {e : ClassEntry} : t.class? c = some e →
    ∀ p, t'.isSubtypeOf c p = t.isSubtypeOf c p
  kind {c : ClassId} {e : ClassEntry} : t.class? c = some e → t'.kind c = t.kind c
  proc {id : ProcId} {p : Proc} : t.registry.get? id = some p → t'.registry.get? id = some p
  slot {k : SlotId} {s : Slot} : t.slots[k]? = some s → ∃ s', t'.slots[k]? = some s' ∧
    s'.id = s.id ∧ s'.name = s.name ∧ s'.typePath = s.typePath ∧ s'.isConst = s.isConst ∧
      s'.constraint = s.constraint
  lookupPath {p : TypePath} {c : ClassId} :
    t.lookupPath p = some c → t'.lookupPath p = some c
  lookup {raw : String} {c : ClassId} : t.lookup raw = .ok c → t'.lookup raw = .ok c

theorem settled_of_run (h : Reachable t) (calls : List Call) : Settled t (t.run calls) := by
  have ha := h.built.arena
  have ha' := (h.run calls).built.arena
  have hr := (run_changes ha calls).retains
  refine ⟨?class_kept, hr.lineage ha ha', hr.isSubclassOf ha ha', hr.isSubtypeOf ha ha',
    hr.kind ha ha', hr.proc, ?slot, hr.lookupPath ha ha', hr.lookup ha ha'⟩
  case class_kept =>
    intro c e hc
    obtain ⟨e', hc', hst⟩ := hr.stem hc
    simp only [ClassEntry.stem, Prod.mk.injEq] at hst
    exact ⟨e', hc', hst⟩
  case slot =>
    intro k s hs
    obtain ⟨s', hs', hsig⟩ := hr.slot hs
    simp only [Slot.signature, Prod.mk.injEq] at hsig
    exact ⟨s', hs', hsig⟩

/-- A class with a proc, an initializer to come and a global. -/
def furnished : List Call :=
  [.createClass .movable none, .addProc 2 "Move" .none (some .anything),
    .pushPending 2 ⟨.internal, .assignField "contents" (.list [])⟩,
    .createGlobal 2 "count" (some .list) false .anything]

/-- Asks for the class below another parent, which is created in vain, and creates a path that
nothing had before. -/
def rearranged : List Call :=
  [.createClass .movable (some .mob), .getOrCreate .list, .setGlobalValue 0 .null .internal,
    .declareVar 9 ⟨"name", none, false, none, .anything, .internal⟩, .finalize]

theorem settled_rearranged :
    ((bare.run furnished).class? 2).map (·.path) = some .movable ∧
      (bare.run furnished).isSubtypeOf 2 .mob = false ∧
      ((bare.run furnished).run rearranged).lookupPath .mob = some 3 ∧
      Settled (bare.run furnished) ((bare.run furnished).run rearranged) :=
  ⟨by decide +kernel, by decide +kernel, by decide +kernel,
    settled_of_run (Reachable.bare.run furnished) rearranged⟩

end Hierarchy

end ClassTree
