import ClassTree.Proofs.Hierarchy.Lineage
import ClassTree.Proofs.Hierarchy.Naming
/-!
Creating a class, and the classes on the path to it, adds classes without declarations and leaves
everything else alone. Declaring something edits one class and keeps the shape of the hierarchy.
-/

namespace ClassTree.Hierarchy

variable {t t' t'' : Hierarchy} {c d i : ClassId} {e : ClassEntry} {f : ClassEntry → ClassEntry}
  {p : TypePath}

/-! ### New classes -/

structure Grown (t t' : Hierarchy) : Prop where
  registry : t'.registry = t.registry
  slots : t'.slots = t.slots
  old {i : ClassId} {e : ClassEntry} : t.class? i = some e → t'.class? i = some e
  new {i : ClassId} {e : ClassEntry} : t.class? i = none → t'.class? i = some e →
    ∃ p q, e = .new i p (some q)

namespace Grown

lemma refl (t : Hierarchy) : Grown t t where
  registry := rfl
  slots := rfl
  old h := h
  new hn h := by simp [hn] at h

lemma trans (h : Grown t t') (h' : Grown t' t'') : Grown t t'' where
  registry := h'.registry.trans h.registry
  slots := h'.slots.trans h.slots
  old hi := h'.old (h.old hi)
  new {i e} hn hi := by
    cases hi' : t'.class? i with
    | none => exact h'.new hi' hi
    | some e' =>
      obtain rfl := Option.some.inj ((h'.old hi').symm.trans hi)
      exact h.new hn hi'

lemma addClass (t : Hierarchy) (p : TypePath) (q : ClassId) : Grown t (t.addClass p q) where
  registry := rfl
  slots := rfl
  old hi := by rw [class?_addClass, if_neg (Nat.ne_of_lt (lt_size_of_class? hi)), hi]
  new {i e} hn hi := by
    rw [class?_addClass] at hi
    split at hi
    · next hs => exact ⟨p, q, by rw [← Option.some.inj hi, hs]⟩
    · simp [hn] at hi

lemma lookupPath (h : Grown t t') (ha : Arena t) (ha' : Arena t') (hp : t.lookupPath p = some i) :
    t'.lookupPath p = some i := by
  obtain ⟨e, he, hpath⟩ := ha.path.mp hp
  exact ha'.path.mpr ⟨e, h.old he, hpath⟩

lemma lookupPath_eq_none (h : Grown t t') (ha : Arena t) (ha' : Arena t') (hn : t.class? i = none)
    (hi : t'.class? i = some e) : t.lookupPath e.path = none := by
  cases hp : t.lookupPath e.path with
  | none => rfl
  | some j =>
    have hj := h.lookupPath ha ha' hp
    rw [ha'.path.mpr ⟨e, hi, rfl⟩] at hj
    obtain ⟨f, hf, -⟩ := ha.path.mp hp
    rw [← Option.some.inj hj, hn] at hf
    cases hf

end Grown

lemma getOrCreate_grown (t : Hierarchy) (p : TypePath) : Grown t (t.getOrCreate p).1 := by
  fun_induction t.getOrCreate p with
  | case1 p c hc => exact .refl t
  | case2 p hp hr => exact .addClass t p rootId
  | case3 p hp q hq _ u parent hu ih =>
    rw [hu] at ih
    exact ih.trans (.addClass u p parent)

lemma createClass_grown (t : Hierarchy) (p : TypePath) (parent : Option TypePath) :
    Grown t (t.createClass p parent).1 := by
  cases parent with
  | none => exact getOrCreate_grown t p
  | some parent =>
    simp only [createClass, createBelow]
    split
    · exact .refl t
    · split
      · exact (getOrCreate_grown t parent).trans (.addClass _ _ _)
      · split <;> exact getOrCreate_grown t parent

lemma grown_builtin : Grown bare builtin := by
  have run (l : List (TypePath × Option TypePath)) {u : Hierarchy} (hu : Grown bare u) :
      Grown bare (l.foldl (fun t c => (t.createClass c.1 c.2).1) u) := by
    induction l generalizing u with
    | nil => exact hu
    | cons c l ih => exact ih (hu.trans (createClass_grown u c.1 c.2))
  exact run builtinClasses (.refl bare)

/-! ### Edited classes -/

structure Edited (t t' : Hierarchy) (d : ClassId) (f : ClassEntry → ClassEntry) : Prop where
  paths : t'.paths = t.paths
  links : t'.links = t.links
  classes : t'.classes = t.classes.modify d f
  stem (e : ClassEntry) : (f e).stem = e.stem

def editAt (d : ClassId) (f : ClassEntry → ClassEntry) (e : ClassEntry) : ClassEntry :=
  if e.id = d then f e else e

namespace Edited

lemma class? (h : Edited t t' d f) (ha : Arena t) (i : ClassId) :
    t'.class? i = (t.class? i).map (editAt d f) := by
  have hm : t'.class? i = if d = i then (t.class? i).map f else t.class? i := by
    rw [Hierarchy.class?, h.classes]
    exact Array.getElem?_modify
  rw [hm]
  cases hi : t.class? i with
  | none => simp
  | some e =>
    have hid := ha.id hi
    by_cases hd : d = i
    · simp [editAt, hid, hd]
    · simp [editAt, hid, hd, Ne.symm hd]

lemma stem_editAt (h : Edited t t' d f) (e : ClassEntry) : (editAt d f e).stem = e.stem := by
  rw [editAt]
  split
  · exact h.stem e
  · rfl

lemma sameShape (h : Edited t t' d f) (ha : Arena t) : SameShape t t' where
  paths := h.paths
  links := h.links
  stem i := by
    rw [h.class? ha, Option.map_map]
    congr 1
    exact funext h.stem_editAt

lemma lineage (h : Edited t t' d f) (ha : Arena t) (c : ClassId) :
    t'.lineage c = (t.lineage c).map (editAt d f) := by
  have hw : Walk t'.class? ClassEntry.parent (some c) ((t.lineage c).map (editAt d f)) :=
    (ha.walk_lineage c).map _ (h.class? ha) fun e => congrArg (·.2.2) (h.stem_editAt e)
  exact ((ha.of_sameShape (h.sameShape ha)).walk_lineage c).unique hw

end Edited

structure Addition (t t' : Hierarchy) (d : ClassId) (f : ClassEntry → ClassEntry) : Prop
    extends Edited t t' d f where
  proc {i : ProcId} {p : Proc} : t.registry.get? i = some p → t'.registry.get? i = some p
  globalProcs : t'.registry.globals = t.registry.globals
  slot {i : SlotId} {s : Slot} : t.slots[i]? = some s → t'.slots[i]? = some s

namespace Addition

lemma modifyClass (hf : ∀ e, (f e).stem = e.stem) : Addition t (t.modifyClass d f) d f :=
  ⟨⟨rfl, rfl, rfl, hf⟩, id, rfl, id⟩

lemma bindGlobal (n : String) (s : Slot) :
    Addition t { t.modifyClass d (·.bindGlobal n t.slots.size) with slots := t.slots.push s } d
      (·.bindGlobal n t.slots.size) := by
  refine ⟨⟨rfl, rfl, rfl, fun _ => rfl⟩, id, rfl, fun {i s} hs => ?_⟩
  obtain ⟨hi, rfl⟩ := Array.getElem?_eq_some_iff.mp hs
  exact Array.getElem?_push_lt hi

lemma addProc (hd : t.class? d = some e) {n : String} {flags : ProcFlags}
    {returnType : Option ValueConstraint} :
    Addition t ((t.addProcEntry d (some n) flags returnType []).modifyClass d
      (·.addProc n t.registry.size flags.isVerb)) d (·.addProc n t.registry.size flags.isVerb) :=
  ⟨⟨rfl, rfl, rfl, fun _ => rfl⟩, (Change.addProc hd).get?_registry, rfl, id⟩

end Addition

end ClassTree.Hierarchy
