import ClassTree.Proofs.Hierarchy.ProcUse
import ClassTree.Proofs.Hierarchy.Slots
/-!
How far a declaration reaches. It changes what its own name means, for its own kind of declaration
and on the classes that inherit from its class, where no nearer class hides it.
-/

namespace ClassTree

inductive DeclarationKind where
  | var
  | proc
  | global
deriving DecidableEq

namespace ClassEntry

def declares (e : ClassEntry) (n : String) : DeclarationKind → Bool
  | .var => (e.declared? n).isSome
  | .proc => e.procs.contains n
  | .global => e.globals.contains n

/-- The declarations of a kind that two states of a class have for a name are the same. -/
def SameDeclared (m : String) (e e' : ClassEntry) : DeclarationKind → Prop
  | .var => e'.vars.get? m = e.vars.get? m ∧ e'.overrides.get? m = e.overrides.get? m
  | .proc => e'.procs.get? m = e.procs.get? m
  | .global => e'.globals.get? m = e.globals.get? m

lemma SameDeclared.refl (m : String) (e : ClassEntry) (k : DeclarationKind) :
    SameDeclared m e e k := by
  cases k
  · exact ⟨rfl, rfl⟩
  · rfl
  · rfl

end ClassEntry

namespace Hierarchy

variable {t t' : Hierarchy} {c d : ClassId} {e : ClassEntry} {f : ClassEntry → ClassEntry}
  {m n : String} {k : DeclarationKind}

inductive Declares (t : Hierarchy) (d : ClassId) (n : String) : DeclarationKind → Hierarchy → Prop
  | var {v : Variable} {t' : Hierarchy} (hn : v.name = n) (h : t.declareVar d v = .ok t') :
      Declares t d n .var t'
  | override {v : Variable} {t' : Hierarchy} (hn : v.name = n)
      (h : t.declareOverride d v = .ok t') : Declares t d n .var t'
  | proc {flags : ProcFlags} {returnType : Option ValueConstraint} {r : Hierarchy × ProcId}
      (h : t.addProc d n flags returnType = .ok r) : Declares t d n .proc r.1
  | global {typePath : Option TypePath} {isConst : Bool} {constraint : ValueConstraint}
      {r : Hierarchy × SlotId} (h : t.createGlobal d n typePath isConst constraint = .ok r) :
      Declares t d n .global r.1

/-! ### Additions to one class -/

lemma Declares.addition (h : Declares t d n k t') : ∃ f, Addition t t' d f ∧
    ∀ e m j, m ≠ n ∨ j ≠ k → ClassEntry.SameDeclared m e (f e) j := by
  cases h with
  | @var v t' hn h =>
    obtain ⟨e, hd, hv, rfl⟩ := declareVar_eq_ok_iff.mp h
    subst hn
    refine ⟨(·.addVar v), .modifyClass fun _ => rfl, fun e m j hj => ?_⟩
    cases j with
    | var =>
      have hm := (hj.resolve_right fun h => h rfl).symm
      simp [ClassEntry.SameDeclared, ClassEntry.addVar, OrderedMap.get?_insert, hm]
    | _ => rfl
  | @override v t' hn h =>
    obtain ⟨e, hd, hv, rfl⟩ := declareOverride_eq_ok_iff.mp h
    subst hn
    refine ⟨(·.addOverride v), .modifyClass fun _ => rfl, fun e m j hj => ?_⟩
    cases j with
    | var =>
      have hm := (hj.resolve_right fun h => h rfl).symm
      simp [ClassEntry.SameDeclared, ClassEntry.addOverride, OrderedMap.get?_insert, hm]
    | _ => rfl
  | @proc flags returnType r h =>
    obtain ⟨e, hd, rfl⟩ := addProc_eq_ok_iff.mp h
    refine ⟨(·.addProc n t.registry.size flags.isVerb), .addProc hd, fun e m j hj => ?_⟩
    cases j with
    | proc =>
      have hm := (hj.resolve_right fun h => h rfl).symm
      simp [ClassEntry.SameDeclared, ClassEntry.addProc, OrderedMap.get?_insert, hm]
    | var => exact ⟨rfl, rfl⟩
    | global => rfl
  | @global typePath isConst constraint r h =>
    obtain ⟨e, hd, rfl⟩ := createGlobal_eq_ok_iff.mp h
    refine ⟨(·.bindGlobal n t.slots.size), .bindGlobal n _, fun e m j hj => ?_⟩
    cases j with
    | global =>
      have hm := (hj.resolve_right fun h => h rfl).symm
      simp [ClassEntry.SameDeclared, ClassEntry.bindGlobal, OrderedMap.get?_insert, hm]
    | var => exact ⟨rfl, rfl⟩
    | proc => rfl

/-! ### Answers -/

def SameAnswers (t t' : Hierarchy) (c : ClassId) (m : String) : DeclarationKind → Prop
  | .var => t'.findVar c m = t.findVar c m ∧
      t'.declaresInstanceVar c m = t.declaresInstanceVar c m
  | .proc => t'.findProcs c m = t.findProcs c m ∧ t'.procReturnType c m = t.procReturnType c m
  | .global => t'.globalId c m = t.globalId c m ∧ t'.findGlobal c m = t.findGlobal c m

def SameNearest (t t' : Hierarchy) (c : ClassId) (m : String) : DeclarationKind → Prop
  | .var => t'.findVar c m = t.findVar c m
  | .proc => t'.findProcs c m = t.findProcs c m
  | .global => t'.globalId c m = t.globalId c m

namespace Addition

variable (h : Addition t t' d f)

include h

lemma findVar (ha : Arena t)
    (hf : ∀ e ∈ t.lineage c, ClassEntry.SameDeclared m e (editAt d f e) .var) :
    t'.findVar c m = t.findVar c m := by
  rw [Hierarchy.findVar, Hierarchy.findVar, h.lineage ha, List.findSome?_map]
  refine findSome?_congr fun e he => ?_
  obtain ⟨hv, ho⟩ := hf e he
  rw [Function.comp_apply, ClassEntry.declared?, ClassEntry.declared?, hv, ho]

lemma declaresInstanceVar (ha : Arena t)
    (hf : ∀ e ∈ t.lineage c, ClassEntry.SameDeclared m e (editAt d f e) .var) :
    t'.declaresInstanceVar c m = t.declaresInstanceVar c m := by
  rw [Hierarchy.declaresInstanceVar, Hierarchy.declaresInstanceVar, h.lineage ha, List.any_map]
  refine any_congr fun e he => ?_
  rw [Function.comp_apply, ← OrderedMap.isSome_get?, ← OrderedMap.isSome_get?, (hf e he).1]

lemma findProcs (ha : Arena t)
    (hf : ∀ e ∈ t.lineage c, ClassEntry.SameDeclared m e (editAt d f e) .proc) :
    t'.findProcs c m = t.findProcs c m := by
  rw [Hierarchy.findProcs, Hierarchy.findProcs, h.lineage ha, List.findSome?_map]
  exact findSome?_congr hf

lemma get?_registry (hb : Built t) {i : ProcId} (hi : t.Refers i) :
    t'.registry.get? i = t.registry.get? i := by
  obtain ⟨p, hp⟩ : ∃ p, t.registry.get? i = some p :=
    ⟨_, Array.getElem?_eq_getElem (hb.lt_size_of_refers hi)⟩
  rw [hp, h.proc hp]

lemma global?_registry (hb : Built t) (m : String) :
    t'.registry.global? m = t.registry.global? m := by
  rw [ProcRegistry.global?, ProcRegistry.global?, h.globalProcs]
  cases hg : t.registry.globals.get? m with
  | none => rfl
  | some i => exact h.get?_registry hb (.global hg)

/-- The return type changes only with that of the parent, once the procs are the same. -/
lemma procReturnType_of_parent (hb : Built t) (hc : t.class? c = some e)
    (hf : t'.findProcs c m = t.findProcs c m)
    (hp : ∀ p, e.parent = some p → t'.procReturnType p m = t.procReturnType p m) :
    t'.procReturnType c m = t.procReturnType c m := by
  have hc' : t'.class? c = some (editAt d f e) := by rw [h.class? hb.arena, hc, Option.map_some]
  have hparent : (editAt d f e).parent = e.parent := congrArg (·.2.2) (h.stem_editAt e)
  have hhead {ids : List ProcId} (hids : t.findProcs c m = some ids) :
      ids.head?.bind t'.registry.get? = ids.head?.bind t.registry.get? := by
    cases ids with
    | nil => rfl
    | cons i ids => exact h.get?_registry hb (.found hids List.mem_cons_self)
  rw [procReturnType, hc', procReturnType, hc]
  simp only [ClassEntry.isRoot, hparent, h.global?_registry hb, hf]
  obtain hq | ⟨p, hq⟩ := Option.eq_none_or_eq_some e.parent
  · cases hids : t.findProcs c m with
    | none => simp only [hq]
    | some ids => simp only [hq, hhead hids]
  · cases hids : t.findProcs c m with
    | none => simp only [hq, hp p hq]
    | some ids => simp only [hq, hhead hids, hp p hq]

lemma procReturnType (hb : Built t)
    (hf : ∀ e ∈ t.lineage c, ClassEntry.SameDeclared m e (editAt d f e) .proc) :
    t'.procReturnType c m = t.procReturnType c m := by
  have ha := hb.arena
  cases hc : t.class? c with
  | none =>
    have hc' : t'.class? c = none := by rw [h.class? ha, hc, Option.map_none]
    rw [Hierarchy.procReturnType, hc', Hierarchy.procReturnType, hc]
  | some e =>
    refine ha.induction (motive := fun c =>
      (∀ e ∈ t.lineage c, ClassEntry.SameDeclared m e (editAt d f e) .proc) →
        t'.procReturnType c m = t.procReturnType c m) ?_ ?_ hc hf
    · intro hf
      obtain ⟨r, hr, -, hn⟩ := ha.root
      exact h.procReturnType_of_parent hb hr (h.findProcs ha hf) (by simp [hn])
    · intro c e p hc hp ih hf
      refine h.procReturnType_of_parent hb hc (h.findProcs ha hf) fun q hq => ?_
      obtain rfl := Option.some.inj (hp.symm.trans hq)
      rw [ha.lineage_child hc hp] at hf
      exact ih fun a hm => hf a (.tail _ hm)

lemma globalScope (ha : Arena t) (c : ClassId) :
    t'.globalScope c = (t.globalScope c).map (editAt d f) := by
  rw [Hierarchy.globalScope, Hierarchy.globalScope, h.lineage ha, List.takeWhile_map]
  congr 2
  funext e
  have hp : (editAt d f e).parent = e.parent := congrArg (·.2.2) (h.stem_editAt e)
  rw [Function.comp_apply, ClassEntry.isRoot, ClassEntry.isRoot, hp]

lemma globalId (ha : Arena t)
    (hf : ∀ e ∈ t.globalScope c, ClassEntry.SameDeclared m e (editAt d f e) .global) :
    t'.globalId c m = t.globalId c m := by
  rw [Hierarchy.globalId, Hierarchy.globalId, h.globalScope ha, List.findSome?_map]
  exact findSome?_congr hf

lemma findGlobal (hb : Built t) (hg : t'.globalId c m = t.globalId c m) :
    t'.findGlobal c m = t.findGlobal c m := by
  rw [Hierarchy.findGlobal, Hierarchy.findGlobal, hg]
  cases hk : t.globalId c m with
  | none => rfl
  | some k =>
    obtain ⟨-, e, -, -, hb', -⟩ := hb.arena.globalId_eq_some_iff.mp hk
    obtain ⟨s, hs, -⟩ := Option.map_eq_some_iff.mp (hb.slotsBound.named hb')
    rw [Option.bind_some, Option.bind_some, hs, h.slot hs]

lemma sameAnswers (hb : Built t)
    (hf : ∀ e ∈ t.lineage c, ClassEntry.SameDeclared m e (editAt d f e) k) :
    SameAnswers t t' c m k := by
  have ha := hb.arena
  cases k with
  | var => exact ⟨h.findVar ha hf, h.declaresInstanceVar ha hf⟩
  | proc => exact ⟨h.findProcs ha hf, h.procReturnType hb hf⟩
  | global =>
    have hg := h.globalId ha fun e he => hf e (List.takeWhile_subset _ he)
    exact ⟨hg, h.findGlobal hb hg⟩

lemma lineage_nearer (ha : Arena t) {nearer farther : List ClassEntry}
    (hl : t.lineage c = nearer ++ e :: farther) (he : e.id = d) :
    t'.lineage c = nearer ++ (e :: farther).map (editAt d f) := by
  have hn : ∀ a ∈ nearer, editAt d f a = a := by
    intro a hm
    have hlt := ha.id_lt_of_nearer hl hm
    exact if_neg fun had => Nat.ne_of_lt hlt (he.trans had.symm)
  rw [h.lineage ha, hl, List.map_append, List.map_congr_left hn, List.map_id']

lemma sameNearest (ha : Arena t) {nearer farther : List ClassEntry}
    (hl : t.lineage c = nearer ++ e :: farther) (he : e.id = d)
    (hd : ∃ a ∈ nearer, a.declares m k = true) : SameNearest t t' c m k := by
  have hl' := h.lineage_nearer ha hl he
  cases k with
  | var =>
    rw [SameNearest, Hierarchy.findVar, Hierarchy.findVar, hl, hl',
      findSome?_append_of_isSome hd, findSome?_append_of_isSome hd]
  | proc =>
    simp only [ClassEntry.declares, ← OrderedMap.isSome_get?] at hd
    rw [SameNearest, Hierarchy.findProcs, Hierarchy.findProcs, hl, hl',
      findSome?_append_of_isSome hd, findSome?_append_of_isSome hd]
  | global =>
    simp only [ClassEntry.declares, ← OrderedMap.isSome_get?] at hd
    have hs : ∀ a ∈ nearer, (decide (c = rootId) || !a.isRoot) = true :=
      fun a => ha.nearer_in_scope hl
    rw [SameNearest, Hierarchy.globalId, Hierarchy.globalId, Hierarchy.globalScope,
      Hierarchy.globalScope, hl, hl', List.takeWhile_append_of_pos hs,
      List.takeWhile_append_of_pos hs, findSome?_append_of_isSome hd,
      findSome?_append_of_isSome hd]

end Addition

/-! ### What a declaration leaves alone -/

/-- Where the answers stay as they were when a name is declared on a class. -/
structure Local (t : Hierarchy) (d : ClassId) (n : String) (k : DeclarationKind)
    (t' : Hierarchy) : Prop where
  other_name {m : String} : m ≠ n → ∀ c j, SameAnswers t t' c m j
  elsewhere {c : ClassId} : (∀ e ∈ t.lineage c, e.id ≠ d) → ∀ m j, SameAnswers t t' c m j
  other_kind {j : DeclarationKind} : j ≠ k → ∀ c m, SameAnswers t t' c m j
  shadowed {c : ClassId} {e : ClassEntry} {nearer farther : List ClassEntry} :
    t.lineage c = nearer ++ e :: farther → e.id = d → (∃ a ∈ nearer, a.declares n k = true) →
      SameNearest t t' c n k
  root_global : k = .global → d = rootId → ∀ c, c ≠ rootId → ∀ m j, SameAnswers t t' c m j

theorem local_of_declares (h : Reachable t) (hd : Declares t d n k t') : Local t d n k t' := by
  have hb := h.built
  obtain ⟨f, hf, hsame⟩ := hd.addition
  have unedited {e : ClassEntry} (he : e.id ≠ d) (m : String) (j : DeclarationKind) :
      ClassEntry.SameDeclared m e (editAt d f e) j := by
    rw [editAt, if_neg he]
    exact .refl m e j
  have edited {m : String} {j : DeclarationKind} (hj : m ≠ n ∨ j ≠ k) (e : ClassEntry) :
      ClassEntry.SameDeclared m e (editAt d f e) j := by
    rw [editAt]
    split
    · exact hsame e m j hj
    · exact .refl m e j
  refine ⟨?name, ?elsewhere, ?kind, hf.sameNearest hb.arena, ?root⟩
  case name => exact fun hm c j => hf.sameAnswers hb fun e _ => edited (.inl hm) e
  case elsewhere => exact fun hc m j => hf.sameAnswers hb fun e he => unedited (hc e he) m j
  case kind => exact fun hj c m => hf.sameAnswers hb fun e _ => edited (.inr hj) e
  case root =>
    rintro rfl rfl c hc m j
    by_cases hj : j = .global
    · subst hj
      have hg : t'.globalId c m = t.globalId c m := by
        refine hf.globalId hb.arena fun e he => unedited ?_ m .global
        have hs := List.mem_takeWhile_imp he
        exact fun hr => hc ((hb.arena.mem_scope_iff (List.takeWhile_subset _ he)).mp hs hr)
      exact ⟨hg, hf.findGlobal hb hg⟩
    · exact hf.sameAnswers hb fun e _ => edited (.inr hj) e

/-- `/atom/movable` has a global that `/atom` is about to get too. -/
def nearerGlobal : List Call :=
  [.createClass .movable none, .createGlobal 2 "count" none false .anything]

theorem local_nearerGlobal : ∃ t', Declares (bare.run nearerGlobal) 1 "count" .global t' ∧
    Local (bare.run nearerGlobal) 1 "count" .global t' ∧
    t'.globalId 1 "count" = some 1 ∧ t'.globalId 2 "count" = some 0 := by
  obtain ⟨e, he⟩ := class?_of_lt (t := bare.run nearerGlobal) (i := 1) (by decide +kernel)
  have hg : (bare.run nearerGlobal).createGlobal 1 "count" none false .anything = .ok _ :=
    createGlobal_eq_ok_iff.mpr ⟨e, he, rfl⟩
  exact ⟨_, .global hg, local_of_declares (Reachable.bare.run nearerGlobal) (.global hg),
    by decide +kernel, by decide +kernel⟩

end Hierarchy

end ClassTree
