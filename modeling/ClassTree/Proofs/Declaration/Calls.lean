import ClassTree.Declaration
import ClassTree.Proofs.Hierarchy.Arena
/-!
What loading does with each declaration, and that all it does is to make calls.
-/

namespace ClassTree

def VarDecl.toSlot (d : VarDecl) (k : SlotId) : Slot :=
  ⟨k, d.name, d.typePath, d.isConst, d.constraint.getD .anything, d.value,
    if d.value.isSome then d.location.getD .internal else .internal⟩

def ProcDecl.toProc (d : ProcDecl) (owner : ClassId) (i : ProcId) : Proc :=
  ⟨i, owner, some d.name, d.flags, d.returnType, []⟩

namespace Hierarchy

variable {t t' : Hierarchy} {c : ClassId}

/-! ### Single declarations -/

lemma modifyClass_modifyClass (t : Hierarchy) (c : ClassId) (f g : ClassEntry → ClassEntry) :
    (t.modifyClass c f).modifyClass c g = t.modifyClass c fun e => g (f e) := by
  rw [modifyClass, modifyClass, modifyClass, Hierarchy.mk.injEq]
  refine ⟨Array.ext_getElem? fun i => ?_, rfl, rfl, rfl, rfl⟩
  simp only [Array.getElem?_modify]
  split
  · rw [Option.map_map]
    rfl
  · rfl

lemma exists_of_loadVar {d : VarDecl} (h : loadVar c t d = .ok t') : ∃ e, t.class? c = some e ∧
    e.overrides.contains d.name = false ∧
    t.modifyClass c (fun e => (e.addVar d.toVariable).setTmp d.name d.isTmp) = t' := by
  obtain ⟨u, hu, h⟩ := exists_of_bind_eq_ok h
  obtain ⟨e, hc, ho, rfl⟩ := declareVar_eq_ok_iff.mp hu
  obtain ⟨-, -, rfl⟩ := setTmp_eq_ok_iff.mp h
  exact ⟨e, hc, ho, by rw [modifyClass_modifyClass]⟩

lemma exists_of_loadOverride {d : VarDecl} (h : loadOverride c t d = .ok t') :
    ∃ e, t.class? c = some e ∧ e.vars.contains d.name = false ∧
      t.modifyClass c (fun e => (e.addOverride d.toVariable).setTmp d.name d.isTmp) = t' := by
  obtain ⟨u, hu, h⟩ := exists_of_bind_eq_ok h
  obtain ⟨e, hc, hv, rfl⟩ := declareOverride_eq_ok_iff.mp hu
  obtain ⟨-, -, rfl⟩ := setTmp_eq_ok_iff.mp h
  exact ⟨e, hc, hv, by rw [modifyClass_modifyClass]⟩

lemma modify_push {α : Type} (xs : Array α) (x : α) (f : α → α) :
    (xs.push x).modify xs.size f = xs.push (f x) := by
  refine Array.ext_getElem? fun i => ?_
  simp only [Array.getElem?_modify, Array.getElem?_push]
  by_cases hi : i = xs.size
  · simp [hi]
  · simp [hi, Ne.symm hi]

lemma exists_of_loadGlobal {d : VarDecl} (h : loadGlobal c t d = .ok t') :
    ∃ e, t.class? c = some e ∧ { t.modifyClass c (·.bindGlobal d.name t.slots.size) with
      slots := t.slots.push (d.toSlot t.slots.size) } = t' := by
  obtain ⟨r, hr, h⟩ := exists_of_bind_eq_ok h
  obtain ⟨e, hc, rfl⟩ := createGlobal_eq_ok_iff.mp hr
  refine ⟨e, hc, ?_⟩
  dsimp only at h
  split at h
  · next hv =>
    cases h
    simp [VarDecl.toSlot, hv, modifyClass, addSlot]
  -- The slot is made without the value, which is put in right after.
  · next x hv =>
    obtain ⟨-, rfl⟩ := setGlobalValue_eq_ok_iff.mp h
    simp [VarDecl.toSlot, hv, modifyClass, addSlot, setSlot, modify_push]

lemma exists_of_loadProc {d : ProcDecl} (h : loadProc c t d = .ok t') :
    ∃ e, t.class? c = some e ∧ (t.addProcEntry c (some d.name) d.flags d.returnType []).modifyClass
      c (·.addProc d.name t.registry.size d.flags.isVerb) = t' := by
  obtain ⟨r, hr, rfl⟩ := exists_of_map_eq_ok h
  obtain ⟨e, hc, rfl⟩ := addProc_eq_ok_iff.mp hr
  exact ⟨e, hc, rfl⟩

lemma exists_of_loadClass {d : ClassDecl} (h : loadClass t d = .ok t') : ∃ c t₁ t₂ t₃ t₄,
    (t.createClass d.path d.parent).2 = .ok c ∧
    d.vars.foldlM (loadVar c) (t.createClass d.path d.parent).1 = .ok t₁ ∧
    d.overrides.foldlM (loadOverride c) t₁ = .ok t₂ ∧ d.globals.foldlM (loadGlobal c) t₂ = .ok t₃ ∧
    d.procs.foldlM (loadProc c) t₃ = .ok t₄ ∧
    d.init.foldlM (fun t e => t.pushPending c e) t₄ = .ok t' := by
  obtain ⟨c, hc, h⟩ := exists_of_bind_eq_ok h
  obtain ⟨t₁, h₁, h⟩ := exists_of_bind_eq_ok h
  obtain ⟨t₂, h₂, h⟩ := exists_of_bind_eq_ok h
  obtain ⟨t₃, h₃, h⟩ := exists_of_bind_eq_ok h
  obtain ⟨t₄, h₄, h⟩ := exists_of_bind_eq_ok h
  exact ⟨c, t₁, t₂, t₃, t₄, hc, h₁, h₂, h₃, h₄, h⟩

/-! ### Loading by calls -/

/-- Some calls make the second hierarchy of the first. -/
def LeadsTo (t t' : Hierarchy) : Prop := ∃ calls, t.run calls = t'

namespace LeadsTo

lemma refl (t : Hierarchy) : LeadsTo t t := ⟨[], rfl⟩

lemma trans {t'' : Hierarchy} (h : LeadsTo t t') (h' : LeadsTo t' t'') : LeadsTo t t'' := by
  obtain ⟨calls, rfl⟩ := h
  obtain ⟨calls', rfl⟩ := h'
  exact ⟨calls ++ calls', List.foldl_append⟩

lemma perform (t : Hierarchy) (call : Call) : LeadsTo t (t.perform call).1 := ⟨[call], rfl⟩

lemma commit {α : Type} {result : Except HierarchyError α} {next : α → Hierarchy}
    {id : α → Option Nat} {a : α} (call : Call) (hp : t.perform call = t.commit result next id)
    (ha : result = .ok a) : LeadsTo t (next a) := by
  have hl := perform t call
  rw [hp, ha] at hl
  exact hl

lemma foldlM {α : Type} {step : Hierarchy → α → Except HierarchyError Hierarchy} {l : List α}
    (hstep : ∀ u a u', step u a = .ok u' → LeadsTo u u') (h : l.foldlM step t = .ok t') :
    LeadsTo t t' :=
  foldlM_induction (motive := fun _ => LeadsTo t) (.refl t)
    (fun _ a u u' hu ha => hu.trans (hstep u a u' ha)) h

lemma loadVar {d : VarDecl} (hd : loadVar c t d = .ok t') : LeadsTo t t' := by
  obtain ⟨u, hu, hd⟩ := exists_of_bind_eq_ok hd
  exact (commit (.declareVar c d.toVariable) rfl hu).trans (commit (.setTmp c d.name d.isTmp) rfl hd)

lemma loadOverride {d : VarDecl} (hd : loadOverride c t d = .ok t') : LeadsTo t t' := by
  obtain ⟨u, hu, hd⟩ := exists_of_bind_eq_ok hd
  exact (commit (.declareOverride c d.toVariable) rfl hu).trans
    (commit (.setTmp c d.name d.isTmp) rfl hd)

lemma loadGlobal {d : VarDecl} (hd : loadGlobal c t d = .ok t') : LeadsTo t t' := by
  obtain ⟨r, hr, hd⟩ := exists_of_bind_eq_ok hd
  have hu := commit (.createGlobal c d.name d.typePath d.isConst (d.constraint.getD .anything))
    rfl hr
  dsimp only at hd
  split at hd
  · cases hd
    exact hu
  · next x _ => exact hu.trans (commit (.setGlobalValue r.2 x (d.location.getD .internal)) rfl hd)

lemma loadProc {d : ProcDecl} (hd : loadProc c t d = .ok t') : LeadsTo t t' := by
  obtain ⟨r, hr, rfl⟩ := exists_of_map_eq_ok hd
  exact commit (.addProc c d.name d.flags d.returnType) rfl hr

lemma loadGlobalProc {d : ProcDecl} (hd : loadGlobalProc t d = .ok t') : LeadsTo t t' := by
  obtain ⟨r, hr, rfl⟩ := exists_of_map_eq_ok hd
  exact commit (.addGlobalProc d.name d.returnType) rfl hr

lemma loadClass {d : ClassDecl} (hd : loadClass t d = .ok t') : LeadsTo t t' := by
  obtain ⟨c, t₁, t₂, t₃, t₄, -, h₁, h₂, h₃, h₄, h₅⟩ := exists_of_loadClass hd
  have h₀ : LeadsTo t (t.createClass d.path d.parent).1 :=
    perform t (.createClass d.path d.parent)
  have h₁ := h₀.trans (foldlM (fun _ _ _ => loadVar) h₁)
  have h₂ := h₁.trans (foldlM (fun _ _ _ => loadOverride) h₂)
  have h₃ := h₂.trans (foldlM (fun _ _ _ => loadGlobal) h₃)
  have h₄ := h₃.trans (foldlM (fun _ _ _ => loadProc) h₄)
  exact h₄.trans (foldlM (fun _ x _ hx => commit (.pushPending c x) rfl hx) h₅)

end LeadsTo

end Hierarchy

end ClassTree
