import ClassTree.Proofs.Artifact.Emission
import ClassTree.Proofs.Declaration.Loading
import ClassTree.Proofs.Hierarchy.Finalize
import ClassTree.Proofs.Hierarchy.Outline
/-!
Which declaration files are refused. A file has problems with repeated names of global procs, with
the parents its entries ask for, and with names declared in both ways; loading it fails with the
first of them, and without any it yields a hierarchy that can be finalized and compiled.
-/

namespace ClassTree

/-! ### Problems of a file -/

/-- The classes that are there when some entries have been read. -/
def Outline.after (ds : List ClassDecl) : Outline :=
  ds.foldl (fun o d => o.place d.path d.parent) .builtin

def ProcDecl.problems (before : List ProcDecl) (d : ProcDecl) : List HierarchyError :=
  if d.name ∈ before.map (·.name) then [.duplicateGlobalProc d.name] else []

def VarDecl.problems (p : TypePath) (existing : Declared) (declared : List VarDecl) (d : VarDecl) :
    List HierarchyError :=
  if d.name ∈ declared.map (·.name) then [.variableConflict p d.name existing] else []

/-- The overrides of an entry are read after its own variables. -/
def ClassDecl.problems (before : List ClassDecl) (d : ClassDecl) : List HierarchyError :=
  (Outline.after before).problems d.path d.parent ++
    (d.vars.flatMap (VarDecl.problems d.path .override (itemsAt overrides d.path before)) ++
      d.overrides.flatMap (VarDecl.problems d.path .own (itemsAt vars d.path (before ++ [d]))))

def DeclarationFile.problems (f : DeclarationFile) : List HierarchyError :=
  problemsAlong ProcDecl.problems [] f.globalProcs ++ problemsAlong ClassDecl.problems [] f.classes

lemma Outline.after_snoc (ds : List ClassDecl) (d : ClassDecl) :
    after (ds ++ [d]) = (after ds).place d.path d.parent := by
  simp [after]

lemma LastOf.contains_iff {α β : Type} {m : OrderedMap String β} {l : List α} {name : α → String}
    {value : α → β} (h : LastOf m l name value) {n : String} :
    m.contains n = true ↔ n ∈ l.map name := by
  rw [OrderedMap.contains_iff_mem_keys, h.keys, List.mem_eraseDups]

namespace Hierarchy

variable {t t' : Hierarchy} {c : ClassId} {n : Nat} {ds : List ClassDecl} {d : ClassDecl}

/-! ### Single declarations -/

section

variable {e : ClassEntry} (hc : t.class? c = some e)

include hc

lemma loadVar_eq (v : VarDecl) : loadVar c t v =
    if e.overrides.contains v.name then .error (.variableConflict e.path v.name .override)
    else .ok (t.modifyClass c fun e => (e.addVar v.toVariable).setTmp v.name v.isTmp) := by
  have hd : t.declareVar c v.toVariable =
      if e.overrides.contains v.name then .error (.variableConflict e.path v.name .override)
      else .ok (t.modifyClass c (·.addVar v.toVariable)) := by
    rw [declareVar, tryClass, hc]
    rfl
  rw [loadVar, hd]
  split
  · rfl
  · exact setTmp_eq_ok_iff.mpr ⟨e.addVar v.toVariable, class?_modifyClass_self hc _,
      modifyClass_modifyClass t c _ _⟩

lemma loadOverride_eq (v : VarDecl) : loadOverride c t v =
    if e.vars.contains v.name then .error (.variableConflict e.path v.name .own)
    else .ok (t.modifyClass c fun e => (e.addOverride v.toVariable).setTmp v.name v.isTmp) := by
  have hd : t.declareOverride c v.toVariable =
      if e.vars.contains v.name then .error (.variableConflict e.path v.name .own)
      else .ok (t.modifyClass c (·.addOverride v.toVariable)) := by
    rw [declareOverride, tryClass, hc]
    rfl
  rw [loadOverride, hd]
  split
  · rfl
  · exact setTmp_eq_ok_iff.mpr ⟨e.addOverride v.toVariable, class?_modifyClass_self hc _,
      modifyClass_modifyClass t c _ _⟩

lemma exists_loadGlobal (v : VarDecl) : ∃ t', loadGlobal c t v = .ok t' := by
  have hd : t.createGlobal c v.name v.typePath v.isConst (v.constraint.getD .anything) = .ok _ :=
    createGlobal_eq_ok_iff.mpr ⟨e, hc, rfl⟩
  rw [loadGlobal, hd]
  cases v.value with
  | none => exact ⟨_, rfl⟩
  | some x =>
    refine ⟨_, setGlobalValue_eq_ok_iff.mpr ⟨?_, rfl⟩⟩
    simp [modifyClass, addSlot]

lemma exists_loadProc (x : ProcDecl) : ∃ t', loadProc c t x = .ok t' := by
  rw [loadProc, addProc_eq_ok_iff.mpr ⟨e, hc, rfl⟩]
  exact ⟨_, rfl⟩

lemma exists_pushPending (x : PendingExpr) : ∃ t', t.pushPending c x = .ok t' :=
  ⟨_, pushPending_eq_ok_iff.mpr ⟨e, hc, rfl⟩⟩

end

lemma loadGlobalProc_eq (t : Hierarchy) (x : ProcDecl) : loadGlobalProc t x =
    if t.registry.globals.contains x.name then .error (.duplicateGlobalProc x.name)
    else .ok (t.addGlobalEntry x.name x.returnType) := by
  rw [loadGlobalProc, addGlobalProc]
  split <;> rfl

/-! ### One entry -/

structure Replaying (firstProc : Nat) (ds : List ClassDecl) (d : ClassDecl) (c : ClassId)
    (t : Hierarchy) : Prop extends Loading firstProc ds d c t where
  outline : t.outline = .after (ds ++ [d])

namespace Replaying

variable (h : Replaying n ds d c t)

include h

lemma merged : ∃ e, t.class? c = some e ∧ e.path = d.path ∧
    Merged (Share.of n (ds ++ [d]) d.path) e := by
  obtain ⟨e, hc, hp⟩ := h.arena.path.mp h.current
  exact ⟨e, hc, hp, hp ▸ (h.contents hc).toMerged⟩

lemma add {f : ClassEntry → ClassEntry} {d' : ClassDecl} (ha : Addition t t' c f)
    (hl : Loading n ds d' c t') (hp : d'.path = d.path) (hq : d'.parent = d.parent) :
    Replaying n ds d' c t' where
  toLoading := hl
  outline := by
    rw [(ha.sameShape h.arena).outline, h.outline, Outline.after_snoc, Outline.after_snoc, hp, hq]

lemma loadVar (v : VarDecl) : Reports (loadVar c t v)
    (v.problems d.path .override (ClassDecl.itemsAt ClassDecl.overrides d.path (ds ++ [d])))
    (Replaying n ds { d with vars := d.vars ++ [v] } c) := by
  obtain ⟨e, hc, hp, hm⟩ := h.merged
  have hn := hm.overrides.contains_iff (n := v.name)
  have heq := loadVar_eq hc v
  rw [VarDecl.problems]
  split
  · next hv =>
    rw [if_pos (hn.mpr hv), hp] at heq
    exact .error heq rfl
  · next hv =>
    rw [if_neg (mt hn.mp hv)] at heq
    exact .of_ok heq (h.add (.modifyClass fun _ => rfl) (h.toLoading.loadVar heq) rfl rfl)

lemma loadOverride (v : VarDecl) : Reports (loadOverride c t v)
    (v.problems d.path .own (ClassDecl.itemsAt ClassDecl.vars d.path (ds ++ [d])))
    (Replaying n ds { d with overrides := d.overrides ++ [v] } c) := by
  obtain ⟨e, hc, hp, hm⟩ := h.merged
  have hn := hm.vars.contains_iff (n := v.name)
  have heq := loadOverride_eq hc v
  rw [VarDecl.problems]
  split
  · next hv =>
    rw [if_pos (hn.mpr hv), hp] at heq
    exact .error heq rfl
  · next hv =>
    rw [if_neg (mt hn.mp hv)] at heq
    exact .of_ok heq (h.add (.modifyClass fun _ => rfl) (h.toLoading.loadOverride heq) rfl rfl)

lemma loadGlobal (v : VarDecl) : Reports (loadGlobal c t v) []
    (Replaying n ds { d with globals := d.globals ++ [v] } c) := by
  obtain ⟨e, hc, -⟩ := h.merged
  obtain ⟨t', ht⟩ := exists_loadGlobal hc v
  obtain ⟨-, -, rfl⟩ := exists_of_loadGlobal ht
  exact .of_ok ht (h.add (.bindGlobal v.name _) (h.toLoading.loadGlobal ht) rfl rfl)

lemma loadProc (x : ProcDecl) : Reports (loadProc c t x) []
    (Replaying n ds { d with procs := d.procs ++ [x] } c) := by
  obtain ⟨e, hc, -⟩ := h.merged
  obtain ⟨t', ht⟩ := exists_loadProc hc x
  obtain ⟨-, -, rfl⟩ := exists_of_loadProc ht
  exact .of_ok ht (h.add (.addProc hc) (h.toLoading.loadProc ht) rfl rfl)

lemma pushPending (x : PendingExpr) : Reports (t.pushPending c x) []
    (Replaying n ds { d with init := d.init ++ [x] } c) := by
  obtain ⟨e, hc, -⟩ := h.merged
  obtain ⟨t', ht⟩ := exists_pushPending hc x
  obtain ⟨-, -, rfl⟩ := pushPending_eq_ok_iff.mp ht
  exact .of_ok ht (h.add (.modifyClass fun _ => rfl) (h.toLoading.pushPending ht) rfl rfl)

end Replaying

/-! ### Whole files -/

structure Replayed (firstProc : Nat) (ds : List ClassDecl) (t : Hierarchy) : Prop
    extends Loaded firstProc ds t where
  outline : t.outline = .after ds

lemma Replayed.createClass (h : Replayed n ds t) (p : TypePath) (parent : Option TypePath) :
    Reports (t.createClass p parent).2 ((Outline.after ds).problems p parent)
      fun c => Replaying n ds ⟨p, parent, [], [], [], [], []⟩ c (t.createClass p parent).1 := by
  have hr := h.arena.reports_createClass p parent
  rw [h.outline] at hr
  cases hr with
  | ok hok hn ho =>
    refine .ok hok hn ⟨h.toLoaded.createClass hok, ?_⟩
    rw [ho, Outline.after_snoc]
  | error he hc => exact .error he hc

namespace Replaying

lemma loadVars (h : Replaying n ds ⟨d.path, d.parent, [], [], [], [], []⟩ c t) :
    Reports (d.vars.foldlM (Hierarchy.loadVar c) t)
      (d.vars.flatMap (VarDecl.problems d.path .override
        (ClassDecl.itemsAt ClassDecl.overrides d.path ds)))
      (Replaying n ds ⟨d.path, d.parent, d.vars, [], [], [], []⟩ c) := by
  refine reports_foldlM_flatMap
    (fun l => Replaying n ds ⟨d.path, d.parent, l, [], [], [], []⟩ c) (fun l v s hs => ?_) _ h
  simpa [ClassDecl.itemsAt_snoc] using hs.loadVar v

lemma loadOverrides (h : Replaying n ds ⟨d.path, d.parent, d.vars, [], [], [], []⟩ c t) :
    Reports (d.overrides.foldlM (Hierarchy.loadOverride c) t)
      (d.overrides.flatMap (VarDecl.problems d.path .own
        (ClassDecl.itemsAt ClassDecl.vars d.path (ds ++ [d]))))
      (Replaying n ds ⟨d.path, d.parent, d.vars, d.overrides, [], [], []⟩ c) := by
  refine reports_foldlM_flatMap
    (fun l => Replaying n ds ⟨d.path, d.parent, d.vars, l, [], [], []⟩ c) (fun l v s hs => ?_) _ h
  simpa [ClassDecl.itemsAt_snoc] using hs.loadOverride v

lemma loadGlobals (h : Replaying n ds ⟨d.path, d.parent, d.vars, d.overrides, [], [], []⟩ c t) :
    Reports (d.globals.foldlM (Hierarchy.loadGlobal c) t) []
      (Replaying n ds ⟨d.path, d.parent, d.vars, d.overrides, d.globals, [], []⟩ c) := by
  exact reports_foldlM_nil
    (fun l => Replaying n ds ⟨d.path, d.parent, d.vars, d.overrides, l, [], []⟩ c)
    (fun l v s hs => hs.loadGlobal v) _ h

lemma loadProcs
    (h : Replaying n ds ⟨d.path, d.parent, d.vars, d.overrides, d.globals, [], []⟩ c t) :
    Reports (d.procs.foldlM (Hierarchy.loadProc c) t) []
      (Replaying n ds ⟨d.path, d.parent, d.vars, d.overrides, d.globals, d.procs, []⟩ c) := by
  exact reports_foldlM_nil
    (fun l => Replaying n ds ⟨d.path, d.parent, d.vars, d.overrides, d.globals, l, []⟩ c)
    (fun l x s hs => hs.loadProc x) _ h

lemma pushAll
    (h : Replaying n ds ⟨d.path, d.parent, d.vars, d.overrides, d.globals, d.procs, []⟩ c t) :
    Reports (d.init.foldlM (fun t e => t.pushPending c e) t) [] (Replaying n ds d c) := by
  exact reports_foldlM_nil
    (fun l => Replaying n ds ⟨d.path, d.parent, d.vars, d.overrides, d.globals, d.procs, l⟩ c)
    (fun l x s hs => hs.pushPending x) _ h

end Replaying

lemma Replayed.loadClass (h : Replayed n ds t) (d : ClassDecl) :
    Reports (loadClass t d) (d.problems ds) (Replayed n (ds ++ [d])) := by
  rw [ClassDecl.problems, ← List.append_nil (d.overrides.flatMap _)]
  exact (h.createClass d.path d.parent).bind fun _ _ h => h.loadVars.bind fun _ _ h =>
    h.loadOverrides.bind fun _ _ h => h.loadGlobals.bind fun _ _ h => h.loadProcs.bind fun _ _ h =>
      h.pushAll.mono fun _ h => ⟨h.toLoaded, h.outline⟩

/-- The names of the global procs so far are the keys of their table. -/
structure Opened (gs : List ProcDecl) (t : Hierarchy) : Prop extends Replayed gs.length [] t where
  names : t.registry.globals.keys = gs.map (·.name)

lemma Opened.loadGlobalProc {gs : List ProcDecl} (h : Opened gs t) (x : ProcDecl) :
    Reports (loadGlobalProc t x) (x.problems gs) (Opened (gs ++ [x])) := by
  have hn : t.registry.globals.contains x.name = true ↔ x.name ∈ gs.map (·.name) := by
    rw [OrderedMap.contains_iff_mem_keys, h.names]
  have heq := loadGlobalProc_eq t x
  rw [ProcDecl.problems]
  split
  · next hx =>
    rw [if_pos (hn.mpr hx)] at heq
    exact .error heq rfl
  · next hx =>
    rw [if_neg (mt hn.mp hx)] at heq
    refine .of_ok heq ⟨⟨by simpa using h.toLoaded.loadGlobalProc heq, h.outline⟩, ?_⟩
    rw [List.map_append, ← h.names]
    exact (OrderedMap.keys_insert _ _ _).trans (if_neg (mt hn.mp hx))

lemma opened_builtin : Opened [] builtin where
  toLoaded := loaded_builtin
  outline := outline_builtin
  names := congrArg (·.globals.keys) grown_builtin.registry

lemma reports_ofDeclarations (f : DeclarationFile) :
    Reports (ofDeclarations f) f.problems (Replayed f.globalProcs.length f.classes) :=
  (reports_foldlM Opened (fun _ x _ h => h.loadGlobalProc x) f.globalProcs [] opened_builtin).bind
    fun _ _ h => reports_foldlM (Replayed f.globalProcs.length) (fun _ d _ h => h.loadClass d)
      f.classes [] h.toReplayed

end Hierarchy

/-! ### Files with problems -/

def ClassDecl.IsCyclic (d : ClassDecl) : Prop :=
  ∃ q, d.parent = some q ∧ (q = d.path ∨ q.isBelow d.path = true)

/-- An entry asks for a parent of a class that has got another one by then. -/
def ClassDecl.Reparents (before : List ClassDecl) (d : ClassDecl) : Prop :=
  ∃ q r, d.parent = some q ∧ (Outline.after before).parent? d.path = some r ∧ r ≠ q

def ClassDecl.Clashes (d d' : ClassDecl) : Prop :=
  d.path = d'.path ∧ ∃ v ∈ d.vars, ∃ w ∈ d'.overrides, v.name = w.name

lemma ProcDecl.problemsAlong_ne_nil_iff {l : List ProcDecl} :
    problemsAlong ProcDecl.problems [] l ≠ [] ↔ ¬ (l.map (·.name)).Nodup := by
  rw [ClassTree.problemsAlong_ne_nil_iff]
  constructor
  · rintro ⟨before, x, after, rfl, hx⟩ hn
    have hx : x.name ∈ before.map (·.name) := by
      by_contra hb
      exact hx (if_neg hb)
    rw [List.map_append, List.map_cons] at hn
    exact (List.nodup_append.mp hn).2.2 _ hx _ List.mem_cons_self rfl
  · intro hn
    induction l with
    | nil => exact absurd List.nodup_nil hn
    | cons b l ih =>
      by_cases hb : b.name ∈ l.map (·.name)
      · obtain ⟨x, hx, hxb⟩ := List.mem_map.mp hb
        obtain ⟨before, after, rfl⟩ := List.append_of_mem hx
        refine ⟨b :: before, x, after, rfl, ?_⟩
        simp [problems, hxb]
      · have hl : ¬ (l.map (·.name)).Nodup := fun hl => hn (List.nodup_cons.mpr ⟨hb, hl⟩)
        obtain ⟨before, x, after, rfl, hx⟩ := ih hl
        refine ⟨b :: before, x, after, rfl, ?_⟩
        have hx : x.name ∈ before.map (·.name) := by
          by_contra hb
          exact hx (if_neg hb)
        simp [problems, List.mem_cons_of_mem _ hx]

lemma Outline.problems_ne_nil_iff {ds : List ClassDecl} {d : ClassDecl} :
    (Outline.after ds).problems d.path d.parent ≠ [] ↔ d.IsCyclic ∨ d.Reparents ds := by
  rw [ClassDecl.IsCyclic, ClassDecl.Reparents]
  cases d.parent with
  | none => simp [Outline.problems]
  | some q =>
    simp only [Outline.problems, Option.some.injEq, exists_eq_left']
    by_cases hc : q = d.path ∨ q.isBelow d.path = true
    · simp [hc]
    · cases (Outline.after ds).parent? d.path <;> simp [hc]

lemma Outline.kind_of_mem_problems {o : Outline} {p : TypePath} {parent : Option TypePath}
    {x : HierarchyError} (h : x ∈ o.problems p parent) :
    (∃ p q, x = .inheritanceCycle p q) ∨ ∃ p q, x = .reparent p q := by
  cases parent with
  | none => cases h
  | some q =>
    rw [problems] at h
    split at h
    · exact .inl ⟨p, q, List.mem_singleton.mp h⟩
    · split at h
      · cases h
      · next r _ =>
        split at h
        · cases h
        · exact .inr ⟨p, r, List.mem_singleton.mp h⟩

lemma ClassDecl.mem_itemsAt {α : Type} {items : ClassDecl → List α} {p : TypePath}
    {ds : List ClassDecl} {a : α} :
    a ∈ itemsAt items p ds ↔ ∃ d ∈ ds, d.path = p ∧ a ∈ items d := by
  simp [itemsAt, and_assoc]

lemma VarDecl.flatMap_problems_ne_nil_iff {p : TypePath} {existing : Declared}
    {declared l : List VarDecl} :
    l.flatMap (VarDecl.problems p existing declared) ≠ [] ↔
      ∃ v ∈ l, ∃ w ∈ declared, w.name = v.name := by
  simp [VarDecl.problems]

lemma ClassDecl.problems_ne_nil_iff {ds : List ClassDecl} {d : ClassDecl} :
    d.problems ds ≠ [] ↔ (d.IsCyclic ∨ d.Reparents ds) ∨
      (∃ b ∈ ds, d.Clashes b) ∨ ∃ b ∈ ds ++ [d], b.Clashes d := by
  rw [problems, Ne, List.append_eq_nil_iff, List.append_eq_nil_iff, not_and_or, not_and_or,
    ← Ne, ← Ne, ← Ne, Outline.problems_ne_nil_iff, VarDecl.flatMap_problems_ne_nil_iff,
    VarDecl.flatMap_problems_ne_nil_iff]
  have hvars : (∃ v ∈ d.vars, ∃ w ∈ itemsAt overrides d.path ds, w.name = v.name) ↔
      ∃ b ∈ ds, d.Clashes b := by
    constructor
    · rintro ⟨v, hv, w, hw, hn⟩
      obtain ⟨b, hb, hp, hw⟩ := mem_itemsAt.mp hw
      exact ⟨b, hb, hp.symm, v, hv, w, hw, hn.symm⟩
    · rintro ⟨b, hb, hp, v, hv, w, hw, hn⟩
      exact ⟨v, hv, w, mem_itemsAt.mpr ⟨b, hb, hp.symm, hw⟩, hn.symm⟩
  have hoverrides : (∃ w ∈ d.overrides, ∃ v ∈ itemsAt vars d.path (ds ++ [d]), v.name = w.name) ↔
      ∃ b ∈ ds ++ [d], b.Clashes d := by
    constructor
    · rintro ⟨w, hw, v, hv, hn⟩
      obtain ⟨b, hb, hp, hv⟩ := mem_itemsAt.mp hv
      exact ⟨b, hb, hp, v, hv, w, hw, hn⟩
    · rintro ⟨b, hb, hp, v, hv, w, hw, hn⟩
      exact ⟨w, hw, v, mem_itemsAt.mpr ⟨b, hb, hp, hv⟩, hn⟩
  rw [hvars, hoverrides]

/-- Of two entries that clash, the later one is refused, whichever of them that is. -/
lemma ClassDecl.exists_clash_iff {ds : List ClassDecl} :
    (∃ d ∈ ds, ∃ b ∈ ds, d.Clashes b) ↔ ∃ before d after, ds = before ++ d :: after ∧
      ((∃ b ∈ before, d.Clashes b) ∨ ∃ b ∈ before ++ [d], b.Clashes d) := by
  constructor
  · rintro ⟨d, hd, b, hb, h⟩
    obtain ⟨before, after, rfl⟩ := List.append_of_mem hd
    rcases List.mem_append.mp hb with hb | hb
    · exact ⟨before, d, after, rfl, .inl ⟨b, hb, h⟩⟩
    rcases List.mem_cons.mp hb with rfl | hb
    · exact ⟨before, b, after, rfl, .inr ⟨b, by simp, h⟩⟩
    · obtain ⟨between, after, rfl⟩ := List.append_of_mem hb
      exact ⟨before ++ d :: between, b, after, by simp, .inr ⟨d, by simp, h⟩⟩
  · rintro ⟨before, d, after, rfl, ⟨b, hb, h⟩ | ⟨b, hb, h⟩⟩
    · exact ⟨d, by simp, b, by simp [hb], h⟩
    · refine ⟨b, ?_, d, by simp, h⟩
      rcases List.mem_append.mp hb with hb | hb
      · exact List.mem_append_left _ hb
      · obtain rfl := List.mem_singleton.mp hb
        simp

lemma ClassDecl.problemsAlong_ne_nil_iff {ds : List ClassDecl} :
    problemsAlong ClassDecl.problems [] ds ≠ [] ↔ (∃ d ∈ ds, d.IsCyclic) ∨
      (∃ before d after, ds = before ++ d :: after ∧ d.Reparents before) ∨
      ∃ d ∈ ds, ∃ b ∈ ds, d.Clashes b := by
  have hc : (∃ d ∈ ds, d.IsCyclic) ↔ ∃ before d after, ds = before ++ d :: after ∧ d.IsCyclic := by
    constructor
    · rintro ⟨d, hd, h⟩
      obtain ⟨before, after, rfl⟩ := List.append_of_mem hd
      exact ⟨before, d, after, rfl, h⟩
    · rintro ⟨before, d, after, rfl, h⟩
      exact ⟨d, by simp, h⟩
  rw [ClassTree.problemsAlong_ne_nil_iff, exists_clash_iff, hc]
  simp only [problems_ne_nil_iff, and_or_left, exists_or, or_assoc]

namespace Hierarchy

variable {t t' : Hierarchy} {c : ClassId} {e : ClassEntry}

/-- When and how loading a file fails, and what can no longer fail when it is loaded. -/
structure LoadOutcome (f : DeclarationFile) : Prop where
  first {x : HierarchyError} : ofDeclarations f = .error x ↔ f.problems.head? = some x
  refused : (∃ x, ofDeclarations f = .error x) ↔ ¬ (f.globalProcs.map (·.name)).Nodup ∨
    (∃ d ∈ f.classes, d.IsCyclic) ∨
    (∃ before d after, f.classes = before ++ d :: after ∧ d.Reparents before) ∨
    ∃ d ∈ f.classes, ∃ b ∈ f.classes, d.Clashes b
  kind {x : HierarchyError} : ofDeclarations f = .error x →
    (∃ n, x = .duplicateGlobalProc n) ∨ (∃ p q, x = .inheritanceCycle p q) ∨
      (∃ p q, x = .reparent p q) ∨ ∃ p n k, x = .variableConflict p n k
  outline {t : Hierarchy} : ofDeclarations f = .ok t → t.outline = .after f.classes
  finalize {t : Hierarchy} : ofDeclarations f = .ok t → ∃ t', t.finalize = .ok t'
  emitClass {t t' : Hierarchy} : ofDeclarations f = .ok t → t' = t ∨ t.finalize = .ok t' →
    ∀ c e x, t'.class? c = some e → t'.emitClass c ≠ .error (.hierarchy x)

lemma Arena.exists_finalize (h : Arena t) : ∃ t', t.finalize = .ok t' := by
  obtain ⟨t', ht', -⟩ := h.exists_initialized
  exact ⟨t', ht'⟩

lemma kind_of_mem_problems {f : DeclarationFile} {x : HierarchyError} (h : x ∈ f.problems) :
    (∃ n, x = .duplicateGlobalProc n) ∨ (∃ p q, x = .inheritanceCycle p q) ∨
      (∃ p q, x = .reparent p q) ∨ ∃ p n k, x = .variableConflict p n k := by
  have hvar {p : TypePath} {k : Declared} {l : List VarDecl} {v : VarDecl}
      (h : x ∈ v.problems p k l) : ∃ p n k, x = .variableConflict p n k := by
    rw [VarDecl.problems] at h
    split at h
    · exact ⟨p, v.name, k, List.mem_singleton.mp h⟩
    · cases h
  rcases List.mem_append.mp h with h | h
  · obtain ⟨before, a, -, -, h⟩ := mem_problemsAlong.mp h
    rw [ProcDecl.problems] at h
    split at h
    · exact .inl ⟨a.name, List.mem_singleton.mp h⟩
    · cases h
  · obtain ⟨before, d, -, -, h⟩ := mem_problemsAlong.mp h
    rw [ClassDecl.problems, List.mem_append, List.mem_append, List.mem_flatMap,
      List.mem_flatMap] at h
    rcases h with h | ⟨v, -, h⟩ | ⟨v, -, h⟩
    · exact .inr ((Outline.kind_of_mem_problems h).imp_right .inl)
    · exact .inr (.inr (.inr (hvar h)))
    · exact .inr (.inr (.inr (hvar h)))

theorem loadOutcome (f : DeclarationFile) : LoadOutcome f := by
  have h := reports_ofDeclarations f
  constructor
  case first => exact h.eq_error_iff
  case refused =>
    rw [h.exists_error_iff, DeclarationFile.problems, Ne, List.append_eq_nil_iff, not_and_or, ← Ne,
      ← Ne, ProcDecl.problemsAlong_ne_nil_iff, ClassDecl.problemsAlong_ne_nil_iff]
  case kind => exact fun hx => kind_of_mem_problems (List.mem_of_head? (h.eq_error_iff.mp hx))
  case outline => exact fun ht => (h.of_eq_ok ht).outline
  case finalize => exact fun ht => (h.of_eq_ok ht).arena.exists_finalize
  case emitClass =>
    intro t t' _ _ c e x hc hx
    rw [(emitClass_eq_hierarchy hx).1] at hc
    cases hc

def item : TypePath := .append .obj ⟨['i', 't', 'e', 'm'], by decide, by decide⟩

def sword : TypePath := item.append ⟨['s', 'w', 'o', 'r', 'd'], by decide, by decide⟩

/-- A class that an entry has created above its own cannot be moved by a later entry. -/
def movedAfterwards : DeclarationFile where
  classes := [⟨sword, none, [], [], [], [], []⟩, ⟨item, some .mob, [], [], [], [], []⟩]
  globalProcs := []

example : movedAfterwards.problems = [.reparent item .obj] := by decide +kernel

end Hierarchy

end ClassTree
