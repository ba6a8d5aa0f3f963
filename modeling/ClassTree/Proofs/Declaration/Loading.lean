import ClassTree.Hierarchy.Resolve
import ClassTree.Proofs.Declaration.Calls
import ClassTree.Proofs.Declaration.Merge
import ClassTree.Proofs.Hierarchy.Growth
/-!
Loading a declaration file gives every class what its entries come to together, and makes the slots
and procs that they declare, in the order of the file.
-/

namespace ClassTree.Hierarchy

variable {t t' : Hierarchy} {c : ClassId} {e e' : ClassEntry} {f : ClassEntry → ClassEntry}
  {n : Nat} {ds : List ClassDecl} {d d' : ClassDecl} {s s' : Share}

structure Contents (t : Hierarchy) (s : Share) (e : ClassEntry) : Prop extends Merged s e where
  slot {x : VarDecl × SlotId} : x ∈ s.globals → t.slots[x.2]? = some (x.1.toSlot x.2)
  proc {x : ProcDecl × ProcId} : x ∈ s.procs → t.registry.get? x.2 = some (x.1.toProc e.id x.2)

/-- What some entries declare has been loaded after `firstProc` procs of no class. -/
structure Loaded (firstProc : Nat) (ds : List ClassDecl) (t : Hierarchy) : Prop where
  arena : Arena t
  slots : t.slots.size = (ds.flatMap (·.globals)).length
  procs : t.registry.size = firstProc + (ds.flatMap (·.procs)).length
  created : ∀ d ∈ ds, ∃ c, t.lookupPath d.path = some c
  contents {c : ClassId} {e : ClassEntry} :
    t.class? c = some e → Contents t (Share.of firstProc ds e.path) e

structure Loading (firstProc : Nat) (ds : List ClassDecl) (d : ClassDecl) (c : ClassId)
    (t : Hierarchy) : Prop extends Loaded firstProc (ds ++ [d]) t where
  current : t.lookupPath d.path = some c

lemma Contents.add (h : Contents t s e) (ha : Addition t t' c f) (hm : Merged s' e')
    (hid : e'.id = e.id)
    (hg : ∀ x ∈ s'.globals, x ∈ s.globals ∨ t'.slots[x.2]? = some (x.1.toSlot x.2))
    (hp : ∀ x ∈ s'.procs, x ∈ s.procs ∨ t'.registry.get? x.2 = some (x.1.toProc e.id x.2)) :
    Contents t' s' e' where
  toMerged := hm
  slot {x} hx := (hg x hx).elim (fun hs => ha.slot (h.slot hs)) id
  proc {x} hx := hid ▸ (hp x hx).elim (fun hs => ha.proc (h.proc hs)) id

namespace Loading

variable (h : Loading n ds d c t)

include h

/-- Only the class of the last entry changes when something is added to that entry. -/
lemma add (ha : Addition t t' c f) (hp : d'.path = d.path)
    (hslots : t'.slots.size = ((ds ++ [d']).flatMap (·.globals)).length)
    (hprocs : t'.registry.size = n + ((ds ++ [d']).flatMap (·.procs)).length)
    (hm : ∀ e, t.class? c = some e → Contents t (Share.of n (ds ++ [d]) d.path) e →
      Contents t' (Share.of n (ds ++ [d']) d.path) (f e)) : Loading n ds d' c t' where
  arena := h.arena.of_sameShape (ha.sameShape h.arena)
  slots := hslots
  procs := hprocs
  created := by
    intro b hb
    rw [lookupPath, ha.paths]
    rcases List.mem_append.mp hb with hb | hb
    · exact h.created b (List.mem_append_left _ hb)
    · rw [List.mem_singleton.mp hb, hp]
      exact ⟨c, h.current⟩
  current := by rw [lookupPath, ha.paths, hp]; exact h.current
  contents {i e'} hi := by
    rw [ha.class? h.arena] at hi
    obtain ⟨e, he, rfl⟩ := Option.map_eq_some_iff.mp hi
    have hid := h.arena.id he
    have hpath : (editAt c f e).path = e.path := congrArg (·.2.1) (ha.stem_editAt e)
    rw [hpath]
    by_cases hic : i = c
    · subst hic
      obtain ⟨a, hac, hap⟩ := h.arena.path.mp h.current
      obtain rfl := Option.some.inj (he.symm.trans hac)
      rw [hap, editAt, if_pos hid]
      exact hm e he (hap ▸ h.contents he)
    · have hne : d.path ≠ e.path := by
        intro hde
        have hl := h.arena.path.mpr ⟨e, he, hde.symm⟩
        exact hic (Option.some.inj (hl.symm.trans h.current))
      have hk := h.contents he
      rw [Share.of_snoc_other hne] at hk
      rw [Share.of_snoc_other (hp ▸ hne), editAt, if_neg (hid ▸ hic)]
      exact hk.add ha hk.toMerged rfl (fun x hx => .inl hx) fun x hx => .inl hx

lemma addToClass (hf : ∀ e, (f e).stem = e.stem) (hp : d'.path = d.path)
    (hg : d'.globals = d.globals) (hq : d'.procs = d.procs)
    (hm : ∀ e, t.class? c = some e → Merged (Share.of n (ds ++ [d]) d.path) e →
      Merged (Share.of n (ds ++ [d']) d.path) (f e)) :
    Loading n ds d' c (t.modifyClass c f) := by
  have hglobals : (Share.of n (ds ++ [d']) d.path).globals =
      (Share.of n (ds ++ [d]) d.path).globals := by
    simp only [Share.of, ClassDecl.numberedAt_snoc, hp, hg]
  have hprocs : (Share.of n (ds ++ [d']) d.path).procs =
      (Share.of n (ds ++ [d]) d.path).procs := by
    simp only [Share.of, ClassDecl.numberedAt_snoc, hp, hq]
  refine h.add (.modifyClass hf) hp (h.slots.trans ?_) (h.procs.trans ?_) fun e hc hk => ?_
  · simp only [List.flatMap_append, List.flatMap_singleton, hg]
  · simp only [List.flatMap_append, List.flatMap_singleton, hq]
  · exact hk.add (.modifyClass hf) (hm e hc hk.toMerged) (congrArg (·.1) (hf e))
      (fun x hx => .inl (hglobals ▸ hx)) fun x hx => .inl (hprocs ▸ hx)

lemma loadVar {v : VarDecl} (hv : loadVar c t v = .ok t') :
    Loading n ds { d with vars := d.vars ++ [v] } c t' := by
  obtain ⟨e, hc, ho, rfl⟩ := exists_of_loadVar hv
  refine h.addToClass (fun _ => rfl) rfl rfl rfl fun a hac hk => ?_
  obtain rfl := Option.some.inj (hc.symm.trans hac)
  rw [Share.of_addVar]
  exact hk.addVar ho

lemma loadOverride {v : VarDecl} (hv : loadOverride c t v = .ok t') :
    Loading n ds { d with overrides := d.overrides ++ [v] } c t' := by
  obtain ⟨e, hc, ho, rfl⟩ := exists_of_loadOverride hv
  refine h.addToClass (fun _ => rfl) rfl rfl rfl fun a hac hk => ?_
  obtain rfl := Option.some.inj (hc.symm.trans hac)
  rw [Share.of_addOverride]
  exact hk.addOverride ho

lemma pushPending {x : PendingExpr} (hx : t.pushPending c x = .ok t') :
    Loading n ds { d with init := d.init ++ [x] } c t' := by
  obtain ⟨e, hc, rfl⟩ := pushPending_eq_ok_iff.mp hx
  refine h.addToClass (fun _ => rfl) rfl rfl rfl fun a _ hk => ?_
  rw [Share.of_addInit]
  exact hk.addPending x

lemma loadGlobal {v : VarDecl} (hv : loadGlobal c t v = .ok t') :
    Loading n ds { d with globals := d.globals ++ [v] } c t' := by
  obtain ⟨e, hc, rfl⟩ := exists_of_loadGlobal hv
  refine h.add (.bindGlobal v.name _) rfl ?_ (h.procs.trans ?_) fun a _ hk => ?_
  · simp [h.slots, Nat.add_assoc]
  · simp
  · rw [Share.of_addGlobal, ← h.slots]
    refine hk.add (.bindGlobal v.name _) (hk.bindGlobal v _) rfl (fun x hx => ?_) fun x hx => .inl hx
    refine (List.mem_append.mp hx).imp id fun hx => ?_
    rw [List.mem_singleton.mp hx]
    exact Array.getElem?_push_size

lemma loadProc {x : ProcDecl} (hx : loadProc c t x = .ok t') :
    Loading n ds { d with procs := d.procs ++ [x] } c t' := by
  obtain ⟨e, hc, rfl⟩ := exists_of_loadProc hx
  have hr (i : ProcId) : (t.registry.register c (some x.name) x.flags x.returnType []).get? i =
      if i = t.registry.size then some (x.toProc c i) else t.registry.get? i := by
    rw [ProcRegistry.get?_register]
    split
    · next hi => rw [hi, ProcDecl.toProc]
    · rfl
  have hsize : (t.registry.register c (some x.name) x.flags x.returnType []).size =
      t.registry.size + 1 := Array.size_push _
  refine h.add (.addProc hc) rfl (h.slots.trans ?_) (hsize.trans ?_) fun a hac hk => ?_
  · simp
  · simp [h.procs, Nat.add_assoc]
  · rw [Share.of_addProc, ← h.procs]
    refine hk.add (.addProc hc) (hk.addProc x _) rfl (fun x hx => .inl hx) fun y hy => ?_
    refine (List.mem_append.mp hy).imp id fun hy => ?_
    rw [List.mem_singleton.mp hy, h.arena.id hac]
    exact (hr _).trans (if_pos rfl)

end Loading

/-! ### Single procs and slots -/

section

variable (h : Loaded n ds t) {p : TypePath} {i : Nat}

include h

lemma Loaded.exists_class {α : Type} {items : ClassDecl → List α} {a : α}
    (hi : (ClassDecl.placed items ds)[i]? = some (p, a)) :
    ∃ c e, t.lookupPath p = some c ∧ t.class? c = some e ∧ e.path = p := by
  obtain ⟨d, hd, rfl, -⟩ := ClassDecl.mem_placed.mp (List.mem_of_getElem? hi)
  obtain ⟨c, hc⟩ := h.created d hd
  obtain ⟨e, he, hp⟩ := h.arena.path.mp hc
  exact ⟨c, e, hc, he, hp⟩

lemma Loaded.proc {x : ProcDecl}
    (hi : (ClassDecl.placed ClassDecl.procs ds)[i]? = some (p, x)) :
    ∃ c, t.lookupPath p = some c ∧ t.registry.get? (n + i) = some (x.toProc c (n + i)) := by
  obtain ⟨c, e, hc, he, hp⟩ := h.exists_class hi
  have hx := (h.contents he).proc (hp ▸ ClassDecl.mem_numberedAt (k := n) hi)
  exact ⟨c, hc, h.arena.id he ▸ hx⟩

lemma Loaded.slot {x : VarDecl} (hi : (ds.flatMap ClassDecl.globals)[i]? = some x) :
    t.slots[i]? = some (x.toSlot i) := by
  rw [← ClassDecl.map_snd_placed, List.getElem?_map] at hi
  obtain ⟨⟨p, y⟩, hy, rfl⟩ := Option.map_eq_some_iff.mp hi
  obtain ⟨c, e, -, he, hp⟩ := h.exists_class hy
  have hx := (h.contents he).slot (hp ▸ ClassDecl.mem_numberedAt (k := 0) hy)
  rwa [Nat.zero_add] at hx

end

/-! ### Whole files -/

lemma Contents.new (t : Hierarchy) (i : ClassId) (p : TypePath) (q : Option ClassId) :
    Contents t .empty (.new i p q) where
  toMerged := .new i p q
  slot := nofun
  proc := nofun

lemma Loaded.createClass (h : Loaded n ds t) {p : TypePath} {parent : Option TypePath}
    (hok : (t.createClass p parent).2 = .ok c) :
    Loading n ds ⟨p, parent, [], [], [], [], []⟩ c (t.createClass p parent).1 := by
  have hg := createClass_grown t p parent
  have ha := h.arena.changes (createClass_changes h.arena p parent)
  have hc := lookupPath_createClass h.arena hok
  refine ⟨⟨ha, ?slots, ?procs, ?created, ?contents⟩, hc⟩
  case slots => simpa [hg.slots] using h.slots
  case procs => simpa [hg.registry] using h.procs
  case created =>
    intro d hd
    rcases List.mem_append.mp hd with hd | hd
    · obtain ⟨i, hi⟩ := h.created d hd
      exact ⟨i, hg.lookupPath h.arena ha hi⟩
    · rw [List.mem_singleton.mp hd]
      exact ⟨c, hc⟩
  case contents =>
    intro i e hi
    rw [Share.of_snoc_bare]
    cases hold : t.class? i with
    | some e' =>
      obtain rfl := Option.some.inj ((hg.old hold).symm.trans hi)
      have hk := h.contents hold
      exact ⟨hk.toMerged, fun hx => hg.slots ▸ hk.slot hx, fun hx => hg.registry ▸ hk.proc hx⟩
    -- A class that is new has no entry yet, since each entry has created its class.
    | none =>
      have hp := hg.lookupPath_eq_none h.arena ha hold hi
      have hne : ∀ d ∈ ds, d.path ≠ e.path := by
        intro d hd hde
        obtain ⟨j, hj⟩ := h.created d hd
        rw [hde, hp] at hj
        cases hj
      rw [Share.of_eq_empty hne]
      obtain ⟨q, r, rfl⟩ := hg.new hold hi
      exact .new _ i q r

lemma Loaded.loadClass (h : Loaded n ds t) (hd : loadClass t d = .ok t') :
    Loaded n (ds ++ [d]) t' := by
  obtain ⟨c, t₁, t₂, t₃, t₄, hc, h₁, h₂, h₃, h₄, h₅⟩ := exists_of_loadClass hd
  -- After each loop the entry counts as read up to and with the declarations of that loop.
  have hl : Loading n ds ⟨d.path, d.parent, d.vars, [], [], [], []⟩ c t₁ :=
    foldlM_induction (motive := fun l => Loading n ds ⟨d.path, d.parent, l, [], [], [], []⟩ c)
      (h.createClass hc) (fun _ _ _ _ hl => hl.loadVar) h₁
  have hl : Loading n ds ⟨d.path, d.parent, d.vars, d.overrides, [], [], []⟩ c t₂ :=
    foldlM_induction (motive := fun l => Loading n ds ⟨d.path, d.parent, d.vars, l, [], [], []⟩ c)
      hl (fun _ _ _ _ hl => hl.loadOverride) h₂
  have hl : Loading n ds ⟨d.path, d.parent, d.vars, d.overrides, d.globals, [], []⟩ c t₃ :=
    foldlM_induction
      (motive := fun l => Loading n ds ⟨d.path, d.parent, d.vars, d.overrides, l, [], []⟩ c)
      hl (fun _ _ _ _ hl => hl.loadGlobal) h₃
  have hl : Loading n ds ⟨d.path, d.parent, d.vars, d.overrides, d.globals, d.procs, []⟩ c t₄ :=
    foldlM_induction
      (motive := fun l => Loading n ds ⟨d.path, d.parent, d.vars, d.overrides, d.globals, l, []⟩ c)
      hl (fun _ _ _ _ hl => hl.loadProc) h₄
  have hl : Loading n ds d c t' :=
    foldlM_induction
      (motive := fun l =>
        Loading n ds ⟨d.path, d.parent, d.vars, d.overrides, d.globals, d.procs, l⟩ c)
      hl (fun _ _ _ _ hl => hl.pushPending) h₅
  exact hl.toLoaded

lemma loaded_builtin : Loaded 0 [] builtin where
  arena := built_builtin.arena
  slots := congrArg Array.size grown_builtin.slots
  procs := congrArg ProcRegistry.size grown_builtin.registry
  created := nofun
  contents {i e} hi := by
    cases hold : bare.class? i with
    | none =>
      obtain ⟨p, q, rfl⟩ := grown_builtin.new hold hi
      exact .new _ i p q
    | some e' =>
      obtain rfl := Option.some.inj ((grown_builtin.old hold).symm.trans hi)
      have h0 : i = 0 := by simpa [bare] using lt_size_of_class? hold
      subst h0
      obtain rfl := Option.some.inj hold
      exact .new _ rootId .root none

lemma Loaded.loadGlobalProc (h : Loaded n [] t) {x : ProcDecl}
    (hx : loadGlobalProc t x = .ok t') : Loaded (n + 1) [] t' := by
  obtain ⟨r, hr, rfl⟩ := exists_of_map_eq_ok hx
  obtain ⟨-, rfl⟩ := addGlobalProc_eq_ok_iff.mp hr
  exact
    { arena := h.arena.of_sameShape ⟨rfl, rfl, fun _ => rfl⟩
      slots := h.slots
      procs := (Array.size_push _).trans (congrArg (· + 1) h.procs)
      created := nofun
      contents := fun hi => ⟨(h.contents hi).toMerged, nofun, nofun⟩ }

lemma Loaded.file {file : DeclarationFile} (h : ofDeclarations file = .ok t) :
    Loaded file.globalProcs.length file.classes t := by
  obtain ⟨u, hu, h⟩ := exists_of_bind_eq_ok h
  have hu : Loaded file.globalProcs.length [] u :=
    foldlM_induction (motive := fun l => Loaded l.length []) loaded_builtin
      (fun l a _ _ hl ha => by simpa using hl.loadGlobalProc ha) hu
  exact foldlM_induction (motive := fun l => Loaded file.globalProcs.length l) hu
    (fun _ _ _ _ hl => hl.loadClass) h

end ClassTree.Hierarchy
