import Mathlib.Logic.Relation
import ClassTree.Hierarchy.Call
import ClassTree.Proofs.Outcome
/-!
Hierarchies grow by single changes, which all calls are made of. `Change` lists them, with what the
calls check before each, and `Edit` says what a change does to a class that is there already.
-/

namespace ClassTree.Hierarchy

variable {t t' : Hierarchy} {c i : ClassId} {e e' : ClassEntry}

inductive Change (t : Hierarchy) : Hierarchy → Prop
  | addClass {p : TypePath} {q : ClassId} (hp : t.lookupPath p = none) (hq : q < t.classes.size) :
      Change t (t.addClass p q)
  | addVar {c : ClassId} {e : ClassEntry} {v : Variable} (hc : t.class? c = some e)
      (hv : e.overrides.contains v.name = false) : Change t (t.modifyClass c (·.addVar v))
  | addOverride {c : ClassId} {e : ClassEntry} {v : Variable} (hc : t.class? c = some e)
      (hv : e.vars.contains v.name = false) : Change t (t.modifyClass c (·.addOverride v))
  | setTmp {c : ClassId} {e : ClassEntry} {name : String} {on : Bool} (hc : t.class? c = some e) :
      Change t (t.modifyClass c (·.setTmp name on))
  | createGlobal {c : ClassId} {e : ClassEntry} {name : String} {typePath : Option TypePath}
      {isConst : Bool} {constraint : ValueConstraint} (hc : t.class? c = some e) :
      Change t ((t.addSlot name typePath isConst constraint).modifyClass c
        (·.bindGlobal name t.slots.size))
  | setSlot {id : SlotId} {value : Expr} {location : Location} (hs : id < t.slots.size) :
      Change t (t.setSlot id value location)
  | addProc {c : ClassId} {e : ClassEntry} {name : String} {flags : ProcFlags}
      {returnType : Option ValueConstraint} (hc : t.class? c = some e) :
      Change t ((t.addProcEntry c (some name) flags returnType []).modifyClass c
        (·.addProc name t.registry.size flags.isVerb))
  | addGlobalProc {name : String} {returnType : Option ValueConstraint}
      (hn : t.registry.globals.contains name = false) : Change t (t.addGlobalEntry name returnType)
  | addPending {c : ClassId} {e : ClassEntry} {x : PendingExpr} (hc : t.class? c = some e) :
      Change t (t.modifyClass c (·.addPending x))
  | addInitializer {c : ClassId} {e : ClassEntry} (hc : t.class? c = some e)
      (hp : e.pending ≠ []) (hi : e.initializer = none) : Change t (t.addInitializer c e.pending)

abbrev Changes : Hierarchy → Hierarchy → Prop := Relation.ReflTransGen Change

def Built (t : Hierarchy) : Prop := Changes bare t

/-! ### The calls that can change no path -/

lemma bind_tryClass_eq_ok_iff {α : Type} {f : ClassEntry → Except HierarchyError α} {a : α} :
    (t.tryClass c >>= f) = .ok a ↔ ∃ e, t.class? c = some e ∧ f e = .ok a := by
  rw [tryClass]
  cases hc : t.class? c with
  | none => exact ⟨nofun, nofun⟩
  | some e => exact ⟨fun h => ⟨e, rfl, h⟩, fun ⟨_, he, h⟩ => Option.some.inj he ▸ h⟩

lemma declareVar_eq_ok_iff {v : Variable} : t.declareVar c v = .ok t' ↔
    ∃ e, t.class? c = some e ∧ e.overrides.contains v.name = false ∧
      t.modifyClass c (·.addVar v) = t' := by
  refine bind_tryClass_eq_ok_iff.trans (exists_congr fun e => and_congr_right fun _ => ?_)
  cases e.overrides.contains v.name <;> simp [pure, Except.pure]

lemma declareOverride_eq_ok_iff {v : Variable} : t.declareOverride c v = .ok t' ↔
    ∃ e, t.class? c = some e ∧ e.vars.contains v.name = false ∧
      t.modifyClass c (·.addOverride v) = t' := by
  refine bind_tryClass_eq_ok_iff.trans (exists_congr fun e => and_congr_right fun _ => ?_)
  cases e.vars.contains v.name <;> simp [pure, Except.pure]

lemma setTmp_eq_ok_iff {name : String} {on : Bool} : t.setTmp c name on = .ok t' ↔
    ∃ e, t.class? c = some e ∧ t.modifyClass c (·.setTmp name on) = t' := by
  refine bind_tryClass_eq_ok_iff.trans (exists_congr fun e => and_congr_right fun _ => ?_)
  simp [pure, Except.pure]

lemma createGlobal_eq_ok_iff {name : String} {typePath : Option TypePath} {isConst : Bool}
    {constraint : ValueConstraint} {r : Hierarchy × SlotId} :
    t.createGlobal c name typePath isConst constraint = .ok r ↔ ∃ e, t.class? c = some e ∧
      ((t.addSlot name typePath isConst constraint).modifyClass c
        (·.bindGlobal name t.slots.size), t.slots.size) = r := by
  refine bind_tryClass_eq_ok_iff.trans (exists_congr fun e => and_congr_right fun _ => ?_)
  simp [pure, Except.pure]

lemma setGlobalValue_eq_ok_iff {id : SlotId} {value : Expr} {location : Location} :
    t.setGlobalValue id value location = .ok t' ↔
      id < t.slots.size ∧ t.setSlot id value location = t' := by
  rw [setGlobalValue]
  split
  · next hs => simp [hs]
  · next hs => exact ⟨nofun, fun h => (hs h.1).elim⟩

lemma addProc_eq_ok_iff {name : String} {flags : ProcFlags} {returnType : Option ValueConstraint}
    {r : Hierarchy × ProcId} :
    t.addProc c name flags returnType = .ok r ↔ ∃ e, t.class? c = some e ∧
      ((t.addProcEntry c (some name) flags returnType []).modifyClass c
        (·.addProc name t.registry.size flags.isVerb), t.registry.size) = r := by
  refine bind_tryClass_eq_ok_iff.trans (exists_congr fun e => and_congr_right fun _ => ?_)
  simp [pure, Except.pure]

lemma addGlobalProc_eq_ok_iff {name : String} {returnType : Option ValueConstraint}
    {r : Hierarchy × ProcId} :
    t.addGlobalProc name returnType = .ok r ↔ t.registry.globals.contains name = false ∧
      (t.addGlobalEntry name returnType, t.registry.size) = r := by
  rw [addGlobalProc]
  cases t.registry.globals.contains name <;> simp

lemma pushPending_eq_ok_iff {x : PendingExpr} : t.pushPending c x = .ok t' ↔
    ∃ e, t.class? c = some e ∧ t.modifyClass c (·.addPending x) = t' := by
  refine bind_tryClass_eq_ok_iff.trans (exists_congr fun e => and_congr_right fun _ => ?_)
  simp [pure, Except.pure]

lemma createInitializer_eq_or {r : Hierarchy × Option ProcId}
    (h : t.createInitializer c = .ok r) : ∃ e, t.class? c = some e ∧
      (r.1 = t ∨ e.pending ≠ [] ∧ e.initializer = none ∧ r.1 = t.addInitializer c e.pending) := by
  obtain ⟨e, hc, he⟩ := bind_tryClass_eq_ok_iff.mp h
  refine ⟨e, hc, ?_⟩
  split at he
  · cases he
    exact .inl rfl
  · next hn =>
    cases he
    have hn : e.pending ≠ [] ∧ e.initializer = none := by simpa using hn
    exact .inr ⟨hn.1, hn.2, rfl⟩

lemma createInitializer_changes {r : Hierarchy × Option ProcId}
    (h : t.createInitializer c = .ok r) : Changes t r.1 := by
  obtain ⟨e, hc, he | ⟨hp, hi, he⟩⟩ := createInitializer_eq_or h
  · exact he ▸ .refl
  · exact he ▸ .single (.addInitializer hc hp hi)

/-- What one initializer keeps, all of them keep. -/
lemma finalize_keeps {P : Hierarchy → Prop} (h : P t)
    (hstep : ∀ c u r, u.createInitializer c = .ok r → P u → P r.1) (hf : t.finalize = .ok t') :
    P t' := by
  refine foldlM_induction (motive := fun _ u => P u) h ?_ hf
  intro _ c u u' hu hc
  obtain ⟨r, hr, rfl⟩ := exists_of_map_eq_ok hc
  exact hstep c u r hr hu

lemma finalize_changes (h : t.finalize = .ok t') : Changes t t' :=
  finalize_keeps .refl (fun _ _ _ hr hu => hu.trans (createInitializer_changes hr)) h

/-! ### What calls come to -/

/-- What becomes of a hierarchy by a call, and what the call answers. -/
inductive Performed (t : Hierarchy) : Call → Hierarchy × Answer → Prop
  | refused {call : Call} {x : HierarchyError} (h : t.perform call = (t, .error x)) :
      Performed t call (t, .error x)
  | getOrCreate (p : TypePath) :
      Performed t (.getOrCreate p) ((t.getOrCreate p).1, .ok (some (t.getOrCreate p).2))
  | createClass (p : TypePath) (parent : Option TypePath) : Performed t (.createClass p parent)
      ((t.createClass p parent).1, some <$> (t.createClass p parent).2)
  | declareVar {c : ClassId} {e : ClassEntry} {v : Variable} (hc : t.class? c = some e)
      (hv : e.overrides.contains v.name = false) :
      Performed t (.declareVar c v) (t.modifyClass c (·.addVar v), .ok none)
  | declareOverride {c : ClassId} {e : ClassEntry} {v : Variable} (hc : t.class? c = some e)
      (hv : e.vars.contains v.name = false) :
      Performed t (.declareOverride c v) (t.modifyClass c (·.addOverride v), .ok none)
  | setTmp {c : ClassId} {e : ClassEntry} {name : String} {on : Bool}
      (hc : t.class? c = some e) :
      Performed t (.setTmp c name on) (t.modifyClass c (·.setTmp name on), .ok none)
  | createGlobal {c : ClassId} {e : ClassEntry} {name : String} {typePath : Option TypePath}
      {isConst : Bool} {constraint : ValueConstraint} (hc : t.class? c = some e) :
      Performed t (.createGlobal c name typePath isConst constraint)
        ((t.addSlot name typePath isConst constraint).modifyClass c
          (·.bindGlobal name t.slots.size), .ok (some t.slots.size))
  | setGlobalValue {id : SlotId} {value : Expr} {location : Location}
      (hs : id < t.slots.size) :
      Performed t (.setGlobalValue id value location) (t.setSlot id value location, .ok none)
  | addProc {c : ClassId} {e : ClassEntry} {name : String} {flags : ProcFlags}
      {returnType : Option ValueConstraint} (hc : t.class? c = some e) :
      Performed t (.addProc c name flags returnType)
        ((t.addProcEntry c (some name) flags returnType []).modifyClass c
          (·.addProc name t.registry.size flags.isVerb), .ok (some t.registry.size))
  | addGlobalProc {name : String} {returnType : Option ValueConstraint}
      (hn : t.registry.globals.contains name = false) :
      Performed t (.addGlobalProc name returnType)
        (t.addGlobalEntry name returnType, .ok (some t.registry.size))
  | pushPending {c : ClassId} {e : ClassEntry} {x : PendingExpr} (hc : t.class? c = some e) :
      Performed t (.pushPending c x) (t.modifyClass c (·.addPending x), .ok none)
  | createInitializer {c : ClassId} {r : Hierarchy × Option ProcId}
      (hr : t.createInitializer c = .ok r) : Performed t (.createInitializer c) (r.1, .ok r.2)
  | finalize {u : Hierarchy} (hu : t.finalize = .ok u) : Performed t .finalize (u, .ok none)

lemma performed_commit {α : Type} {call : Call} {result : Except HierarchyError α}
    {next : α → Hierarchy} {id : α → Option Nat} (hp : t.perform call = t.commit result next id)
    (h : ∀ a, result = .ok a → Performed t call (next a, .ok (id a))) :
    Performed t call (t.perform call) := by
  rw [hp]
  cases result with
  | error x => exact .refused hp
  | ok a => exact h a rfl

lemma performed (t : Hierarchy) (call : Call) : Performed t call (t.perform call) := by
  cases call with
  | getOrCreate p => exact .getOrCreate p
  | createClass p parent => exact .createClass p parent
  | declareVar c v =>
    refine performed_commit rfl fun u hu => ?_
    obtain ⟨e, hc, hv, rfl⟩ := declareVar_eq_ok_iff.mp hu
    exact .declareVar hc hv
  | declareOverride c v =>
    refine performed_commit rfl fun u hu => ?_
    obtain ⟨e, hc, hv, rfl⟩ := declareOverride_eq_ok_iff.mp hu
    exact .declareOverride hc hv
  | setTmp c name on =>
    refine performed_commit rfl fun u hu => ?_
    obtain ⟨e, hc, rfl⟩ := setTmp_eq_ok_iff.mp hu
    exact .setTmp hc
  | createGlobal c name typePath isConst constraint =>
    refine performed_commit rfl fun r hr => ?_
    obtain ⟨e, hc, rfl⟩ := createGlobal_eq_ok_iff.mp hr
    exact .createGlobal hc
  | setGlobalValue id value location =>
    refine performed_commit rfl fun u hu => ?_
    obtain ⟨hs, rfl⟩ := setGlobalValue_eq_ok_iff.mp hu
    exact .setGlobalValue hs
  | addProc c name flags returnType =>
    refine performed_commit rfl fun r hr => ?_
    obtain ⟨e, hc, rfl⟩ := addProc_eq_ok_iff.mp hr
    exact .addProc hc
  | addGlobalProc name returnType =>
    refine performed_commit rfl fun r hr => ?_
    obtain ⟨hn, rfl⟩ := addGlobalProc_eq_ok_iff.mp hr
    exact .addGlobalProc hn
  | pushPending c x =>
    refine performed_commit rfl fun u hu => ?_
    obtain ⟨e, hc, rfl⟩ := pushPending_eq_ok_iff.mp hu
    exact .pushPending hc
  | createInitializer c => exact performed_commit rfl fun r hr => .createInitializer hr
  | finalize => exact performed_commit rfl fun u hu => .finalize hu

/-! ### What a change does to a class -/

/-- The change from `t` to `t'` turns the entry of a class into another one. -/
inductive Edit (t t' : Hierarchy) (c : ClassId) (e : ClassEntry) : ClassEntry → Prop
  | same : Edit t t' c e e
  | addVar (v : Variable) (hv : e.overrides.contains v.name = false) : Edit t t' c e (e.addVar v)
  | addOverride (v : Variable) (hv : e.vars.contains v.name = false) :
      Edit t t' c e (e.addOverride v)
  | setTmp (name : String) (on : Bool) : Edit t t' c e (e.setTmp name on)
  | bindGlobal (name : String) (typePath : Option TypePath) (isConst : Bool)
      (constraint : ValueConstraint)
      (hs : t'.slots = (t.addSlot name typePath isConst constraint).slots) :
      Edit t t' c e (e.bindGlobal name t.slots.size)
  | addProc (name : String) (flags : ProcFlags) (returnType : Option ValueConstraint)
      (hr : t'.registry = t.registry.register c (some name) flags returnType []) :
      Edit t t' c e (e.addProc name t.registry.size flags.isVerb)
  | addPending (x : PendingExpr) : Edit t t' c e (e.addPending x)
  | setInitializer (hp : e.pending ≠ []) (hi : e.initializer = none)
      (hr : t'.registry = t.registry.register c none .none none (initializerBody e.pending)) :
      Edit t t' c e (e.setInitializer t.registry.size)

lemma class?_modifyClass (t : Hierarchy) (c i : ClassId) (f : ClassEntry → ClassEntry) :
    (t.modifyClass c f).class? i = if c = i then (t.class? i).map f else t.class? i :=
  Array.getElem?_modify

lemma class?_modifyClass_self (hc : t.class? c = some e) (f : ClassEntry → ClassEntry) :
    (t.modifyClass c f).class? c = some (f e) := by
  rw [class?_modifyClass, if_pos rfl, hc, Option.map_some]

lemma class?_addClass (t : Hierarchy) (p : TypePath) (q i : ClassId) :
    (t.addClass p q).class? i =
      if i = t.classes.size then some (.new t.classes.size p (some q)) else t.class? i :=
  Array.getElem?_push

lemma lt_size_of_class? (h : t.class? i = some e) : i < t.classes.size := by
  obtain ⟨hi, -⟩ := Array.getElem?_eq_some_iff.mp h
  exact hi

lemma Change.new_or_old (h : Change t t') (hi : t'.class? i = some e') :
    (∃ p q, t' = t.addClass p q ∧ i = t.classes.size ∧ e' = .new i p (some q)) ∨
      ∃ e, t.class? i = some e := by
  have old (f : ClassEntry → ClassEntry) (c : ClassId) (u : Hierarchy)
      (h : (u.modifyClass c f).class? i = some e') : ∃ e, u.class? i = some e := by
    rw [class?_modifyClass] at h
    split at h
    · obtain ⟨e, he, -⟩ := Option.map_eq_some_iff.mp h
      exact ⟨e, he⟩
    · exact ⟨e', h⟩
  cases h with
  | @addClass p q hp hq =>
    rw [class?_addClass] at hi
    split at hi
    · next hs =>
      subst hs
      exact .inl ⟨p, q, rfl, rfl, (Option.some.inj hi).symm⟩
    · exact .inr ⟨e', hi⟩
  | setSlot _ => exact .inr ⟨e', hi⟩
  | addGlobalProc _ => exact .inr ⟨e', hi⟩
  | _ => exact .inr (old _ _ _ hi)

lemma Change.edit (h : Change t t') (hi : t.class? i = some e) :
    ∃ e', t'.class? i = some e' ∧ Edit t t' i e e' := by
  -- An edit of one class is the identity on all others.
  have at_class (f : ClassEntry → ClassEntry) (c : ClassId) (u : Hierarchy)
      (hu : u.class? i = some e) (hf : c = i → Edit t (u.modifyClass c f) i e (f e)) :
      ∃ e', (u.modifyClass c f).class? i = some e' ∧ Edit t (u.modifyClass c f) i e e' := by
    rw [class?_modifyClass]
    split
    · next hc => exact ⟨f e, by rw [hu, Option.map_some], hf hc⟩
    · exact ⟨e, hu, .same⟩
  cases h with
  | addClass _ _ =>
    have hs := lt_size_of_class? hi
    exact ⟨e, by rw [class?_addClass, if_neg (Nat.ne_of_lt hs), hi], .same⟩
  | addVar hc hv =>
    refine at_class _ _ _ hi fun hci => ?_
    subst hci
    obtain rfl := Option.some.inj (hi.symm.trans hc)
    exact .addVar _ hv
  | addOverride hc hv =>
    refine at_class _ _ _ hi fun hci => ?_
    subst hci
    obtain rfl := Option.some.inj (hi.symm.trans hc)
    exact .addOverride _ hv
  | setTmp _ => exact at_class _ _ _ hi fun _ => .setTmp _ _
  | createGlobal _ => exact at_class _ _ _ hi fun _ => .bindGlobal _ _ _ _ rfl
  | setSlot _ => exact ⟨e, hi, .same⟩
  | addProc _ =>
    refine at_class _ _ _ hi fun hci => ?_
    subst hci
    exact .addProc _ _ _ rfl
  | addGlobalProc _ => exact ⟨e, hi, .same⟩
  | addPending _ => exact at_class _ _ _ hi fun _ => .addPending _
  | addInitializer hc hp hn =>
    refine at_class _ _ _ hi fun hci => ?_
    subst hci
    obtain rfl := Option.some.inj (hi.symm.trans hc)
    exact .setInitializer hp hn rfl

/-- What holds of new classes, and goes on holding through edits and the changes around them, holds
of all classes. -/
lemma Built.forall_class {P : Hierarchy → ClassId → ClassEntry → Prop}
    (new : ∀ t i p q, P t i (.new i p q))
    (edit : ∀ t t' i e e', Built t → Change t t' → t.class? i = some e → Edit t t' i e e' →
      P t i e → P t' i e') (h : Built t) (hi : t.class? i = some e) : P t i e := by
  induction h generalizing i e with
  | refl =>
    have h0 : i = 0 := by simpa [bare] using lt_size_of_class? hi
    subst h0
    obtain rfl := Option.some.inj hi
    exact new _ _ _ _
  | @tail u t' hu hc ih =>
    rcases hc.new_or_old hi with ⟨p, q, -, -, rfl⟩ | ⟨e, he⟩
    · exact new _ _ _ _
    · obtain ⟨e', he', hed⟩ := hc.edit he
      obtain rfl := Option.some.inj (hi.symm.trans he')
      exact edit _ _ _ _ _ hu hc he hed (ih he)

end ClassTree.Hierarchy
