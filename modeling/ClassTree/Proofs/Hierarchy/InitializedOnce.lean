import ClassTree.Proofs.Hierarchy.Finalize
import ClassTree.Proofs.Hierarchy.Growth
import ClassTree.Proofs.Hierarchy.Persistence
import ClassTree.Proofs.Hierarchy.ProcUse
/-!
An initializer is made once. It evaluates what was pending on its class when it was made, and what
becomes pending later no longer reaches it.
-/

namespace ClassTree.Hierarchy

variable {t t' : Hierarchy} {c : ClassId} {e e' : ClassEntry} {id : ProcId}
  {pending : List PendingExpr}

structure Initializes (t : Hierarchy) (c : ClassId) (pending : List PendingExpr) (id : ProcId) :
    Prop where
  nonempty : pending ≠ []
  proc : ∃ p, t.registry.get? id = some p ∧ p.owner = c ∧ p.name = none ∧
    p.body = .callSuper 0 :: pending.flatMap fun x => [.debugSource x.location, .eval x.expr]

/-! ### One change -/

lemma Initializes.change (h : Initializes t c pending id) (hc : Change t t') :
    Initializes t' c pending id := by
  obtain ⟨p, hp, hrest⟩ := h.proc
  exact ⟨h.nonempty, p, hc.get?_registry hp, hrest⟩

lemma Edit.initializes (h : Edit t t' c e e') (hn : e.initializer = none)
    (hi : e'.initializer = some id) :
    id = t.registry.size ∧ e'.pending = e.pending ∧ Initializes t' c e.pending id := by
  cases h with
  | setInitializer hp _ hr =>
    obtain rfl := Option.some.inj hi
    refine ⟨rfl, rfl, hp, ⟨t.registry.size, c, none, .none, none, initializerBody e.pending⟩,
      ?_, rfl, rfl, rfl⟩
    rw [hr, ProcRegistry.get?_register, if_pos rfl]
  | _ =>
    have hi : e.initializer = some id := hi
    rw [hn] at hi
    cases hi

lemma Edit.keeps (h : Edit t t' c e e') (hi : e.initializer = some id) :
    e'.initializer = some id := by
  cases h with
  | setInitializer _ hn _ =>
    rw [hn] at hi
    cases hi
  | _ => exact hi

lemma Edit.pending_prefix (h : Edit t t' c e e') : e.pending <+: e'.pending := by
  cases h with
  | addPending x => exact List.prefix_append e.pending [x]
  | _ => exact List.prefix_rfl

/-! ### All changes -/

lemma Built.initializes (h : Built t) (hc : t.class? c = some e) (hi : e.initializer = some id) :
    ∃ pending, pending <+: e.pending ∧ Initializes t c pending id := by
  revert id
  refine h.forall_class (P := fun t c e => ∀ {id}, e.initializer = some id →
    ∃ pending, pending <+: e.pending ∧ Initializes t c pending id) ?_ ?_ hc
  · intro t c p q id hi
    cases hi
  · intro t t' c e e' _ hch _ hed ih id hi
    cases hn : e.initializer with
    | none =>
      obtain ⟨-, hp, hinit⟩ := hed.initializes hn hi
      exact ⟨e.pending, hed.pending_prefix, hinit⟩
    | some i =>
      obtain rfl := Option.some.inj ((hed.keeps hn).symm.trans hi)
      obtain ⟨pending, hp, hinit⟩ := ih hn
      exact ⟨pending, hp.trans hed.pending_prefix, hinit.change hch⟩

lemma Changes.keeps_initializer (h : Changes t t') (hc : t.class? c = some e)
    (hi : e.initializer = some id) :
    ∃ e', t'.class? c = some e' ∧ e'.initializer = some id := by
  induction h with
  | refl => exact ⟨e, hc, hi⟩
  | tail _ hch ih =>
    obtain ⟨f, hf, hfi⟩ := ih
    obtain ⟨f', hf', hed⟩ := hch.edit hf
    exact ⟨f', hf', hed.keeps hfi⟩

/-- Each proc is used once, and a proc without a name for nothing but an initializer. -/
lemma Built.name_ne_none (h : Built t) (hc : t.class? c = some e) (hn : e.initializer = none)
    {p : Proc} (hp : t.registry.get? id = some p) (ho : p.owner = c) : p.name ≠ none := by
  obtain ⟨u, hu, rfl⟩ := h.usedOnce.exists_use (ProcRegistry.lt_size hp)
  obtain ⟨q, hq, hqo, hqn⟩ := h.usedOnce.fits hu
  obtain rfl := Option.some.inj (hp.symm.trans hq)
  rw [hqn]
  cases u with
  | listed d n i => simp [ProcUse.name]
  | global n i => simp [ProcUse.name]
  | initializer d i =>
    obtain ⟨f, hf, hfi⟩ := h.arena.initializer_mem_procUses.mp hu
    have hd : d = c := hqo.symm.trans ho
    rw [hd, hc] at hf
    rw [← Option.some.inj hf, hn] at hfi
    cases hfi

/-! ### Calls -/

lemma createInitializer_idle (hc : t.class? c = some e)
    (h : e.initializer.isSome ∨ e.pending = []) :
    t.createInitializer c = .ok (t, e.initializer) := by
  apply createInitializer_of_not_isDue hc
  rw [Bool.eq_false_iff, Ne, ClassEntry.isDue_iff]
  rintro ⟨hp, hi⟩
  rcases h with hs | hn
  · simp [hi] at hs
  · exact hp hn

lemma Initialized.initializes {order : List ClassId} (h : Initialized t order t')
    (hdue : ∀ c ∈ order, t.isDue c = true) (hc : t.class? c = some e) (hn : e.initializer = none)
    (hc' : t'.class? c = some e') (hi : e'.initializer = some id) :
    t.registry.size ≤ id ∧ e'.pending = e.pending ∧ Initializes t' c e.pending id := by
  rcases h.kept_or_made hc with ⟨-, hk⟩ | ⟨k, hk, hk'⟩
  · obtain rfl := Option.some.inj (hc'.symm.trans hk)
    rw [hn] at hi
    cases hi
  · obtain rfl := Option.some.inj (hc'.symm.trans hk')
    obtain rfl := Option.some.inj hi
    obtain ⟨f, hf, -, hp⟩ := h.made hk
    obtain rfl := Option.some.inj (hc.symm.trans hf)
    have hd := hdue c (List.mem_of_getElem? hk)
    rw [isDue, hc, Option.any_some, ClassEntry.isDue_iff] at hd
    exact ⟨Nat.le_add_right _ _, rfl, hd.1, _, hp, rfl, rfl, rfl⟩

lemma Effect.initializes (h : Effect t t') (ha : Arena t) (hc : t.class? c = some e)
    (hn : e.initializer = none) (hc' : t'.class? c = some e') (hi : e'.initializer = some id) :
    t.registry.size ≤ id ∧ e'.pending = e.pending ∧ Initializes t' c e.pending id := by
  have same (hk : t'.class? c = some e) : False := by
    obtain rfl := Option.some.inj (hc'.symm.trans hk)
    rw [hn] at hi
    cases hi
  cases h with
  | unchanged => exact (same hc).elim
  | created p parent => exact (same ((createClass_grown t p parent).old hc)).elim
  | change hch =>
    obtain ⟨f, hf, hed⟩ := hch.edit hc
    obtain rfl := Option.some.inj (hc'.symm.trans hf)
    obtain ⟨rfl, hrest⟩ := hed.initializes hn hi
    exact ⟨Nat.le_refl _, hrest⟩
  | finalized hf =>
    obtain ⟨u, hu, hinit⟩ := foldlM_createInitializer ha.nodup_breadthFirst
      fun c => ha.mem_breadthFirst.mp
    obtain rfl := Except.ok.inj (hf.symm.trans hu)
    exact hinit.initializes (fun c hm => (List.mem_filter.mp hm).2) hc hn hc' hi

structure InitializedOnce (t : Hierarchy) : Prop where
  body {c : ClassId} {e : ClassEntry} {id : ProcId} : t.class? c = some e →
    e.initializer = some id → ∃ pending, pending <+: e.pending ∧ Initializes t c pending id
  kept {c : ClassId} {e : ClassEntry} {id : ProcId} : t.class? c = some e →
    e.initializer = some id → ∀ calls, ∃ e', (t.run calls).class? c = some e' ∧
      e'.initializer = some id ∧ (t.run calls).registry.get? id = t.registry.get? id
  made {c : ClassId} {e : ClassEntry} : t.class? c = some e → e.initializer = none →
    ∀ call e' id, (t.perform call).1.class? c = some e' → e'.initializer = some id →
      t.registry.size ≤ id ∧ e'.pending = e.pending ∧
        Initializes (t.perform call).1 c e.pending id
  unset {c : ClassId} {e : ClassEntry} {id : ProcId} {p : Proc} : t.class? c = some e →
    e.initializer = none → t.registry.get? id = some p → p.owner = c → p.name ≠ none
  idle {c : ClassId} {e : ClassEntry} : t.class? c = some e →
    e.initializer.isSome ∨ e.pending = [] → t.createInitializer c = .ok (t, e.initializer)

theorem initializedOnce_of_reachable (h : Reachable t) : InitializedOnce t where
  body := h.built.initializes
  made hc hn call _ _ := (perform_effect t call).initializes h.built.arena hc hn
  unset hc hn hp := h.built.name_ne_none hc hn hp
  idle := createInitializer_idle
  kept {c e id} hc hi calls := by
    have hch := run_changes h.built.arena calls
    obtain ⟨e', hc', hi'⟩ := hch.keeps_initializer hc hi
    obtain ⟨pending, -, hinit⟩ := h.built.initializes hc hi
    obtain ⟨p, hp, -⟩ := hinit.proc
    exact ⟨e', hc', hi', (hch.retains.proc hp).trans hp.symm⟩

/-- One expression is pending when the initializer of `/atom` is made, and one comes too late for
it, also when initializers are asked for again. -/
def pendingTooLate : List Call :=
  [.createClass .movable none,
    .pushPending 1 ⟨⟨"atom.dm", 2, 5⟩, .assignField "contents" (.list [])⟩,
    .createInitializer 1, .addProc 1 "New" .none none,
    .pushPending 1 ⟨⟨"atom.dm", 7, 5⟩, .assignField "verbs" (.list [])⟩, .createInitializer 1,
    .finalize]

theorem initializedOnce_pendingTooLate :
    ((bare.run pendingTooLate).class? 1).map (fun e => (e.initializer, e.pending.length)) =
      some (some 0, 2) ∧
    ((bare.run pendingTooLate).registry.get? 0).map (·.body.length) = some 3 ∧
    InitializedOnce (bare.run pendingTooLate) :=
  ⟨by decide +kernel, by decide +kernel,
    initializedOnce_of_reachable (Reachable.bare.run pendingTooLate)⟩

end ClassTree.Hierarchy
