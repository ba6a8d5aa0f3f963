import ClassTree.Proofs.Hierarchy.Change
import ClassTree.TypePath.Lemmas
/-!
The table of classes, the index by path, the parents and the links keep step with each other
through every call. `Arena` says how they agree, and `Reachable.built` that calls are made of
changes, each of which keeps them so.
-/

namespace ClassTree

def ClassEntry.stem (e : ClassEntry) : ClassId × TypePath × Option ClassId :=
  (e.id, e.path, e.parent)

namespace Hierarchy

variable {t t' : Hierarchy} {c i : ClassId} {e e' : ClassEntry} {p q : TypePath}

structure Arena (t : Hierarchy) : Prop where
  id {i : ClassId} {e : ClassEntry} : t.class? i = some e → e.id = i
  path {p : TypePath} {i : ClassId} :
    t.lookupPath p = some i ↔ ∃ e, t.class? i = some e ∧ e.path = p
  root : ∃ e, t.class? rootId = some e ∧ e.path = .root ∧ e.parent = none
  parent {i : ClassId} {e : ClassEntry} :
    t.class? i = some e → i ≠ rootId → ∃ p, e.parent = some p ∧ p < i
  links {p i : ClassId} : (p, i) ∈ t.links ↔ t.parent? i = some p
  newest_first : t.links.Pairwise fun x y => y.2 < x.2

/-- The classes of two hierarchies differ in their declarations at most. -/
structure SameShape (t t' : Hierarchy) : Prop where
  paths : t'.paths = t.paths
  links : t'.links = t.links
  stem (i : ClassId) : (t'.class? i).map ClassEntry.stem = (t.class? i).map ClassEntry.stem

lemma SameShape.symm (h : SameShape t t') : SameShape t' t :=
  ⟨h.paths.symm, h.links.symm, fun i => (h.stem i).symm⟩

lemma SameShape.class? (h : SameShape t t') (hi : t.class? i = some e) :
    ∃ e', t'.class? i = some e' ∧ e'.stem = e.stem := by
  have hs := h.stem i
  rw [hi, Option.map_some] at hs
  exact Option.map_eq_some_iff.mp hs

lemma SameShape.parent? (h : SameShape t t') (i : ClassId) : t'.parent? i = t.parent? i := by
  cases hi : t.class? i with
  | none =>
    have hi' : t'.class? i = none := by simpa [hi] using h.stem i
    simp only [Hierarchy.parent?, hi, hi', Option.bind_none]
  | some e =>
    obtain ⟨e', hi', hst⟩ := h.class? hi
    simp only [Hierarchy.parent?, hi, hi', Option.bind_some]
    exact congrArg (·.2.2) hst

lemma Arena.of_sameShape (h : Arena t) (hs : SameShape t t') : Arena t' where
  id hi := by
    obtain ⟨e, he, hst⟩ := hs.symm.class? hi
    exact (congrArg Prod.fst hst).symm.trans (h.id he)
  path {p i} := by
    have hl : t'.lookupPath p = t.lookupPath p := by simp only [lookupPath, hs.paths]
    rw [hl, h.path]
    constructor
    · rintro ⟨e, he, rfl⟩
      obtain ⟨e', he', hst⟩ := hs.class? he
      exact ⟨e', he', congrArg (·.2.1) hst⟩
    · rintro ⟨e', he', rfl⟩
      obtain ⟨e, he, hst⟩ := hs.symm.class? he'
      exact ⟨e, he, congrArg (·.2.1) hst⟩
  root := by
    obtain ⟨e, he, hp, hn⟩ := h.root
    obtain ⟨e', he', hst⟩ := hs.class? he
    exact ⟨e', he', (congrArg (·.2.1) hst).trans hp, (congrArg (·.2.2) hst).trans hn⟩
  parent hi h0 := by
    obtain ⟨e, he, hst⟩ := hs.symm.class? hi
    obtain ⟨p, hp, hlt⟩ := h.parent he h0
    exact ⟨p, (congrArg (·.2.2) hst).symm.trans hp, hlt⟩
  links {p i} := by rw [hs.links, hs.parent?, h.links]
  newest_first := by rw [hs.links]; exact h.newest_first

lemma Arena.lookupPath_root (h : Arena t) : t.lookupPath .root = some rootId := by
  obtain ⟨e, he, hp, -⟩ := h.root
  exact h.path.mpr ⟨e, he, hp⟩

lemma Arena.lt_size (h : Arena t) (hp : t.lookupPath p = some i) : i < t.classes.size := by
  obtain ⟨e, he, -⟩ := h.path.mp hp
  exact lt_size_of_class? he

lemma class?_size (t : Hierarchy) : t.class? t.classes.size = none :=
  Array.getElem?_eq_none (Nat.le_refl _)

lemma parent?_addClass (t : Hierarchy) (p : TypePath) (q i : ClassId) :
    (t.addClass p q).parent? i = if i = t.classes.size then some q else t.parent? i := by
  rw [parent?, class?_addClass]
  split <;> rfl

lemma lookupPath_addClass (t : Hierarchy) (p p' : TypePath) (q : ClassId) :
    (t.addClass p q).lookupPath p' = if p = p' then some t.classes.size else t.lookupPath p' := by
  simp only [lookupPath, addClass, OrderedMap.get?_insert, beq_iff_eq]

lemma Arena.lookupPath_addClass_iff (h : Arena t) {q : ClassId} {p' : TypePath}
    (hp : t.lookupPath p = none) : (t.addClass p q).lookupPath p' = some i ↔
      ∃ e, (t.addClass p q).class? i = some e ∧ e.path = p' := by
  rw [lookupPath_addClass, class?_addClass]
  by_cases hs : i = t.classes.size
  · subst hs
    simp only [if_true, Option.some.injEq, exists_eq_left']
    by_cases hpp : p = p'
    · simp [hpp, ClassEntry.new]
    · have hno : t.lookupPath p' ≠ some t.classes.size := fun hl =>
        absurd (h.lt_size hl) (Nat.lt_irrefl _)
      simp [hpp, hno, ClassEntry.new]
  · rw [if_neg hs]
    by_cases hpp : p = p'
    · subst hpp
      simp only [if_true, Option.some.injEq, Ne.symm hs, false_iff]
      intro he
      rw [h.path.mpr he] at hp
      cases hp
    · rw [if_neg hpp, h.path]

lemma Arena.mem_links_addClass_iff (h : Arena t) {q a : ClassId} :
    (a, i) ∈ (t.addClass p q).links ↔ (t.addClass p q).parent? i = some a := by
  have hno : t.parent? t.classes.size = none := by rw [parent?, class?_size, Option.bind_none]
  rw [parent?_addClass]
  by_cases hs : i = t.classes.size
  · have hl : (a, i) ∉ t.links := fun hl => by
      rw [h.links, hs, hno] at hl
      cases hl
    have hl' : (a, t.classes.size) ∉ t.links := hs ▸ hl
    simp [Hierarchy.addClass, hs, hl', eq_comm]
  · simp [Hierarchy.addClass, hs, h.links]

lemma Arena.addClass (h : Arena t) {q : ClassId} (hp : t.lookupPath p = none)
    (hq : q < t.classes.size) : Arena (t.addClass p q) where
  id {i e} hi := by
    rw [class?_addClass] at hi
    split at hi
    · next hs =>
      obtain rfl := Option.some.inj hi
      exact hs.symm
    · exact h.id hi
  path := h.lookupPath_addClass_iff hp
  root := by
    obtain ⟨e, he, hpn⟩ := h.root
    have hs := lt_size_of_class? he
    exact ⟨e, by rw [class?_addClass, if_neg (Nat.ne_of_lt hs), he], hpn⟩
  parent {i e} hi h0 := by
    rw [class?_addClass] at hi
    split at hi
    · next hs =>
      obtain rfl := Option.some.inj hi
      exact ⟨q, rfl, hs ▸ hq⟩
    · exact h.parent hi h0
  links := h.mem_links_addClass_iff
  newest_first := by
    refine List.pairwise_cons.mpr ⟨?_, h.newest_first⟩
    rintro ⟨a, i⟩ hl
    rw [h.links, parent?] at hl
    obtain ⟨e, he, -⟩ := Option.bind_eq_some_iff.mp hl
    exact lt_size_of_class? he

lemma SameShape.modifyClass {u : Hierarchy} (h : SameShape t u) (c : ClassId)
    {f : ClassEntry → ClassEntry} (hf : ∀ e, (f e).stem = e.stem) :
    SameShape t (u.modifyClass c f) := by
  refine ⟨h.paths, h.links, fun i => ?_⟩
  rw [class?_modifyClass, ← h.stem i]
  split
  · rw [Option.map_map, show ClassEntry.stem ∘ f = ClassEntry.stem from funext hf]
  · rfl

lemma Change.sameShape (h : Change t t') :
    (∃ p q, t' = t.addClass p q ∧ t.lookupPath p = none ∧ q < t.classes.size) ∨
      SameShape t t' := by
  have hs {u : Hierarchy} (hp : u.paths = t.paths) (hl : u.links = t.links)
      (hc : u.classes = t.classes) : SameShape t u :=
    ⟨hp, hl, fun i => by rw [class?, class?, hc]⟩
  cases h with
  | addClass hp hq => exact .inl ⟨_, _, rfl, hp, hq⟩
  | setSlot _ | addGlobalProc _ => exact .inr (hs rfl rfl rfl)
  | _ =>
    refine .inr (SameShape.modifyClass ?_ _ ?_)
    · exact hs rfl rfl rfl
    · intro e
      rfl

lemma Arena.change (h : Arena t) (hc : Change t t') : Arena t' := by
  rcases hc.sameShape with ⟨p, q, rfl, hp, hq⟩ | hs
  · exact h.addClass hp hq
  · exact h.of_sameShape hs

lemma Arena.changes (h : Arena t) (hc : Changes t t') : Arena t' := by
  induction hc with
  | refl => exact h
  | tail _ hc ih => exact ih.change hc

lemma arena_bare : Arena bare where
  id {i e} hi := by
    have h0 : i = 0 := by simpa [bare] using lt_size_of_class? hi
    subst h0
    obtain rfl := Option.some.inj hi
    rfl
  path {p i} := by
    have hl : bare.lookupPath p = if TypePath.root == p then some rootId else none :=
      OrderedMap.get?_insert .empty TypePath.root p rootId
    rw [hl]
    cases i with
    | zero => simp [bare, class?, rootId, ClassEntry.new]
    | succ i => simp [bare, class?, rootId]
  root := ⟨_, rfl, rfl, rfl⟩
  parent {i e} hi h0 := by
    have hlt : i < 1 := lt_size_of_class? hi
    exact absurd (Nat.lt_one_iff.mp hlt) h0
  links {p i} := by
    cases i <;> simp [bare, parent?, class?, ClassEntry.new]
  newest_first := .nil

lemma Built.arena (h : Built t) : Arena t := arena_bare.changes h

/-! ### Creating classes -/

/-- Only paths down to `q` are created, so any other stays as it is. -/
lemma lookupPath_getOrCreate (t : Hierarchy) {p q : TypePath} (hpq : ¬ p.segments <+: q.segments) :
    (t.getOrCreate q).1.lookupPath p = t.lookupPath p := by
  fun_induction t.getOrCreate q with
  | case1 q c hc => rfl
  | case2 q hq hr =>
    rw [lookupPath_addClass, if_neg]
    rintro rfl
    exact hpq List.prefix_rfl
  | case3 q hq q' hq' _ u parent hu ih =>
    have hu' : u.lookupPath p = t.lookupPath p := by
      rw [← ih fun h => hpq (h.trans (TypePath.segments_parent? hq')), hu]
    rw [lookupPath_addClass, if_neg, hu']
    rintro rfl
    exact hpq List.prefix_rfl

lemma getOrCreate_of_lookupPath (h : t.lookupPath p = some c) : t.getOrCreate p = (t, c) := by
  rw [getOrCreate, h]

lemma getOrCreate_of_parent? (hp : t.lookupPath p = none) (hq : p.parent? = some q) :
    t.getOrCreate p = ((t.getOrCreate q).1.addClass p (t.getOrCreate q).2,
      (t.getOrCreate q).1.classes.size) := by
  rw [getOrCreate, hp]
  dsimp only
  split
  · next hn =>
    rw [hq] at hn
    cases hn
  · next r hr =>
    obtain rfl := Option.some.inj (hq.symm.trans hr)
    rfl

/-- Going up from a path ends at one that has a class, since the root has one. -/
theorem Arena.path_induction (h : Arena t) {motive : TypePath → Prop}
    (found : ∀ p c, t.lookupPath p = some c → motive p)
    (missing : ∀ p q, t.lookupPath p = none → p.parent? = some q → motive q → motive p)
    (p : TypePath) : motive p := by
  cases hp : t.lookupPath p with
  | some c => exact found p c hp
  | none =>
    cases hq : p.parent? with
    | none =>
      rw [TypePath.parent?_eq_none_iff.mp hq, h.lookupPath_root] at hp
      cases hp
    | some q =>
      have := TypePath.parent?_length hq
      exact missing p q hp hq (h.path_induction found missing q)
termination_by p.segments.length

lemma getOrCreate_changes (h : Arena t) (p : TypePath) :
    Changes t (t.getOrCreate p).1 ∧
      (t.getOrCreate p).1.lookupPath p = some (t.getOrCreate p).2 := by
  induction p using h.path_induction with
  | found p c hc =>
    rw [getOrCreate_of_lookupPath hc]
    exact ⟨.refl, hc⟩
  | missing p q hp hq ih =>
    obtain ⟨hc, hl⟩ := ih
    have hpq : ¬ p.segments <+: q.segments := fun h =>
      Nat.not_lt.mpr h.length_le (TypePath.parent?_length hq)
    have hup : (t.getOrCreate q).1.lookupPath p = none := by rw [lookupPath_getOrCreate t hpq, hp]
    rw [getOrCreate_of_parent? hp hq]
    refine ⟨hc.tail (.addClass hup ((h.changes hc).lt_size hl)), ?_⟩
    rw [lookupPath_addClass, if_pos rfl]

lemma createClass_changes (h : Arena t) (p : TypePath) (parent : Option TypePath) :
    Changes t (t.createClass p parent).1 := by
  cases parent with
  | none => exact (getOrCreate_changes h p).1
  | some parent =>
    obtain ⟨hc, hl⟩ := getOrCreate_changes h parent
    simp only [createClass, createBelow]
    split
    · exact .refl
    · split
      · next hp => exact hc.tail (.addClass hp ((h.changes hc).lt_size hl))
      · split <;> exact hc

lemma lookupPath_createClass (h : Arena t) {parent : Option TypePath}
    (hc : (t.createClass p parent).2 = .ok c) :
    (t.createClass p parent).1.lookupPath p = some c := by
  cases parent with
  | none =>
    obtain rfl := Except.ok.inj hc
    exact (getOrCreate_changes h p).2
  | some parent =>
    simp only [createClass, createBelow] at hc ⊢
    split at hc
    · cases hc
    · next hp =>
      rw [if_neg hp]
      split at hc
      · obtain rfl := Except.ok.inj hc
        simp [lookupPath_addClass]
      · next d hd =>
        split at hc
        · next hq =>
          obtain rfl := Except.ok.inj hc
          simp only [hd, if_pos hq]
        · cases hc

/-! ### Calls -/

/-- What a call comes to: nothing, one change, or what finds its way through the hierarchy. -/
inductive Effect (t : Hierarchy) : Hierarchy → Prop
  | unchanged : Effect t t
  | change {t' : Hierarchy} (h : Change t t') : Effect t t'
  | created (p : TypePath) (parent : Option TypePath) : Effect t (t.createClass p parent).1
  | finalized {t' : Hierarchy} (h : t.finalize = .ok t') : Effect t t'

lemma perform_effect (t : Hierarchy) (call : Call) : Effect t (t.perform call).1 := by
  have hp := performed t call
  generalize t.perform call = result at hp
  cases hp with
  | refused _ => exact .unchanged
  | getOrCreate p => exact .created p none
  | createClass p parent => exact .created p parent
  | declareVar hc hv => exact .change (.addVar hc hv)
  | declareOverride hc hv => exact .change (.addOverride hc hv)
  | setTmp hc => exact .change (.setTmp hc)
  | createGlobal hc => exact .change (.createGlobal hc)
  | setGlobalValue hs => exact .change (.setSlot hs)
  | addProc hc => exact .change (.addProc hc)
  | addGlobalProc hn => exact .change (.addGlobalProc hn)
  | pushPending hc => exact .change (.addPending hc)
  | createInitializer hr =>
    obtain ⟨e, hc, he | ⟨hp, hi, he⟩⟩ := createInitializer_eq_or hr
    · exact he ▸ .unchanged
    · exact he ▸ .change (.addInitializer hc hp hi)
  | finalize hu => exact .finalized hu

lemma Effect.changes (he : Effect t t') (h : Arena t) : Changes t t' := by
  cases he with
  | unchanged => exact .refl
  | change hc => exact .single hc
  | created p parent => exact createClass_changes h p parent
  | finalized hf => exact finalize_changes hf

lemma perform_changes (h : Arena t) (call : Call) : Changes t (t.perform call).1 :=
  (perform_effect t call).changes h

lemma run_changes (h : Arena t) (calls : List Call) : Changes t (t.run calls) := by
  induction calls generalizing t with
  | nil => exact .refl
  | cons call calls ih =>
    have hc := perform_changes h call
    exact hc.trans (ih (h.changes hc))

lemma built_builtin : Built builtin := by
  have step (l : List (TypePath × Option TypePath)) {u : Hierarchy} (hu : Built u) :
      Built (l.foldl (fun t c => (t.createClass c.1 c.2).1) u) := by
    induction l generalizing u with
    | nil => exact hu
    | cons c l ih => exact ih (hu.trans (createClass_changes hu.arena c.1 c.2))
  exact step builtinClasses .refl

lemma Reachable.built (h : Reachable t) : Built t := by
  induction h with
  | bare => exact .refl
  | builtin => exact built_builtin
  | perform call _ ih => exact ih.trans (perform_changes ih.arena call)

lemma Reachable.run (h : Reachable t) (calls : List Call) : Reachable (t.run calls) := by
  induction calls generalizing t with
  | nil => exact h
  | cons call calls ih => exact ih (.perform call h)

end Hierarchy

end ClassTree
