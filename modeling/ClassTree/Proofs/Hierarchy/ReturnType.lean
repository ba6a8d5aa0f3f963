import ClassTree.Proofs.Hierarchy.Lineage
import ClassTree.Proofs.Hierarchy.Naming
import ClassTree.Hierarchy.Resolve
/-!
The return type of a name on a class, as rules over the nearest class that declares the name. Where
its first proc overrides, the type is the one above the declaring class, however far from there the
question was asked.
-/

namespace ClassTree.Hierarchy

variable {t : Hierarchy} {c q : ClassId} {d e : ClassEntry} {n : String} {p : Proc}
  {r : Option ValueConstraint}

/-! ### Rules -/

def declarer? (t : Hierarchy) (c : ClassId) (n : String) : Option ClassEntry :=
  (t.lineage c).find? fun e => e.procs.contains n

/-- The first of the procs that a class has under a name. -/
def OwnProc (t : Hierarchy) (d : ClassEntry) (n : String) (p : Proc) : Prop :=
  ∃ id ids, d.procs.get? n = some (id :: ids) ∧ t.registry.get? id = some p

def globalReturnType (t : Hierarchy) (n : String) : Option ValueConstraint :=
  (t.registry.global? n).bind (·.returnType)

inductive ReturnType (t : Hierarchy) (n : String) : ClassId → Option ValueConstraint → Prop
  | root_global {g : Proc} (hg : t.registry.global? n = some g) :
      ReturnType t n rootId g.returnType
  | root_undeclared (hg : t.registry.global? n = none) (hd : t.declarer? rootId n = none) :
      ReturnType t n rootId none
  | root_own {d : ClassEntry} {p : Proc} (hg : t.registry.global? n = none)
      (hd : t.declarer? rootId n = some d) (hp : t.OwnProc d n p)
      (ho : p.flags.isOverride = false) : ReturnType t n rootId p.returnType
  | root_override {d : ClassEntry} {p : Proc} (hg : t.registry.global? n = none)
      (hd : t.declarer? rootId n = some d) (hp : t.OwnProc d n p)
      (ho : p.flags.isOverride = true) : ReturnType t n rootId (some .anything)
  | undeclared {c : ClassId} (hc : c ≠ rootId) (hd : t.declarer? c n = none) :
      ReturnType t n c (t.globalReturnType n)
  | own {c : ClassId} {d : ClassEntry} {p : Proc} (hc : c ≠ rootId)
      (hd : t.declarer? c n = some d) (hp : t.OwnProc d n p) (ho : p.flags.isOverride = false) :
      ReturnType t n c p.returnType
  | override {c q : ClassId} {d : ClassEntry} {p : Proc} {r : Option ValueConstraint}
      (hc : c ≠ rootId) (hd : t.declarer? c n = some d) (hp : t.OwnProc d n p)
      (ho : p.flags.isOverride = true) (hq : d.parent = some q) (hr : ReturnType t n q r) :
      ReturnType t n c (some (r.getD .anything))
  | override_of_root {c : ClassId} {d : ClassEntry} {p : Proc} (hc : c ≠ rootId)
      (hd : t.declarer? c n = some d) (hp : t.OwnProc d n p) (ho : p.flags.isOverride = true)
      (hq : d.parent = none) :
      ReturnType t n c (some ((t.globalReturnType n).getD .anything))

/-! ### Declaring classes -/

lemma findProcs_eq (t : Hierarchy) (c : ClassId) (n : String) :
    t.findProcs c n = (t.declarer? c n).bind fun d => d.procs.get? n := by
  rw [findProcs, declarer?]
  induction t.lineage c with
  | nil => rfl
  | cons e l ih =>
    rw [List.findSome?_cons, List.find?_cons, ← OrderedMap.isSome_get?]
    cases he : e.procs.get? n with
    | none => exact ih
    | some ids => exact he.symm

lemma findProcs_of_ownProc (hd : t.declarer? c n = some d) (hp : t.OwnProc d n p) :
    ∃ id ids, t.findProcs c n = some (id :: ids) ∧ t.registry.get? id = some p := by
  obtain ⟨id, ids, hg, hr⟩ := hp
  exact ⟨id, ids, by rw [findProcs_eq, hd, Option.bind_some, hg], hr⟩

lemma findProcs_of_undeclared (hd : t.declarer? c n = none) : t.findProcs c n = none := by
  rw [findProcs_eq, hd, Option.bind_none]

lemma declarer?_child (h : Arena t) (hc : t.class? c = some e) (hq : e.parent = some q)
    (hd : t.declarer? c n = some d) : d = e ∨ t.declarer? q n = some d := by
  rw [declarer?, h.lineage_child hc hq, List.find?_cons] at hd
  split at hd
  · exact .inl (Option.some.inj hd).symm
  · exact .inr hd

lemma declarer?_root (h : Arena t) (hd : t.declarer? rootId n = some d) : d.parent = none := by
  obtain ⟨e, he, -, hn⟩ := h.root
  rw [declarer?, lineage_parentless he hn] at hd
  obtain rfl := List.mem_singleton.mp (List.mem_of_find?_eq_some hd)
  exact hn

lemma class?_declarer (h : Arena t) (hd : t.declarer? c n = some d) :
    d.id ≤ c ∧ t.class? d.id = some d :=
  h.mem_lineage (List.mem_of_find?_eq_some hd)

lemma exists_ownProc (h : Built t) (hd : t.declarer? c n = some d) : ∃ p, t.OwnProc d n p := by
  have hs : (d.procs.get? n).isSome = true := by
    rw [OrderedMap.isSome_get?]
    exact List.find?_some (p := fun e : ClassEntry => e.procs.contains n) hd
  obtain ⟨ids, hg⟩ := Option.isSome_iff_exists.mp hs
  obtain ⟨hne, hids⟩ := h.namedProcs (class?_declarer h.arena hd).2 _
    (OrderedMap.mem_entries_of_get? hg)
  cases ids with
  | nil => exact (hne rfl).elim
  | cons id ids =>
    obtain ⟨p, hp, -⟩ := hids id (.head _)
    exact ⟨p, id, ids, hg, hp⟩

/-! ### The return type that the hierarchy computes -/

lemma procReturnType_root_global (h : Arena t) {g : Proc} (hg : t.registry.global? n = some g) :
    t.procReturnType rootId n = g.returnType := by
  obtain ⟨e, he, -, hn⟩ := h.root
  rw [procReturnType, he]
  simp only [ClassEntry.isRoot, hn, Option.isNone_none, if_true, hg]

lemma procReturnType_root_undeclared (h : Arena t) (hg : t.registry.global? n = none)
    (hd : t.declarer? rootId n = none) : t.procReturnType rootId n = none := by
  obtain ⟨e, he, -, hn⟩ := h.root
  have hf := findProcs_of_undeclared hd
  rw [procReturnType, he]
  simp only [ClassEntry.isRoot, hn, Option.isNone_none, if_true, hg, hf]

lemma procReturnType_root_own (h : Arena t) (hg : t.registry.global? n = none)
    (hd : t.declarer? rootId n = some d) (hp : t.OwnProc d n p) :
    t.procReturnType rootId n = if p.flags.isOverride then some .anything else p.returnType := by
  obtain ⟨e, he, -, hn⟩ := h.root
  obtain ⟨id, ids, hf, hr⟩ := findProcs_of_ownProc hd hp
  rw [procReturnType, he]
  simp only [ClassEntry.isRoot, hn, Option.isNone_none, if_true, hg, hf, List.head?_cons,
    Option.bind_some, hr, Option.getD_none]

lemma procReturnType_inherited (h : Arena t) (hc : t.class? c = some e) (hq : e.parent = some q)
    (hd : t.declarer? c n = none) : t.procReturnType c n = t.procReturnType q n := by
  have hf := findProcs_of_undeclared hd
  rw [procReturnType, hc]
  simp only [ClassEntry.isRoot, hq, Option.isNone_some, if_pos (h.parent_lt hc hq), hf]
  rfl

lemma procReturnType_own (h : Arena t) (hc : t.class? c = some e) (hq : e.parent = some q)
    (hd : t.declarer? c n = some d) (hp : t.OwnProc d n p) :
    t.procReturnType c n =
      if p.flags.isOverride then some ((t.procReturnType q n).getD .anything)
      else p.returnType := by
  obtain ⟨id, ids, hf, hr⟩ := findProcs_of_ownProc hd hp
  rw [procReturnType, hc]
  simp only [ClassEntry.isRoot, hq, Option.isNone_some, if_pos (h.parent_lt hc hq), hf,
    List.head?_cons, Option.bind_some, hr]
  rfl

lemma procReturnType_undeclared (h : Arena t) (hc : t.class? c = some e)
    (hd : t.declarer? c n = none) : t.procReturnType c n = t.globalReturnType n := by
  refine h.induction (motive := fun c => t.declarer? c n = none →
    t.procReturnType c n = t.globalReturnType n) ?_ ?_ hc hd
  · intro hd
    cases hg : t.registry.global? n with
    | none =>
      rw [procReturnType_root_undeclared h hg hd, globalReturnType, hg, Option.bind_none]
    | some g =>
      rw [procReturnType_root_global h hg, globalReturnType, hg, Option.bind_some]
  · intro c e q hc hq ih hd
    have hdq : t.declarer? q n = none := by
      rw [declarer?, h.lineage_child hc hq, List.find?_cons] at hd
      split at hd
      · cases hd
      · exact hd
    rw [procReturnType_inherited h hc hq hd]
    exact ih hdq

lemma procReturnType_override (h : Arena t) (hc : t.class? c = some e) (h0 : c ≠ rootId)
    (hd : t.declarer? c n = some d) (hp : t.OwnProc d n p) (ho : p.flags.isOverride = true) :
    t.procReturnType c n =
      some ((d.parent.elim (t.globalReturnType n) (t.procReturnType · n)).getD .anything) := by
  refine h.induction (motive := fun c => c ≠ rootId → t.declarer? c n = some d →
    t.procReturnType c n =
      some ((d.parent.elim (t.globalReturnType n) (t.procReturnType · n)).getD .anything))
    ?_ ?_ hc h0 hd
  · intro h0
    exact (h0 rfl).elim
  · intro c e q hc hq ih _ hd
    rw [procReturnType_own h hc hq hd hp, if_pos ho]
    -- Between the class asked and the declaring one nothing is added to the answer.
    rcases declarer?_child h hc hq hd with rfl | hdq
    · rw [hq]
      rfl
    · by_cases hq0 : q = rootId
      · subst hq0
        rw [declarer?_root h hdq, Option.elim_none]
        cases hg : t.registry.global? n with
        | none =>
          rw [procReturnType_root_own h hg hdq hp, if_pos ho, globalReturnType, hg]
          rfl
        | some g =>
          rw [procReturnType_root_global h hg, globalReturnType, hg, Option.bind_some]
      · rw [ih hq0 hdq, Option.getD_some]

/-! ### The rules give that return type -/

lemma ReturnType.procReturnType_eq (h : Arena t) (hr : ReturnType t n c r)
    (hc : t.class? c = some e) : t.procReturnType c n = r := by
  induction hr generalizing e with
  | root_global hg => exact procReturnType_root_global h hg
  | root_undeclared hg hd => exact procReturnType_root_undeclared h hg hd
  | root_own hg hd hp ho =>
    rw [procReturnType_root_own h hg hd hp, ho]
    rfl
  | root_override hg hd hp ho => rw [procReturnType_root_own h hg hd hp, if_pos ho]
  | undeclared _ hd => exact procReturnType_undeclared h hc hd
  | own h0 hd hp ho =>
    obtain ⟨q, hq, -⟩ := h.parent hc h0
    rw [procReturnType_own h hc hq hd hp, ho]
    rfl
  | override h0 hd hp ho hq _ ih =>
    obtain ⟨f, hf⟩ := h.class?_parent (class?_declarer h hd).2 hq
    rw [procReturnType_override h hc h0 hd hp ho, hq, Option.elim_some, ih hf]
  | override_of_root h0 hd hp ho hq =>
    rw [procReturnType_override h hc h0 hd hp ho, hq, Option.elim_none]

lemma exists_returnType (h : Built t) (hc : t.class? c = some e) (n : String) :
    ∃ r, ReturnType t n c r := by
  induction c using Nat.strongRecOn generalizing e with
  | ind c ih =>
    by_cases h0 : c = rootId
    · subst h0
      cases hg : t.registry.global? n with
      | some g => exact ⟨_, .root_global hg⟩
      | none =>
        cases hd : t.declarer? rootId n with
        | none => exact ⟨_, .root_undeclared hg hd⟩
        | some d =>
          obtain ⟨p, hp⟩ := exists_ownProc h hd
          cases ho : p.flags.isOverride with
          | false => exact ⟨_, .root_own hg hd hp ho⟩
          | true => exact ⟨_, .root_override hg hd hp ho⟩
    · cases hd : t.declarer? c n with
      | none => exact ⟨_, .undeclared h0 hd⟩
      | some d =>
        obtain ⟨p, hp⟩ := exists_ownProc h hd
        cases ho : p.flags.isOverride with
        | false => exact ⟨_, .own h0 hd hp ho⟩
        | true =>
          cases hq : d.parent with
          | none => exact ⟨_, .override_of_root h0 hd hp ho hq⟩
          | some q =>
            obtain ⟨hle, hdc⟩ := class?_declarer h.arena hd
            obtain ⟨f, hf⟩ := h.arena.class?_parent hdc hq
            have hlt := Nat.lt_of_lt_of_le (h.arena.parent_lt hdc hq) hle
            obtain ⟨r, hr⟩ := ih q hlt hf
            exact ⟨_, .override h0 hd hp ho hq hr⟩

theorem returnType_iff (h : Reachable t) (hc : t.class? c = some e) (n : String)
    (r : Option ValueConstraint) : ReturnType t n c r ↔ t.procReturnType c n = r := by
  constructor
  · exact fun hr => hr.procReturnType_eq h.built.arena hc
  · intro hr
    obtain ⟨r', hr'⟩ := exists_returnType h.built hc n
    rw [← hr, hr'.procReturnType_eq h.built.arena hc]
    exact hr'

/-- An annotated proc of `/atom`, overridden on `/atom/movable` and inherited below it. -/
def overriding : List Call :=
  [.createClass .mob (some .movable), .addGlobalProc "Move" none,
    .addProc 1 "Move" .none (some ⟨.obj, none⟩),
    .addProc 2 "Move" ⟨true, false, false⟩ (some ⟨.mob, none⟩)]

theorem returnType_overriding :
    ((bare.run overriding).class? 3).isSome = true ∧
      ReturnType (bare.run overriding) "Move" 3 (some ⟨.obj, none⟩) := by
  have hs : ((bare.run overriding).class? 3).isSome = true := by decide +kernel
  obtain ⟨e, hc⟩ := Option.isSome_iff_exists.mp hs
  exact ⟨hs, (returnType_iff (Reachable.bare.run overriding) hc "Move" _).mpr (by decide +kernel)⟩

end ClassTree.Hierarchy
