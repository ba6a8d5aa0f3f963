import ClassTree.Proofs.Hierarchy.Persistence
/-!
Kinds are inherited and never in doubt. The classes that give a kind are there from the start, none
of them inherits from another, and no later call changes that.
-/

namespace ClassTree.Hierarchy

variable {t : Hierarchy} {a c : ClassId} {e : ClassEntry} {p q : TypePath}
  {x y : TypePath × ValueType} {order : List (TypePath × ValueType)}

/-! ### Asking for the kind -/

/-- The paths whose classes give a kind, in the order in which they are asked for. -/
def kinds : List (TypePath × ValueType) := [(.mob, .mob), (.obj, .obj), (.area, .area)]

/-- The kind that asking in some order gives. -/
def kindBy (t : Hierarchy) (order : List (TypePath × ValueType)) (c : ClassId) : ValueType :=
  ((order.find? fun x => t.isSubtypeOf c x.1).map (·.2)).getD .anything

lemma kind_eq_kindBy (t : Hierarchy) (c : ClassId) : t.kind c = t.kindBy kinds c := by
  rw [kind, kindBy, kinds, List.find?_cons, List.find?_cons, List.find?_cons, List.find?_nil]
  cases t.isSubtypeOf c .mob <;> cases t.isSubtypeOf c .obj <;> cases t.isSubtypeOf c .area <;> rfl

lemma ne_anything_of_mem_kinds : x ∈ kinds → x.2 ≠ .anything :=
  (by decide : ∀ x ∈ kinds, x.2 ≠ .anything) x

lemma eq_of_mem_kinds : x ∈ kinds → y ∈ kinds → x.2 = y.2 → x = y :=
  fun hx => (by decide +kernel : ∀ x ∈ kinds, ∀ y ∈ kinds, x.2 = y.2 → x = y) x hx y

lemma kindBy_cases (horder : order.Perm kinds) (t : Hierarchy) (c : ClassId) :
    (∃ x ∈ kinds, t.isSubtypeOf c x.1 = true ∧ t.kindBy order c = x.2) ∨
      (∀ x ∈ kinds, t.isSubtypeOf c x.1 ≠ true) ∧ t.kindBy order c = .anything := by
  rw [kindBy]
  cases hf : order.find? fun x => t.isSubtypeOf c x.1 with
  | none =>
    exact .inr ⟨fun x hx => List.find?_eq_none.mp hf x (horder.mem_iff.mpr hx), rfl⟩
  | some x =>
    have hx : t.isSubtypeOf c x.1 = true := by simpa using List.find?_some hf
    exact .inl ⟨x, horder.mem_iff.mp (List.mem_of_find?_eq_some hf), hx, rfl⟩

lemma kind_cases (t : Hierarchy) (c : ClassId) :
    (∃ x ∈ kinds, t.isSubtypeOf c x.1 = true ∧ t.kind c = x.2) ∨
      (∀ x ∈ kinds, t.isSubtypeOf c x.1 ≠ true) ∧ t.kind c = .anything := by
  rw [kind_eq_kindBy]
  exact kindBy_cases (.refl kinds) t c

lemma kind_ne_anything_iff :
    t.kind c ≠ .anything ↔ ∃ x ∈ kinds, t.isSubtypeOf c x.1 = true := by
  obtain ⟨x, hx, hc, hk⟩ | ⟨hn, hk⟩ := kind_cases t c
  · exact iff_of_true (hk ▸ ne_anything_of_mem_kinds hx) ⟨x, hx, hc⟩
  · exact iff_of_false (not_not.mpr hk) fun ⟨x, hx, hc⟩ => hn x hx hc

/-! ### One kind at most -/

def Exclusive (t : Hierarchy) : Prop :=
  ∀ c, ∀ x ∈ kinds, ∀ y ∈ kinds,
    t.isSubtypeOf c x.1 = true → t.isSubtypeOf c y.1 = true → x = y

lemma Exclusive.kindBy_iff (h : Exclusive t) (horder : order.Perm kinds) (hx : x ∈ kinds) :
    t.kindBy order c = x.2 ↔ t.isSubtypeOf c x.1 = true := by
  obtain ⟨y, hy, hc, hk⟩ | ⟨hn, hk⟩ := kindBy_cases horder t c
  · rw [hk]
    constructor
    · intro hyx
      rwa [← eq_of_mem_kinds hy hx hyx]
    · intro hcx
      rw [h c y hy x hx hc hcx]
  · rw [hk]
    exact iff_of_false (ne_anything_of_mem_kinds hx).symm (hn x hx)

lemma Exclusive.kind_iff (h : Exclusive t) (hx : x ∈ kinds) :
    t.kind c = x.2 ↔ t.isSubtypeOf c x.1 = true := by
  rw [kind_eq_kindBy]
  exact h.kindBy_iff (.refl kinds) hx

lemma Exclusive.kindBy_eq (h : Exclusive t) (horder : order.Perm kinds) (c : ClassId) :
    t.kindBy order c = t.kind c := by
  obtain ⟨x, hx, hc, hk⟩ | ⟨hn, hk⟩ := kindBy_cases horder t c
  · rw [hk, (h.kind_iff hx).mpr hc]
  · rw [hk, not_not.mp (mt kind_ne_anything_iff.mp fun ⟨x, hx, hc⟩ => hn x hx hc)]

lemma Arena.isSubtypeOf_or (h : Arena t) (hp : t.isSubtypeOf c p = true)
    (hq : t.isSubtypeOf c q = true) :
    (∃ a, t.lookupPath p = some a ∧ t.isSubtypeOf a q = true) ∨
      ∃ b, t.lookupPath q = some b ∧ t.isSubtypeOf b p = true := by
  obtain ⟨a, e, ha, hpa, hca⟩ := h.isSubtypeOf_iff.mp hp
  obtain ⟨b, f, hb, hqb, hcb⟩ := h.isSubtypeOf_iff.mp hq
  -- Both lineages are ends of one.
  rcases List.suffix_or_suffix_of_suffix (h.isSubclassOf_iff.mp hca).2
    (h.isSubclassOf_iff.mp hcb).2 with hs | hs
  · refine .inr ⟨b, h.path.mpr ⟨f, hb, hqb⟩, ?_⟩
    exact h.isSubtypeOf_iff.mpr ⟨a, e, ha, hpa, h.isSubclassOf_iff.mpr ⟨⟨e, ha⟩, hs⟩⟩
  · refine .inl ⟨a, h.path.mpr ⟨e, ha, hpa⟩, ?_⟩
    exact h.isSubtypeOf_iff.mpr ⟨b, f, hb, hqb, h.isSubclassOf_iff.mpr ⟨⟨f, hb⟩, hs⟩⟩

/-! ### From the start on -/

section

variable (h : Retains builtin t) (ha : Arena t)

include h ha

lemma lookupPath_kind (hx : x ∈ kinds) (hc : t.lookupPath x.1 = some c) :
    builtin.lookupPath x.1 = some c := by
  have hb : ∀ x ∈ kinds, (builtin.lookupPath x.1).isSome := by decide +kernel
  obtain ⟨b, hb⟩ := Option.isSome_iff_exists.mp (hb x hx)
  have hbt := h.lookupPath built_builtin.arena ha hb
  rwa [← Option.some.inj (hbt.symm.trans hc)]

lemma eq_of_isSubtypeOf_kind (hx : x ∈ kinds) (hy : y ∈ kinds) (hc : t.lookupPath x.1 = some c)
    (hs : t.isSubtypeOf c y.1 = true) : x = y := by
  have hb := lookupPath_kind h ha hx hc
  obtain ⟨e, he, -⟩ := built_builtin.arena.path.mp hb
  rw [h.isSubtypeOf built_builtin.arena ha he] at hs
  have hall : ∀ x ∈ kinds, ∀ y ∈ kinds, ∀ c ∈ builtin.lookupPath x.1,
      builtin.isSubtypeOf c y.1 = true → x = y := by decide +kernel
  exact hall x hx y hy c hb hs

lemma exclusive_of_retains : Exclusive t := by
  intro c x hx y hy hcx hcy
  obtain ⟨a, hxa, hay⟩ | ⟨b, hyb, hbx⟩ := ha.isSubtypeOf_or hcx hcy
  · exact eq_of_isSubtypeOf_kind h ha hx hy hxa hay
  · exact (eq_of_isSubtypeOf_kind h ha hy hx hyb hbx).symm

end

lemma Arena.isSubtypeOf_child (h : Arena t) (hc : t.class? c = some e) (hp : e.parent = some a) :
    t.isSubtypeOf c p = true ↔ e.path = p ∨ t.isSubtypeOf a p = true := by
  rw [isSubtypeOf, isSubtypeOf, h.lineage_child hc hp, List.any_cons, Bool.or_eq_true,
    decide_eq_true_eq]

structure Categorized (t : Hierarchy) : Prop where
  exclusive : Exclusive t
  kind_iff {c : ClassId} {x : TypePath × ValueType} :
    x ∈ kinds → (t.kind c = x.2 ↔ t.isSubtypeOf c x.1 = true)
  order {l : List (TypePath × ValueType)} {c : ClassId} : l.Perm kinds → t.kindBy l c = t.kind c
  root : t.kind rootId = .anything
  inherited {a c : ClassId} :
    t.parent? c = some a → t.kind a ≠ .anything → t.kind c = t.kind a
  origin {a c : ClassId} :
    t.parent? c = some a → t.kind a = .anything → t.kind c ≠ .anything →
      ∃ x ∈ kinds, t.kind c = x.2 ∧ t.lookupPath x.1 = some c ∧ builtin.lookupPath x.1 = some c

theorem categorized_of_run (calls : List Call) : Categorized (builtin.run calls) := by
  have ha := (Reachable.builtin.run calls).built.arena
  have hr := (run_changes built_builtin.arena calls).retains
  have hx := exclusive_of_retains hr ha
  refine ⟨hx, hx.kind_iff, fun hl => hx.kindBy_eq hl _, ?root, ?inherited, ?origin⟩
  case root =>
    obtain ⟨r, hroot, -⟩ := built_builtin.arena.root
    rw [hr.kind built_builtin.arena ha hroot]
    decide +kernel
  case inherited =>
    intro a c hp hk
    obtain ⟨e, hc, hp⟩ := Option.bind_eq_some_iff.mp hp
    obtain ⟨x, hxk, hax⟩ := kind_ne_anything_iff.mp hk
    rw [(hx.kind_iff hxk).mpr hax]
    exact (hx.kind_iff hxk).mpr ((ha.isSubtypeOf_child hc hp).mpr (.inr hax))
  case origin =>
    intro a c hp hk hne
    obtain ⟨e, hc, hp⟩ := Option.bind_eq_some_iff.mp hp
    obtain ⟨x, hxk, hcx⟩ := kind_ne_anything_iff.mp hne
    -- The kind does not come from above, so it comes from the class itself.
    have hpath : e.path = x.1 := ((ha.isSubtypeOf_child hc hp).mp hcx).resolve_right fun hax =>
      kind_ne_anything_iff.mpr ⟨x, hxk, hax⟩ hk
    have hl := ha.path.mpr ⟨e, hc, hpath⟩
    exact ⟨x, hxk, (hx.kind_iff hxk).mpr hcx, hl, lookupPath_kind hr ha hxk hl⟩

/-- The parent decides, not the path, and `/mob` cannot be given another one. -/
example : (builtin.run [.createClass .mob (some .obj),
    .createClass (.append .obj ⟨['b', 'o', 't'], by decide, by decide⟩) (some .mob)]).kind 9 =
      .mob := by decide +kernel

end ClassTree.Hierarchy
