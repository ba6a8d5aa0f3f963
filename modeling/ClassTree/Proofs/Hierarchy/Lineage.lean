import ClassTree.Proofs.Hierarchy.Arena
import ClassTree.Proofs.Walk
/-!
Lineages and children. Parents are older than their children, so the walk from a class up along the
parents ends, and it ends at the root.
-/

namespace ClassTree.Hierarchy

variable {t t' : Hierarchy} {c i p : ClassId} {e : ClassEntry}

lemma class?_of_lt (h : i < t.classes.size) : ∃ e, t.class? i = some e :=
  ⟨_, Array.getElem?_eq_getElem h⟩

lemma Arena.parent_lt (h : Arena t) (hc : t.class? c = some e) (hp : e.parent = some p) :
    p < c := by
  by_cases h0 : c = rootId
  · obtain ⟨r, hr, -, hn⟩ := h.root
    obtain rfl := Option.some.inj (hr.symm.trans (h0 ▸ hc))
    rw [hn] at hp
    cases hp
  · obtain ⟨q, hq, hlt⟩ := h.parent hc h0
    obtain rfl := Option.some.inj (hp.symm.trans hq)
    exact hlt

lemma Arena.class?_parent (h : Arena t) (hc : t.class? c = some e) (hp : e.parent = some p) :
    ∃ f, t.class? p = some f :=
  class?_of_lt (Nat.lt_trans (h.parent_lt hc hp) (lt_size_of_class? hc))

lemma Arena.parent_eq_none_iff (h : Arena t) (hc : t.class? c = some e) :
    e.parent = none ↔ c = rootId := by
  constructor
  · intro hn
    refine Decidable.byContradiction fun h0 => ?_
    obtain ⟨q, hq, -⟩ := h.parent hc h0
    rw [hn] at hq
    cases hq
  · rintro rfl
    obtain ⟨r, hr, -, hn⟩ := h.root
    obtain rfl := Option.some.inj (hr.symm.trans hc)
    exact hn

/-- What holds of the root and goes from parents to their children holds of all classes. -/
lemma Arena.induction (h : Arena t) {motive : ClassId → Prop} (root : motive rootId)
    (child : ∀ c e p, t.class? c = some e → e.parent = some p → motive p → motive c)
    (hc : t.class? c = some e) : motive c := by
  induction c using Nat.strongRecOn generalizing e with
  | ind c ih =>
    cases hp : e.parent with
    | none => rwa [(h.parent_eq_none_iff hc).mp hp]
    | some p =>
      obtain ⟨f, hf⟩ := h.class?_parent hc hp
      exact child c e p hc hp (ih p (h.parent_lt hc hp) hf)

lemma lineage_missing (hc : t.class? c = none) : t.lineage c = [] := by
  rw [lineage, hc]

lemma lineage_parentless (hc : t.class? c = some e) (hp : e.parent = none) :
    t.lineage c = [e] := by
  rw [lineage, hc]
  simp only [hp]

lemma lineage_eq_cons (hc : t.class? c = some e) : t.lineage c = e :: (t.lineage c).tail := by
  rw [lineage, hc]
  dsimp only
  split
  · rfl
  · split <;> rfl

lemma Arena.lineage_child (h : Arena t) (hc : t.class? c = some e) (hp : e.parent = some p) :
    t.lineage c = e :: t.lineage p := by
  rw [lineage, hc]
  simp only [hp, if_pos (h.parent_lt hc hp)]

lemma Arena.lineage_induction (h : Arena t) {motive : ClassId → List ClassEntry → Prop}
    (missing : ∀ c, t.class? c = none → motive c [])
    (root : ∀ r, t.class? rootId = some r → r.parent = none → motive rootId [r])
    (child : ∀ c e p, t.class? c = some e → e.parent = some p → motive p (t.lineage p) →
      motive c (e :: t.lineage p)) (c : ClassId) : motive c (t.lineage c) := by
  cases hc : t.class? c with
  | none =>
    rw [lineage_missing hc]
    exact missing c hc
  | some e =>
    refine h.induction (motive := fun c => motive c (t.lineage c)) ?_ ?_ hc
    · obtain ⟨r, hr, -, hn⟩ := h.root
      rw [lineage_parentless hr hn]
      exact root r hr hn
    · intro c e p hc hp ih
      rw [h.lineage_child hc hp]
      exact child c e p hc hp ih

lemma Arena.walk_lineage (h : Arena t) (c : ClassId) :
    Walk t.class? ClassEntry.parent (some c) (t.lineage c) := by
  refine h.lineage_induction (motive := fun c l => Walk t.class? ClassEntry.parent (some c) l)
    ?_ ?_ ?_ c
  · intro c hc
    exact .missing hc
  · intro r hr hn
    exact .entry hr (hn ▸ .done)
  · intro c e p hc hp ih
    exact .entry hc (hp ▸ ih)

lemma Arena.mem_lineage (h : Arena t) {a : ClassEntry} (ha : a ∈ t.lineage c) :
    a.id ≤ c ∧ t.class? a.id = some a := by
  revert ha
  refine h.lineage_induction
    (motive := fun c l => a ∈ l → a.id ≤ c ∧ t.class? a.id = some a) ?_ ?_ ?_ c
  · intro c _ ha
    cases ha
  · intro r hr _ ha
    obtain rfl := List.mem_singleton.mp ha
    rw [h.id hr]
    exact ⟨Nat.le_refl _, hr⟩
  · intro c e p hc hp ih ha
    rcases List.mem_cons.mp ha with rfl | ha
    · rw [h.id hc]
      exact ⟨Nat.le_refl _, hc⟩
    · obtain ⟨hle, hcl⟩ := ih ha
      exact ⟨Nat.le_trans hle (Nat.le_of_lt (h.parent_lt hc hp)), hcl⟩

lemma Arena.lineage_descends (h : Arena t) (c : ClassId) :
    ((t.lineage c).map (·.id)).Pairwise (· > ·) := by
  refine h.lineage_induction (motive := fun _ l => (l.map (·.id)).Pairwise (· > ·)) ?_ ?_ ?_ c
  · intro c _
    exact .nil
  · intro r _ _
    exact List.pairwise_singleton _ _
  · intro c e p hc hp ih
    rw [List.map_cons, List.pairwise_cons]
    refine ⟨?_, ih⟩
    intro i hi
    obtain ⟨a, ha, rfl⟩ := List.mem_map.mp hi
    have hle := (h.mem_lineage ha).1
    have hlt := h.parent_lt hc hp
    rw [h.id hc]
    exact Nat.lt_of_le_of_lt hle hlt

lemma Arena.id_lt_of_nearer (h : Arena t) {nearer farther : List ClassEntry} {a : ClassEntry}
    (hl : t.lineage c = nearer ++ e :: farther) (ha : a ∈ nearer) : e.id < a.id := by
  have hd := h.lineage_descends c
  rw [hl, List.map_append, List.pairwise_append] at hd
  exact hd.2.2 _ (List.mem_map_of_mem ha) _ (List.mem_map_of_mem List.mem_cons_self)

lemma Arena.lineage_ends (h : Arena t) (hc : t.class? c = some e) :
    (t.lineage c).getLast? = t.class? rootId := by
  refine h.induction (motive := fun c => (t.lineage c).getLast? = t.class? rootId) ?_ ?_ hc
  · obtain ⟨r, hr, -, hn⟩ := h.root
    rw [lineage_parentless hr hn, hr]
    rfl
  · intro c e p hc hp ih
    obtain ⟨r, hr, -⟩ := h.root
    rw [h.lineage_child hc hp, List.getLast?_cons, ih, hr]
    rfl

lemma SameShape.lineage_stem (h : SameShape t t') (ha : Arena t) (c : ClassId) :
    (t'.lineage c).map ClassEntry.stem = (t.lineage c).map ClassEntry.stem := by
  have hw : Walk (fun i => (t'.class? i).map ClassEntry.stem) (·.2.2) (some c)
      ((t.lineage c).map ClassEntry.stem) :=
    (ha.walk_lineage c).map ClassEntry.stem h.stem fun _ => rfl
  have hw' : Walk (fun i => (t'.class? i).map ClassEntry.stem) (·.2.2) (some c)
      ((t'.lineage c).map ClassEntry.stem) :=
    ((ha.of_sameShape h).walk_lineage c).map ClassEntry.stem (fun _ => rfl) fun _ => rfl
  exact hw'.unique hw

/-! ### Children -/

lemma Arena.nodup_links (h : Arena t) : t.links.Nodup := by
  refine h.newest_first.imp ?_
  rintro x y hlt rfl
  exact Nat.lt_irrefl _ hlt

lemma Arena.mem_newestChildren (h : Arena t) : i ∈ t.newestChildren c ↔ t.parent? i = some c := by
  rw [newestChildren, ← h.links, List.mem_map]
  constructor
  · rintro ⟨⟨a, b⟩, hl, rfl⟩
    obtain ⟨hab, ha⟩ := List.mem_filter.mp hl
    obtain rfl := of_decide_eq_true ha
    exact hab
  · intro hl
    exact ⟨(c, i), List.mem_filter.mpr ⟨hl, decide_eq_true rfl⟩, rfl⟩

lemma Arena.newestChildren_descend (h : Arena t) (c : ClassId) :
    (t.newestChildren c).Pairwise (· > ·) :=
  List.pairwise_map.mpr (h.newest_first.filter _)

/-! ### The shape of reachable hierarchies -/

/-- All that an arena determines: one parent for each class but the root, one link for each parent,
children in the order of their ids, and lineages that descend to the root. -/
structure WellShaped (t : Hierarchy) : Prop extends Arena t where
  parentless {i : ClassId} {e : ClassEntry} :
    t.class? i = some e → (e.parent = none ↔ i = rootId)
  older_parent {i p : ClassId} {e : ClassEntry} :
    t.class? i = some e → e.parent = some p → p < i ∧ ∃ f, t.class? p = some f
  links_nodup : t.links.Nodup
  children_ascend (c : ClassId) : (t.children c).Pairwise (· < ·)
  mem_children {c i : ClassId} : i ∈ t.children c ↔ t.parent? i = some c
  walk (c : ClassId) : Walk t.class? ClassEntry.parent (some c) (t.lineage c)
  descends (c : ClassId) : ((t.lineage c).map (·.id)).Pairwise (· > ·)
  ends_at_root {c : ClassId} {e : ClassEntry} :
    t.class? c = some e → ∃ r, (t.lineage c).getLast? = some r ∧ r.id = rootId
  missing {c : ClassId} : t.class? c = none → t.lineage c = []

theorem wellShaped_of_reachable (h : Reachable t) : WellShaped t := by
  have ha := h.built.arena
  refine { ha with
    parentless := ha.parent_eq_none_iff
    older_parent := fun hi hp => ⟨ha.parent_lt hi hp, ha.class?_parent hi hp⟩
    links_nodup := ha.nodup_links
    children_ascend := fun c => List.pairwise_reverse.mpr (ha.newestChildren_descend c)
    mem_children := by
      intro c i
      rw [children, List.mem_reverse, ha.mem_newestChildren]
    walk := ha.walk_lineage
    descends := ha.lineage_descends
    ends_at_root := ?ends_at_root
    missing := lineage_missing }
  case ends_at_root =>
    intro c e hc
    obtain ⟨r, hr, -⟩ := ha.root
    exact ⟨r, (ha.lineage_ends hc).trans hr, ha.id hr⟩

def refusedParents : List Call :=
  [.createClass .movable none, .createClass .atom (some .movable),
    .createClass .mob (some .movable), .createClass .mob (some .obj)]

theorem wellShaped_refusedParents :
    (bare.run refusedParents).classes.size = 5 ∧ WellShaped (bare.run refusedParents) :=
  ⟨by decide +kernel, wellShaped_of_reachable (Reachable.bare.run refusedParents)⟩

end ClassTree.Hierarchy
