import ClassTree.Hierarchy.Initializer
import ClassTree.Proofs.Hierarchy.Lineage
/-!
Breadth first. A queue search from the root meets the classes level by level, which puts them into
an order that the lineages alone determine.
-/

namespace ClassTree.Hierarchy

variable {t t' : Hierarchy} {c d i p : ClassId} {e : ClassEntry} {l queue met : List ClassId}
  {k n : Nat}

def ancestry (t : Hierarchy) (c : ClassId) : List ClassId := ((t.lineage c).map (·.id)).reverse

def depth (t : Hierarchy) (c : ClassId) : Nat := (t.lineage c).tail.length

inductive Precedes (t : Hierarchy) (c d : ClassId) : Prop
  | shallower (h : t.depth c < t.depth d)
  | newerBranch {common cs ds : List ClassId} {a b : ClassId} (h : t.depth c = t.depth d)
      (hc : t.ancestry c = common ++ a :: cs) (hd : t.ancestry d = common ++ b :: ds) (hab : b < a)

lemma not_precedes_self (t : Hierarchy) (c : ClassId) : ¬ t.Precedes c c := by
  intro h
  cases h with
  | shallower h => exact Nat.lt_irrefl _ h
  | newerBranch _ hc hd hab =>
    have he := List.append_cancel_left (hc.symm.trans hd)
    rw [(List.cons.inj he).1] at hab
    exact Nat.lt_irrefl _ hab

lemma Arena.lineage_root (h : Arena t) : ∃ r, t.lineage rootId = [r] ∧ r.id = rootId := by
  obtain ⟨r, hr, -, hn⟩ := h.root
  exact ⟨r, lineage_parentless hr hn, h.id hr⟩

lemma Arena.depth_root (h : Arena t) : t.depth rootId = 0 := by
  obtain ⟨r, hr, -⟩ := h.lineage_root
  rw [depth, hr]
  rfl

lemma Arena.depth_child (h : Arena t) (hc : t.class? c = some e) (hp : e.parent = some p) :
    t.depth c = t.depth p + 1 := by
  obtain ⟨f, hf⟩ := h.class?_parent hc hp
  rw [depth, depth, h.lineage_child hc hp, List.tail_cons, lineage_eq_cons hf]
  rfl

lemma Arena.ancestry_child (h : Arena t) (hc : t.class? c = some e) (hp : e.parent = some p) :
    t.ancestry c = t.ancestry p ++ [c] := by
  rw [ancestry, h.lineage_child hc hp, List.map_cons, List.reverse_cons, h.id hc]
  rfl

lemma Arena.depth_le_id (h : Arena t) (hc : t.class? c = some e) : t.depth c ≤ c := by
  refine h.induction (motive := fun c => t.depth c ≤ c) ?_ ?_ hc
  · exact Nat.le_of_eq h.depth_root
  · intro c e p hc hp ih
    have hlt := h.parent_lt hc hp
    rw [h.depth_child hc hp]
    exact Nat.succ_le_of_lt (Nat.lt_of_le_of_lt ih hlt)

lemma Arena.depth_eq_zero_iff (h : Arena t) (hc : t.class? c = some e) :
    t.depth c = 0 ↔ c = rootId := by
  constructor
  · intro h0
    cases hp : e.parent with
    | none => exact (h.parent_eq_none_iff hc).mp hp
    | some p =>
      rw [h.depth_child hc hp] at h0
      cases h0
  · rintro rfl
    exact h.depth_root

lemma SameShape.depth (h : SameShape t t') (ha : Arena t) (c : ClassId) :
    t'.depth c = t.depth c := by
  have hlen := congrArg List.length (h.lineage_stem ha c)
  rw [List.length_map, List.length_map] at hlen
  rw [Hierarchy.depth, Hierarchy.depth, List.length_tail, List.length_tail, hlen]

/-! ### Levels -/

structure IsLevel (t : Hierarchy) (k : Nat) (l : List ClassId) : Prop where
  mem (c : ClassId) : c ∈ l ↔ (∃ e, t.class? c = some e) ∧ t.depth c = k
  ordered : l.Pairwise t.Precedes

lemma parent?_eq_some_iff : t.parent? c = some p ↔ ∃ e, t.class? c = some e ∧ e.parent = some p :=
  Option.bind_eq_some_iff

lemma Arena.isLevel_root (h : Arena t) : IsLevel t 0 [rootId] where
  mem c := by
    rw [List.mem_singleton]
    constructor
    · rintro rfl
      obtain ⟨r, hr, -⟩ := h.root
      exact ⟨⟨r, hr⟩, h.depth_root⟩
    · rintro ⟨⟨e, hc⟩, h0⟩
      exact (h.depth_eq_zero_iff hc).mp h0
  ordered := List.pairwise_singleton _ _

lemma Arena.precedes_sibling (h : Arena t) (hc : c ∈ t.newestChildren p)
    (hd : d ∈ t.newestChildren p) (hdc : d < c) : t.Precedes c d := by
  obtain ⟨e, hc, hcp⟩ := parent?_eq_some_iff.mp (h.mem_newestChildren.mp hc)
  obtain ⟨f, hd, hdp⟩ := parent?_eq_some_iff.mp (h.mem_newestChildren.mp hd)
  have hdepth : t.depth c = t.depth d := by rw [h.depth_child hc hcp, h.depth_child hd hdp]
  exact .newerBranch hdepth (h.ancestry_child hc hcp) (h.ancestry_child hd hdp) hdc

lemma Arena.precedes_child (h : Arena t) {q : ClassId} (hpq : t.Precedes p q)
    (hc : c ∈ t.newestChildren p) (hd : d ∈ t.newestChildren q) : t.Precedes c d := by
  obtain ⟨e, hc, hcp⟩ := parent?_eq_some_iff.mp (h.mem_newestChildren.mp hc)
  obtain ⟨f, hd, hdq⟩ := parent?_eq_some_iff.mp (h.mem_newestChildren.mp hd)
  have hdc := h.depth_child hc hcp
  have hdd := h.depth_child hd hdq
  cases hpq with
  | shallower hlt =>
    refine .shallower ?_
    rw [hdc, hdd]
    exact Nat.succ_lt_succ hlt
  | newerBranch heq hp hq hab =>
    have hac := h.ancestry_child hc hcp
    have had := h.ancestry_child hd hdq
    rw [hp, List.append_assoc, List.cons_append] at hac
    rw [hq, List.append_assoc, List.cons_append] at had
    exact .newerBranch (by rw [hdc, hdd, heq]) hac had hab

lemma Arena.isLevel_succ (h : Arena t) (hl : IsLevel t k l) :
    IsLevel t (k + 1) (l.flatMap t.newestChildren) where
  mem c := by
    rw [List.mem_flatMap]
    constructor
    · rintro ⟨p, hp, hc⟩
      obtain ⟨e, hc, hcp⟩ := parent?_eq_some_iff.mp (h.mem_newestChildren.mp hc)
      refine ⟨⟨e, hc⟩, ?_⟩
      rw [h.depth_child hc hcp, ((hl.mem p).mp hp).2]
    · rintro ⟨⟨e, hc⟩, hk⟩
      cases hp : e.parent with
      | none =>
        rw [(h.depth_eq_zero_iff hc).mpr ((h.parent_eq_none_iff hc).mp hp)] at hk
        cases hk
      | some p =>
        rw [h.depth_child hc hp] at hk
        refine ⟨p, (hl.mem p).mpr ⟨h.class?_parent hc hp, Nat.succ.inj hk⟩, ?_⟩
        exact h.mem_newestChildren.mpr (parent?_eq_some_iff.mpr ⟨e, hc, hp⟩)
  ordered := by
    refine List.pairwise_flatMap.mpr ⟨?_, ?_⟩
    · intro p hp
      refine (h.newestChildren_descend p).imp_of_mem ?_
      intro c d hc hd hdc
      exact h.precedes_sibling hc hd hdc
    · refine hl.ordered.imp ?_
      intro p q hpq c hc d hd
      exact h.precedes_child hpq hc hd

lemma Arena.mem_levels (h : Arena t) (hl : IsLevel t k l) :
    c ∈ t.levels n l ↔ (∃ e, t.class? c = some e) ∧ k ≤ t.depth c ∧ t.depth c < k + n := by
  induction n generalizing k l with
  | zero =>
    simp only [levels, List.not_mem_nil, false_iff]
    rintro ⟨-, hle, hlt⟩
    omega
  | succ n ih =>
    rw [levels, List.mem_append, hl.mem, ih (h.isLevel_succ hl)]
    constructor
    · rintro (⟨hc, hk⟩ | ⟨hc, hle, hlt⟩)
      · exact ⟨hc, by omega⟩
      · exact ⟨hc, by omega⟩
    · rintro ⟨hc, hle, hlt⟩
      by_cases hk : t.depth c = k
      · exact .inl ⟨hc, hk⟩
      · exact .inr ⟨hc, by omega⟩

lemma Arena.pairwise_levels (h : Arena t) (hl : IsLevel t k l) :
    (t.levels n l).Pairwise t.Precedes := by
  induction n generalizing k l with
  | zero => exact .nil
  | succ n ih =>
    have hs := h.isLevel_succ hl
    refine List.pairwise_append.mpr ⟨hl.ordered, ih hs, ?_⟩
    intro c hc d hd
    have hck := ((hl.mem c).mp hc).2
    have hdk := ((h.mem_levels hs).mp hd).2.1
    exact .shallower (by omega)

lemma Arena.mem_breadthFirst (h : Arena t) : c ∈ t.breadthFirst ↔ ∃ e, t.class? c = some e := by
  rw [breadthFirst, h.mem_levels h.isLevel_root]
  constructor
  · rintro ⟨hc, -⟩
    exact hc
  · rintro ⟨e, hc⟩
    have hlt := Nat.lt_of_le_of_lt (h.depth_le_id hc) (lt_size_of_class? hc)
    exact ⟨⟨e, hc⟩, Nat.zero_le _, by omega⟩

lemma Arena.pairwise_breadthFirst (h : Arena t) : t.breadthFirst.Pairwise t.Precedes :=
  h.pairwise_levels h.isLevel_root

lemma Arena.nodup_breadthFirst (h : Arena t) : t.breadthFirst.Nodup := by
  refine h.pairwise_breadthFirst.imp ?_
  rintro c d hcd rfl
  exact not_precedes_self t c hcd

/-! ### The search -/

/-- The invariant of the search. The children that it has met are those of the classes that it has
visited. -/
structure Frontier (t : Hierarchy) (queue met : List ClassId) : Prop where
  nodup : queue.Nodup
  subset : queue ⊆ met
  visited {i p : ClassId} : i ∈ met → t.parent? i = some p → p ∈ met ∧ p ∉ queue

lemma Frontier.fresh (h : Frontier t (c :: queue) met) (ha : Arena t) :
    ∀ i ∈ t.newestChildren c, i ∉ met := by
  intro i hi hm
  exact (h.visited hm (ha.mem_newestChildren.mp hi)).2 List.mem_cons_self

end ClassTree.Hierarchy
