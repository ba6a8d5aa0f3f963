import ClassTree.Hierarchy.Resolve
import ClassTree.Proofs.Hierarchy.Lineage
/-!
Inheritance as an order. A class inherits from another exactly if the lineage of that one is an end
of its own, so the order of classes is the order of the ends of lists: a tree below the root.
-/

namespace ClassTree.Hierarchy

variable {t : Hierarchy} {a b c : ClassId} {e : ClassEntry} {p : TypePath}

lemma isSubclassOf_iff_mem : t.isSubclassOf c a = true ↔ ∃ e ∈ t.lineage c, e.id = a := by
  simp only [isSubclassOf, List.any_eq_true, decide_eq_true_eq]

lemma isSubtypeOf_iff_mem : t.isSubtypeOf c p = true ↔ ∃ e ∈ t.lineage c, e.path = p := by
  simp only [isSubtypeOf, List.any_eq_true, decide_eq_true_eq]

lemma mem_lineage_self (hc : t.class? c = some e) : e ∈ t.lineage c := by
  rw [lineage_eq_cons hc]
  exact List.mem_cons_self

/-- What follows a class in a lineage is its own. -/
lemma Arena.lineage_of_append (h : Arena t) {nearer farther : List ClassEntry}
    (hl : t.lineage c = nearer ++ e :: farther) : t.lineage e.id = e :: farther := by
  revert nearer
  refine h.lineage_induction
    (motive := fun _ l => ∀ {nearer}, l = nearer ++ e :: farther → t.lineage e.id = e :: farther)
    ?_ ?_ ?_ c
  · intro c _ nearer hl
    simp at hl
  · intro r hr hn nearer hl
    obtain ⟨rfl, rfl, rfl⟩ : nearer = [] ∧ r = e ∧ [] = farther := by
      cases nearer <;> simp_all
    rw [h.id hr, lineage_parentless hr hn]
  · intro c f p hc hp ih nearer hl
    cases nearer with
    | nil =>
      obtain ⟨rfl, rfl⟩ := List.cons.inj hl
      rw [h.id hc, h.lineage_child hc hp]
    | cons _ nearer => exact ih (List.cons.inj hl).2

lemma Arena.lineage_suffix (h : Arena t) (he : e ∈ t.lineage c) :
    t.lineage e.id <:+ t.lineage c := by
  obtain ⟨nearer, farther, hl⟩ := List.append_of_mem he
  rw [h.lineage_of_append hl, hl]
  exact List.suffix_append nearer _

lemma Arena.isSubclassOf_iff (h : Arena t) : t.isSubclassOf c a = true ↔
    (∃ e, t.class? a = some e) ∧ t.lineage a <:+ t.lineage c := by
  rw [isSubclassOf_iff_mem]
  constructor
  · rintro ⟨e, he, rfl⟩
    exact ⟨⟨e, (h.mem_lineage he).2⟩, h.lineage_suffix he⟩
  · rintro ⟨⟨e, ha⟩, hs⟩
    exact ⟨e, hs.subset (mem_lineage_self ha), h.id ha⟩

lemma Arena.le_of_isSubclassOf (h : Arena t) (hca : t.isSubclassOf c a = true) : a ≤ c := by
  obtain ⟨e, he, rfl⟩ := isSubclassOf_iff_mem.mp hca
  exact (h.mem_lineage he).1

lemma class?_of_isSubclassOf (hca : t.isSubclassOf c a = true) :
    ∃ e, t.class? c = some e := by
  cases hc : t.class? c with
  | some e => exact ⟨e, rfl⟩
  | none =>
    obtain ⟨e, he, -⟩ := isSubclassOf_iff_mem.mp hca
    rw [lineage_missing hc] at he
    cases he

lemma Arena.isSubtypeOf_iff (h : Arena t) : t.isSubtypeOf c p = true ↔
    ∃ a e, t.class? a = some e ∧ e.path = p ∧ t.isSubclassOf c a = true := by
  rw [isSubtypeOf_iff_mem]
  constructor
  · rintro ⟨e, he, hp⟩
    exact ⟨e.id, e, (h.mem_lineage he).2, hp, isSubclassOf_iff_mem.mpr ⟨e, he, rfl⟩⟩
  · rintro ⟨a, e, ha, hp, hca⟩
    obtain ⟨f, hf, rfl⟩ := isSubclassOf_iff_mem.mp hca
    obtain rfl := Option.some.inj (ha.symm.trans (h.mem_lineage hf).2)
    exact ⟨e, hf, hp⟩

lemma Arena.isSubclassOf_rootId (h : Arena t) (hc : t.class? c = some e) :
    t.isSubclassOf c rootId = true := by
  obtain ⟨r, hr, -⟩ := h.root
  have hlast : (t.lineage c).getLast? = some r := (h.lineage_ends hc).trans hr
  exact isSubclassOf_iff_mem.mpr ⟨r, List.mem_of_getLast? hlast, h.id hr⟩

/-- The classes in the order of inheritance, the root on top, and the two ways to ask for it. -/
structure InheritanceTree (t : Hierarchy) : Prop where
  subtype_iff {c : ClassId} {p : TypePath} : t.isSubtypeOf c p = true ↔
    ∃ a e, t.class? a = some e ∧ e.path = p ∧ t.isSubclassOf c a = true
  exist {a c : ClassId} : t.isSubclassOf c a = true →
    (∃ e, t.class? c = some e) ∧ ∃ e, t.class? a = some e
  refl {c : ClassId} {e : ClassEntry} : t.class? c = some e → t.isSubclassOf c c = true
  trans {a b c : ClassId} :
    t.isSubclassOf c b = true → t.isSubclassOf b a = true → t.isSubclassOf c a = true
  antisymm {a c : ClassId} : t.isSubclassOf c a = true → t.isSubclassOf a c = true → a = c
  root {c : ClassId} {e : ClassEntry} : t.class? c = some e → t.isSubclassOf c rootId = true
  comparable {a b c : ClassId} : t.isSubclassOf c a = true → t.isSubclassOf c b = true →
    t.isSubclassOf a b = true ∨ t.isSubclassOf b a = true

theorem inheritanceTree_of_reachable (h : Reachable t) : InheritanceTree t := by
  have ha := h.built.arena
  refine ⟨ha.isSubtypeOf_iff, ?exist, ?refl, ?trans, ?antisymm, ha.isSubclassOf_rootId,
    ?comparable⟩
  case exist =>
    exact fun hca => ⟨class?_of_isSubclassOf hca, (ha.isSubclassOf_iff.mp hca).1⟩
  case refl =>
    exact fun {c e} hc => ha.isSubclassOf_iff.mpr ⟨⟨e, hc⟩, List.suffix_rfl⟩
  case trans =>
    intro a b c hcb hba
    obtain ⟨-, hcb⟩ := ha.isSubclassOf_iff.mp hcb
    obtain ⟨hex, hba⟩ := ha.isSubclassOf_iff.mp hba
    exact ha.isSubclassOf_iff.mpr ⟨hex, hba.trans hcb⟩
  case antisymm =>
    intro a c hca hac
    exact Nat.le_antisymm (ha.le_of_isSubclassOf hca) (ha.le_of_isSubclassOf hac)
  case comparable =>
    intro a b c hca hcb
    obtain ⟨hexa, hca⟩ := ha.isSubclassOf_iff.mp hca
    obtain ⟨hexb, hcb⟩ := ha.isSubclassOf_iff.mp hcb
    -- Of two ends of one list the shorter is an end of the longer.
    rcases List.suffix_or_suffix_of_suffix hca hcb with hs | hs
    · exact .inr (ha.isSubclassOf_iff.mpr ⟨hexa, hs⟩)
    · exact .inl (ha.isSubclassOf_iff.mpr ⟨hexb, hs⟩)

/-- `/atom/movable` inherits from `/mob` and not from `/atom`, which its path is below. -/
def besidePaths : List Call :=
  [.createClass .movable (some .mob), .createClass .atom (some .mob),
    .createClass .obj (some .movable)]

theorem inheritanceTree_besidePaths :
    (bare.run besidePaths).isSubtypeOf 4 .mob = true ∧
      (bare.run besidePaths).isSubtypeOf 4 .atom = false ∧
      InheritanceTree (bare.run besidePaths) :=
  ⟨by decide +kernel, by decide +kernel,
    inheritanceTree_of_reachable (Reachable.bare.run besidePaths)⟩

end ClassTree.Hierarchy
