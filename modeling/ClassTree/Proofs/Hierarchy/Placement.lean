import ClassTree.Proofs.Hierarchy.Growth
import ClassTree.Proofs.PathOrder
/-!
Asking for a class below a parent of choice. What comes of it is told by what the hierarchy had of
the two paths before.
-/

namespace ClassTree

namespace Hierarchy

variable {t : Hierarchy} {c i : ClassId} {e : ClassEntry} {p q : TypePath}

def pathOf? (t : Hierarchy) (c : ClassId) : Option TypePath := (t.class? c).map (·.path)

lemma Arena.path_eq_iff (h : Arena t) (hc : t.class? c = some e) (hp : t.lookupPath p = some i) :
    e.path = p ↔ c = i := by
  constructor
  · rintro rfl
    exact Option.some.inj ((h.path.mpr ⟨e, hc, rfl⟩).symm.trans hp)
  · rintro rfl
    obtain ⟨f, hf, rfl⟩ := h.path.mp hp
    rw [Option.some.inj (hc.symm.trans hf)]

lemma Arena.pathOf?_lookupPath (h : Arena t) (hp : t.lookupPath p = some c) :
    t.pathOf? c = some p := by
  obtain ⟨e, he, rfl⟩ := h.path.mp hp
  rw [pathOf?, he, Option.map_some]

lemma Arena.ne_rootId (h : Arena t) (hc : t.class? c = some e)
    (hq : ¬ (q = e.path ∨ q.isBelow e.path = true)) : c ≠ rootId := by
  rintro rfl
  obtain ⟨r, hr, hroot, -⟩ := h.root
  obtain rfl := Option.some.inj (hr.symm.trans hc)
  exact hq (hroot ▸ q.eq_root_or_isBelow)

/-- What asking for the class of `p` below `q` comes to. -/
inductive Placed (t : Hierarchy) (p q : TypePath) :
    Hierarchy × Except HierarchyError ClassId → Prop
  | cyclic (hq : q = p ∨ q.isBelow p = true) : Placed t p q (t, .error (.inheritanceCycle p q))
  | created {u : Hierarchy} {a : ClassId} (hq : ¬ (q = p ∨ q.isBelow p = true))
      (hp : t.lookupPath p = none) (hu : t.getOrCreate q = (u, a)) :
      Placed t p q (u.addClass p a, .ok u.classes.size)
  | found {c a : ClassId} (hq : ¬ (q = p ∨ q.isBelow p = true)) (hp : t.lookupPath p = some c)
      (ha : t.lookupPath q = some a) (hc : t.parent? c = some a) : Placed t p q (t, .ok c)
  | elsewhere {c b : ClassId} {r : TypePath} (hq : ¬ (q = p ∨ q.isBelow p = true))
      (hp : t.lookupPath p = some c) (hc : t.parent? c = some b) (hb : t.pathOf? b = some r)
      (hr : r ≠ q) : Placed t p q ((t.getOrCreate q).1, .error (.reparent p r))

lemma Arena.placed_createBelow (h : Arena t) (p q : TypePath) :
    Placed t p q (t.createBelow p q) := by
  by_cases hq : q = p ∨ q.isBelow p = true
  · rw [createBelow, if_pos hq]
    exact .cyclic hq
  obtain ⟨hch, ha⟩ := getOrCreate_changes h q
  have hgrown := getOrCreate_grown t q
  -- No class on the way to `q` has the path `p`.
  have hup : (t.getOrCreate q).1.lookupPath p = t.lookupPath p :=
    lookupPath_getOrCreate t (mt TypePath.eq_or_isBelow_iff.mpr hq)
  cases hg : t.getOrCreate q with
  | mk u a =>
    rw [hg] at hch ha hgrown hup
    cases hp : t.lookupPath p with
    | none =>
      rw [hp] at hup
      simp only [createBelow, if_neg hq, hg, hup]
      exact .created hq hp hg
    | some c =>
      rw [hp] at hup
      obtain ⟨e, hc, rfl⟩ := h.path.mp hp
      obtain ⟨b, hb, -⟩ := h.parent hc (h.ne_rootId hc hq)
      obtain ⟨f, hf⟩ := h.class?_parent hc hb
      have hparent : t.parent? c = some b := by rw [parent?, hc, Option.bind_some, hb]
      have hparent' : u.parent? c = some b := by rw [parent?, hgrown.old hc, Option.bind_some, hb]
      have hba : f.path = q ↔ b = a := (h.changes hch).path_eq_iff (hgrown.old hf) ha
      simp only [createBelow, if_neg hq, hg, hup, hparent', Option.some.injEq, Option.bind_some,
        hgrown.old hf, Option.map_some, Option.getD_some]
      split
      · next hb' =>
        subst hb'
        obtain rfl := hba.mpr rfl
        have hq' : t.lookupPath f.path = some b := h.path.mpr ⟨f, hf, rfl⟩
        rw [getOrCreate_of_lookupPath hq'] at hg
        obtain ⟨rfl, -⟩ := Prod.mk.inj hg
        exact .found hq hp hq' hparent
      · next hb' =>
        have hr : t.pathOf? b = some f.path := by rw [pathOf?, hf, Option.map_some]
        have hx := Placed.elsewhere hq hp hparent hr (mt hba.mp hb')
        rwa [hg] at hx

end Hierarchy

end ClassTree
