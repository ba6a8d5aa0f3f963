import ClassTree.Proofs.Hierarchy.Inheritance
import ClassTree.Proofs.Hierarchy.Outline
import Mathlib.Data.List.Forall2
import Mathlib.Data.List.Nodup
import Mathlib.Data.List.Perm.Basic
import Mathlib.Data.Prod.Basic
import Mathlib.Logic.Equiv.Defs
/-!
Hierarchies whose classes are all asked for by their paths alone. Such a hierarchy follows the
paths: which classes there are and what is above them does not depend on the order of the calls,
only the numbers of the classes do.
-/

namespace ClassTree

/-! ### Outlines that follow the paths -/

namespace Outline

variable {o : Outline} {p q r : TypePath} {ps : List TypePath}

structure FollowsPaths (o : Outline) : Prop where
  root : o.has .root = true
  above {p q : TypePath} : o.has p = true → q ∈ p.ancestors → o.has q = true
  parent {x : TypePath × Option TypePath} : x ∈ o → x.2 = x.1.parent?

lemma has_append (o o' : Outline) (p : TypePath) : (o ++ o').has p = (o.has p || o'.has p) :=
  List.any_append

namespace FollowsPaths

lemma has_grow (h : o.FollowsPaths) :
    (o.grow p).has r = true ↔ o.has r = true ∨ r = p ∨ r ∈ p.ancestors := by
  have hhas {p : TypePath} (hp : o.has p = true) :
      (o.grow p).has r = true ↔ o.has r = true ∨ r = p ∨ r ∈ p.ancestors := by
    rw [grow_of_has hp, iff_self_or]
    rintro (rfl | hr)
    · exact hp
    · exact h.above hp hr
  fun_induction TypePath.ancestors p with
  | case1 p hn =>
    obtain rfl := TypePath.parent?_eq_none_iff.mp hn
    rw [hhas h.root, TypePath.ancestors_root]
  | case2 p q hq _ ih =>
    cases hp : o.has p with
    | true => rw [hhas hp, TypePath.ancestors_of_parent? hq]
    | false =>
      have hpr : Outline.has [(p, some q)] r = true ↔ r = p := by simp [has, eq_comm]
      rw [grow_of_parent? hp hq, has_append, Bool.or_eq_true, or_congr_left ih, hpr,
        List.mem_cons, or_assoc]
      exact or_congr_right or_comm

lemma grow (h : o.FollowsPaths) (p : TypePath) : (o.grow p).FollowsPaths where
  root := h.has_grow.mpr (.inl h.root)
  above {q r} hq hr := by
    rw [h.has_grow] at hq ⊢
    rcases hq with hq | rfl | hq
    · exact .inl (h.above hq hr)
    · exact .inr (.inr hr)
    · rw [TypePath.mem_ancestors_iff] at hq hr
      exact .inr (.inr (TypePath.mem_ancestors_iff.mpr (TypePath.isBelow_trans hq hr)))
  parent {x} hx := by
    rcases List.mem_append.mp hx with hx | hx
    · exact h.parent hx
    · obtain ⟨q, -, rfl⟩ := List.mem_map.mp hx
      rfl

lemma foldl_grow (h : o.FollowsPaths) (ps : List TypePath) :
    (ps.foldl Outline.grow o).FollowsPaths ∧ ∀ r, (ps.foldl Outline.grow o).has r = true ↔
      o.has r = true ∨ ∃ q ∈ ps, r = q ∨ r ∈ q.ancestors := by
  induction ps generalizing o with
  | nil => simpa using h
  | cons p ps ih =>
    obtain ⟨hf, hhas⟩ := ih (h.grow p)
    refine ⟨hf, fun r => ?_⟩
    rw [List.foldl_cons, hhas, h.has_grow, List.exists_mem_cons_iff, or_assoc]

end FollowsPaths

end Outline

/-! ### Classes that are asked for by their paths -/

/-- Calls without a parent of choice. They are never refused. -/
inductive Asks : Call → TypePath → Prop
  | getOrCreate (p : TypePath) : Asks (.getOrCreate p) p
  | createClass (p : TypePath) : Asks (.createClass p none) p

lemma Asks.perform {call : Call} {p : TypePath} (h : Asks call p) (t : Hierarchy) :
    t.perform call = ((t.getOrCreate p).1, .ok (some (t.getOrCreate p).2)) := by
  cases h <;> rfl

namespace Hierarchy

variable {t t' : Hierarchy} {c d : ClassId} {e : ClassEntry} {p : TypePath}
  {calls calls' : List Call} {ps ps' : List TypePath}

lemma Arena.run_asks (h : Arena t) (hc : List.Forall₂ Asks calls ps) :
    Arena (t.run calls) ∧ Grown t (t.run calls) ∧
      (t.run calls).outline = ps.foldl Outline.grow t.outline := by
  induction hc generalizing t with
  | nil => exact ⟨h, .refl t, rfl⟩
  | @cons call p calls ps ha _ ih =>
    obtain ⟨harena, hgrown, hout⟩ := ih (h.changes (getOrCreate_changes h p).1)
    rw [run, List.foldl_cons, ha.perform t, ← run]
    refine ⟨harena, (getOrCreate_grown t p).trans hgrown, ?_⟩
    rw [hout, h.outline_getOrCreate, List.foldl_cons]

lemma has_outline_bare : bare.outline.has p = true ↔ p = .root := by
  simp [Outline.has, outline, bare, ClassEntry.new, eq_comm]

lemma followsPaths_bare : Outline.FollowsPaths bare.outline where
  root := rfl
  above {p q} hp hq := by
    obtain rfl := has_outline_bare.mp hp
    rw [TypePath.ancestors_root] at hq
    cases hq
  parent {x} hx := by
    obtain rfl := List.mem_singleton.mp hx
    rfl

/-- The classes are those of the root, of `ps` and of the paths above them, each class below that of
the path above its own. -/
structure FollowsPaths (t : Hierarchy) (ps : List TypePath) : Prop where
  nodup : (t.classes.toList.map (·.path)).Nodup
  mem_paths {p : TypePath} : p ∈ t.classes.toList.map (·.path) ↔
    p = .root ∨ ∃ q ∈ ps, p = q ∨ p ∈ q.ancestors
  parent {c : ClassId} {e : ClassEntry} :
    t.class? c = some e → (t.parent? c).bind t.pathOf? = e.path.parent?
  subtype {c : ClassId} {e : ClassEntry} (p : TypePath) : t.class? c = some e →
    (t.isSubtypeOf c p = true ↔ p = e.path ∨ e.path.isBelow p = true)

lemma Arena.nodup_paths (h : Arena t) : (t.classes.toList.map (·.path)).Nodup := by
  rw [List.Nodup, List.pairwise_iff_getElem]
  intro i j hi hj hlt heq
  simp only [List.length_map, List.getElem_map, Array.getElem_toList, Array.length_toList]
    at hi hj heq
  have hpath := (h.path_eq_iff (Array.getElem?_eq_getElem hi)
    (h.path.mpr ⟨_, Array.getElem?_eq_getElem hj, rfl⟩)).mp heq
  exact Nat.ne_of_lt hlt hpath

lemma Arena.mem_paths (h : Arena t) :
    p ∈ t.classes.toList.map (·.path) ↔ ∃ c, t.lookupPath p = some c := by
  rw [List.mem_map]
  simp only [h.path]
  constructor
  · rintro ⟨e, he, hp⟩
    obtain ⟨c, hc⟩ := exists_of_mem_classes he
    exact ⟨c, e, hc, hp⟩
  · rintro ⟨c, e, hc, hp⟩
    exact ⟨e, Array.mem_toList_iff.mpr (Array.mem_of_getElem? hc), hp⟩

lemma Arena.parent_eq (h : Arena t) (hc : t.class? c = some e)
    (hp : (t.parent? c).bind t.pathOf? = e.path.parent?) :
    e.parent = e.path.parent?.bind t.lookupPath := by
  rw [parent?, hc, Option.bind_some] at hp
  cases hq : e.parent with
  | none => rw [← hp, hq, Option.bind_none, Option.bind_none]
  | some q =>
    obtain ⟨f, hf⟩ := h.class?_parent hc hq
    rw [← hp, hq, Option.bind_some, pathOf?, hf, Option.map_some, Option.bind_some,
      h.path.mpr ⟨f, hf, rfl⟩]

lemma Arena.lineage_paths (h : Arena t)
    (hp : ∀ {c e}, t.class? c = some e → (t.parent? c).bind t.pathOf? = e.path.parent?)
    (hc : t.class? c = some e) : (t.lineage c).map (·.path) = e.path :: e.path.ancestors := by
  refine h.induction (motive := fun c => ∀ {e}, t.class? c = some e →
    (t.lineage c).map (·.path) = e.path :: e.path.ancestors) ?_ ?_ hc hc
  · intro e hc
    obtain ⟨r, hr, hroot, hn⟩ := h.root
    obtain rfl := Option.some.inj (hr.symm.trans hc)
    rw [lineage_parentless hr hn, hroot, TypePath.ancestors_root, List.map_singleton, hroot]
  · intro c e q hc hq ih e' hc'
    obtain rfl := Option.some.inj (hc.symm.trans hc')
    obtain ⟨f, hf⟩ := h.class?_parent hc hq
    have hpar := hp hc
    rw [parent?, hc, Option.bind_some, hq, Option.bind_some, pathOf?, hf, Option.map_some] at hpar
    rw [h.lineage_child hc hq, List.map_cons, ih hf, TypePath.ancestors_of_parent? hpar.symm]

lemma Arena.followsPaths (h : Arena t) (ho : t.outline.FollowsPaths)
    (hhas : ∀ r, t.outline.has r = true ↔ r = .root ∨ ∃ q ∈ ps, r = q ∨ r ∈ q.ancestors) :
    t.FollowsPaths ps := by
  have hparent {c : ClassId} {e : ClassEntry} (hc : t.class? c = some e) :
      (t.parent? c).bind t.pathOf? = e.path.parent? := by
    rw [parent?, hc, Option.bind_some]
    exact ho.parent (x := (e.path, e.parent.bind t.pathOf?))
      (List.mem_map_of_mem (Array.mem_toList_iff.mpr (Array.mem_of_getElem? hc)))
  refine ⟨h.nodup_paths, fun {p} => ?_, hparent, fun {c e} p hc => ?_⟩
  · rw [h.mem_paths, ← hhas, h.has_outline, Option.isSome_iff_exists]
  · have hpaths : t.isSubtypeOf c p = true ↔ p ∈ (t.lineage c).map (·.path) := by
      rw [isSubtypeOf_iff_mem, List.mem_map]
    rw [hpaths, h.lineage_paths hparent hc, List.mem_cons, TypePath.mem_ancestors_iff]

/-! ### Hierarchies that differ in the numbers of their classes -/

def renumber (σ : ClassId → ClassId) (e : ClassEntry) : ClassEntry :=
  { e with id := σ e.id, parent := e.parent.map σ }

structure Renumbered (σ : Equiv.Perm ClassId) (t t' : Hierarchy) : Prop where
  class? (c : ClassId) : t'.class? (σ c) = (t.class? c).map (renumber σ)
  lookupPath (p : TypePath) : t'.lookupPath p = (t.lookupPath p).map σ
  links : t'.links.Perm (t.links.map (Prod.map σ σ))
  registry : t'.registry = t.registry
  slots : t'.slots = t.slots

structure SamePaths (t t' : Hierarchy) : Prop where
  left : Arena t
  right : Arena t'
  perm : (t.classes.toList.map (·.path)).Perm (t'.classes.toList.map (·.path))

/-- The class of another hierarchy that has the path of a class. -/
def counterpart (t t' : Hierarchy) (c : ClassId) : ClassId :=
  ((t.pathOf? c).bind t'.lookupPath).getD c

lemma counterpart_missing (hc : t.class? c = none) : t.counterpart t' c = c := by
  rw [counterpart, pathOf?, hc, Option.map_none, Option.bind_none, Option.getD_none]

namespace SamePaths

lemma symm (h : SamePaths t t') : SamePaths t' t := ⟨h.right, h.left, h.perm.symm⟩

lemma class?_eq_none (h : SamePaths t t') (hc : t.class? c = none) : t'.class? c = none := by
  have hlen := h.perm.length_eq
  simp only [List.length_map, Array.length_toList] at hlen
  rw [class?, Array.getElem?_eq_none_iff] at hc ⊢
  rwa [← hlen]

lemma lookupPath (h : SamePaths t t') (p : TypePath) :
    t'.lookupPath p = (t.lookupPath p).map (t.counterpart t') := by
  have hmem := h.perm.mem_iff (a := p)
  rw [h.left.mem_paths, h.right.mem_paths] at hmem
  cases hc : t.lookupPath p with
  | none =>
    rw [Option.map_none, Option.eq_none_iff_forall_ne_some]
    intro d hd
    obtain ⟨c, hc'⟩ := hmem.mpr ⟨d, hd⟩
    rw [hc] at hc'
    cases hc'
  | some c =>
    obtain ⟨d, hd⟩ := hmem.mp ⟨c, hc⟩
    rw [Option.map_some, counterpart, h.left.pathOf?_lookupPath hc, Option.bind_some, hd,
      Option.getD_some]

lemma counterpart_counterpart (h : SamePaths t t') (c : ClassId) :
    t'.counterpart t (t.counterpart t' c) = c := by
  cases hc : t.class? c with
  | none => rw [counterpart_missing hc, counterpart_missing (h.class?_eq_none hc)]
  | some e =>
    have hp : t.lookupPath e.path = some c := h.left.path.mpr ⟨e, hc, rfl⟩
    have hp' := h.symm.lookupPath e.path
    rw [h.lookupPath, hp] at hp'
    exact (Option.some.inj hp').symm

def numbering (h : SamePaths t t') : Equiv.Perm ClassId :=
  ⟨t.counterpart t', t'.counterpart t, h.counterpart_counterpart, h.symm.counterpart_counterpart⟩

end SamePaths

/-- Classes that are only asked for come without declarations. -/
lemma Grown.blank (h : Grown bare t) (hc : t.class? c = some e) :
    e = .new c e.path e.parent := by
  cases hb : bare.class? c with
  | none =>
    obtain ⟨p, q, rfl⟩ := h.new hb hc
    rfl
  | some r =>
    obtain rfl := Option.some.inj ((h.old hb).symm.trans hc)
    have h0 : c = 0 := by simpa [bare] using lt_size_of_class? hb
    subst h0
    obtain rfl := Option.some.inj hb
    rfl

lemma SamePaths.class? (hs : SamePaths t t') (h : t.FollowsPaths ps) (h' : t'.FollowsPaths ps')
    (hg : Grown bare t) (hg' : Grown bare t') (c : ClassId) :
    t'.class? (hs.numbering c) = (t.class? c).map (renumber hs.numbering) := by
  cases hc : t.class? c with
  | none =>
    have hsame : hs.numbering c = c := counterpart_missing hc
    rw [hsame, hs.class?_eq_none hc, Option.map_none]
  | some e =>
    have hd : t'.lookupPath e.path = some (hs.numbering c) := by
      rw [hs.lookupPath, hs.left.path.mpr ⟨e, hc, rfl⟩]
      rfl
    obtain ⟨e', he', hpath⟩ := hs.right.path.mp hd
    -- Both parents are found by the path of the parent.
    have hparent : e'.parent = e.parent.map hs.numbering := by
      rw [hs.right.parent_eq he' (h'.parent he'), hs.left.parent_eq hc (h.parent hc), hpath,
        Option.map_bind]
      exact Option.bind_congr fun q _ => hs.lookupPath q
    rw [he', Option.map_some, hg'.blank he', hg.blank hc, hpath, hparent]
    rfl

lemma Arena.perm_links {σ : Equiv.Perm ClassId} (h : Arena t) (h' : Arena t')
    (hc : ∀ c, t'.class? (σ c) = (t.class? c).map (renumber σ)) :
    t'.links.Perm (t.links.map (Prod.map σ σ)) := by
  have hparent (c : ClassId) : t'.parent? (σ c) = (t.parent? c).map σ := by
    rw [parent?, hc, parent?, Option.bind_map, Option.map_bind]
    rfl
  have hinj := σ.injective.prodMap σ.injective
  refine (List.perm_ext_iff_of_nodup h'.nodup_links (List.Nodup.map hinj h.nodup_links)).mpr ?_
  rintro ⟨q, c⟩
  obtain ⟨q, rfl⟩ := σ.surjective q
  obtain ⟨c, rfl⟩ := σ.surjective c
  rw [h'.links, hparent, ← Option.map_some, (Option.map_injective σ.injective).eq_iff, ← h.links]
  exact (List.mem_map_of_injective hinj).symm

theorem followsPaths_of_asks (h : List.Forall₂ Asks calls ps) :
    (bare.run calls).FollowsPaths ps ∧
      ∀ {calls' : List Call} {ps' : List TypePath}, List.Forall₂ Asks calls' ps' →
        (∀ p, p ∈ ps' ↔ p ∈ ps) → ∃ σ : Equiv.Perm ClassId,
          Renumbered σ (bare.run calls) (bare.run calls') ∧
          ∀ c, ((bare.run calls').lineage (σ c)).map (·.path) =
            ((bare.run calls).lineage c).map (·.path) := by
  have hrun {calls : List Call} {ps : List TypePath} (h : List.Forall₂ Asks calls ps) :
      Arena (bare.run calls) ∧ Grown bare (bare.run calls) ∧ (bare.run calls).FollowsPaths ps := by
    obtain ⟨ha, hg, ho⟩ := arena_bare.run_asks h
    obtain ⟨hf, hhas⟩ := followsPaths_bare.foldl_grow ps
    rw [← ho] at hf hhas
    refine ⟨ha, hg, ha.followsPaths hf fun r => ?_⟩
    rw [hhas, has_outline_bare]
  obtain ⟨ha, hg, hf⟩ := hrun h
  refine ⟨hf, fun {calls' ps'} h' hp => ?_⟩
  obtain ⟨ha', hg', hf'⟩ := hrun h'
  have hs : SamePaths (bare.run calls) (bare.run calls') := by
    refine ⟨ha, ha', (List.perm_ext_iff_of_nodup hf.nodup hf'.nodup).mpr fun p => ?_⟩
    rw [hf.mem_paths, hf'.mem_paths]
    simp only [hp]
  have hclass := hs.class? hf hf' hg hg'
  refine ⟨hs.numbering, ⟨hclass, hs.lookupPath, ha.perm_links ha' hclass,
    hg'.registry.trans hg.registry.symm, hg'.slots.trans hg.slots.symm⟩, fun c => ?_⟩
  have hc' := hclass c
  cases hc : (bare.run calls).class? c with
  | none =>
    rw [hc, Option.map_none] at hc'
    rw [lineage_missing hc, lineage_missing hc']
  | some e =>
    rw [hc, Option.map_some] at hc'
    rw [ha.lineage_paths hf.parent hc, ha'.lineage_paths hf'.parent hc']
    rfl

def movableFirst : List Call :=
  [.getOrCreate .movable, .createClass .datum none, .getOrCreate .atom]

def movableLast : List Call :=
  [.getOrCreate .datum, .createClass .atom none, .getOrCreate .datum, .createClass .movable none]

theorem followsPaths_movable :
    ((bare.run movableFirst).FollowsPaths [.movable, .datum, .atom] ∧
      ∃ σ : Equiv.Perm ClassId, Renumbered σ (bare.run movableFirst) (bare.run movableLast) ∧
        ∀ c, ((bare.run movableLast).lineage (σ c)).map (·.path) =
          ((bare.run movableFirst).lineage c).map (·.path)) ∧
      (bare.run movableFirst).lookupPath .datum = some 3 ∧
      (bare.run movableLast).lookupPath .datum = some 1 := by
  have hfirst : List.Forall₂ Asks movableFirst [.movable, .datum, .atom] :=
    .cons (.getOrCreate .movable) (.cons (.createClass .datum) (.cons (.getOrCreate .atom) .nil))
  have hlast : List.Forall₂ Asks movableLast [.datum, .atom, .datum, .movable] :=
    .cons (.getOrCreate .datum) (.cons (.createClass .atom)
      (.cons (.getOrCreate .datum) (.cons (.createClass .movable) .nil)))
  obtain ⟨hf, hσ⟩ := followsPaths_of_asks hfirst
  refine ⟨⟨hf, hσ hlast fun p => ?_⟩, ?_, ?_⟩
  · simp only [List.mem_cons, List.not_mem_nil, or_false]
    tauto
  · decide +kernel
  · decide +kernel

end Hierarchy

end ClassTree
