import ClassTree.Proofs.Hierarchy.PathClosure
/-!
Asking for the class of a path creates what is missing of the way to it: one class for each path
below the nearest one that has a class, from the top down, each below the one before it.
-/

namespace ClassTree.Hierarchy

variable {t u : Hierarchy} {a c i : ClassId} {e : ClassEntry} {p q r : TypePath}

/-! ### The way up from a path -/

/-- The paths on the way up that come before the first one with a class. -/
def missing (t : Hierarchy) (p : TypePath) : List TypePath :=
  (p :: p.ancestors).takeWhile fun q => (t.lookupPath q).isNone

def nearest? (t : Hierarchy) (p : TypePath) : Option TypePath :=
  (p :: p.ancestors).find? fun q => (t.lookupPath q).isSome

lemma missing_of_lookupPath (hp : t.lookupPath p = some c) : t.missing p = [] := by
  rw [missing, List.takeWhile_cons_of_neg]
  simp [hp]

lemma nearest?_of_lookupPath (hp : t.lookupPath p = some c) : t.nearest? p = some p := by
  rw [nearest?, List.find?_cons_of_pos]
  simp [hp]

lemma missing_of_parent? (hp : t.lookupPath p = none) (hr : p.parent? = some r) :
    t.missing p = p :: t.missing r := by
  rw [missing, List.takeWhile_cons_of_pos, TypePath.ancestors_of_parent? hr, missing]
  simp [hp]

lemma nearest?_of_parent? (hp : t.lookupPath p = none) (hr : p.parent? = some r) :
    t.nearest? p = t.nearest? r := by
  rw [nearest?, List.find?_cons_of_neg, TypePath.ancestors_of_parent? hr, nearest?]
  simp [hp]

lemma Arena.exists_nearest? (h : Arena t) (p : TypePath) :
    ∃ q a, t.nearest? p = some q ∧ t.lookupPath q = some a := by
  induction p using h.path_induction with
  | found p c hc => exact ⟨p, c, nearest?_of_lookupPath hc, hc⟩
  | missing p r hp hr ih =>
    rw [nearest?_of_parent? hp hr]
    exact ih

lemma Arena.eq_or_isBelow_nearest? (h : Arena t) (hq : t.nearest? p = some q) :
    q = p ∨ p.isBelow q = true := by
  induction p using h.path_induction with
  | found p c hc =>
    rw [nearest?_of_lookupPath hc] at hq
    exact .inl (Option.some.inj hq).symm
  | missing p r hp hr ih =>
    rw [nearest?_of_parent? hp hr] at hq
    exact .inr ((TypePath.isBelow_iff_of_parent? hr).mpr (ih hq))

lemma Arena.mem_missing_iff (h : Arena t) (hq : t.nearest? p = some q) :
    r ∈ t.missing p ↔ (r = p ∨ p.isBelow r = true) ∧ r.isBelow q = true := by
  induction p using h.path_induction with
  | found p c hc =>
    rw [nearest?_of_lookupPath hc] at hq
    obtain rfl := Option.some.inj hq
    rw [missing_of_lookupPath hc, iff_false_left List.not_mem_nil]
    rintro ⟨rfl | hpr, hrp⟩
    · exact (TypePath.isBelow_iff.mp hrp).2 rfl
    · exact (TypePath.isBelow_iff.mp (TypePath.isBelow_trans hpr hrp)).2 rfl
  | missing p s hp hs ih =>
    rw [nearest?_of_parent? hp hs] at hq
    have hpq : p.isBelow q = true :=
      (TypePath.isBelow_iff_of_parent? hs).mpr (h.eq_or_isBelow_nearest? hq)
    rw [missing_of_parent? hp hs, List.mem_cons, ih hq, TypePath.isBelow_iff_of_parent? hs]
    constructor
    · rintro (rfl | ⟨hr, hrq⟩)
      · exact ⟨.inl rfl, hpq⟩
      · exact ⟨.inr hr, hrq⟩
    · rintro ⟨rfl | hr, hrq⟩
      · exact .inl rfl
      · exact .inr ⟨hr, hrq⟩

/-! ### Chains of new classes -/

def addChain (t : Hierarchy) (a : ClassId) : List TypePath → Hierarchy × ClassId
  | [] => (t, a)
  | p :: ps => (t.addClass p a).addChain t.classes.size ps

/-- Classes without declarations, numbered from `first` on. The first is a child of `a`, each other
one of the class before it. -/
def chain (first a : ClassId) : List TypePath → List ClassEntry
  | [] => []
  | p :: ps => .new first p (some a) :: chain (first + 1) first ps

lemma addChain_concat (t : Hierarchy) (a : ClassId) (ps : List TypePath) (p : TypePath) :
    t.addChain a (ps ++ [p]) =
      ((t.addChain a ps).1.addClass p (t.addChain a ps).2, (t.addChain a ps).1.classes.size) := by
  induction ps generalizing t a with
  | nil => rfl
  | cons q ps ih => exact ih (t.addClass q a) t.classes.size

lemma classes_addChain (t : Hierarchy) (a : ClassId) (ps : List TypePath) :
    (t.addChain a ps).1.classes.toList = t.classes.toList ++ chain t.classes.size a ps := by
  induction ps generalizing t a with
  | nil => rw [chain, List.append_nil, addChain]
  | cons p ps ih =>
    have hsize : (t.addClass p a).classes.size = t.classes.size + 1 := Array.size_push _
    have hlist : (t.addClass p a).classes.toList =
        t.classes.toList ++ [.new t.classes.size p (some a)] := Array.toList_push
    rw [addChain, ih, hsize, hlist, List.append_assoc, chain]
    rfl

lemma Arena.getOrCreate_eq_addChain (h : Arena t) (hq : t.nearest? p = some q)
    (ha : t.lookupPath q = some a) : t.getOrCreate p = t.addChain a (t.missing p).reverse := by
  induction p using h.path_induction with
  | found p c hc =>
    rw [nearest?_of_lookupPath hc] at hq
    obtain rfl := Option.some.inj hq
    rw [getOrCreate_of_lookupPath ha, missing_of_lookupPath ha]
    rfl
  | missing p r hp hr ih =>
    rw [nearest?_of_parent? hp hr] at hq
    -- What is missing above `p` is created before `p`, so `p` ends the chain.
    rw [getOrCreate_of_parent? hp hr, ih hq, missing_of_parent? hp hr, List.reverse_cons,
      addChain_concat]

lemma Arena.parent_getOrCreate (h : Arena t) (hn : t.class? i = none)
    (hi : (t.getOrCreate p).1.class? i = some e) : ∃ b f, e.parent = some b ∧
      (t.getOrCreate p).1.class? b = some f ∧ e.path.parent? = some f.path := by
  induction p using h.path_induction with
  | found p c hc =>
    rw [getOrCreate_of_lookupPath hc, hn] at hi
    cases hi
  | missing p r hp hr ih =>
    obtain ⟨hch, hl⟩ := getOrCreate_changes h r
    have hgrown := Grown.addClass (t.getOrCreate r).1 p (t.getOrCreate r).2
    rw [getOrCreate_of_parent? hp hr] at hi ⊢
    rw [class?_addClass] at hi
    split at hi
    · -- The new class of `p` is a child of the class of `r`, found or created just before.
      obtain rfl := Option.some.inj hi
      obtain ⟨f, hf, hpath⟩ := (h.changes hch).path.mp hl
      exact ⟨_, f, rfl, hgrown.old hf, hpath ▸ hr⟩
    · obtain ⟨b, f, hb, hf, hpath⟩ := ih hi
      exact ⟨b, f, hb, hgrown.old hf, hpath⟩

/-! ### Asking for a class -/

/-- Class `c` of `u` is that of the path `p`, and to `t` only what was missing of the way from `q`,
the path of class `a`, was added. -/
structure Completes (t : Hierarchy) (p q : TypePath) (a : ClassId) (u : Hierarchy) (c : ClassId) :
    Prop where
  path : u.pathOf? c = some p
  nearest : t.nearest? p = some q
  base : t.lookupPath q = some a
  between {r : TypePath} :
    r ∈ t.missing p ↔ (r = p ∨ p.isBelow r = true) ∧ r.isBelow q = true
  classes : u.classes.toList = t.classes.toList ++ chain t.classes.size a (t.missing p).reverse
  parent {i : ClassId} {e : ClassEntry} : t.class? i = none → u.class? i = some e →
    ∃ b f, e.parent = some b ∧ u.class? b = some f ∧ e.path.parent? = some f.path
  old {i : ClassId} {e : ClassEntry} : t.class? i = some e → u.class? i = some e
  registry : u.registry = t.registry
  slots : u.slots = t.slots
  again : u.perform (.getOrCreate p) = (u, .ok (some c))

theorem completes_of_reachable (h : Reachable t) (p : TypePath) :
    ∃ u c q a, t.perform (.getOrCreate p) = (u, .ok (some c)) ∧ t.Completes p q a u c := by
  have ht := h.built.arena
  obtain ⟨q, a, hq, ha⟩ := ht.exists_nearest? p
  obtain ⟨hch, hl⟩ := getOrCreate_changes ht p
  have hgrown := getOrCreate_grown t p
  refine ⟨(t.getOrCreate p).1, (t.getOrCreate p).2, q, a, rfl, ?_⟩
  constructor
  case path => exact (ht.changes hch).pathOf?_lookupPath hl
  case nearest => exact hq
  case base => exact ha
  case between => exact ht.mem_missing_iff hq
  case classes => rw [ht.getOrCreate_eq_addChain hq ha, classes_addChain]
  case parent => exact ht.parent_getOrCreate
  case old => exact hgrown.old
  case registry => exact hgrown.registry
  case slots => exact hgrown.slots
  case again => rw [perform, getOrCreate_of_lookupPath hl]

def chest : TypePath :=
  TypePath.movable.append ⟨['c', 'h', 'e', 's', 't'], by decide, by decide⟩

def drawer : TypePath := chest.append ⟨['d', 'r', 'a', 'w', 'e', 'r'], by decide, by decide⟩

/-- Nothing is created above `/atom/movable`, which has a class while `/atom` has none. -/
theorem completes_drawer :
    Reachable (bare.run movableAlone) ∧
      (∃ u c q a, (bare.run movableAlone).perform (.getOrCreate drawer) = (u, .ok (some c)) ∧
        (bare.run movableAlone).Completes drawer q a u c) ∧
      (bare.run movableAlone).nearest? drawer = some .movable ∧
      (bare.run movableAlone).missing drawer = [drawer, chest] ∧
      ((bare.run movableAlone).perform (.getOrCreate drawer)).1.lookupPath .atom = none := by
  have hr := Reachable.bare.run movableAlone
  exact ⟨hr, completes_of_reachable hr drawer, by decide +kernel, by decide +kernel,
    by decide +kernel⟩

end ClassTree.Hierarchy
