import ClassTree.Proofs.Hierarchy.Placement
/-!
The outline of a hierarchy lists its classes as they were created, each by its path and that of its
parent. What creating a class comes to can be told from the outline alone.
-/

namespace ClassTree

/-! ### Outlines -/

abbrev Outline := List (TypePath × Option TypePath)

namespace Outline

def has (o : Outline) (p : TypePath) : Bool := o.any (·.1 = p)

def parent? (o : Outline) (p : TypePath) : Option TypePath := (o.find? (·.1 = p)).bind (·.2)

/-- Adds what is missing of a path and of those above it, up to the first that is there. -/
def grow (o : Outline) (p : TypePath) : Outline :=
  o ++ ((p :: p.ancestors).takeWhile fun q => !o.has q).reverse.map fun q => (q, q.parent?)

def place (o : Outline) (p : TypePath) : Option TypePath → Outline
  | none => o.grow p
  | some q => if (o.grow q).has p then o.grow q else o.grow q ++ [(p, some q)]

/-- What keeps a class from being created or found below a parent. -/
def problems (o : Outline) (p : TypePath) : Option TypePath → List HierarchyError
  | none => []
  | some q =>
    if q = p ∨ q.isBelow p then [.inheritanceCycle p q]
    else match o.parent? p with
      | none => []
      | some r => if r = q then [] else [.reparent p r]

def builtin : Outline :=
  [(.root, none), (.datum, some .root), (.atom, some .datum), (.movable, some .atom),
    (.area, some .atom), (.turf, some .atom), (.obj, some .movable), (.mob, some .movable),
    (.list, some .root)]

variable {o : Outline} {p q : TypePath}

lemma grow_of_has (h : o.has p = true) : o.grow p = o := by
  simp [grow, h]

lemma grow_of_parent? (h : o.has p = false) (hq : p.parent? = some q) :
    o.grow p = o.grow q ++ [(p, some q)] := by
  simp [grow, h, TypePath.ancestors_of_parent? hq, hq]

lemma parent?_of_not_has (h : o.has p = false) : o.parent? p = none := by
  rw [parent?, List.find?_eq_none.mpr, Option.bind_none]
  exact fun x hx => (List.any_eq_false.mp h) x hx

end Outline

namespace Hierarchy

variable {t t' : Hierarchy} {c i : ClassId} {e : ClassEntry} {p q : TypePath}

def outline (t : Hierarchy) : Outline :=
  t.classes.toList.map fun e => (e.path, e.parent.bind t.pathOf?)

lemma exists_of_mem_classes (h : e ∈ t.classes.toList) : ∃ i, t.class? i = some e :=
  Array.mem_iff_getElem?.mp (Array.mem_toList_iff.mp h)

lemma Arena.has_outline (h : Arena t) (p : TypePath) :
    t.outline.has p = (t.lookupPath p).isSome := by
  rw [Bool.eq_iff_iff, Option.isSome_iff_exists]
  simp only [h.path, Outline.has, outline, List.any_map, List.any_eq_true, Function.comp_apply,
    decide_eq_true_eq]
  constructor
  · rintro ⟨e, he, hp⟩
    obtain ⟨i, hi⟩ := exists_of_mem_classes he
    exact ⟨i, e, hi, hp⟩
  · rintro ⟨i, e, hi, hp⟩
    exact ⟨e, Array.mem_toList_iff.mpr (Array.mem_of_getElem? hi), hp⟩

lemma Arena.parent?_outline (h : Arena t) (hc : t.class? c = some e) :
    t.outline.parent? e.path = e.parent.bind t.pathOf? := by
  rw [Outline.parent?, outline, List.find?_map]
  cases hf : t.classes.toList.find? ((fun x : TypePath × Option TypePath => decide (x.1 = e.path)) ∘
      fun e => (e.path, e.parent.bind t.pathOf?)) with
  | none =>
    have hn := List.find?_eq_none.mp hf e (Array.mem_toList_iff.mpr (Array.mem_of_getElem? hc))
    simp at hn
  | some e' =>
    obtain ⟨i, hi⟩ := exists_of_mem_classes (List.mem_of_find?_eq_some hf)
    have hp : e'.path = e.path := by simpa using List.find?_some hf
    -- Two classes of one path are one class.
    obtain rfl := (h.path_eq_iff hi (h.path.mpr ⟨e, hc, rfl⟩)).mp hp
    rw [Option.some.inj (hi.symm.trans hc)]
    rfl

lemma SameShape.pathOf? (h : SameShape t t') (c : ClassId) : t'.pathOf? c = t.pathOf? c := by
  have hs := congrArg (Option.map (·.2.1)) (h.stem c)
  rw [Option.map_map, Option.map_map] at hs
  exact hs

lemma SameShape.outline (h : SameShape t t') : t'.outline = t.outline := by
  have hp : t'.pathOf? = t.pathOf? := funext h.pathOf?
  refine List.ext_getElem? fun i => ?_
  have hs := congrArg (Option.map fun s => (s.2.1, s.2.2.bind t.pathOf?)) (h.stem i)
  rw [Option.map_map, Option.map_map] at hs
  rw [Hierarchy.outline, Hierarchy.outline, hp, List.getElem?_map, List.getElem?_map,
    Array.getElem?_toList, Array.getElem?_toList]
  exact hs

lemma Arena.outline_addClass (h : Arena t) {a : ClassId} (ha : a < t.classes.size) :
    (t.addClass p a).outline = t.outline ++ [(p, t.pathOf? a)] := by
  have hpath {i : ClassId} (hi : i < t.classes.size) :
      (t.addClass p a).pathOf? i = t.pathOf? i := by
    rw [pathOf?, class?_addClass, if_neg (Nat.ne_of_lt hi), pathOf?]
  have hold : t.classes.toList.map (fun e => (e.path, e.parent.bind (t.addClass p a).pathOf?)) =
      t.outline := by
    refine List.map_congr_left fun e he => ?_
    obtain ⟨i, hi⟩ := exists_of_mem_classes he
    cases hp : e.parent with
    | none => rfl
    | some b =>
      have hb := Nat.lt_trans (h.parent_lt hi hp) (lt_size_of_class? hi)
      simp [hpath hb]
  change (t.classes.push (.new t.classes.size p (some a))).toList.map _ = _
  rw [Array.toList_push, List.map_append, hold]
  simp [ClassEntry.new, hpath ha]

lemma Arena.outline_getOrCreate (h : Arena t) (p : TypePath) :
    (t.getOrCreate p).1.outline = t.outline.grow p := by
  induction p using h.path_induction with
  | found p c hc =>
    rw [getOrCreate_of_lookupPath hc, Outline.grow_of_has]
    rw [h.has_outline, hc]
    rfl
  | missing p q hp hq ih =>
    obtain ⟨hc, hl⟩ := getOrCreate_changes h q
    have hau := h.changes hc
    have hn : t.outline.has p = false := by
      rw [h.has_outline, hp]
      rfl
    rw [getOrCreate_of_parent? hp hq, hau.outline_addClass (hau.lt_size hl),
      hau.pathOf?_lookupPath hl, ih, Outline.grow_of_parent? hn hq]

/-! ### Creating classes -/

lemma Arena.parent?_outline_of_parent? (h : Arena t) {b : ClassId} (hp : t.lookupPath p = some c)
    (hc : t.parent? c = some b) : t.outline.parent? p = t.pathOf? b := by
  obtain ⟨e, he, rfl⟩ := h.path.mp hp
  rw [Hierarchy.parent?, he, Option.bind_some] at hc
  rw [h.parent?_outline he, hc, Option.bind_some]

lemma Arena.reports_createBelow (h : Arena t) (p q : TypePath) :
    Reports (t.createBelow p q).2 (t.outline.problems p (some q))
      fun _ => (t.createBelow p q).1.outline = t.outline.place p (some q) := by
  have hplaced := h.placed_createBelow p q
  generalize t.createBelow p q = result at *
  cases hplaced with
  | cyclic hq =>
    rw [Outline.problems, if_pos hq]
    exact .error rfl rfl
  | @created u a hq hp hu =>
    have hn : t.outline.has p = false := by rw [h.has_outline, hp, Option.isSome_none]
    rw [Outline.problems, if_neg hq, Outline.parent?_of_not_has hn]
    refine .of_ok rfl ?_
    obtain ⟨hch, hqu⟩ := getOrCreate_changes h q
    have hpu := lookupPath_getOrCreate t (mt TypePath.eq_or_isBelow_iff.mpr hq)
    rw [Outline.place, ← h.outline_getOrCreate q]
    rw [hu] at hch hqu hpu ⊢
    have hau := h.changes hch
    rw [hau.has_outline, hpu, hp, hau.outline_addClass (hau.lt_size hqu),
      hau.pathOf?_lookupPath hqu]
    rfl
  | found hq hp ha hc =>
    have hqo : t.outline.has q = true := by rw [h.has_outline, ha, Option.isSome_some]
    have hpo : t.outline.has p = true := by rw [h.has_outline, hp, Option.isSome_some]
    rw [Outline.problems, if_neg hq, h.parent?_outline_of_parent? hp hc, h.pathOf?_lookupPath ha]
    dsimp only
    rw [if_pos rfl]
    refine .of_ok rfl ?_
    rw [Outline.place, Outline.grow_of_has hqo, if_pos hpo]
  | elsewhere hq hp hc hb hr =>
    rw [Outline.problems, if_neg hq, h.parent?_outline_of_parent? hp hc, hb]
    dsimp only
    rw [if_neg hr]
    exact .error rfl rfl

lemma Arena.reports_createClass (h : Arena t) (p : TypePath) (parent : Option TypePath) :
    Reports (t.createClass p parent).2 (t.outline.problems p parent)
      fun _ => (t.createClass p parent).1.outline = t.outline.place p parent := by
  cases parent with
  | none => exact .of_ok rfl (h.outline_getOrCreate p)
  | some q => exact h.reports_createBelow p q

lemma outline_builtin : builtin.outline = Outline.builtin := by decide +kernel

end Hierarchy

end ClassTree
