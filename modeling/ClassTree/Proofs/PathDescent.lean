import ClassTree.Proofs.PathGrammar
import ClassTree.Proofs.PathOrder
import Mathlib.Data.List.DropRight
import Mathlib.Data.List.Infix
/-!
Three ways to tell which paths lie above a path, on nothing but texts: a text goes on with a slash
where the other ends, one text comes out when the other is cut at its last slash again and again,
and the names between the slashes of one are the first of those of the other. All of them agree.
-/

namespace ClassTree

lemma Segment.chars_injective : Function.Injective Segment.chars := by
  rintro ⟨cs, _, _⟩ ⟨ds, _, _⟩ rfl
  rfl

namespace TypePath

variable {p q r : TypePath} {cs ds front name : List Char} {out : List (List Char)}

/-! ### Names between slashes -/

/-- The names in a text: what stands between slashes, without what is empty. -/
def names (cs : List Char) : List (List Char) := (splitSlash cs).filter (· ≠ [])

lemma names_append (cs ds : List Char) : names (cs ++ '/' :: ds) = names cs ++ names ds := by
  rw [names, splitSlash_append_slash, List.filter_append]
  rfl

lemma names_chars (p : TypePath) : names p.chars = p.segments.map Segment.chars := parts_chars p

lemma names_prefix_iff : names q.chars <+: names p.chars ↔ q.segments <+: p.segments := by
  rw [names_chars, names_chars, List.prefix_map_iff_of_injective Segment.chars_injective]

/-! ### A slash where the other text ends -/

/-- A text lies below another if it begins with the other and a slash, and below that of the root in
any case. No text lies below itself. -/
def IsTextBelow (cs ds : List Char) : Prop := cs ≠ ds ∧ (ds = ['/'] ∨ ds ++ ['/'] <+: cs)

instance : Decidable (IsTextBelow cs ds) := inferInstanceAs (Decidable (_ ∧ _))

lemma chars_injective : Function.Injective chars := fun _ _ h =>
  text_injective (congrArg String.ofList h)

lemma chars_eq_slash_iff : p.chars = ['/'] ↔ p = root :=
  ⟨fun h => chars_injective h, fun h => h ▸ rfl⟩

lemma segments_prefix_of_chars (h : q.chars ++ ['/'] <+: p.chars) : q.segments <+: p.segments := by
  obtain ⟨rest, hrest⟩ := h
  rw [List.append_assoc, List.singleton_append] at hrest
  -- names end at the slash that follows the other text, so that none of them is cut in two
  rw [← names_prefix_iff, ← hrest, names_append]
  exact List.prefix_append _ _

lemma chars_prefix_of_segments (hq : q ≠ root) (hne : q ≠ p) (h : q.segments <+: p.segments) :
    q.chars ++ ['/'] <+: p.chars := by
  obtain ⟨qs⟩ := q
  obtain ⟨ps⟩ := p
  obtain ⟨rest, rfl⟩ := h
  cases rest with
  | nil => exact (hne (by simp)).elim
  | cons s rest =>
    have hqs : qs ≠ [] := fun hn => hq (segments_inj.mp hn)
    refine ⟨s.chars ++ rest.flatMap fun s => '/' :: s.chars, ?_⟩
    simp [chars, isRoot, hqs]

lemma isTextBelow_iff : IsTextBelow p.chars q.chars ↔ p.isBelow q = true := by
  rw [IsTextBelow, chars_injective.ne_iff, chars_eq_slash_iff]
  constructor
  · rintro ⟨hne, rfl | h⟩
    · exact (eq_root_or_isBelow p).resolve_left hne
    · exact isBelow_iff.mpr ⟨segments_prefix_of_chars h, hne.symm⟩
  · intro h
    obtain ⟨hp, hne⟩ := isBelow_iff.mp h
    exact ⟨hne.symm, or_iff_not_imp_left.mpr fun hq => chars_prefix_of_segments hq hne hp⟩

example : IsTextBelow "/obj/item".toList "/obj".toList ∧
    ¬ IsTextBelow "/objective".toList "/obj".toList := by decide

/-! ### Cutting at the last slash -/

/-- A text without its last slash and what follows it, or only that slash where nothing stands
before it. -/
def cut? (cs : List Char) : Option (List Char) :=
  let front := cs.rdropWhile (· ≠ '/')
  if cs = ['/'] ∨ front = [] then none
  else if front = ['/'] then some ['/'] else some front.dropLast

/-- Cutting a text again and again comes to an end, and gives these texts on the way. -/
inductive Cuts : List Char → List (List Char) → Prop
  | done {cs : List Char} (h : cut? cs = none) : Cuts cs []
  | cut {cs ds : List Char} {out : List (List Char)} (h : cut? cs = some ds) (hr : Cuts ds out) :
    Cuts cs (ds :: out)

lemma length_lt_of_cut? (h : cut? cs = some ds) : ds.length < cs.length := by
  have hp : cs.rdropWhile (· ≠ '/') <+: cs := List.rdropWhile_prefix _ _
  simp only [cut?] at h
  generalize cs.rdropWhile (· ≠ '/') = front at h hp
  split at h
  · cases h
  next hn =>
    obtain ⟨hcs, hne⟩ := not_or.mp hn
    split at h
    next hs =>
      -- the slash that stays is not the whole text
      obtain rfl := Option.some.inj h
      subst hs
      exact Nat.lt_of_le_of_ne hp.length_le fun hl => hcs (hp.eq_of_length hl).symm
    next =>
      obtain rfl := Option.some.inj h
      have hpos := List.length_pos_iff.mpr hne
      have hle := hp.length_le
      rw [List.length_dropLast]
      omega

lemma Cuts.shortens (h : Cuts cs out) :
    (cs :: out).Pairwise fun ds es => es.length < ds.length := by
  induction h with
  | done _ => exact List.pairwise_singleton _ _
  | cut h _ ih =>
    have hlt := length_lt_of_cut? h
    refine List.pairwise_cons.mpr ⟨fun es hes => ?_, ih⟩
    rcases List.mem_cons.mp hes with rfl | hes
    · exact hlt
    · exact (List.rel_of_pairwise_cons ih hes).trans hlt

lemma cut?_append (hname : name ≠ []) (hn : '/' ∉ name) :
    cut? (front ++ '/' :: name) = some (if front = [] then ['/'] else front) := by
  have hrev : ∀ c ∈ name.reverse, decide (c ≠ '/') = true := fun c hc =>
    decide_eq_true fun h => hn (h ▸ List.mem_reverse.mp hc)
  have hfront : (front ++ '/' :: name).rdropWhile (· ≠ '/') = front ++ ['/'] := by
    rw [List.rdropWhile, List.reverse_append, List.reverse_cons, List.append_assoc,
      List.dropWhile_append_of_pos hrev]
    simp
  have hcs : ¬ (front ++ '/' :: name = ['/'] ∨ front ++ ['/'] = []) := by
    simp [List.append_eq_singleton_iff, hname]
  simp only [cut?, hfront, if_neg hcs, List.dropLast_concat]
  cases front with
  | nil => rfl
  | cons c front => simp

lemma cut?_chars (p : TypePath) : cut? p.chars = p.parent?.map chars := by
  by_cases hp : p = root
  · subst hp
    rfl
  · obtain ⟨q, s, rfl⟩ := exists_append_of_ne_root hp
    rw [chars_append, cut?_append s.nonempty s.slash_notMem, parent?_append, Option.map_some]
    obtain ⟨qs⟩ := q
    cases qs <;> simp [chars, isRoot]

lemma cuts_chars (p : TypePath) : Cuts p.chars (p.ancestors.map chars) := by
  fun_induction ancestors p with
  | case1 p hp => exact .done (by rw [cut?_chars, hp]; rfl)
  | case2 p q hq _ ih => exact .cut (by rw [cut?_chars, hq]; rfl) ih

/-! ### All paths above a path -/

lemma lengths_ancestors (p : TypePath) :
    p.ancestors.map (·.segments.length) = (List.range p.segments.length).reverse := by
  fun_induction ancestors p with
  | case1 p hp =>
    obtain rfl := parent?_eq_none_iff.mp hp
    rfl
  | case2 p q hq _ ih =>
    rw [length_of_parent? hq, List.range_succ, List.reverse_concat, List.map_cons, ih]

lemma getLast?_ancestors (hp : p ≠ root) : p.ancestors.getLast? = some root := by
  fun_induction ancestors p with
  | case1 p hn => exact (hp (parent?_eq_none_iff.mp hn)).elim
  | case2 p q hq _ ih =>
    by_cases hr : q = root
    · subst hr
      rw [ancestors_root]
      rfl
    · rw [List.getLast?_cons, ih hr]
      rfl

lemma ancestors_shorten (p : TypePath) :
    p.ancestors.Pairwise fun q r => r.text.length < q.text.length := by
  have h := List.pairwise_map.mp (List.pairwise_cons.mp (cuts_chars p).shortens).2
  simpa only [text, String.length_ofList] using h

lemma comparable_of_prefix (hq : q.segments <+: p.segments) (hr : r.segments <+: p.segments) :
    q = r ∨ q.isBelow r = true ∨ r.isBelow q = true := by
  rcases List.prefix_or_prefix_of_prefix hq hr with h | h
  · rcases eq_or_isBelow_iff.mpr h with rfl | h
    · exact .inl rfl
    · exact .inr (.inr h)
  · rcases eq_or_isBelow_iff.mpr h with rfl | h
    · exact .inl rfl
    · exact .inr (.inl h)

/-- Which paths lie above a path. Their texts, the cutting of its text and its names agree on them,
and they come one below the other, the root last. -/
structure Descent : Prop where
  iff_ancestor {p q : TypePath} : p.isBelow q = true ↔ q ∈ p.ancestors
  iff_segments {p q : TypePath} :
    p.isBelow q = true ↔ q.segments <+: p.segments ∧ q.segments ≠ p.segments
  iff_text {p q : TypePath} : p.isBelow q = true ↔ IsTextBelow p.text.toList q.text.toList
  names_text (p : TypePath) : names p.text.toList = p.segments.map Segment.chars
  cuts_text (p : TypePath) : Cuts p.text.toList (p.ancestors.map (·.text.toList))
  length (p : TypePath) : p.ancestors.length = p.segments.length
  lengths (p : TypePath) :
    p.ancestors.map (·.segments.length) = (List.range p.segments.length).reverse
  shortening (p : TypePath) : p.ancestors.Pairwise fun q r => r.text.length < q.text.length
  nodup (p : TypePath) : p.ancestors.Nodup
  last {p : TypePath} : p ≠ root → p.ancestors.getLast? = some root
  irreflexive (p : TypePath) : p.isBelow p = false
  transitive {p q r : TypePath} : p.isBelow q = true → q.isBelow r = true → p.isBelow r = true
  comparable {p q r : TypePath} : q ∈ p.ancestors → r ∈ p.ancestors →
    q = r ∨ q.isBelow r = true ∨ r.isBelow q = true

theorem descent : Descent where
  iff_ancestor := mem_ancestors_iff.symm
  iff_segments {p q} := by rw [isBelow_iff, ne_eq, ne_eq, segments_inj]
  iff_text {p q} := by rw [toList_text, toList_text, isTextBelow_iff]
  names_text p := by rw [toList_text, names_chars]
  cuts_text p := by simpa only [toList_text] using cuts_chars p
  length p := by simpa using congrArg List.length (lengths_ancestors p)
  lengths := lengths_ancestors
  shortening := ancestors_shorten
  nodup p := (ancestors_shorten p).imp fun h he => by
    subst he
    exact Nat.lt_irrefl _ h
  last := getLast?_ancestors
  irreflexive p := Bool.eq_false_iff.mpr fun h => (isBelow_iff.mp h).2 rfl
  transitive := isBelow_trans
  comparable hq hr := comparable_of_prefix
    (isBelow_iff.mp (mem_ancestors_iff.mp hq)).1 (isBelow_iff.mp (mem_ancestors_iff.mp hr)).1

end TypePath

end ClassTree
