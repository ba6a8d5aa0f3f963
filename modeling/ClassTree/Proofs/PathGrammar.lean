import ClassTree.TypePath.Lemmas
import Mathlib.Data.Set.List
import Mathlib.Tactic.Lemma
/-!
The grammar of type paths. Reading a text, taking a path apart into segments, going up by one and
going down by one all speak of the same texts: a slash, or names with a slash before each of them.
-/

namespace ClassTree

variable {c : Char} {cs : List Char} {s : Segment}

/-! ### Names -/

def IsWordChar (c : Char) : Prop :=
  ('A' ≤ c ∧ c ≤ 'Z') ∨ ('a' ≤ c ∧ c ≤ 'z') ∨ ('0' ≤ c ∧ c ≤ '9') ∨ c = '_'

def IsName (cs : List Char) : Prop := cs ≠ [] ∧ ∀ c ∈ cs, IsWordChar c

lemma isSegmentChar_iff : isSegmentChar c = true ↔ IsWordChar c := by
  delta isSegmentChar Char.isAlphanum Char.isAlpha Char.isUpper Char.isLower Char.isDigit
  simp only [Bool.or_eq_true, Bool.and_eq_true, decide_eq_true_eq, or_assoc]
  rfl

namespace Segment

lemma isName (s : Segment) : IsName s.chars :=
  ⟨s.nonempty, fun c hc => isSegmentChar_iff.mp (List.all_eq_true.mp s.plain c hc)⟩

lemma exists_chars_iff : (∃ s : Segment, s.chars = cs) ↔ IsName cs := by
  constructor
  · rintro ⟨s, rfl⟩
    exact s.isName
  · rintro ⟨hne, hcs⟩
    exact ⟨⟨cs, hne, List.all_eq_true.mpr fun c hc => isSegmentChar_iff.mpr (hcs c hc)⟩, rfl⟩

lemma toList_text (s : Segment) : s.text.toList = s.chars := String.toList_ofList

end Segment

namespace TypePath

variable {p q : TypePath} {raw name : String}

/-! ### Texts -/

def IsPathText (cs : List Char) : Prop :=
  cs = ['/'] ∨ ∃ names : List (List Char), names ≠ [] ∧ (∀ name ∈ names, IsName name) ∧
    cs = names.flatMap fun name => '/' :: name

lemma toList_text (p : TypePath) : p.text.toList = p.chars := String.toList_ofList

lemma parse_eq_ok_iff : parse raw = .ok p ↔ p.text = raw := by
  constructor
  · exact text_of_parse
  · rintro rfl
    exact parse_text p

lemma exists_chars_iff : (∃ p : TypePath, p.chars = cs) ↔ IsPathText cs := by
  constructor
  · rintro ⟨⟨ss⟩, rfl⟩
    cases ss with
    | nil => exact .inl rfl
    | cons s ss =>
      refine .inr ⟨(s :: ss).map Segment.chars, by simp, ?_, ?_⟩
      · simpa using ⟨s.isName, fun s _ => s.isName⟩
      · rw [List.flatMap_map]
        rfl
  · rintro (rfl | ⟨names, hne, hnames, rfl⟩)
    · exact ⟨root, rfl⟩
    · obtain ⟨ss, rfl⟩ : ∃ ss, List.map Segment.chars ss = names := by
        rw [← Set.mem_range, Set.range_list_map]
        exact fun name hn => Segment.exists_chars_iff.mpr (hnames name hn)
      have hss : ss.isEmpty = false := by simpa using hne
      refine ⟨⟨ss⟩, ?_⟩
      rw [chars, isRoot, hss, List.flatMap_map]
      rfl

lemma exists_parse_iff : (∃ p, parse raw = .ok p) ↔ IsPathText raw.toList := by
  rw [← exists_chars_iff]
  refine exists_congr fun p => ?_
  rw [parse_eq_ok_iff, ← String.toList_inj, toList_text]

lemma parts_chars (p : TypePath) :
    (splitSlash p.chars).filter (· ≠ []) = p.segments.map Segment.chars := by
  obtain ⟨ss⟩ := p
  cases ss with
  | nil => rfl
  | cons s ss =>
    have hc : chars ⟨s :: ss⟩ = [] ++ '/' :: (s.chars ++ ss.flatMap fun s => '/' :: s.chars) := rfl
    rw [hc, splitSlash_append List.not_mem_nil, splitSlash_chars, List.filter_cons_of_neg (by simp),
      List.filter_eq_self]
    simp [Segment.nonempty]

/-! ### One step down, one step up -/

lemma chars_append (p : TypePath) (s : Segment) :
    (p.append s).chars = (if p.isRoot then [] else p.chars) ++ '/' :: s.chars := by
  obtain ⟨ss⟩ := p
  cases ss <;> simp [append, chars, isRoot]

lemma text_append (p : TypePath) (s : Segment) :
    (p.append s).text = (if p.isRoot then "" else p.text) ++ "/" ++ s.text := by
  rw [← String.toList_inj, toList_text, chars_append]
  cases p.isRoot <;> simp [toList_text, Segment.toList_text]

lemma parent?_append (p : TypePath) (s : Segment) : (p.append s).parent? = some p := by
  simp [append, parent?, isRoot]

lemma last?_append (p : TypePath) (s : Segment) : (p.append s).last? = some s :=
  List.getLast?_concat

lemma exists_append_of_ne_root (hp : p ≠ root) : ∃ q s, append q s = p := by
  obtain ⟨ss⟩ := p
  have hne : ss ≠ [] := fun h => hp (congrArg TypePath.mk h)
  exact ⟨⟨ss.dropLast⟩, ss.getLast hne, congrArg TypePath.mk (List.dropLast_concat_getLast hne)⟩

lemma join_text (p : TypePath) (s : Segment) : p.join s.text = .ok (p.append s) := by
  rw [join, Segment.toList_text, Segment.ofChars_chars]

lemma join_eq_ok_iff : p.join name = .ok q ↔ ∃ s : Segment, s.text = name ∧ p.append s = q := by
  constructor
  · rw [join]
    cases hs : Segment.ofChars name.toList with
    | error fault => exact nofun
    | ok s =>
      intro h
      refine ⟨s, ?_, Except.ok.inj h⟩
      rw [Segment.text, Segment.chars_of_ofChars hs, String.ofList_toList]
  · rintro ⟨s, rfl, rfl⟩
    exact join_text p s

lemma exists_join_iff : (∃ q, p.join name = .ok q) ↔ IsName name.toList := by
  rw [← Segment.exists_chars_iff]
  simp [join_eq_ok_iff, ← String.toList_inj, Segment.toList_text]

lemma foldlM_join (p : TypePath) (ss : List Segment) :
    (ss.map Segment.text).foldlM join p = .ok ⟨p.segments ++ ss⟩ := by
  induction ss generalizing p with
  | nil => rw [List.append_nil]; rfl
  | cons s ss ih =>
    rw [List.map_cons, List.foldlM_cons, join_text]
    exact (ih (p.append s)).trans (by simp [append])

end TypePath

open TypePath

/-- The texts of paths, and what reading, splitting, joining and going up make of them. Going up cuts
a text at its last slash. -/
structure PathGrammar : Prop where
  parse_iff {raw : String} : (∃ p, parse raw = .ok p) ↔ IsPathText raw.toList
  text {raw : String} {p : TypePath} : parse raw = .ok p → p.text = raw
  rebuilt (p : TypePath) : (p.segments.map Segment.text).foldlM join root = .ok p
  join_iff {p : TypePath} {name : String} : (∃ q, p.join name = .ok q) ↔ IsName name.toList
  joined {p q : TypePath} {name : String} : p.join name = .ok q →
    q.parent? = some p ∧ q.last?.map Segment.text = some name ∧ parse q.text = .ok q
  rejoined {p : TypePath} : p ≠ root →
    ∃ q s, p.parent? = some q ∧ p.last? = some s ∧ q.join s.text = .ok p
  segments (p : TypePath) :
    p.segments.map Segment.chars = (splitSlash p.text.toList).filter (· ≠ [])
  text_joined {p q : TypePath} {name : String} : p.join name = .ok q →
    q.text = (if p.isRoot then "" else p.text) ++ "/" ++ name
  text_parent {p q : TypePath} : p.parent? = some q → ∃ front name, '/' ∉ name ∧
    p.text.toList = front ++ '/' :: name ∧ q.text.toList = if front = [] then ['/'] else front

theorem pathGrammar : PathGrammar where
  parse_iff := exists_parse_iff
  text := text_of_parse
  rebuilt p := foldlM_join root p.segments
  join_iff := exists_join_iff
  joined h := by
    obtain ⟨s, rfl, rfl⟩ := join_eq_ok_iff.mp h
    exact ⟨parent?_append _ s, congrArg (Option.map Segment.text) (last?_append _ s), parse_text _⟩
  rejoined h := by
    obtain ⟨q, s, rfl⟩ := exists_append_of_ne_root h
    exact ⟨q, s, parent?_append q s, last?_append q s, join_text q s⟩
  segments p := by rw [toList_text, parts_chars]
  text_joined {p q name} h := by
    obtain ⟨s, rfl, rfl⟩ := join_eq_ok_iff.mp h
    exact text_append p s
  text_parent {p q} h := by
    have hp : p ≠ root := fun hr => by simp [parent?_eq_none_iff.mpr hr] at h
    obtain ⟨r, s, rfl⟩ := exists_append_of_ne_root hp
    obtain rfl := Option.some.inj ((parent?_append r s).symm.trans h)
    refine ⟨if r.isRoot then [] else r.chars, s.chars, s.slash_notMem, ?_, ?_⟩
    · rw [toList_text, chars_append]
    · obtain ⟨ss⟩ := r
      cases ss <;> simp [toList_text, chars, isRoot]

end ClassTree
