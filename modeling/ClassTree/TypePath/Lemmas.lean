import ClassTree.TypePath
/-!
Reading and writing type paths. Main statements: `TypePath.parse_text` and
`TypePath.text_of_parse`, by which a path has one text and each text at most one path.
-/

namespace ClassTree

theorem Segment.ofChars_chars (s : Segment) : Segment.ofChars s.chars = .ok s := by
  obtain ⟨cs, h, h'⟩ := s
  simp only [ofChars, dif_neg h, dif_pos h']

theorem Segment.chars_of_ofChars {cs : List Char} {s : Segment} (h : Segment.ofChars cs = .ok s) :
    s.chars = cs := by
  unfold ofChars at h
  split at h
  · cases h
  · split at h
    · cases h; rfl
    · cases h

theorem Segment.slash_notMem (s : Segment) : '/' ∉ s.chars := fun h =>
  absurd (List.all_eq_true.1 s.plain _ h) (by decide)

namespace TypePath

theorem flatMap_splitSlash (cs : List Char) :
    ((splitSlash cs).flatMap fun part => '/' :: part) = '/' :: cs := by
  induction cs with
  | nil => rfl
  | cons c cs ih =>
    unfold splitSlash
    split
    next h => simp [ih, h]
    next h =>
      cases hs : splitSlash cs with
      | nil => simp [hs] at ih
      | cons part parts => simpa [hs] using ih

theorem splitSlash_ne_nil (cs : List Char) : splitSlash cs ≠ [] := fun h => by
  simpa [h] using flatMap_splitSlash cs

theorem splitSlash_append_slash (cs rest : List Char) :
    splitSlash (cs ++ '/' :: rest) = splitSlash cs ++ splitSlash rest := by
  induction cs with
  | nil => simp [splitSlash]
  | cons c cs ih =>
    rw [List.cons_append, splitSlash, splitSlash]
    split
    · rw [ih, List.cons_append]
    · obtain ⟨part, parts, hs⟩ := List.exists_cons_of_ne_nil (splitSlash_ne_nil cs)
      rw [ih, hs]
      rfl

theorem splitSlash_of_notMem {cs : List Char} (h : '/' ∉ cs) : splitSlash cs = [cs] := by
  induction cs with
  | nil => simp [splitSlash]
  | cons c cs ih =>
    simp only [List.mem_cons, not_or] at h
    simp [splitSlash, ih h.2, Ne.symm h.1]

theorem splitSlash_append {cs rest : List Char} (h : '/' ∉ cs) :
    splitSlash (cs ++ '/' :: rest) = cs :: splitSlash rest := by
  rw [splitSlash_append_slash, splitSlash_of_notMem h, List.singleton_append]

theorem splitSlash_chars (s : Segment) (ss : List Segment) :
    splitSlash (s.chars ++ ss.flatMap fun s => '/' :: s.chars) = (s :: ss).map Segment.chars := by
  induction ss generalizing s with
  | nil => simp [splitSlash_of_notMem s.slash_notMem]
  | cons t ss ih =>
    simp only [List.flatMap_cons, List.cons_append, splitSlash_append s.slash_notMem, ih]
    rfl

theorem mapM_ofChars_chars (ss : List Segment) :
    (ss.map Segment.chars).mapM Segment.ofChars = .ok ss := by
  induction ss with
  | nil => rfl
  | cons s ss ih =>
    simp only [List.map_cons, List.mapM_cons, Segment.ofChars_chars, ih]
    rfl

theorem chars_of_mapM_ofChars {parts : List (List Char)} {ss : List Segment}
    (h : parts.mapM Segment.ofChars = .ok ss) : ss.map Segment.chars = parts := by
  induction parts generalizing ss with
  | nil => cases h; rfl
  | cons part parts ih =>
    rw [List.mapM_cons] at h
    cases hs : Segment.ofChars part with
    | error e => rw [hs] at h; cases h
    | ok s =>
      cases hr : parts.mapM Segment.ofChars with
      | error e => rw [hs, hr] at h; cases h
      | ok rest =>
        rw [hs, hr] at h
        cases h
        rw [List.map_cons, Segment.chars_of_ofChars hs, ih hr]

theorem ofChars_chars (p : TypePath) : ofChars p.chars = .ok p := by
  obtain ⟨segments⟩ := p
  cases segments with
  | nil => rfl
  | cons s ss =>
    have hne : s.chars ++ (ss.flatMap fun s => '/' :: s.chars) ≠ [] := by simp [s.nonempty]
    have hc : chars ⟨s :: ss⟩ = '/' :: (s.chars ++ ss.flatMap fun s => '/' :: s.chars) := rfl
    rw [hc]
    unfold ofChars
    split
    next h => simp_all
    next rest _ h =>
      obtain rfl := (List.cons.inj h).2
      rw [splitSlash_chars, mapM_ofChars_chars]
      rfl
    next h => exact (h _ rfl).elim

theorem chars_of_ofChars {cs : List Char} {p : TypePath} (h : ofChars cs = .ok p) :
    p.chars = cs := by
  unfold ofChars at h
  split at h
  · cases h; rfl
  next rest hne =>
    cases hs : (splitSlash rest).mapM Segment.ofChars with
    | error e => rw [hs] at h; cases h
    | ok ss =>
      rw [hs] at h
      cases h
      have hparts := chars_of_mapM_ofChars hs
      have hflat := flatMap_splitSlash rest
      rw [← hparts, List.flatMap_map] at hflat
      unfold chars isRoot
      cases ss with
      | nil => simp at hflat
      | cons s ss => exact hflat
  · cases h

theorem parent?_eq_none_iff {p : TypePath} : p.parent? = none ↔ p = root := by
  obtain ⟨segments⟩ := p
  cases segments <;> simp [parent?, isRoot, root]

theorem segments_parent? {p q : TypePath} (h : p.parent? = some q) :
    q.segments <+: p.segments := by
  unfold parent? at h
  split at h
  · cases h
  · obtain rfl := Option.some.inj h
    exact List.dropLast_prefix p.segments

theorem parse_text (p : TypePath) : parse p.text = .ok p := by
  unfold parse text
  rw [String.toList_ofList, ofChars_chars]
  rfl

theorem text_injective {p q : TypePath} (h : p.text = q.text) : p = q := by
  have hp := parse_text p
  rw [h, parse_text] at hp
  exact (Except.ok.inj hp).symm

theorem text_of_parse {raw : String} {p : TypePath} (h : parse raw = .ok p) : p.text = raw := by
  unfold parse at h
  cases hc : ofChars raw.toList with
  | error e => rw [hc] at h; cases h
  | ok q =>
    rw [hc] at h
    cases h
    rw [text, chars_of_ofChars hc, String.ofList_toList]

end TypePath

end ClassTree
