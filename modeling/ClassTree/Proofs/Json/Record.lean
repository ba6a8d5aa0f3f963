import ClassTree.Json.Decode
import ClassTree.Proofs.Json.Reading
import ClassTree.Proofs.OrderedMap
import ClassTree.Proofs.Outcome
import ClassTree.TypePath.Lemmas
/-!
Records in JSON: what is written field by field is taken apart again, fields that are left out
included, and can be read back from text.
-/

namespace ClassTree.Json

variable {α : Type} {n : Nat} {j : Json} {key : String} {decode : Json → Decoded α}
  {encode : α → Json} {l : List (String × Option Json)}

/-! ### Fields -/

/-- The fields that are not left out. -/
def present (l : List (String × Option Json)) : List (String × Json) :=
  l.flatMap fun f => fieldIfSome f.1 id f.2

lemma present_nil : present [] = [] := rfl

lemma present_some (key : String) (j : Json) :
    present ((key, some j) :: l) = (key, j) :: present l := rfl

lemma present_map (key : String) (encode : α → Json) (a : Option α) :
    present ((key, a.map encode) :: l) = fieldIfSome key encode a ++ present l := by
  cases a <;> rfl

lemma mem_present {f : String × Json} : f ∈ present l ↔ (f.1, some f.2) ∈ l := by
  simp only [present, List.mem_flatMap, fieldIfSome, List.mem_map, Option.mem_toList, id]
  constructor
  · rintro ⟨⟨k, o⟩, hf, j, hj, rfl⟩
    obtain rfl : o = some j := hj
    exact hf
  · intro hf
    exact ⟨_, hf, f.2, rfl, rfl⟩

def AllPresent (P : Json → Prop) (l : List (String × Option Json)) : Prop :=
  ∀ f ∈ l, ∀ j ∈ f.2, P j

namespace AllPresent

variable {P : Json → Prop}

lemma nil : AllPresent P [] := nofun

lemma some (hj : P j) (h : AllPresent P l) : AllPresent P ((key, some j) :: l) :=
  List.forall_mem_cons.mpr ⟨fun _ hk => Option.some.inj hk ▸ hj, h⟩

lemma map {a : Option α} (ha : ∀ x ∈ a, P (encode x)) (h : AllPresent P l) :
    AllPresent P ((key, a.map encode) :: l) :=
  List.forall_mem_cons.mpr ⟨Option.forall_mem_map.mpr ha, h⟩

lemma of_mem_present (h : AllPresent P l) {f : String × Json} (hf : f ∈ present l) : P f.2 :=
  h _ (mem_present.mp hf) f.2 rfl

end AllPresent

lemma keys_present_sublist : ((present l).map (·.1)).Sublist (l.map (·.1)) := by
  induction l with
  | nil => exact .slnil
  | cons f l ih =>
    obtain ⟨k, o⟩ := f
    cases o with
    | none => exact ih.cons k
    | some j => exact ih.cons_cons k

lemma lookup_present (hn : (l.map (·.1)).Nodup) {o : Option Json} (h : (key, o) ∈ l) :
    (present l).lookup key = o := by
  induction l with
  | nil => cases h
  | cons f l ih =>
    obtain ⟨k, o'⟩ := f
    obtain ⟨hk, hl⟩ := List.nodup_cons.mp hn
    have hcons : present ((k, o') :: l) = fieldIfSome k id o' ++ present l := rfl
    rw [hcons]
    rcases List.mem_cons.mp h with heq | hmem
    · obtain ⟨rfl, rfl⟩ := Prod.mk.inj heq
      cases o with
      | none =>
        rw [fieldIfSome, Option.toList_none, List.map_nil, List.nil_append,
          List.lookup_eq_none_iff]
        intro f hf
        have hne : f.1 ≠ key := by
          rintro rfl
          exact hk (keys_present_sublist.subset (List.mem_map_of_mem hf))
        exact bne_iff_ne.mpr hne.symm
      | some j => exact List.lookup_cons_self
    · have hne : key ≠ k := by
        rintro rfl
        exact hk (List.mem_map.mpr ⟨_, hmem, rfl⟩)
      cases o' with
      | none => exact ih hl hmem
      | some j =>
        refine (List.lookup_cons).trans ?_
        rw [beq_eq_false_iff_ne.mpr hne]
        exact ih hl hmem

lemma recordFields_of_subset {keys : List String} (hn : (l.map (·.1)).Nodup)
    (hk : l.map (·.1) ⊆ keys) : recordFields keys (.obj (present l)) = .ok (present l) := by
  have hk : ∀ f ∈ present l, keys.contains f.1 = true := by
    intro f hf
    exact List.contains_iff_mem.mpr (hk (List.mem_map_of_mem (mem_present.mp hf)))
  have hp : ((present l).map (·.1)).Nodup := hn.sublist keys_present_sublist
  simp only [recordFields, List.filter_eq_self.mpr hk, if_pos hp]

lemma recordFields_present (hn : (l.map (·.1)).Nodup) :
    recordFields (l.map (·.1)) (.obj (present l)) = .ok (present l) :=
  recordFields_of_subset hn (List.Subset.refl _)

lemma required_present (j : Json) {a : α} (hn : (l.map (·.1)).Nodup) (h : (key, some j) ∈ l)
    (hd : decode j = .ok a) : required (present l) key decode = .ok a := by
  rw [required, lookup_present hn h]
  exact hd

lemma asOption_of_ne_null (hj : j ≠ .null) : asOption decode j = some <$> decode j := by
  unfold asOption
  split
  · exact absurd rfl hj
  · rfl

lemma optional_present (encode : α → Json) {a : Option α} (hn : (l.map (·.1)).Nodup)
    (h : (key, a.map encode) ∈ l) (hnull : ∀ x, encode x ≠ .null)
    (hd : ∀ x ∈ a, decode (encode x) = .ok x) : optional (present l) key decode = .ok a := by
  rw [optional, orElse, lookup_present hn h]
  cases a with
  | none => rfl
  | some x =>
    change asOption decode (encode x) = _
    rw [asOption_of_ne_null (hnull x), hd x rfl]
    rfl

lemma orElse_present (j : Json) {a absent : α} (hn : (l.map (·.1)).Nodup)
    (h : (key, some j) ∈ l) (hd : decode j = .ok a) :
    orElse (present l) key decode absent = .ok a := by
  rw [orElse, lookup_present hn h]
  exact hd

/-- An option that is written as null if it is none. -/
lemma optional_ofOption (encode : α → Json) {a : Option α} (hn : (l.map (·.1)).Nodup)
    (h : (key, some (ofOption encode a)) ∈ l) (hnull : ∀ x, encode x ≠ .null)
    (hd : ∀ x ∈ a, decode (encode x) = .ok x) : optional (present l) key decode = .ok a := by
  refine orElse_present _ hn h ?_
  cases a with
  | none => rfl
  | some x =>
    rw [ofOption, asOption_of_ne_null (hnull x), hd x rfl]
    rfl

/-! ### Values -/

/-- Ids are written as words of 32 bits: 2³². -/
def idBound : Nat := 4294967296

lemma asNat32_ofNat (h : n < idBound) : asNat32 (.ofNat n) = .ok n := if_pos h

lemma asUInt32_ofNat (w : UInt32) : asUInt32 (.ofNat w.toNat) = .ok w := by
  rw [asUInt32, asNat32_ofNat w.toNat_lt]
  exact congrArg Except.ok (UInt32.ofNat_toNat)

lemma asPath_ofPath (p : TypePath) : asPath (.ofPath p) = .ok p := by
  have htext : asText (.ofPath p) = .ok p.text := rfl
  simp only [asPath, htext, bind, Except.bind, TypePath.parse_text]

lemma asList_map {as : List α} (h : ∀ a ∈ as, decode (encode a) = .ok a) :
    asList decode (.arr (as.map encode)) = .ok as :=
  mapM_map_eq_ok h

lemma asSet_ofSet {s : OrderedSet String} (h : s.elements.Nodup) : asSet (.ofSet s) = .ok s := by
  have hl : asList asText (.ofSet s) = .ok s.elements := asList_map fun _ _ => rfl
  rw [asSet, hl]
  exact congrArg Except.ok (OrderedSet.ofList_elements h)

lemma asMap_obj (decode : Json → Decoded α) (fields : List (String × Json)) :
    asMap decode (.obj fields) =
      OrderedMap.ofList <$> fields.mapM fun x => (x.1, ·) <$> decode x.2 := by
  rfl

lemma ofMap_eq (encode : α → Json) (m : OrderedMap String α) :
    ofMap encode m = .obj (m.entries.map fun x => (x.1, encode x.2)) := rfl

lemma asMap_ofMap {m : OrderedMap String α} (hm : m.Distinct)
    (h : ∀ x ∈ m.entries, decode (encode x.2) = .ok x.2) :
    asMap decode (.ofMap encode m) = .ok m := by
  have hlist : OrderedMap.ofList m.entries = m := by
    obtain ⟨entries⟩ := m
    exact congrArg OrderedMap.mk (OrderedMap.entries_ofList (OrderedMap.distinct_iff.mp hm))
  have hpairs : (m.entries.map fun x => (x.1, encode x.2)).mapM
      (fun x => (x.1, ·) <$> decode x.2) = .ok m.entries := by
    apply mapM_map_eq_ok
    intro x hx
    dsimp only
    rw [h x hx]
    rfl
  rw [ofMap_eq, asMap_obj, hpairs]
  exact congrArg Except.ok hlist

lemma asAny_of_isHeld (hh : j.isHeld = true) (hc : j.canonical = j) : asAny j = .ok j := by
  rw [asAny, if_pos hh, hc]

/-! ### Text that can be read back -/

lemma Readable.ofNat (h : n < idBound) : Readable (.ofNat n) := by
  rw [idBound] at h
  apply Readable.int
  · change _ ≤ (n : Int)
    omega
  · change (n : Int) < _
    omega

lemma Readable.present (h : AllPresent Readable l) : Readable (.obj (present l)) :=
  .obj fun _ => h.of_mem_present

lemma Readable.arr_map {as : List α} (h : ∀ a ∈ as, Readable (encode a)) :
    Readable (.arr (as.map encode)) :=
  .arr (List.forall_mem_map.mpr h)

lemma Readable.ofMap {m : OrderedMap String α} (h : ∀ x ∈ m.entries, Readable (encode x.2)) :
    Readable (.ofMap encode m) :=
  .obj (List.forall_mem_map.mpr h)

lemma isHeldItems_of_forall {items : List Json} (h : ∀ j ∈ items, j.isHeld = true) :
    isHeldItems items = true := by
  induction items with
  | nil => rfl
  | cons j rest ih =>
    obtain ⟨hj, hrest⟩ := List.forall_mem_cons.mp h
    rw [isHeldItems, hj, ih hrest]
    rfl

lemma isHeldFields_of_forall {fields : List (String × Json)}
    (h : ∀ f ∈ fields, f.2.isHeld = true) : isHeldFields fields = true := by
  induction fields with
  | nil => rfl
  | cons f rest ih =>
    obtain ⟨hf, hrest⟩ := List.forall_mem_cons.mp h
    rw [isHeldFields, hf, ih hrest]
    rfl

lemma Readable.isHeld (h : Readable j) : j.isHeld = true := by
  induction h with
  | arr h ih =>
    rw [Json.isHeld]
    exact isHeldItems_of_forall ih
  | obj h ih =>
    rw [Json.isHeld]
    exact isHeldFields_of_forall ih
  | _ => rfl

/-! ### Depth -/

end ClassTree.Json
