import ClassTree.Proofs.Artifact.Literal
import ClassTree.Proofs.Declaration.Loading
import ClassTree.Proofs.Hierarchy.Finalize
/-!
How deep literals nest that come from a declaration file.
-/

namespace ClassTree

variable {α : Type} {n : Nat} {j l : Json} {e : Expr} {decode : Json → Decoded α}
  {fields : List (String × Json)} {keys : List String} {key : String}

/-! ### Reading parts -/

namespace Json

lemma mem_of_lookup (h : fields.lookup key = some j) : (key, j) ∈ fields := by
  obtain ⟨l₁, l₂, rfl, -⟩ := List.lookup_eq_some_iff.mp h
  exact List.mem_append_right l₁ List.mem_cons_self

lemma depth_lt_of_recordFields (h : l.recordFields keys = .ok fields)
    (hj : fields.lookup key = some j) : j.depth < l.depth := by
  have hj := mem_of_lookup hj
  unfold recordFields at h
  split at h
  · dsimp only at h
    split at h
    · cases h
      rw [depth]
      exact Nat.lt_succ_of_le (depth_le_depthFields (List.mem_filter.mp hj).1)
    · cases h
  · split at h
    · cases h
      rw [depth]
      exact Nat.lt_succ_of_le (depth_le_depthItems (List.of_mem_zip hj).2)
    · cases h
  · cases h

lemma exists_of_optional {a : α} (h : optional fields key decode = .ok (some a)) :
    ∃ j, fields.lookup key = some j ∧ decode j = .ok a := by
  unfold optional orElse at h
  split at h
  · next j hj =>
    refine ⟨j, hj, ?_⟩
    unfold asOption at h
    split at h
    · cases h
    · obtain ⟨b, hb, h⟩ := exists_of_map_eq_ok h
      cases h
      exact hb
  · cases h

lemma exists_of_asList {as : List α} {a : α} (h : asList decode l = .ok as) (ha : a ∈ as) :
    ∃ j, j.depth < l.depth ∧ decode j = .ok a := by
  unfold asList at h
  split at h
  · obtain ⟨j, hj, hd⟩ := exists_mem_of_mapM_eq_ok h ha
    rw [depth]
    exact ⟨j, Nat.lt_succ_of_le (depth_le_depthItems hj), hd⟩
  · cases h

lemma exists_of_orElse_asList {as : List α} {a : α}
    (h : orElse fields key (asList decode) [] = .ok as) (ha : a ∈ as) :
    ∃ l j, fields.lookup key = some l ∧ j.depth < l.depth ∧ decode j = .ok a := by
  unfold orElse at h
  split at h
  · next l hl =>
    obtain ⟨j, hj, hd⟩ := exists_of_asList h ha
    exact ⟨l, j, hl, hj, hd⟩
  · cases h
    cases ha

end Json

/-- What `decode` reads from some value that nests at most `n` deep. -/
def ReadWithin (decode : Json → Decoded α) (n : Nat) (a : α) : Prop :=
  ∃ j, j.depth ≤ n ∧ decode j = .ok a

/-! ### Expressions -/

namespace Expr

end Expr

lemma ReadWithin.value {d : VarDecl} (h : ReadWithin VarDecl.ofJson (n + 1) d)
    (he : d.value = some e) : ReadWithin Expr.ofJson n e := by
  obtain ⟨j, hj, h⟩ := h
  obtain ⟨fields, hf, h⟩ := exists_of_bind_eq_ok h
  obtain ⟨_, -, h⟩ := exists_of_bind_eq_ok h
  obtain ⟨_, -, h⟩ := exists_of_bind_eq_ok h
  obtain ⟨_, -, h⟩ := exists_of_bind_eq_ok h
  obtain ⟨_, -, h⟩ := exists_of_bind_eq_ok h
  obtain ⟨value, hvalue, h⟩ := exists_of_bind_eq_ok h
  obtain ⟨_, -, h⟩ := exists_of_bind_eq_ok h
  obtain ⟨_, -, h⟩ := exists_of_bind_eq_ok h
  cases h
  obtain rfl : value = some e := he
  obtain ⟨v, hv, hd⟩ := Json.exists_of_optional hvalue
  have hlt := Json.depth_lt_of_recordFields hf hv
  exact ⟨v, by omega, hd⟩

lemma readWithin_of_orElse {as : List α} {a : α} (hf : l.recordFields keys = .ok fields)
    (h : Json.orElse fields key (Json.asList decode) [] = .ok as) (ha : a ∈ as)
    (hl : l.depth ≤ n + 2) : ReadWithin decode n a := by
  obtain ⟨i, j, hi, hj, hd⟩ := Json.exists_of_orElse_asList h ha
  have hlt := Json.depth_lt_of_recordFields hf hi
  exact ⟨j, by omega, hd⟩

lemma ReadWithin.vars {d : ClassDecl} (h : ReadWithin ClassDecl.ofJson (n + 2) d)
    {v : VarDecl} (hv : v ∈ d.vars ∨ v ∈ d.overrides ∨ v ∈ d.globals) :
    ReadWithin VarDecl.ofJson n v := by
  obtain ⟨j, hj, h⟩ := h
  obtain ⟨fields, hf, h⟩ := exists_of_bind_eq_ok h
  obtain ⟨_, -, h⟩ := exists_of_bind_eq_ok h
  obtain ⟨_, -, h⟩ := exists_of_bind_eq_ok h
  obtain ⟨_, hvars, h⟩ := exists_of_bind_eq_ok h
  obtain ⟨_, hoverrides, h⟩ := exists_of_bind_eq_ok h
  obtain ⟨_, hglobals, h⟩ := exists_of_bind_eq_ok h
  obtain ⟨_, -, h⟩ := exists_of_bind_eq_ok h
  obtain ⟨_, -, h⟩ := exists_of_bind_eq_ok h
  cases h
  rcases hv with hv | hv | hv
  · exact readWithin_of_orElse hf hvars hv hj
  · exact readWithin_of_orElse hf hoverrides hv hj
  · exact readWithin_of_orElse hf hglobals hv hj

lemma ReadWithin.classes {f : DeclarationFile} (h : ReadWithin DeclarationFile.ofJson (n + 2) f)
    {d : ClassDecl} (hd : d ∈ f.classes) : ReadWithin ClassDecl.ofJson n d := by
  obtain ⟨j, hj, h⟩ := h
  obtain ⟨fields, hf, h⟩ := exists_of_bind_eq_ok h
  obtain ⟨_, hclasses, h⟩ := exists_of_bind_eq_ok h
  obtain ⟨_, -, h⟩ := exists_of_bind_eq_ok h
  cases h
  exact readWithin_of_orElse hf hclasses hd hj

namespace Hierarchy

variable {t t' : Hierarchy} {P : Expr → Prop} {ds : List ClassDecl} {order : List ClassId}

/-- All initial values in a hierarchy have a property. -/
structure Values (P : Expr → Prop) (t : Hierarchy) : Prop where
  declared {c : ClassId} {e : ClassEntry} {v : Variable} {x : Expr} :
    t.class? c = some e → v ∈ e.declarations → v.value = some x → P x
  slot {k : SlotId} {s : Slot} {x : Expr} : t.slots[k]? = some s → s.value = some x → P x

lemma Loaded.values (h : Loaded n ds t) (hb : Built t)
    (hds : ∀ d ∈ ds, ∀ v, v ∈ d.vars ∨ v ∈ d.overrides ∨ v ∈ d.globals →
      ∀ x, v.value = some x → P x) : Values P t where
  declared {c e v x} hc hv hx := by
    have hk := (h.contents hc).toMerged
    have hn := hb.namedVars hc
    rcases List.mem_append.mp hv with hv | hv
    · obtain ⟨a, ha, rfl⟩ := hk.vars.exists_of_mem_values
        (OrderedMap.distinct_iff.mpr hn.vars_distinct) hv
      obtain ⟨d, hd, ha⟩ := ClassDecl.exists_of_mem_itemsAt ha
      exact hds d hd a (.inl ha) x hx
    · obtain ⟨a, ha, rfl⟩ := hk.overrides.exists_of_mem_values
        (OrderedMap.distinct_iff.mpr hn.overrides_distinct) hv
      obtain ⟨d, hd, ha⟩ := ClassDecl.exists_of_mem_itemsAt ha
      exact hds d hd a (.inr (.inl ha)) x hx
  slot {k s x} hs hx := by
    have hlt := (Array.getElem?_eq_some_iff.mp hs).1
    rw [h.slots] at hlt
    have hslot := h.slot (List.getElem?_eq_getElem hlt)
    obtain rfl := Option.some.inj (hs.symm.trans hslot)
    obtain ⟨d, hd, hv⟩ := List.mem_flatMap.mp (List.getElem_mem hlt)
    exact hds d hd _ (.inr (.inr hv)) x hx

end Hierarchy

end ClassTree
