import ClassTree.Proofs.Hierarchy.Naming
/-!
The const names of a class are those whose declaration, an own variable or an override, is const,
however often a name is declared again.
-/

namespace ClassTree

structure ConstNames (names : OrderedSet String) (vars overrides : OrderedMap String Variable) :
    Prop where
  nodup : names.elements.Nodup
  mem {n : String} : n ∈ names.elements ↔
    ∃ v, (vars.get? n = some v ∨ overrides.get? n = some v) ∧ v.isConst = true

namespace ConstNames

variable {names : OrderedSet String} {vars overrides : OrderedMap String Variable}

lemma swap (h : ConstNames names vars overrides) : ConstNames names overrides vars :=
  ⟨h.nodup, h.mem.trans (exists_congr fun _ => and_congr_left fun _ => or_comm)⟩

/-- The name is declared nowhere else, so its new declaration alone says whether it is const. -/
lemma insert (h : ConstNames names vars overrides) {v : Variable}
    (hv : overrides.contains v.name = false) :
    ConstNames (names.set v.name v.isConst) (vars.insert v.name v) overrides where
  nodup := OrderedSet.nodup_set h.nodup v.name v.isConst
  mem {n} := by
    rw [OrderedSet.mem_set h.nodup, h.mem, OrderedMap.get?_insert]
    by_cases hn : v.name = n
    · subst hn
      have hno : overrides.get? v.name = none := OrderedMap.get?_eq_none_iff.mpr hv
      simp [hno]
    · simp [hn, Ne.symm hn]

end ConstNames

namespace Hierarchy

variable {t : Hierarchy} {c : ClassId} {e : ClassEntry}

lemma Built.constNames (h : Built t) (hc : t.class? c = some e) :
    ConstNames e.constNames e.vars e.overrides := by
  refine h.forall_class (P := fun _ _ e => ConstNames e.constNames e.vars e.overrides) ?_ ?_ hc
  · intro t i p q
    exact ⟨.nil, by simp [ClassEntry.new, OrderedSet.empty]⟩
  · intro t t' i e e' _ _ _ hed hn
    cases hed with
    | addVar v hv => exact hn.insert hv
    | addOverride v hv => exact (hn.swap.insert hv).swap
    | _ => exact hn

end Hierarchy

end ClassTree
