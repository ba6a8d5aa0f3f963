import ClassTree.Hierarchy.Report
import ClassTree.Proofs.Hierarchy.Inheritance
/-!
Where the variable of a report comes from, and what its flag says of that. The flag asks for an own
variable on the class or above it, so it stays the same however far below the declaration the report
is asked for.
-/

namespace ClassTree

lemma ClassEntry.declared?_eq_none_iff {e : ClassEntry} {n : String} :
    e.declared? n = none ↔ e.vars.contains n = false ∧ e.overrides.contains n = false := by
  rw [declared?, Option.or_eq_none_iff, ← OrderedMap.isSome_get?, ← OrderedMap.isSome_get?,
    Option.isSome_eq_false_iff, Option.isSome_eq_false_iff, Option.isNone_iff_eq_none,
    Option.isNone_iff_eq_none]

lemma ClassEntry.isSome_declared? {e : ClassEntry} {n : String} (h : e.vars.contains n = true) :
    (e.declared? n).isSome = true := by
  rw [Option.isSome_iff_ne_none]
  intro hn
  rw [(declared?_eq_none_iff.mp hn).1] at h
  cases h

namespace Hierarchy

variable {t : Hierarchy} {c d : ClassId} {e : ClassEntry} {n : String} {v : Variable}
  {r : VariableReport}

/-- The nearest class on the way up from `c` that declares the name is `d`. -/
structure Source (t : Hierarchy) (c : ClassId) (n : String) (d : ClassId) (v : Variable) :
    Prop where
  above : ∃ nearer, t.lineage c = nearer ++ t.lineage d ∧ ∀ a ∈ nearer, a.declared? n = none
  declares : ∃ e, t.class? d = some e ∧ e.declared? n = some v

/-- A reported variable counts as declared here only on the class that declares it. -/
def FlagsHere (t : Hierarchy) (c : ClassId) (n : String) : Prop :=
  ∀ r d v, (t.report c n).variableReport = some r → t.Source c n d v →
    r.declaredHere = true → d = c

lemma Arena.exists_source (h : Arena t) (hv : t.findVar c n = some v) :
    ∃ d, t.Source c n d v := by
  obtain ⟨nearer, e, farther, hl, he, hn⟩ := List.findSome?_eq_some_iff.mp hv
  have hm : e ∈ t.lineage c := hl ▸ List.mem_append_right _ List.mem_cons_self
  exact ⟨e.id, ⟨nearer, by rw [h.lineage_of_append hl, hl], hn⟩, e, (h.mem_lineage hm).2, he⟩

namespace Source

variable (hs : t.Source c n d v)

include hs

lemma findVar : t.findVar c n = some v := by
  obtain ⟨⟨nearer, hl, hn⟩, e, hd, he⟩ := hs
  rw [lineage_eq_cons hd] at hl
  exact List.findSome?_eq_some_iff.mpr ⟨nearer, e, _, hl, he, hn⟩

lemma varClass (h : Arena t) : t.varClass c n = some d := by
  obtain ⟨⟨nearer, hl, hn⟩, e, hd, he⟩ := hs
  have hnone : nearer.find? (fun a => (a.declared? n).isSome) = none :=
    List.find?_eq_none.mpr fun a ha => by simp [hn a ha]
  rw [Hierarchy.varClass, hl, List.find?_append, hnone, Option.none_or, lineage_eq_cons hd,
    List.find?_cons_of_pos (by simp [he]), Option.map_some, h.id hd]

/-- No class before the source has an own variable of the name. -/
lemma declaresInstanceVar : t.declaresInstanceVar c n = t.declaresInstanceVar d n := by
  obtain ⟨nearer, hl, hn⟩ := hs.above
  have hnone : nearer.any (fun a => a.vars.contains n) = false :=
    List.any_eq_false.mpr fun a ha => by simp [(ClassEntry.declared?_eq_none_iff.mp (hn a ha)).1]
  rw [Hierarchy.declaresInstanceVar, hl, List.any_append, hnone, Bool.false_or,
    Hierarchy.declaresInstanceVar]

lemma reportVariable : t.reportVariable c n =
    some ⟨v.typePath, v.isConst, v.literal?, t.declaresInstanceVar d n⟩ := by
  rw [Hierarchy.reportVariable, hs.findVar, Option.map_some, hs.declaresInstanceVar]

lemma self : t.Source d n d v :=
  ⟨⟨[], rfl, nofun⟩, hs.declares⟩

lemma isSubclassOf (h : Arena t) : t.isSubclassOf c d = true := by
  obtain ⟨⟨nearer, hl, -⟩, e, hd, -⟩ := hs
  exact h.isSubclassOf_iff.mpr ⟨⟨e, hd⟩, nearer, hl.symm⟩

lemma eq_iff (h : Arena t) : d = c ↔ ∃ e, t.class? c = some e ∧ (e.declared? n).isSome = true := by
  constructor
  · rintro rfl
    obtain ⟨e, hd, he⟩ := hs.declares
    exact ⟨e, hd, by rw [he, Option.isSome_some]⟩
  · rintro ⟨e, hc, he⟩
    obtain ⟨w, hw⟩ := Option.isSome_iff_exists.mp he
    have hc' : t.Source c n c w := ⟨⟨[], rfl, nofun⟩, e, hc, hw⟩
    exact Option.some.inj ((hs.varClass h).symm.trans (hc'.varClass h))

end Source

lemma exists_source_of_reportVariable (h : Arena t) (hr : t.reportVariable c n = some r) :
    ∃ d v, t.Source c n d v := by
  obtain ⟨v, hv, -⟩ := Option.map_eq_some_iff.mp hr
  obtain ⟨d, hs⟩ := h.exists_source hv
  exact ⟨d, v, hs⟩

lemma declaresInstanceVar_iff : t.declaresInstanceVar c n = true ↔
    ∃ e ∈ t.lineage c, e.vars.contains n = true := by
  rw [declaresInstanceVar, List.any_eq_true]

lemma Arena.flagsHere_iff (h : Arena t) : t.FlagsHere c n ↔
    (∃ e, t.class? c = some e ∧ (e.declared? n).isSome = true) ∨
      ∀ e ∈ t.lineage c, e.vars.contains n = false := by
  constructor
  · intro hf
    by_cases hd : t.declaresInstanceVar c n = true
    · refine .inl ?_
      obtain ⟨e, he, hv⟩ := declaresInstanceVar_iff.mp hd
      have hsome : (t.findVar c n).isSome = true :=
        List.findSome?_isSome_iff.mpr ⟨e, he, ClassEntry.isSome_declared? hv⟩
      obtain ⟨v, hv⟩ := Option.isSome_iff_exists.mp hsome
      obtain ⟨d, hs⟩ := h.exists_source hv
      exact (hs.eq_iff h).mp (hf _ d v hs.reportVariable hs (hs.declaresInstanceVar ▸ hd))
    · refine .inr fun e he => Bool.eq_false_iff.mpr fun hv => hd ?_
      exact declaresInstanceVar_iff.mpr ⟨e, he, hv⟩
  · rintro (hc | hn) r d v hr hs hflag
    · exact (hs.eq_iff h).mpr hc
    · have hr' : t.reportVariable c n = some r := hr
      obtain rfl := Option.some.inj (hs.reportVariable.symm.trans hr')
      rw [← hs.declaresInstanceVar] at hflag
      obtain ⟨e, he, hv⟩ := declaresInstanceVar_iff.mp hflag
      rw [hn e he] at hv
      cases hv

/-- What the reports on a name say of a variable, on a class and below it. -/
structure ReportsVariable (t : Hierarchy) (c : ClassId) (n : String) : Prop where
  reported_iff : (∃ r, (t.report c n).variableReport = some r) ↔ ∃ d v, t.Source c n d v
  source {d : ClassId} {v : Variable} : t.Source c n d v →
    t.findVar c n = some v ∧ t.varClass c n = some d ∧ t.isSubclassOf c d = true
  report {d : ClassId} {v : Variable} : t.Source c n d v → ∃ here,
    (t.report c n).variableReport = some ⟨v.typePath, v.isConst, v.literal?, here⟩ ∧
      (t.report d n).variableReport = some ⟨v.typePath, v.isConst, v.literal?, here⟩ ∧
      (here = true ↔ ∃ e ∈ t.lineage d, e.vars.contains n = true)
  flagsHere_iff : t.FlagsHere c n ↔
    (∃ e, t.class? c = some e ∧ (e.declared? n).isSome = true) ∨
      ∀ e ∈ t.lineage c, e.vars.contains n = false

theorem reportsVariable_of_reachable (h : Reachable t) (c : ClassId) (n : String) :
    ReportsVariable t c n := by
  have ha := h.built.arena
  refine ⟨?reported, ?source, ?report, ha.flagsHere_iff⟩
  case reported =>
    constructor
    · rintro ⟨r, hr⟩
      exact exists_source_of_reportVariable ha hr
    · rintro ⟨d, v, hs⟩
      exact ⟨_, hs.reportVariable⟩
  case source =>
    intro d v hs
    exact ⟨hs.findVar, hs.varClass ha, hs.isSubclassOf ha⟩
  case report =>
    intro d v hs
    exact ⟨_, hs.reportVariable, hs.self.reportVariable, declaresInstanceVar_iff⟩

/-- `/atom/movable` overrides the variable of `/atom`, and `/obj` below it declares nothing. -/
def overriddenBetween : List Call :=
  [.createClass .movable none,
    .declareVar 1 ⟨"hp", none, false, some (.text "own"), .anything, .internal⟩,
    .declareOverride 2 ⟨"hp", none, false, some (.text "override"), .anything, .internal⟩,
    .declareOverride 2 ⟨"mp", none, true, none, .anything, .internal⟩,
    .createClass .obj (some .movable)]

theorem reportsVariable_overriddenBetween :
    ReportsVariable (bare.run overriddenBetween) 3 "hp" ∧
      ReportsVariable (bare.run overriddenBetween) 2 "mp" ∧
      (bare.run overriddenBetween).varClass 3 "hp" = some 2 ∧
      ((bare.run overriddenBetween).reportVariable 3 "hp").map (·.declaredHere) = some true ∧
      ((bare.run overriddenBetween).reportVariable 2 "mp").map (·.declaredHere) = some false := by
  have hr := Reachable.bare.run overriddenBetween
  exact ⟨reportsVariable_of_reachable hr 3 "hp", reportsVariable_of_reachable hr 2 "mp",
    by decide +kernel⟩

/-- The class of `/atom/movable` inherits its only variable from `/atom`. -/
def ownAbove : List Call :=
  [.createClass .movable none, .declareVar 1 ⟨"hp", none, false, none, .anything, .internal⟩]

theorem not_flagsHere_ownAbove :
    Reachable (bare.run ownAbove) ∧ (bare.run ownAbove).varClass 2 "hp" = some 1 ∧
      ((bare.run ownAbove).report 2 "hp").variableReport.map (·.declaredHere) = some true ∧
      ¬ (bare.run ownAbove).FlagsHere 2 "hp" := by
  have hr := Reachable.bare.run ownAbove
  have hclass : (bare.run ownAbove).varClass 2 "hp" = some 1 := by decide +kernel
  have hflag : ((bare.run ownAbove).report 2 "hp").variableReport.map (·.declaredHere) =
      some true := by decide +kernel
  refine ⟨hr, hclass, hflag, fun hf => ?_⟩
  have ha := hr.built.arena
  obtain ⟨r, hrep, hhere⟩ := Option.map_eq_some_iff.mp hflag
  obtain ⟨d, v, hs⟩ := exists_source_of_reportVariable ha hrep
  obtain rfl := Option.some.inj ((hs.varClass ha).symm.trans hclass)
  exact absurd (hf r 1 v hrep hs hhere) (by decide)

end Hierarchy

end ClassTree
