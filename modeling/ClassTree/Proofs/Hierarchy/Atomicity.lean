import ClassTree.Proofs.Hierarchy.Finalize
import ClassTree.Proofs.Hierarchy.Growth
import ClassTree.Proofs.Hierarchy.Outline
/-!
Refused calls. `Refused` lists what keeps a call from being carried out. A refused call leaves the
hierarchy as it was, except where a class is asked for below another parent than it has: then that
parent is there afterwards.
-/

namespace ClassTree

/-- The class that a call is about, for the calls that take a class by its number. -/
def Call.class? : Call → Option ClassId
  | declareVar c _ | declareOverride c _ | setTmp c _ _ | createGlobal c _ _ _ _ | addProc c _ _ _
  | pushPending c _ | createInitializer c => some c
  | getOrCreate _ | createClass _ _ | setGlobalValue _ _ _ | addGlobalProc _ _ | finalize => none

namespace Hierarchy

variable {t : Hierarchy} {call : Call} {x : HierarchyError} {p q r : TypePath} {c : ClassId}

/-! ### What refuses a call -/

inductive Refused (t : Hierarchy) : Call → HierarchyError → Prop
  | missing {call : Call} {c : ClassId} (hc : call.class? = some c) (hn : t.class? c = none) :
      Refused t call (.classNotFound c)
  | overridden {c : ClassId} {e : ClassEntry} {v : Variable} (hc : t.class? c = some e)
      (hv : e.overrides.contains v.name = true) :
      Refused t (.declareVar c v) (.variableConflict e.path v.name .override)
  | owned {c : ClassId} {e : ClassEntry} {v : Variable} (hc : t.class? c = some e)
      (hv : e.vars.contains v.name = true) :
      Refused t (.declareOverride c v) (.variableConflict e.path v.name .own)
  | noSlot {id : SlotId} {value : Expr} {location : Location} (hs : t.slots.size ≤ id) :
      Refused t (.setGlobalValue id value location) (.slotNotFound id)
  | taken {name : String} {returnType : Option ValueConstraint}
      (hn : t.registry.globals.contains name = true) :
      Refused t (.addGlobalProc name returnType) (.duplicateGlobalProc name)
  | cyclic {p q : TypePath} (hq : q = p ∨ q.isBelow p = true) :
      Refused t (.createClass p (some q)) (.inheritanceCycle p q)
  | elsewhere {p q r : TypePath} {c b : ClassId} (hq : ¬ (q = p ∨ q.isBelow p = true))
      (hp : t.lookupPath p = some c) (hc : t.parent? c = some b) (hb : t.pathOf? b = some r)
      (hr : r ≠ q) : Refused t (.createClass p (some q)) (.reparent p r)

section

variable {α : Type} {result : Except HierarchyError α} {next : α → Hierarchy} {id : α → Option Nat}

lemma fst_commit_of_error (h : (t.commit result next id).2 = .error x) :
    (t.commit result next id).1 = t := by
  cases result with
  | error e => rfl
  | ok a => cases h

lemma bind_tryClass_eq_error_iff {f : ClassEntry → Except HierarchyError α} :
    (t.tryClass c >>= f) = .error x ↔ (t.class? c = none ∧ x = .classNotFound c) ∨
      ∃ e, t.class? c = some e ∧ f e = .error x := by
  rw [tryClass]
  cases t.class? c with
  | none => simp [bind, Except.bind, eq_comm]
  | some e => simp [bind, Except.bind]

end

lemma declareVar_eq_error_iff {v : Variable} :
    t.declareVar c v = .error x ↔ Refused t (.declareVar c v) x := by
  rw [declareVar, bind_tryClass_eq_error_iff]
  constructor
  · rintro (⟨hn, rfl⟩ | ⟨e, hc, he⟩)
    · exact .missing rfl hn
    · split at he
      · next hv =>
        cases he
        exact .overridden hc hv
      · cases he
  · rintro (⟨⟨⟩, hn⟩ | ⟨hc, hv⟩)
    · exact .inl ⟨hn, rfl⟩
    · exact .inr ⟨_, hc, if_pos hv⟩

lemma declareOverride_eq_error_iff {v : Variable} :
    t.declareOverride c v = .error x ↔ Refused t (.declareOverride c v) x := by
  rw [declareOverride, bind_tryClass_eq_error_iff]
  constructor
  · rintro (⟨hn, rfl⟩ | ⟨e, hc, he⟩)
    · exact .missing rfl hn
    · split at he
      · next hv =>
        cases he
        exact .owned hc hv
      · cases he
  · rintro (⟨⟨⟩, hn⟩ | _ | ⟨hc, hv⟩)
    · exact .inl ⟨hn, rfl⟩
    · exact .inr ⟨_, hc, if_pos hv⟩

lemma Arena.fst_perform_of_error (h : Arena t) (hx : (t.perform call).2 = .error x)
    (hne : ∀ p r, x ≠ .reparent p r) : (t.perform call).1 = t := by
  cases call with
  | getOrCreate p => cases hx
  | createClass p parent =>
    rw [perform, map_eq_error_iff] at hx
    cases parent with
    | none => cases hx
    | some q =>
      have hplaced := h.placed_createBelow p q
      simp only [perform, createClass] at hx ⊢
      generalize t.createBelow p q = result at *
      cases hplaced with
      | cyclic _ => rfl
      | created _ _ _ | found _ _ _ _ => cases hx
      | elsewhere _ _ _ _ _ =>
        cases hx
        exact absurd rfl (hne _ _)
  | _ => exact fst_commit_of_error hx

end Hierarchy

end ClassTree
