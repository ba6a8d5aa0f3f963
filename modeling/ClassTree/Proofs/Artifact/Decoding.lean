import ClassTree.Proofs.Artifact.Emission
import ClassTree.Proofs.Decimal.Whole
import ClassTree.TypePath.Lemmas
import ClassTree.Value
/-!
The running program decodes the literals of an artifact to the values that were declared. Lists are
not decoded.
-/

namespace ClassTree

/-! ### Expressions -/

lemma Binary64.toLiteral?_cases {x : Binary64} {j : Json} (h : x.toLiteral? = some j) :
    x.isFinite = true ∧
      ((∃ n : Int, x.toInt? = some n ∧ n.natAbs ≤ maxExactInt ∧ j = .int n) ∨ j = .double x) := by
  rw [toLiteral?] at h
  split at h
  · next n hn =>
    refine ⟨isFinite_of_toInt? hn, ?_⟩
    obtain rfl := Option.some.inj h
    split
    · next hle => exact .inl ⟨n, hn, hle, rfl⟩
    · exact .inr rfl
  · split at h
    · next hf => exact ⟨hf, .inr (Option.some.inj h).symm⟩
    · cases h

namespace Expr

variable {e : Expr} {v : Value} {j : Json}

/-- The value that an expression has in the running program, if it is not a list. -/
inductive Denotes : Expr → Value → Prop
  | null : Denotes .null .null
  | num {x : Binary64} (h : x.isFinite = true) : Denotes (.num x) (.num x)
  | text (s : String) : Denotes (.text s) (.text s)
  | resource (s : String) : Denotes (.resource s) (.resource s)
  | path (p : TypePath) : Denotes (.path p) (.path p)

lemma decoded_num {x : Binary64} (h : x.isFinite = true) :
    ∃ j w, x.toLiteral? = some j ∧ Value.ofLiteral? j = some w ∧ (w == .num x) = true := by
  rw [Binary64.toLiteral?]
  split
  · next n hn =>
    split
    · exact ⟨_, _, rfl, rfl, Value.beq_iff.mpr (congrArg Value.num (Binary64.canonical_ofInt hn))⟩
    · exact ⟨_, _, rfl, rfl, BEq.rfl⟩
  · rw [if_pos h]
    exact ⟨_, _, rfl, rfl, BEq.rfl⟩

lemma ofLiteral?_resourceLiteral (s : String) :
    Value.ofLiteral? (resourceLiteral s) = some (.resource s) := rfl

lemma ofLiteral?_pathLiteral (p : TypePath) :
    Value.ofLiteral? (pathLiteral p) = some (.path p) := by
  change (TypePath.parse p.text).toOption.map Value.path = _
  rw [TypePath.parse_text]
  rfl

lemma Denotes.decoded (h : e.Denotes v) :
    ∃ j w, e.toLiteral? = some j ∧ Value.ofLiteral? j = some w ∧ (w == v) = true := by
  cases h with
  | null => exact ⟨_, _, rfl, rfl, BEq.rfl⟩
  | num h => exact decoded_num h
  | text s => exact ⟨_, _, rfl, rfl, BEq.rfl⟩
  | resource s => exact ⟨_, _, rfl, ofLiteral?_resourceLiteral s, BEq.rfl⟩
  | path p => exact ⟨_, _, rfl, ofLiteral?_pathLiteral p, BEq.rfl⟩

lemma isFinite_of_toLiteral? {x : Binary64} (h : x.toLiteral? = some j) : x.isFinite = true :=
  (Binary64.toLiteral?_cases h).1

lemma exists_denotes (h : e.toLiteral? = some j) (hl : ∀ items, e ≠ .list items) :
    ∃ v, e.Denotes v := by
  cases e with
  | null => exact ⟨_, .null⟩
  | num x => exact ⟨_, .num (isFinite_of_toLiteral? h)⟩
  | text s => exact ⟨_, .text s⟩
  | resource s => exact ⟨_, .resource s⟩
  | path p => exact ⟨_, .path p⟩
  | list items => exact absurd rfl (hl items)
  | _ => cases h

lemma ofLiteral?_list {items : List Expr} (h : (Expr.list items).toLiteral? = some j) :
    Value.ofLiteral? j = none := by
  obtain ⟨values, -, rfl⟩ := Option.map_eq_some_iff.mp h
  rfl

lemma decoded (h : e.toLiteral? = some j) (hl : ∀ items, e ≠ .list items) :
    ∃ v w, e.Denotes v ∧ Value.ofLiteral? j = some w ∧ (w == v) = true := by
  obtain ⟨v, hv⟩ := exists_denotes h hl
  obtain ⟨j', w, hj, hw, hwv⟩ := hv.decoded
  obtain rfl := Option.some.inj (h.symm.trans hj)
  exact ⟨v, w, hv, hw, hwv⟩

end Expr

/-! ### Artifacts -/

inductive InitialValue : Option Expr → Value → Prop
  | absent : InitialValue none .null
  | given {x : Expr} {v : Value} (h : x.Denotes v) : InitialValue (some x) v

lemma InitialLiteral.decoded {value : Option Expr} {j : Json} (h : InitialLiteral value j)
    (hl : ∀ items, value ≠ some (.list items)) :
    ∃ v w, InitialValue value v ∧ Value.ofLiteral? j = some w ∧ (w == v) = true := by
  cases h with
  | absent => exact ⟨_, _, .absent, rfl, BEq.rfl⟩
  | given h =>
    obtain ⟨v, w, hv, hw⟩ := Expr.decoded h fun items he => hl items (congrArg some he)
    exact ⟨v, w, .given hv, hw⟩

namespace Hierarchy

variable {t : Hierarchy}

structure Decoding (t : Hierarchy) : Prop where
  literal {e : Expr} {j : Json} : e.toLiteral? = some j → (∀ items, e ≠ .list items) →
    ∃ v w, e.Denotes v ∧ Value.ofLiteral? j = some w ∧ (w == v) = true
  denoted {e : Expr} {v : Value} : e.Denotes v → ∃ j, e.toLiteral? = some j
  list {items : List Expr} {j : Json} : (Expr.list items).toLiteral? = some j →
    Value.ofLiteral? j = none
  declared {a : Artifact} : t.emit = .ok a → ∀ (c : ClassId) e, t.class? c = some e →
    ∃ r, a.classes[c]? = some r ∧ ∀ n x, e.vars.get? n = some x ∨ e.overrides.get? n = some x →
      (∀ items, x.value ≠ some (.list items)) → ∃ v w, InitialValue x.value v ∧
        (r.literal? n).bind Value.ofLiteral? = some w ∧ (w == v) = true
  slot {a : Artifact} : t.emit = .ok a → ∀ (k : SlotId) s, t.slots[k]? = some s →
    ∃ r, a.slots[k]? = some r ∧ ((∀ items, s.value ≠ some (.list items)) →
      ∃ v w, InitialValue s.value v ∧ Value.ofLiteral? r.value = some w ∧ (w == v) = true)

theorem decoding_of_reachable (h : Reachable t) : Decoding t := by
  refine ⟨Expr.decoded, ?denoted, Expr.ofLiteral?_list, ?declared, ?slot⟩
  case denoted =>
    intro e v hv
    obtain ⟨j, -, hj, -⟩ := hv.decoded
    exact ⟨j, hj⟩
  case declared =>
    intro a hok c e hc
    obtain ⟨hb, hclasses, -⟩ := eq_of_emit hok
    refine ⟨e.record, ?_, fun n x hx hl => ?_⟩
    · rw [hclasses, List.getElem?_map, getElem?_classes, hc, Option.map_some]
    · obtain ⟨j, hj, hr⟩ := exists_literal_of_classErrors (h.built.namedVars hc)
        ((buildErrors_eq_nil_iff.mp hb).1 c e hc) hx
      obtain ⟨v, w, hv, hw⟩ := hj.decoded hl
      rw [hr]
      exact ⟨v, w, hv, hw⟩
  case slot =>
    intro a hok k s hs
    obtain ⟨hb, -⟩ := emit_eq_ok_iff.mp hok
    obtain ⟨j, hj⟩ := Option.isSome_iff_exists.mp ((buildErrors_eq_nil_iff.mp hb).2 k s hs)
    have hj := initialLiteral?_eq_some_iff.mp hj
    exact ⟨_, (slots_emit h.built.slotsBound hok).mpr ⟨s, j, hs, hj, rfl⟩, hj.decoded⟩

/-- The first two numbers are written as integers and the third as a double. -/
def mixedValues : List Call :=
  [.declareVar 0 ⟨"debt", none, false, some (.num (.zero true)), .anything, .internal⟩,
    .declareVar 0 ⟨"exact", none, false, some (.num (.ofInt (-9007199254740992))), .anything,
      .internal⟩,
    .declareVar 0 ⟨"far", none, false, some (.num (.ofInt 9007199254740994)), .anything, .internal⟩,
    .declareVar 0 ⟨"kind", none, false, some (.path .mob), .anything, .internal⟩,
    .declareVar 0 ⟨"bag", none, false, some (.list [.null]), .anything, .internal⟩]

theorem decoding_mixedValues :
    ((bare.run mixedValues).emit.toOption.bind (·.classes[0]?)).map (fun r =>
        ["debt", "exact", "far", "kind", "bag"].map fun n => (r.literal? n).bind Value.ofLiteral?) =
      some [some (.num (.zero false)), some (.num (.ofInt (-9007199254740992))),
        some (.num (.ofInt 9007199254740994)), some (.path .mob), none] ∧
    Decoding (bare.run mixedValues) :=
  ⟨by decide +kernel, decoding_of_reachable (Reachable.bare.run mixedValues)⟩

end Hierarchy

end ClassTree
