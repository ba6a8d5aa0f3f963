import ClassTree.Proofs.Artifact.Decoding
import ClassTree.Proofs.Json.Record
import Mathlib.Data.List.Forall2
/-!
Which values literals are. Lists in lists are gone through by `Expr.list_induction`.
-/

namespace ClassTree

variable {e : Expr} {j : Json} {x : Binary64}

inductive Literal : Json → Prop
  | null : Literal .null
  | int {n : Int} (h : n.natAbs ≤ maxExactInt) : Literal (.int n)
  | double {x : Binary64} (h : x.isFinite = true) : Literal (.double x)
  | text (s : String) : Literal (.text s)
  | resource (s : String) : Literal (Expr.resourceLiteral s)
  | path (p : TypePath) : Literal (Expr.pathLiteral p)
  | list {values : List Json} (h : ∀ j ∈ values, Literal j) : Literal (Expr.listLiteral values)

namespace Expr

mutual

theorem list_induction {motive : Expr → Prop}
    (list : ∀ items, (∀ e ∈ items, motive e) → motive (.list items))
    (single : ∀ e, (∀ items, e ≠ .list items) → motive e) (e : Expr) : motive e := by
  match e with
  | .list items => exact list items (forall_mem_induction list single items)
  | .null | .num _ | .text _ | .resource _ | .path _ | .globalVar _ | .call _ _ | .new _ _
  | .assignField _ _ => exact single _ nofun

theorem forall_mem_induction {motive : Expr → Prop}
    (list : ∀ items, (∀ e ∈ items, motive e) → motive (.list items))
    (single : ∀ e, (∀ items, e ≠ .list items) → motive e) (items : List Expr) :
    ∀ e ∈ items, motive e := by
  match items with
  | [] => exact nofun
  | e :: rest =>
    exact List.forall_mem_cons.mpr
      ⟨list_induction list single e, forall_mem_induction list single rest⟩

end

lemma toLiterals?_eq_some_iff {items : List Expr} {values : List Json} :
    toLiterals? items = some values ↔
      List.Forall₂ (fun e j => e.toLiteral? = some j) items values := by
  induction items generalizing values with
  | nil => simp [toLiterals?, eq_comm]
  | cons e rest ih =>
    rw [List.forall₂_cons_left_iff]
    constructor
    · intro h
      obtain ⟨j, hj, h⟩ := Option.bind_eq_some_iff.mp h
      obtain ⟨js, hjs, h⟩ := Option.bind_eq_some_iff.mp h
      cases h
      exact ⟨j, js, hj, ih.mp hjs, rfl⟩
    · rintro ⟨j, js, hj, hjs, rfl⟩
      exact Option.bind_eq_some_iff.mpr ⟨j, hj, Option.bind_eq_some_iff.mpr ⟨js, ih.mpr hjs, rfl⟩⟩

lemma exists_of_mem_toLiterals? {items : List Expr} {values : List Json}
    (h : toLiterals? items = some values) (hj : j ∈ values) :
    ∃ e ∈ items, e.toLiteral? = some j := by
  replace h := toLiterals?_eq_some_iff.mp h
  induction h with
  | nil => cases hj
  | @cons e k rest ks hk _ ih =>
    rcases List.mem_cons.mp hj with rfl | hj
    · exact ⟨e, List.mem_cons_self, hk⟩
    · obtain ⟨a, ha, hj⟩ := ih hj
      exact ⟨a, List.mem_cons_of_mem e ha, hj⟩

end Expr

lemma Binary64.literal (h : x.toLiteral? = some j) : Literal j := by
  obtain ⟨hf, ⟨n, -, hn, rfl⟩ | rfl⟩ := toLiteral?_cases h
  · exact .int hn
  · exact .double hf

lemma Expr.literal (h : e.toLiteral? = some j) : Literal j := by
  induction e using list_induction generalizing j with
  | list items ih =>
    obtain ⟨values, hv, rfl⟩ := Option.map_eq_some_iff.mp h
    refine .list fun k hk => ?_
    obtain ⟨a, ha, hk⟩ := exists_of_mem_toLiterals? hv hk
    exact ih a ha hk
  | single e hl =>
    cases e with
    | null =>
      cases h
      exact .null
    | num x => exact Binary64.literal h
    | text s =>
      cases h
      exact .text s
    | resource s =>
      cases h
      exact .resource s
    | path p =>
      cases h
      exact .path p
    | list items => exact absurd rfl (hl items)
    | _ => cases h

lemma InitialLiteral.literal {value : Option Expr} (h : InitialLiteral value j) : Literal j := by
  cases h with
  | absent => exact .null
  | given h => exact Expr.literal h

namespace Literal

lemma readable (h : Literal j) : Json.Readable j := by
  induction h with
  | null => exact .null
  | int h =>
    rw [maxExactInt] at h
    exact .int (by omega) (by omega)
  | double h => exact .double h
  | text s => exact .text s
  | resource s => exact .obj (by simp [Json.Readable.text])
  | path p => exact .obj (by simp [Json.Readable.text])
  | list h ih => exact .obj (by simp [Json.Readable.text, Json.Readable.arr ih])

lemma canonicalItems_eq_self {items : List Json} (h : ∀ j ∈ items, j.canonical = j) :
    Json.canonicalItems items = items := by
  induction items with
  | nil => rfl
  | cons j rest ih =>
    obtain ⟨hj, hrest⟩ := List.forall_mem_cons.mp h
    rw [Json.canonicalItems, hj, ih hrest]

/-- The fields of tagged literals stand in their canonical order. -/
lemma canonical_eq_self (h : Literal j) : j.canonical = j := by
  induction h with
  | resource s => rfl
  | path p => rfl
  | @list values h ih =>
    change Expr.listLiteral (Json.canonicalItems values) = _
    rw [canonicalItems_eq_self ih]
  | _ => rfl

lemma asAny_eq_ok (h : Literal j) : j.asAny = .ok j :=
  Json.asAny_of_isHeld h.readable.isHeld h.canonical_eq_self

end Literal

end ClassTree
