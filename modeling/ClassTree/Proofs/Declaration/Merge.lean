import ClassTree.Declaration
import ClassTree.Proofs.OrderedMap
/-!
What the entries of a declaration file for one class come to. The last declaration of a name counts,
procs add up, and a class that takes the declarations one by one holds what they come to together.
-/

namespace ClassTree

variable {α β : Type}

/-! ### The share of a class -/

namespace ClassDecl

def itemsAt (items : ClassDecl → List α) (p : TypePath) (ds : List ClassDecl) : List α :=
  (ds.filter (·.path = p)).flatMap items

/-- The items of all entries are numbered in a row, and those of a path are picked out. -/
def numberedAt (items : ClassDecl → List α) (p : TypePath) : Nat → List ClassDecl → List (α × Nat)
  | _, [] => []
  | k, d :: ds =>
    (if d.path = p then (items d).zipIdx k else []) ++
      numberedAt items p (k + (items d).length) ds

variable {items : ClassDecl → List α} {p : TypePath} {d : ClassDecl} {ds : List ClassDecl}

lemma itemsAt_snoc :
    itemsAt items p (ds ++ [d]) = itemsAt items p ds ++ if d.path = p then items d else [] := by
  rw [itemsAt, List.filter_append, List.flatMap_append, ← itemsAt]
  by_cases h : d.path = p <;> simp [h]

lemma numberedAt_snoc {k : Nat} : numberedAt items p k (ds ++ [d]) = numberedAt items p k ds ++
    if d.path = p then (items d).zipIdx (k + (ds.flatMap items).length) else [] := by
  induction ds generalizing k with
  | nil => simp [numberedAt]
  | cons b ds ih => simp [numberedAt, ih, Nat.add_assoc]

lemma numberedAt_eq_nil {k : Nat} (h : ∀ d ∈ ds, d.path ≠ p) : numberedAt items p k ds = [] := by
  induction ds generalizing k with
  | nil => rfl
  | cons b ds ih =>
    have hb := h b List.mem_cons_self
    rw [numberedAt, if_neg hb, ih fun d hd => h d (List.mem_cons_of_mem b hd), List.append_nil]

/-- Each item with the path of its entry. -/
def placed (items : ClassDecl → List α) (ds : List ClassDecl) : List (TypePath × α) :=
  ds.flatMap fun d => (items d).map (d.path, ·)

lemma map_snd_placed (items : ClassDecl → List α) (ds : List ClassDecl) :
    (placed items ds).map (·.2) = ds.flatMap items := by
  simp [placed, List.map_flatMap, Function.comp_def]

lemma mem_placed {a : α} : (p, a) ∈ placed items ds ↔ ∃ d ∈ ds, d.path = p ∧ a ∈ items d := by
  simp [placed, and_comm]

/-- The number of an item tells its place among the items of all entries. -/
lemma mem_numberedAt {k i : Nat} {a : α} (h : (placed items ds)[i]? = some (p, a)) :
    (a, k + i) ∈ numberedAt items p k ds := by
  induction ds generalizing k i with
  | nil => cases h
  | cons b ds ih =>
    rw [placed, List.flatMap_cons, List.getElem?_append, List.length_map] at h
    rw [numberedAt, List.mem_append]
    split at h
    · rw [List.getElem?_map] at h
      obtain ⟨a', ha, hpa⟩ := Option.map_eq_some_iff.mp h
      obtain ⟨rfl, rfl⟩ := Prod.mk.inj hpa
      rw [if_pos rfl]
      exact .inl (List.mk_add_mem_zipIdx_iff_getElem?.mpr ha)
    · next hi =>
      have hk : k + i = k + (items b).length + (i - (items b).length) := by omega
      rw [hk]
      exact .inr (ih h)

lemma exists_of_mem_itemsAt {a : α} (h : a ∈ itemsAt items p ds) : ∃ d ∈ ds, a ∈ items d := by
  obtain ⟨d, hd, ha⟩ := List.mem_flatMap.mp h
  exact ⟨d, (List.mem_filter.mp hd).1, ha⟩

lemma itemsAt_eq_nil (h : ∀ d ∈ ds, d.path ≠ p) : itemsAt items p ds = [] := by
  have hf : ds.filter (·.path = p) = [] := List.filter_eq_nil_iff.mpr (by simpa using h)
  rw [itemsAt, hf, List.flatMap_nil]

end ClassDecl

/-- What is declared for a class, the globals and the procs with the ids they get. -/
structure Share where
  vars : List VarDecl
  overrides : List VarDecl
  globals : List (VarDecl × SlotId)
  procs : List (ProcDecl × ProcId)
  init : List PendingExpr

namespace Share

def empty : Share := ⟨[], [], [], [], []⟩

/-- The slots of a file are numbered from 0 on, its procs from `firstProc` on. -/
def of (firstProc : Nat) (ds : List ClassDecl) (p : TypePath) : Share where
  vars := ClassDecl.itemsAt ClassDecl.vars p ds
  overrides := ClassDecl.itemsAt ClassDecl.overrides p ds
  globals := ClassDecl.numberedAt ClassDecl.globals p 0 ds
  procs := ClassDecl.numberedAt ClassDecl.procs p firstProc ds
  init := ClassDecl.itemsAt ClassDecl.init p ds

variable {g : Nat} {p : TypePath} {d d' : ClassDecl} {ds : List ClassDecl}

lemma of_eq_empty (h : ∀ d ∈ ds, d.path ≠ p) : of g ds p = empty := by
  rw [of, ClassDecl.itemsAt_eq_nil h, ClassDecl.itemsAt_eq_nil h, ClassDecl.itemsAt_eq_nil h,
    ClassDecl.numberedAt_eq_nil h, ClassDecl.numberedAt_eq_nil h, empty]

lemma of_snoc_other (h : d.path ≠ p) : of g (ds ++ [d]) p = of g ds p := by
  simp only [of, ClassDecl.itemsAt_snoc, ClassDecl.numberedAt_snoc, if_neg h, List.append_nil]

lemma of_snoc_bare (q : TypePath) (parent : Option TypePath) :
    of g (ds ++ [⟨q, parent, [], [], [], [], []⟩]) p = of g ds p := by
  simp [of, ClassDecl.itemsAt_snoc, ClassDecl.numberedAt_snoc]

lemma of_addVar (v : VarDecl) : of g (ds ++ [{ d with vars := d.vars ++ [v] }]) d.path =
    { of g (ds ++ [d]) d.path with vars := (of g (ds ++ [d]) d.path).vars ++ [v] } := by
  simp [of, ClassDecl.itemsAt_snoc, ClassDecl.numberedAt_snoc]

lemma of_addOverride (v : VarDecl) :
    of g (ds ++ [{ d with overrides := d.overrides ++ [v] }]) d.path =
      { of g (ds ++ [d]) d.path with overrides := (of g (ds ++ [d]) d.path).overrides ++ [v] } := by
  simp [of, ClassDecl.itemsAt_snoc, ClassDecl.numberedAt_snoc]

lemma of_addGlobal (v : VarDecl) :
    of g (ds ++ [{ d with globals := d.globals ++ [v] }]) d.path =
      { of g (ds ++ [d]) d.path with
        globals := (of g (ds ++ [d]) d.path).globals ++
          [(v, ((ds ++ [d]).flatMap ClassDecl.globals).length)] } := by
  simp [of, ClassDecl.itemsAt_snoc, ClassDecl.numberedAt_snoc, List.zipIdx_append]

lemma of_addProc (x : ProcDecl) :
    of g (ds ++ [{ d with procs := d.procs ++ [x] }]) d.path =
      { of g (ds ++ [d]) d.path with
        procs := (of g (ds ++ [d]) d.path).procs ++
          [(x, g + ((ds ++ [d]).flatMap ClassDecl.procs).length)] } := by
  simp [of, ClassDecl.itemsAt_snoc, ClassDecl.numberedAt_snoc, List.zipIdx_append, Nat.add_assoc]

lemma of_addInit (x : PendingExpr) :
    of g (ds ++ [{ d with init := d.init ++ [x] }]) d.path =
      { of g (ds ++ [d]) d.path with init := (of g (ds ++ [d]) d.path).init ++ [x] } := by
  simp [of, ClassDecl.itemsAt_snoc, ClassDecl.numberedAt_snoc]

end Share

/-! ### Last declarations -/

def lastNamed (name : α → String) (l : List α) (n : String) : Option α :=
  l.reverse.find? (name · = n)

lemma lastNamed_snoc {name : α → String} {l : List α} {a : α} {n : String} :
    lastNamed name (l ++ [a]) n = if name a = n then some a else lastNamed name l n := by
  rw [lastNamed, List.reverse_append, List.reverse_singleton, List.singleton_append,
    List.find?_cons, lastNamed]
  by_cases h : name a = n <;> simp [h]

/-- A map from names, in the order in which they first occur in a list, to what the last element of
each name comes to. -/
structure LastOf (m : OrderedMap String β) (l : List α) (name : α → String) (value : α → β) :
    Prop where
  keys : m.keys = (l.map name).eraseDups
  get? (n : String) : m.get? n = (lastNamed name l n).map value

namespace LastOf

variable {m : OrderedMap String β} {l : List α} {name : α → String} {value : α → β}

lemma empty : LastOf .empty [] name value := ⟨rfl, fun _ => rfl⟩

lemma insert (h : LastOf m l name value) (a : α) :
    LastOf (m.insert (name a) (value a)) (l ++ [a]) name value where
  keys := by
    have hm : m.contains (name a) = true ↔ name a ∈ l.map name := by
      rw [OrderedMap.contains_iff_mem_keys, h.keys, List.mem_eraseDups]
    rw [OrderedMap.keys_insert, List.map_append, List.eraseDups_append, List.map_singleton,
      List.removeAll, List.filter_cons, List.filter_nil, h.keys]
    by_cases hc : name a ∈ l.map name
    · rw [if_pos (hm.mpr hc), List.elem_eq_true_of_mem hc]
      simp
    · rw [if_neg (mt hm.mp hc), Bool.eq_false_iff.mpr (mt List.mem_of_elem_eq_true hc)]
      simp [List.eraseDups_cons]
  get? n := by
    rw [OrderedMap.get?_insert, h.get?, lastNamed_snoc]
    by_cases hn : name a = n <;> simp [hn]

lemma exists_of_mem_values (h : LastOf m l name value) (hd : m.Distinct) {b : β}
    (hb : b ∈ m.values) : ∃ a ∈ l, value a = b := by
  obtain ⟨⟨n, b⟩, hm, rfl⟩ := List.mem_map.mp hb
  have hg := OrderedMap.get?_of_mem_entries hd hm
  rw [h.get?] at hg
  obtain ⟨a, ha, rfl⟩ := Option.map_eq_some_iff.mp hg
  exact ⟨a, List.mem_reverse.mp (List.mem_of_find?_eq_some ha), rfl⟩

lemma lastNamed_eq_none (h : LastOf m l name value) {n : String} (hn : m.contains n = false) :
    lastNamed name l n = none := by
  rw [← OrderedMap.get?_eq_none_iff, h.get?] at hn
  exact Option.map_eq_none_iff.mp hn

lemma name_ne (h : LastOf m l name value) {n : String} (hn : m.contains n = false) {a : α}
    (ha : a ∈ l) : name a ≠ n := by
  have hf := List.find?_eq_none.mp (h.lastNamed_eq_none hn) a (List.mem_reverse.mpr ha)
  simpa using hf

end LastOf

/-- The names whose last declaration, of one kind or the other, has a flag. -/
structure Flagged (names : OrderedSet String) (l l' : List VarDecl) (flag : VarDecl → Bool) :
    Prop where
  nodup : names.elements.Nodup
  mem (n : String) : n ∈ names.elements ↔ ∃ d, (lastNamed VarDecl.name l n = some d ∨
    lastNamed VarDecl.name l' n = some d) ∧ flag d = true

namespace Flagged

variable {names : OrderedSet String} {l l' : List VarDecl} {flag : VarDecl → Bool}

lemma empty : Flagged .empty [] [] flag := ⟨.nil, fun n => by simp [OrderedSet.empty, lastNamed]⟩

lemma swap (h : Flagged names l l' flag) : Flagged names l' l flag :=
  ⟨h.nodup, fun n => (h.mem n).trans (exists_congr fun _ => and_congr_left fun _ => or_comm)⟩

lemma set (h : Flagged names l l' flag) (d : VarDecl)
    (hn : lastNamed VarDecl.name l' d.name = none) :
    Flagged (names.set d.name (flag d)) (l ++ [d]) l' flag where
  nodup := OrderedSet.nodup_set h.nodup d.name (flag d)
  mem n := by
    rw [OrderedSet.mem_set h.nodup, h.mem, lastNamed_snoc]
    by_cases hd : d.name = n
    · subst hd
      simp [hn]
    · simp [hd, Ne.symm hd]

end Flagged

/-! ### Merged classes -/

structure Merged (s : Share) (e : ClassEntry) : Prop where
  vars : LastOf e.vars s.vars VarDecl.name VarDecl.toVariable
  overrides : LastOf e.overrides s.overrides VarDecl.name VarDecl.toVariable
  disjoint : ∀ d ∈ s.vars, ∀ d' ∈ s.overrides, d.name ≠ d'.name
  consts : Flagged e.constNames s.vars s.overrides VarDecl.isConst
  tmps : Flagged e.tmpNames s.vars s.overrides VarDecl.isTmp
  globals : LastOf e.globals s.globals (·.1.name) (·.2)
  procs (n : String) : (e.procs.get? n).getD [] = (s.procs.filter (·.1.name = n)).map (·.2)
  listed (n : String) : e.procs.get? n ≠ some []
  verbs : e.verbs = (s.procs.filter (·.1.flags.isVerb)).map (·.2)
  pending : e.pending = s.init
  initializer : e.initializer = none

namespace Merged

variable {s : Share} {e : ClassEntry}

lemma new (i : ClassId) (p : TypePath) (q : Option ClassId) : Merged .empty (.new i p q) where
  vars := .empty
  overrides := .empty
  disjoint := by simp [Share.empty]
  consts := .empty
  tmps := .empty
  globals := .empty
  procs _ := rfl
  listed _ := nofun
  verbs := rfl
  pending := rfl
  initializer := rfl

lemma addVar (h : Merged s e) {d : VarDecl} (hd : e.overrides.contains d.name = false) :
    Merged { s with vars := s.vars ++ [d] } ((e.addVar d.toVariable).setTmp d.name d.isTmp) :=
  { h with
    vars := h.vars.insert d
    disjoint := by
      intro a ha b hb
      rcases List.mem_append.mp ha with ha | ha
      · exact h.disjoint a ha b hb
      · rw [List.mem_singleton.mp ha]
        exact (h.overrides.name_ne hd hb).symm
    consts := h.consts.set d (h.overrides.lastNamed_eq_none hd)
    tmps := h.tmps.set d (h.overrides.lastNamed_eq_none hd) }

lemma addOverride (h : Merged s e) {d : VarDecl} (hd : e.vars.contains d.name = false) :
    Merged { s with overrides := s.overrides ++ [d] }
      ((e.addOverride d.toVariable).setTmp d.name d.isTmp) :=
  { h with
    overrides := h.overrides.insert d
    disjoint := by
      intro a ha b hb
      rcases List.mem_append.mp hb with hb | hb
      · exact h.disjoint a ha b hb
      · rw [List.mem_singleton.mp hb]
        exact h.vars.name_ne hd ha
    consts := (h.consts.swap.set d (h.vars.lastNamed_eq_none hd)).swap
    tmps := (h.tmps.swap.set d (h.vars.lastNamed_eq_none hd)).swap }

lemma bindGlobal (h : Merged s e) (d : VarDecl) (k : SlotId) :
    Merged { s with globals := s.globals ++ [(d, k)] } (e.bindGlobal d.name k) :=
  { h with globals := h.globals.insert (d, k) }

lemma addProc (h : Merged s e) (d : ProcDecl) (i : ProcId) :
    Merged { s with procs := s.procs ++ [(d, i)] } (e.addProc d.name i d.flags.isVerb) :=
  { h with
    procs := by
      intro n
      rw [ClassEntry.addProc, OrderedMap.get?_insert, List.filter_append, List.map_append]
      by_cases hn : d.name = n
      · simp [hn, h.procs]
      · simp [hn, h.procs]
    listed := by
      intro n
      rw [ClassEntry.addProc, OrderedMap.get?_insert]
      split
      · simp
      · exact h.listed n
    verbs := by
      rw [ClassEntry.addProc, h.verbs]
      cases hv : d.flags.isVerb <;> simp [hv] }

lemma addPending (h : Merged s e) (x : PendingExpr) :
    Merged { s with init := s.init ++ [x] } (e.addPending x) :=
  { h with pending := congrArg (· ++ [x]) h.pending }

end Merged

end ClassTree
