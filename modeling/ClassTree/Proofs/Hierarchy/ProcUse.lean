import Mathlib.Data.List.Flatten
import Mathlib.Data.List.Nodup
import Mathlib.Logic.ExistsUnique
import ClassTree.Hierarchy.Resolve
import ClassTree.Proofs.Hierarchy.Lineage
import ClassTree.Proofs.Hierarchy.Naming
/-!
Every proc is used in one place: a class lists it under its name, or a class has it for its
initializer, or it is the global proc of its name. The ids that are used are a rearrangement of all
ids that were given out, through every call.
-/

namespace ClassTree

inductive ProcKind where
  | listed
  | initializer
  | global
deriving DecidableEq

inductive ProcUse where
  | listed (c : ClassId) (name : String) (id : ProcId)
  | initializer (c : ClassId) (id : ProcId)
  | global (name : String) (id : ProcId)
deriving DecidableEq

namespace ProcUse

def kind : ProcUse → ProcKind
  | listed _ _ _ => .listed
  | initializer _ _ => .initializer
  | global _ _ => .global

def id : ProcUse → ProcId
  | listed _ _ i => i
  | initializer _ i => i
  | global _ i => i

def owner : ProcUse → ClassId
  | listed c _ _ => c
  | initializer c _ => c
  | global _ _ => rootId

def name : ProcUse → Option String
  | listed _ n _ => some n
  | initializer _ _ => none
  | global n _ => some n

/-- The registry has a proc for the use, with the owner and the name that the use asks for. -/
def Fits (r : ProcRegistry) (u : ProcUse) : Prop :=
  ∃ p, r.get? u.id = some p ∧ p.owner = u.owner ∧ p.name = u.name

end ProcUse

def ClassEntry.listings (e : ClassEntry) : List (String × ProcId) :=
  e.procs.entries.flatMap fun x => x.2.map (x.1, ·)

def ClassEntry.procUses (e : ClassEntry) : List ProcUse :=
  e.listings.map (fun x => .listed e.id x.1 x.2) ++ e.initializer.toList.map (.initializer e.id)

namespace Hierarchy

def listings (t : Hierarchy) : List (ClassId × String × ProcId) :=
  t.classes.toList.flatMap fun e => e.listings.map (e.id, ·)

def procUses (t : Hierarchy) : List ProcUse :=
  t.classes.toList.flatMap ClassEntry.procUses ++
    t.registry.globals.entries.map fun x => .global x.1 x.2

end Hierarchy

variable {e : ClassEntry} {c : ClassId} {n : String} {i : ProcId} {p : Proc} {r r' : ProcRegistry}

/-! ### One class -/

namespace ClassEntry

lemma mem_listings : (n, i) ∈ e.listings ↔ ∃ ids, (n, ids) ∈ e.procs.entries ∧ i ∈ ids := by
  simp only [listings, List.mem_flatMap, List.mem_map, Prod.mk.injEq]
  constructor
  · rintro ⟨x, hx, j, hj, rfl, rfl⟩
    exact ⟨x.2, hx, hj⟩
  · rintro ⟨ids, hx, hi⟩
    exact ⟨(n, ids), hx, i, hi, rfl, rfl⟩

lemma perm_flatMap_insertEntries (n : String) (i : ProcId) (l : List (String × List ProcId)) :
    ((OrderedMap.insertEntries n
      (((l.find? (·.1 == n)).map (·.2)).getD [] ++ [i]) l).flatMap fun x => x.2.map (x.1, ·)).Perm
        ((n, i) :: l.flatMap fun x => x.2.map (x.1, ·)) := by
  induction l with
  | nil => exact .refl _
  | cons x l ih =>
    by_cases hx : x.1 == n
    · obtain rfl := eq_of_beq hx
      simp only [List.find?_cons_of_pos, OrderedMap.insertEntries, beq_self_eq_true, if_true,
        Option.map_some, Option.getD_some, List.flatMap_cons, List.map_append, List.map_cons,
        List.map_nil, List.append_assoc, List.cons_append, List.nil_append]
      exact List.perm_middle
    · rw [List.find?_cons_of_neg (by exact hx), OrderedMap.insertEntries, if_neg hx,
        List.flatMap_cons, List.flatMap_cons]
      exact (ih.append_left _).trans List.perm_middle

lemma perm_listings_addProc (e : ClassEntry) (n : String) (i : ProcId) (isVerb : Bool) :
    (e.addProc n i isVerb).listings.Perm ((n, i) :: e.listings) :=
  perm_flatMap_insertEntries n i e.procs.entries

lemma perm_procUses_addProc (e : ClassEntry) (n : String) (i : ProcId) (isVerb : Bool) :
    (e.addProc n i isVerb).procUses.Perm (.listed e.id n i :: e.procUses) :=
  ((e.perm_listings_addProc n i isVerb).map _).append_right _

lemma perm_procUses_setInitializer (h : e.initializer = none) (i : ProcId) :
    (e.setInitializer i).procUses.Perm (.initializer e.id i :: e.procUses) := by
  simp only [procUses, setInitializer, listings, h, Option.toList, List.map_cons, List.map_nil,
    List.append_nil]
  exact List.perm_append_comm

end ClassEntry

lemma NamedProcs.lt_size (h : NamedProcs r c e.procs) (hl : (n, i) ∈ e.listings) : i < r.size := by
  obtain ⟨ids, hx, hi⟩ := ClassEntry.mem_listings.mp hl
  obtain ⟨p, hp, -⟩ := (h _ hx).2 i hi
  exact ProcRegistry.lt_size hp

def ProcRegistry.Numbered (r : ProcRegistry) : Prop := ∀ i p, r.get? i = some p → p.id = i

lemma ProcRegistry.Numbered.register (h : r.Numbered) (owner : ClassId) (name : Option String)
    (flags : ProcFlags) (returnType : Option ValueConstraint) (body : List ProcStep) :
    (r.register owner name flags returnType body).Numbered := by
  intro i p hp
  rw [get?_register] at hp
  split at hp
  · next hi =>
    obtain rfl := Option.some.inj hp
    exact hi.symm
  · exact h i p hp

/-- What a class lists stands in the order in which it was registered, and its verbs are the verbs
among all that it lists. -/
structure InOrder (r : ProcRegistry) (e : ClassEntry) : Prop where
  procs {x : String × List ProcId} : x ∈ e.procs.entries → x.2.Pairwise (· < ·)
  verbs : e.verbs.Pairwise (· < ·)
  verb {i : ProcId} : i ∈ e.verbs ↔
    ∃ n p, (n, i) ∈ e.listings ∧ r.get? i = some p ∧ p.flags.isVerb = true

namespace InOrder

lemma mono (h : InOrder r e) (hn : NamedProcs r c e.procs)
    (hr : ∀ i p, r.get? i = some p → r'.get? i = some p) : InOrder r' e where
  procs := h.procs
  verbs := h.verbs
  verb {i} := by
    rw [h.verb]
    constructor
    · rintro ⟨n, p, hl, hp, hv⟩
      exact ⟨n, p, hl, hr i p hp, hv⟩
    · rintro ⟨n, p', hl, hp', hv⟩
      obtain ⟨ids, hx, hi⟩ := ClassEntry.mem_listings.mp hl
      obtain ⟨p, hp, -⟩ := (hn _ hx).2 i hi
      obtain rfl := Option.some.inj ((hr i p hp).symm.trans hp')
      exact ⟨n, p, hl, hp, hv⟩

lemma pairwise_concat {ids : List ProcId} {k : ProcId} (h : ids.Pairwise (· < ·))
    (hk : ∀ i ∈ ids, i < k) : (ids ++ [k]).Pairwise (· < ·) := by
  refine List.pairwise_append.mpr ⟨h, List.pairwise_singleton _ _, fun i hi j hj => ?_⟩
  rw [List.mem_singleton.mp hj]
  exact hk i hi

lemma addProc {k : ProcId} (h : InOrder r e) (hk : ∀ n i, (n, i) ∈ e.listings → i < k)
    (hp : r.get? k = some p) : InOrder r (e.addProc n k p.flags.isVerb) where
  procs {x} hx := by
    rcases OrderedMap.mem_entries_insert hx with rfl | hx
    · cases hg : e.procs.get? n with
      | none => exact List.pairwise_singleton _ _
      | some ids =>
        have hm := OrderedMap.mem_entries_of_get? hg
        -- `k` is newer than all that the class lists, so it may come last
        exact pairwise_concat (h.procs hm) fun i hi =>
          hk n i (ClassEntry.mem_listings.mpr ⟨ids, hm, hi⟩)
    · exact h.procs hx
  verbs := by
    unfold ClassEntry.addProc
    dsimp only
    split
    · refine pairwise_concat h.verbs fun i hi => ?_
      obtain ⟨n, -, hl, -⟩ := h.verb.mp hi
      exact hk n i hl
    · exact h.verbs
  verb {i} := by
    have hl {m : String} : (m, i) ∈ (e.addProc n k p.flags.isVerb).listings ↔
        (m, i) = (n, k) ∨ (m, i) ∈ e.listings :=
      (e.perm_listings_addProc n k p.flags.isVerb).mem_iff.trans List.mem_cons
    have hv : i ∈ (e.addProc n k p.flags.isVerb).verbs ↔
        i ∈ e.verbs ∨ p.flags.isVerb = true ∧ i = k := by
      cases hp : p.flags.isVerb <;> simp [ClassEntry.addProc]
    rw [hv, h.verb]
    constructor
    · rintro (⟨m, q, hm, hq, hqv⟩ | ⟨hpv, rfl⟩)
      · exact ⟨m, q, hl.mpr (.inr hm), hq, hqv⟩
      · exact ⟨n, p, hl.mpr (.inl rfl), hp, hpv⟩
    · rintro ⟨m, q, hm, hq, hqv⟩
      rcases hl.mp hm with hm | hm
      · obtain ⟨-, rfl⟩ := Prod.mk.inj hm
        obtain rfl := Option.some.inj (hp.symm.trans hq)
        exact .inr ⟨hqv, rfl⟩
      · exact .inl ⟨m, q, hm, hq, hqv⟩

end InOrder

/-! ### All classes -/

lemma perm_flatMap_modify {α β : Type} {l : List α} {k : Nat} {a : α} {f : α → α}
    {g : α → List β} {new : List β} (hk : l[k]? = some a) (h : (g (f a)).Perm (new ++ g a)) :
    ((l.modify k f).flatMap g).Perm (new ++ l.flatMap g) := by
  induction l generalizing k with
  | nil => cases hk
  | cons b l ih =>
    cases k with
    | zero =>
      obtain rfl := Option.some.inj hk
      rw [List.modify_zero_cons, List.flatMap_cons, List.flatMap_cons, ← List.append_assoc]
      exact h.append_right _
    | succ k =>
      rw [List.modify_succ_cons, List.flatMap_cons, List.flatMap_cons]
      refine ((ih hk).append_left _).trans ?_
      rw [← List.append_assoc, ← List.append_assoc]
      exact List.perm_append_comm.append_right _

namespace Hierarchy

variable {t t' : Hierarchy} {u v : ProcUse}

lemma Change.fits (hc : Change t t') (h : u.Fits t.registry) : u.Fits t'.registry := by
  obtain ⟨p, hp, ho, hn⟩ := h
  exact ⟨p, hc.get?_registry hp, ho, hn⟩

lemma procUses_addClass (t : Hierarchy) (p : TypePath) (q : ClassId) :
    (t.addClass p q).procUses = t.procUses := by
  simp [procUses, addClass, ClassEntry.new, ClassEntry.procUses, ClassEntry.listings,
    OrderedMap.empty]

lemma perm_procUses_modifyClass {s : Hierarchy} {f : ClassEntry → ClassEntry}
    (new : List ProcUse) (hc : t.class? c = some e) (hs : s.classes = t.classes)
    (hg : s.registry.globals = t.registry.globals)
    (h : (f e).procUses.Perm (new ++ e.procUses)) :
    (s.modifyClass c f).procUses.Perm (new ++ t.procUses) := by
  have hl : t.classes.toList[c]? = some e := by rw [Array.getElem?_toList]; exact hc
  simp only [procUses, modifyClass, hs, hg, Array.toList_modify]
  rw [← List.append_assoc]
  exact (perm_flatMap_modify hl h).append_right _

/-- A change registers no proc and keeps the uses, or it registers one and adds a use of it. -/
lemma Change.procUses (ha : Arena t) (h : Change t t') :
    (t'.registry.size = t.registry.size ∧ t'.procUses.Perm t.procUses) ∨
      ∃ u, t'.procUses.Perm (u :: t.procUses) ∧ u.id = t.registry.size ∧
        t'.registry.size = t.registry.size + 1 ∧ u.Fits t'.registry := by
  have fits {u : ProcUse} {r : ProcRegistry} (flags : ProcFlags)
      (returnType : Option ValueConstraint) (body : List ProcStep) (hu : u.id = t.registry.size)
      (hr : r.procs = (t.registry.register u.owner u.name flags returnType body).procs) :
      u.Fits r := by
    refine ⟨⟨t.registry.size, u.owner, u.name, flags, returnType, body⟩, ?_, rfl, rfl⟩
    rw [ProcRegistry.get?, hr, hu]
    exact (ProcRegistry.get?_register ..).trans (if_pos rfl)
  cases h with
  | addClass _ _ => exact .inl ⟨rfl, .of_eq (procUses_addClass ..)⟩
  | setSlot _ => exact .inl ⟨rfl, .refl _⟩
  | addVar hc _ | addOverride hc _ | setTmp hc | createGlobal hc | addPending hc =>
    exact .inl ⟨rfl, perm_procUses_modifyClass [] hc rfl rfl (.refl _)⟩
  | @addProc c e name flags returnType hc =>
    have hu := e.perm_procUses_addProc name t.registry.size flags.isVerb
    rw [ha.id hc] at hu
    refine .inr ⟨.listed c name t.registry.size, ?_, rfl, Array.size_push _,
      fits flags returnType [] rfl rfl⟩
    exact perm_procUses_modifyClass [_] hc rfl rfl hu
  | @addGlobalProc name returnType hn =>
    refine .inr ⟨.global name t.registry.size, ?_, rfl, Array.size_push _,
      fits .none returnType [] rfl rfl⟩
    have hn : name ∉ t.registry.globals.keys := by
      rw [← OrderedMap.contains_iff_mem_keys, hn]
      exact Bool.false_ne_true
    have he : (t.addGlobalEntry name returnType).registry.globals.entries =
        t.registry.globals.entries ++ [(name, t.registry.size)] :=
      OrderedMap.entries_insert_of_new hn
    rw [Hierarchy.procUses, he, List.map_append, ← List.append_assoc]
    exact List.perm_append_comm
  | @addInitializer c e hc hp hi =>
    have hu := ClassEntry.perm_procUses_setInitializer hi t.registry.size
    rw [ha.id hc] at hu
    refine .inr ⟨.initializer c t.registry.size, ?_, rfl, Array.size_push _,
      fits .none none (initializerBody e.pending) rfl rfl⟩
    exact perm_procUses_modifyClass [_] hc rfl rfl hu

/-- The uses of procs account for all procs, each of which has one. -/
structure UsedOnce (t : Hierarchy) : Prop where
  ids : (t.procUses.map ProcUse.id).Perm (List.range t.registry.size)
  fits {u : ProcUse} : u ∈ t.procUses → u.Fits t.registry

lemma UsedOnce.change (h : UsedOnce t) (ha : Arena t) (hc : Change t t') : UsedOnce t' := by
  rcases hc.procUses ha with ⟨hs, hu⟩ | ⟨u, hu, hi, hs, hf⟩
  · refine ⟨?_, fun hm => hc.fits (h.fits (hu.mem_iff.mp hm))⟩
    rw [hs]
    exact (hu.map _).trans h.ids
  · refine ⟨?_, fun hm => ?_⟩
    -- the id of the new use is the one number that the longer range has more
    · rw [hs, List.range_succ]
      refine (hu.map _).trans ?_
      rw [List.map_cons, hi]
      exact (h.ids.cons _).trans (List.perm_append_singleton _ _).symm
    · rcases List.mem_cons.mp (hu.mem_iff.mp hm) with rfl | hm
      · exact hf
      · exact hc.fits (h.fits hm)

lemma Built.usedOnce (h : Built t) : UsedOnce t := by
  induction h with
  | refl => exact ⟨.refl _, nofun⟩
  | tail h hc ih => exact ih.change (Built.arena h) hc

lemma Built.inOrder (h : Built t) (hc : t.class? c = some e) : InOrder t.registry e := by
  refine h.forall_class (P := fun t _ e => InOrder t.registry e) ?_ ?_ hc
  · intro t i p q
    exact ⟨nofun, .nil, by simp [ClassEntry.new, ClassEntry.listings, OrderedMap.empty]⟩
  · intro t t' i e e' ht hch hi hed ho
    have hn := ht.namedProcs hi
    have hmono := ho.mono hn fun id p => hch.get?_registry
    cases hed with
    | addProc name flags returnType hr =>
      have hp : t'.registry.get? t.registry.size =
          some ⟨t.registry.size, i, some name, flags, returnType, []⟩ := by
        rw [hr, ProcRegistry.get?_register, if_pos rfl]
      exact hmono.addProc (fun n i => hn.lt_size) hp
    | _ => exact ⟨hmono.procs, hmono.verbs, hmono.verb⟩

lemma Built.numbered (h : Built t) : t.registry.Numbered := by
  induction h with
  | refl => exact nofun
  | tail _ hc ih =>
    cases hc with
    | addProc _ | addGlobalProc _ | addInitializer _ _ _ => exact ih.register _ _ _ _ _
    | _ => exact ih

lemma Built.distinct_globals (h : Built t) : t.registry.globals.Distinct := by
  induction h with
  | refl => exact .nil
  | tail _ hc ih =>
    cases hc with
    | addGlobalProc _ => exact ih.insert _ _
    | _ => exact ih

/-! ### Kinds of procs -/

def OfKind (t : Hierarchy) (i : ProcId) : ProcKind → Prop
  | .listed => ∃ p n, t.registry.get? i = some p ∧ p.name = some n ∧
      (t.listings.map (·.2.2)).count i = 1 ∧ (p.owner, n, i) ∈ t.listings
  | .initializer => ∃ p, t.registry.get? i = some p ∧ p.name = none ∧
      ∀ c, c = p.owner ↔ ∃ e, t.class? c = some e ∧ e.initializer = some i
  | .global => ∃ p n, t.registry.get? i = some p ∧ p.name = some n ∧ p.owner = rootId ∧
      t.registry.globals.get? n = some i

/-- Ways to get at a proc from a class or from a name. -/
inductive Refers (t : Hierarchy) (i : ProcId) : Prop
  | found {c : ClassId} {n : String} {ids : List ProcId} (hf : t.findProcs c n = some ids)
      (hi : i ∈ ids)
  | verb {c : ClassId} {e : ClassEntry} (hc : t.class? c = some e) (hi : i ∈ e.verbs)
  | initializer {c : ClassId} {e : ClassEntry} (hc : t.class? c = some e)
      (hi : e.initializer = some i)
  | global {n : String} (hg : t.registry.globals.get? n = some i)

structure Accounted (t : Hierarchy) : Prop where
  id {i : ProcId} {p : Proc} : t.registry.get? i = some p → p.id = i
  kind {i : ProcId} : i < t.registry.size → ∃! k, t.OfKind i k
  procs {c : ClassId} {e : ClassEntry} {n : String} {ids : List ProcId} :
    t.class? c = some e → (n, ids) ∈ e.procs.entries → ids ≠ [] ∧ ids.Pairwise (· < ·)
  verbs {c : ClassId} {e : ClassEntry} : t.class? c = some e → e.verbs.Pairwise (· < ·) ∧
    ∀ i, i ∈ e.verbs ↔ t.OfKind i .listed ∧
      ∃ p, t.registry.get? i = some p ∧ p.owner = c ∧ p.flags.isVerb = true
  refers {i : ProcId} : t.Refers i → i < t.registry.size

/-! ### The use of a proc tells its kind -/

lemma Arena.exists_mem_classes (h : Arena t) {P : ClassEntry → Prop} :
    (∃ e ∈ t.classes.toList, e.id = c ∧ P e) ↔ ∃ e, t.class? c = some e ∧ P e := by
  constructor
  · rintro ⟨e, he, rfl, hP⟩
    obtain ⟨c, hc⟩ := Array.mem_iff_getElem?.mp (Array.mem_toList_iff.mp he)
    have hid : e.id = c := h.id hc
    exact ⟨e, hid ▸ hc, hP⟩
  · rintro ⟨e, hc, hP⟩
    exact ⟨e, Array.mem_toList_iff.mpr (Array.mem_of_getElem? hc), h.id hc, hP⟩

lemma Arena.mem_listings (h : Arena t) :
    (c, n, i) ∈ t.listings ↔ ∃ e, t.class? c = some e ∧ (n, i) ∈ e.listings := by
  rw [← h.exists_mem_classes]
  simp only [listings, List.mem_flatMap, List.mem_map, Prod.mk.injEq]
  constructor
  · rintro ⟨e, he, x, hl, hid, rfl⟩
    exact ⟨e, he, hid, hl⟩
  · rintro ⟨e, he, hid, hl⟩
    exact ⟨e, he, (n, i), hl, hid, rfl⟩

lemma map_listed_sublist (t : Hierarchy) :
    (t.listings.map fun x => ProcUse.listed x.1 x.2.1 x.2.2).Sublist t.procUses := by
  rw [listings, List.map_flatMap]
  refine (List.Sublist.flatMap_right _ fun e _ => ?_).trans (List.sublist_append_left _ _)
  rw [List.map_map]
  exact List.sublist_append_left _ _

lemma listed_mem_procUses : .listed c n i ∈ t.procUses ↔ (c, n, i) ∈ t.listings := by
  simp [procUses, ClassEntry.procUses, listings]

lemma Arena.initializer_mem_procUses (h : Arena t) : .initializer c i ∈ t.procUses ↔
    ∃ e, t.class? c = some e ∧ e.initializer = some i := by
  rw [← h.exists_mem_classes]
  simp [procUses, ClassEntry.procUses, and_comm]

lemma global_mem_procUses (hd : t.registry.globals.Distinct) :
    .global n i ∈ t.procUses ↔ t.registry.globals.get? n = some i := by
  have he : .global n i ∈ t.procUses ↔ (n, i) ∈ t.registry.globals.entries := by
    simp [procUses, ClassEntry.procUses]
  exact he.trans ⟨OrderedMap.get?_of_mem_entries hd, OrderedMap.mem_entries_of_get?⟩

namespace UsedOnce

lemma unique (h : UsedOnce t) (hu : u ∈ t.procUses) (hv : v ∈ t.procUses) (hi : u.id = v.id) :
    u = v :=
  List.inj_on_of_nodup_map (h.ids.nodup_iff.mpr List.nodup_range) hu hv hi

lemma exists_use (h : UsedOnce t) (hi : i < t.registry.size) : ∃ u ∈ t.procUses, u.id = i :=
  List.mem_map.mp (h.ids.mem_iff.mpr (List.mem_range.mpr hi))

lemma lt_size (h : UsedOnce t) (hu : u ∈ t.procUses) : u.id < t.registry.size :=
  List.mem_range.mp (h.ids.mem_iff.mp (List.mem_map_of_mem hu))

lemma nodup_listings (h : UsedOnce t) : (t.listings.map (·.2.2)).Nodup := by
  have hs := t.map_listed_sublist.map ProcUse.id
  rw [List.map_map] at hs
  exact hs.nodup (h.ids.nodup_iff.mpr List.nodup_range)

lemma count_listings (h : UsedOnce t) (hl : (c, n, i) ∈ t.listings) :
    (t.listings.map (·.2.2)).count i = 1 :=
  List.count_eq_one_of_mem h.nodup_listings
    (List.mem_map_of_mem (f := fun x : ClassId × String × ProcId => x.2.2) hl)

lemma ofKind_iff (h : UsedOnce t) (ha : Arena t) (hd : t.registry.globals.Distinct)
    {k : ProcKind} : t.OfKind i k ↔ ∃ u ∈ t.procUses, u.id = i ∧ u.kind = k := by
  constructor
  · intro hk
    cases k with
    | listed =>
      obtain ⟨p, n, -, -, -, hl⟩ := hk
      exact ⟨_, listed_mem_procUses.mpr hl, rfl, rfl⟩
    | initializer =>
      obtain ⟨p, -, -, hc⟩ := hk
      exact ⟨_, ha.initializer_mem_procUses.mpr ((hc p.owner).mp rfl), rfl, rfl⟩
    | global =>
      obtain ⟨p, n, -, -, -, hg⟩ := hk
      exact ⟨_, (global_mem_procUses hd).mpr hg, rfl, rfl⟩
  · rintro ⟨u, hu, rfl, rfl⟩
    obtain ⟨p, hp, ho, hn⟩ := h.fits hu
    cases u with
    | listed c n i =>
      have hl := listed_mem_procUses.mp hu
      exact ⟨p, n, hp, hn, h.count_listings hl, ho ▸ hl⟩
    | initializer c i =>
      refine ⟨p, hp, hn, fun d => ?_⟩
      rw [← ha.initializer_mem_procUses]
      constructor
      · rintro rfl
        exact ho ▸ hu
      · intro hd
        injection h.unique hd hu rfl with hdc
        exact hdc.trans ho.symm
    | global n i => exact ⟨p, n, hp, hn, ho, (global_mem_procUses hd).mp hu⟩

end UsedOnce

lemma Built.existsUnique_ofKind (h : Built t) (hi : i < t.registry.size) :
    ∃! k, t.OfKind i k := by
  have hk {k : ProcKind} := h.usedOnce.ofKind_iff h.arena h.distinct_globals (i := i) (k := k)
  obtain ⟨u, hu, rfl⟩ := h.usedOnce.exists_use hi
  refine ⟨u.kind, hk.mpr ⟨u, hu, rfl, rfl⟩, fun k h' => ?_⟩
  obtain ⟨v, hv, he, rfl⟩ := hk.mp h'
  rw [h.usedOnce.unique hv hu he]

lemma Built.mem_verbs_iff (h : Built t) (hc : t.class? c = some e) :
    i ∈ e.verbs ↔ t.OfKind i .listed ∧
      ∃ p, t.registry.get? i = some p ∧ p.owner = c ∧ p.flags.isVerb = true := by
  rw [(h.inOrder hc).verb]
  constructor
  · rintro ⟨n, p, hl, hp, hv⟩
    have hl := h.arena.mem_listings.mpr ⟨e, hc, hl⟩
    have hm := listed_mem_procUses.mpr hl
    obtain ⟨q, hq, ho, hn⟩ := h.usedOnce.fits hm
    obtain rfl := Option.some.inj (hp.symm.trans hq)
    exact ⟨⟨p, n, hp, hn, h.usedOnce.count_listings hl, ho ▸ hl⟩, p, hp, ho, hv⟩
  · rintro ⟨⟨p, n, hp, -, -, hl⟩, q, hq, rfl, hv⟩
    obtain rfl := Option.some.inj (hp.symm.trans hq)
    obtain ⟨f, hf, hl⟩ := h.arena.mem_listings.mp hl
    obtain rfl := Option.some.inj (hc.symm.trans hf)
    exact ⟨n, p, hl, hp, hv⟩

lemma Built.lt_size_of_refers (h : Built t) (hi : t.Refers i) : i < t.registry.size := by
  cases hi with
  | found hf hi =>
    obtain ⟨e, he, hg⟩ := List.exists_of_findSome?_eq_some hf
    have hl := ClassEntry.mem_listings.mpr ⟨_, OrderedMap.mem_entries_of_get? hg, hi⟩
    exact (h.namedProcs (h.arena.mem_lineage he).2).lt_size hl
  | verb hc hi =>
    obtain ⟨n, p, -, hp, -⟩ := (h.inOrder hc).verb.mp hi
    exact ProcRegistry.lt_size hp
  | initializer hc hi =>
    exact h.usedOnce.lt_size (h.arena.initializer_mem_procUses.mpr ⟨_, hc, hi⟩)
  | global hg => exact h.usedOnce.lt_size ((global_mem_procUses h.distinct_globals).mpr hg)

theorem accounted_of_reachable (h : Reachable t) : Accounted t where
  id := h.built.numbered _ _
  kind := h.built.existsUnique_ofKind
  procs hc hx := ⟨(h.built.namedProcs hc _ hx).1, (h.built.inOrder hc).procs hx⟩
  verbs hc := ⟨(h.built.inOrder hc).verbs, fun _ => h.built.mem_verbs_iff hc⟩
  refers := h.built.lt_size_of_refers

/-- A name for a proc of the root and for a global one, a verb that is declared twice, and calls that
are refused in between. -/
def mixedProcs : List Call :=
  [.createClass .movable none, .addProc 0 "tick" .none none, .addGlobalProc "tick" none,
    .addProc 2 "Move" ⟨false, true, false⟩ none, .addProc 9 "Move" .none none,
    .pushPending 1 ⟨⟨"atom.dm", 2, 5⟩, .assignField "contents" (.list [])⟩, .createInitializer 1,
    .addGlobalProc "tick" none, .addProc 2 "Move" ⟨true, true, false⟩ none, .createInitializer 1]

theorem accounted_mixedProcs :
    (bare.run mixedProcs).procUses = [.listed 0 "tick" 0, .initializer 1 3, .listed 2 "Move" 2,
      .listed 2 "Move" 4, .global "tick" 1] ∧ Accounted (bare.run mixedProcs) :=
  ⟨by decide +kernel, accounted_of_reachable (Reachable.bare.run mixedProcs)⟩

end Hierarchy

end ClassTree
