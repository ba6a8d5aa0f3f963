import ClassTree.Proofs.Hierarchy.Persistence
import ClassTree.Proofs.Hierarchy.Placement
import ClassTree.Proofs.OrderedMap
/-!
Gaps: paths above a class that have no class. Asking for a class by its path alone leaves none that
was not there before, so all gaps are above classes that were created below a parent of choice.
-/

namespace ClassTree.Hierarchy

variable {t u start : Hierarchy} {a : ClassId} {call : Call} {calls : List Call}
  {p q r : TypePath}

/-- Each path above the path of a class is the path of a class. -/
def PathClosed (t : Hierarchy) : Prop :=
  ∀ c e, t.class? c = some e → ∀ q ∈ e.path.ancestors, ∃ d f, t.class? d = some f ∧ f.path = q

structure Gap (t : Hierarchy) (q : TypePath) : Prop where
  missing : t.lookupPath q = none
  below : ∃ p c, t.lookupPath p = some c ∧ p.isBelow q = true

/-- The call makes a new class of the path, below a parent of choice. -/
inductive Adopts (t : Hierarchy) : Call → TypePath → Prop
  | createClass {p parent : TypePath} {c : ClassId} (hp : t.lookupPath p = none)
      (hc : (t.createClass p (some parent)).2 = .ok c) :
      Adopts t (.createClass p (some parent)) p

def Adopted (t : Hierarchy) (calls : List Call) (p : TypePath) : Prop :=
  ∃ before call after, calls = before ++ call :: after ∧ (t.run before).Adopts call p

lemma Arena.pathClosed_iff (h : Arena t) : t.PathClosed ↔ ∀ q, ¬ t.Gap q := by
  constructor
  · rintro hc q ⟨hq, p, c, hp, hpq⟩
    obtain ⟨e, he, rfl⟩ := h.path.mp hp
    obtain ⟨d, f, hf, hfq⟩ := hc c e he q (TypePath.mem_ancestors_iff.mpr hpq)
    rw [h.path.mpr ⟨f, hf, hfq⟩] at hq
    cases hq
  · intro hg c e he q hq
    cases hd : t.lookupPath q with
    | none =>
      exact (hg q ⟨hd, e.path, c, h.path.mpr ⟨e, he, rfl⟩,
        TypePath.mem_ancestors_iff.mp hq⟩).elim
    | some d =>
      obtain ⟨f, hf, hfq⟩ := h.path.mp hd
      exact ⟨d, f, hf, hfq⟩

/-! ### One call -/

lemma gap_iff_of_paths (h : u.paths = t.paths) : u.Gap q ↔ t.Gap q := by
  have hl (p : TypePath) : u.lookupPath p = t.lookupPath p := by rw [lookupPath, h, lookupPath]
  constructor
  · rintro ⟨hq, p, c, hp, hpq⟩
    exact ⟨hl q ▸ hq, p, c, hl p ▸ hp, hpq⟩
  · rintro ⟨hq, p, c, hp, hpq⟩
    exact ⟨(hl q).trans hq, p, c, (hl p).trans hp, hpq⟩

lemma gap_iff_missing_and : t.Gap q ↔ t.lookupPath q = none ∧ t.Gap q :=
  (and_iff_right_of_imp (·.missing)).symm

lemma lookupPath_of_addClass (h : (t.addClass p a).lookupPath q = none) :
    t.lookupPath q = none := by
  rw [lookupPath_addClass] at h
  split at h
  · cases h
  · exact h

lemma gap_addClass : (t.addClass p a).Gap q ↔
    (t.addClass p a).lookupPath q = none ∧ (t.Gap q ∨ p.isBelow q = true) := by
  constructor
  · rintro ⟨hq, x, c, hx, hxq⟩
    refine ⟨hq, ?_⟩
    rw [lookupPath_addClass] at hx
    split at hx
    · next hpx => exact .inr (hpx ▸ hxq)
    · exact .inl ⟨lookupPath_of_addClass hq, x, c, hx, hxq⟩
  · rintro ⟨hq, ⟨-, x, c, hx, hxq⟩ | hpq⟩
    · by_cases hpx : p = x
      · exact ⟨hq, x, _, by rw [lookupPath_addClass, if_pos hpx], hxq⟩
      · exact ⟨hq, x, c, by rw [lookupPath_addClass, if_neg hpx, hx], hxq⟩
    · exact ⟨hq, p, _, by rw [lookupPath_addClass, if_pos rfl], hpq⟩

lemma Arena.gap_getOrCreate (h : Arena t) : (t.getOrCreate p).1.Gap q ↔
    (t.getOrCreate p).1.lookupPath q = none ∧ t.Gap q := by
  induction p using h.path_induction with
  | found p c hc =>
    rw [getOrCreate_of_lookupPath hc]
    exact gap_iff_missing_and
  | missing p r hp hr ih =>
    have hru := (getOrCreate_changes h r).2
    rw [getOrCreate_of_parent? hp hr, gap_addClass]
    refine and_congr_right fun hq => ?_
    have hqu := lookupPath_of_addClass hq
    -- The class of the path above `p` is there, so what is missing above `p` is missing above it.
    have hpq : p.isBelow q = true → (t.getOrCreate r).1.Gap q := by
      rw [TypePath.isBelow_iff_of_parent? hr]
      rintro (rfl | hrq)
      · rw [hru] at hqu
        cases hqu
      · exact ⟨hqu, r, _, hru, hrq⟩
    rw [or_iff_left_of_imp hpq, ih, and_iff_right hqu]

lemma Arena.adopts_iff (h : Arena t) : t.Adopts (.createClass p (some r)) p ↔
    t.lookupPath p = none ∧ ¬ (r = p ∨ r.isBelow p = true) := by
  constructor
  · rintro ⟨hp, hc⟩
    refine ⟨hp, fun hr => ?_⟩
    rw [createClass, createBelow, if_pos hr] at hc
    cases hc
  · rintro ⟨hp, hr⟩
    have hplaced := h.placed_createBelow p r
    cases hb : t.createBelow p r with
    | mk u result =>
      rw [hb] at hplaced
      cases hplaced with
      | cyclic hr' => exact (hr hr').elim
      | created _ _ _ => exact .createClass hp (congrArg Prod.snd hb)
      | found _ hp' _ _ | elsewhere _ hp' _ _ _ =>
        rw [hp] at hp'
        cases hp'

lemma Arena.gap_createBelow (h : Arena t) : (t.createBelow p r).1.Gap q ↔
    (t.createBelow p r).1.lookupPath q = none ∧
      (t.Gap q ∨ t.Adopts (.createClass p (some r)) p ∧ p.isBelow q = true) := by
  rw [h.adopts_iff]
  have hplaced := h.placed_createBelow p r
  generalize t.createBelow p r = result at *
  have old (hn : ¬ (t.lookupPath p = none ∧ ¬ (r = p ∨ r.isBelow p = true))) :
      t.Gap q ∨ (t.lookupPath p = none ∧ ¬ (r = p ∨ r.isBelow p = true)) ∧ p.isBelow q = true ↔
        t.Gap q := or_iff_left fun hx => hn hx.1
  cases hplaced with
  | cyclic hr =>
    rw [old fun hx => hx.2 hr]
    exact gap_iff_missing_and
  | @created u a hr hp hu =>
    have hg := h.gap_getOrCreate (p := r) (q := q)
    rw [hu] at hg
    rw [gap_addClass]
    refine and_congr_right fun hq => or_congr ?_ (and_iff_right ⟨hp, hr⟩).symm
    rw [hg, and_iff_right (lookupPath_of_addClass hq)]
  | found _ hp _ _ =>
    rw [old fun hx => by simp [hx.1] at hp]
    exact gap_iff_missing_and
  | elsewhere _ hp _ _ _ =>
    rw [old fun hx => by simp [hx.1] at hp]
    exact h.gap_getOrCreate

lemma createInitializer_paths {c : ClassId} {result : Hierarchy × Option ProcId}
    (h : t.createInitializer c = .ok result) : result.1.paths = t.paths := by
  obtain ⟨e, -, he | ⟨-, -, he⟩⟩ := createInitializer_eq_or h
  · rw [he]
  · rw [he]
    rfl

lemma Performed.gap_iff {result : Hierarchy × Answer} (h : Performed t call result)
    (ha : Arena t) : result.1.Gap q ↔ result.1.lookupPath q = none ∧
      (t.Gap q ∨ ∃ p, t.Adopts call p ∧ p.isBelow q = true) := by
  have none_adopted {u : Hierarchy} (hn : ∀ p, ¬ t.Adopts call p)
      (hu : u.Gap q ↔ u.lookupPath q = none ∧ t.Gap q) :
      u.Gap q ↔ u.lookupPath q = none ∧ (t.Gap q ∨ ∃ p, t.Adopts call p ∧ p.isBelow q = true) := by
    rwa [or_iff_left fun ⟨p, hp, _⟩ => hn p hp]
  have same_paths {u : Hierarchy} (hu : u.paths = t.paths) :
      u.Gap q ↔ u.lookupPath q = none ∧ t.Gap q := by
    rw [← gap_iff_of_paths hu]
    exact gap_iff_missing_and
  cases h with
  | refused hx =>
    refine none_adopted ?_ gap_iff_missing_and
    rintro p ⟨-, hc⟩
    have hanswer := congrArg Prod.snd hx
    rw [perform, hc] at hanswer
    cases hanswer
  | getOrCreate p => exact none_adopted nofun ha.gap_getOrCreate
  | createClass p parent =>
    cases parent with
    | none => exact none_adopted nofun ha.gap_getOrCreate
    | some r =>
      refine ha.gap_createBelow.trans (and_congr_right fun _ => or_congr_right ?_)
      constructor
      · exact fun hp => ⟨p, hp⟩
      · rintro ⟨x, hx, hxq⟩
        cases hx with
        | createClass hp hc => exact ⟨.createClass hp hc, hxq⟩
  | createInitializer hr => exact none_adopted nofun (same_paths (createInitializer_paths hr))
  | finalize hu =>
    refine none_adopted nofun (same_paths ?_)
    refine finalize_keeps (P := fun u => u.paths = t.paths) rfl ?_ hu
    exact fun c u r hr hu => (createInitializer_paths hr).trans hu
  | _ => exact none_adopted nofun (same_paths rfl)

/-! ### Runs -/

lemma adopted_nil : ¬ t.Adopted [] p := by
  rintro ⟨before, call, after, h, -⟩
  simp at h

lemma adopted_cons : t.Adopted (call :: calls) p ↔
    t.Adopts call p ∨ (t.perform call).1.Adopted calls p := by
  constructor
  · rintro ⟨_ | ⟨_, before⟩, call', after, h, ha⟩
    · obtain ⟨rfl, rfl⟩ := List.cons.inj h
      exact .inl ha
    · obtain ⟨rfl, rfl⟩ := List.cons.inj h
      exact .inr ⟨before, call', after, rfl, ha⟩
  · rintro (ha | ⟨before, call', after, rfl, ha⟩)
    · exact ⟨[], call, calls, rfl, ha⟩
    · exact ⟨call :: before, call', after, rfl, ha⟩

lemma Arena.gap_run (h : Arena t) (calls : List Call) : (t.run calls).Gap q ↔
    (t.run calls).lookupPath q = none ∧
      (t.Gap q ∨ ∃ p, t.Adopted calls p ∧ p.isBelow q = true) := by
  induction calls generalizing t with
  | nil =>
    rw [or_iff_left fun ⟨p, hp, _⟩ => adopted_nil hp]
    exact gap_iff_missing_and
  | cons call calls ih =>
    have hc := perform_changes h call
    have ha := h.changes hc
    rw [run, List.foldl_cons, ← run, ih ha, (performed t call).gap_iff h]
    refine and_congr_right fun hq => ?_
    -- A class stays, so what is missing at the end was missing all along.
    have hq' : (t.perform call).1.lookupPath q = none := by
      have hrest := run_changes ha calls
      cases hl : (t.perform call).1.lookupPath q with
      | none => rfl
      | some c =>
        have hk := hrest.retains.lookupPath ha (ha.changes hrest) hl
        rw [hq] at hk
        cases hk
    rw [and_iff_right hq', or_assoc, ← exists_or]
    refine or_congr_right (exists_congr fun p => ?_)
    rw [adopted_cons, or_and_right]

lemma not_gap_of_paths
    (h : ∀ x ∈ t.paths.entries, ∀ q ∈ x.1.ancestors, (t.lookupPath q).isSome = true) :
    ¬ t.Gap q := by
  rintro ⟨hq, p, c, hp, hpq⟩
  have hs := h (p, c) (OrderedMap.mem_entries_of_get? hp) q (TypePath.mem_ancestors_iff.mpr hpq)
  rw [hq] at hs
  cases hs

theorem pathClosed_iff_of_run (hs : start = bare ∨ start = builtin) (calls : List Call) :
    ((start.run calls).PathClosed ↔ ∀ p, start.Adopted calls p →
      ∀ q ∈ p.ancestors, ∃ c, (start.run calls).lookupPath q = some c) ∧
    ∀ q, (start.run calls).Gap q ↔ (start.run calls).lookupPath q = none ∧
      ∃ p, start.Adopted calls p ∧ p.isBelow q = true := by
  have hstart : Arena start ∧ ∀ q, ¬ start.Gap q := by
    rcases hs with rfl | rfl
    · exact ⟨arena_bare, fun q => not_gap_of_paths (by decide +kernel)⟩
    · exact ⟨built_builtin.arena, fun q => not_gap_of_paths (by decide +kernel)⟩
  obtain ⟨ha, hn⟩ := hstart
  have hgap (q : TypePath) : (start.run calls).Gap q ↔ (start.run calls).lookupPath q = none ∧
      ∃ p, start.Adopted calls p ∧ p.isBelow q = true := by
    rw [ha.gap_run, or_iff_right (hn q)]
  refine ⟨?_, hgap⟩
  rw [(ha.changes (run_changes ha calls)).pathClosed_iff]
  constructor
  · intro hc p hp q hq
    refine Option.ne_none_iff_exists'.mp fun hm => hc q ?_
    exact (hgap q).mpr ⟨hm, p, hp, TypePath.mem_ancestors_iff.mp hq⟩
  · rintro hc q hq
    obtain ⟨hm, p, hp, hpq⟩ := (hgap q).mp hq
    obtain ⟨c, hl⟩ := hc p hp q (TypePath.mem_ancestors_iff.mpr hpq)
    rw [hm] at hl
    cases hl

/-- `/atom/movable` is created below `/mob` while there is no `/atom`. -/
def movableAlone : List Call := [.createClass .movable (some .mob)]

theorem not_pathClosed_movableAlone :
    Reachable (bare.run movableAlone) ∧ ¬ (bare.run movableAlone).PathClosed := by
  have hr := Reachable.bare.run movableAlone
  have hgap : (bare.run movableAlone).Gap .atom :=
    ⟨by decide +kernel, .movable, 2, by decide +kernel, by decide⟩
  exact ⟨hr, fun hc => hr.built.arena.pathClosed_iff.mp hc .atom hgap⟩

/-- `/atom` comes too late to be the parent, but it comes. -/
def atomLater : List Call := movableAlone ++ [.getOrCreate .atom]

theorem pathClosed_iff_atomLater :
    ((bare.run atomLater).PathClosed ↔ ∀ p, bare.Adopted atomLater p →
      ∀ q ∈ p.ancestors, ∃ c, (bare.run atomLater).lookupPath q = some c) ∧
    (∀ q, (bare.run atomLater).Gap q ↔ (bare.run atomLater).lookupPath q = none ∧
      ∃ p, bare.Adopted atomLater p ∧ p.isBelow q = true) ∧
    bare.Adopted atomLater .movable ∧ (bare.run atomLater).lookupPath .atom = some 3 := by
  obtain ⟨hclosed, hgap⟩ := pathClosed_iff_of_run (.inl rfl) atomLater
  refine ⟨hclosed, hgap, ⟨[], _, [.getOrCreate .atom], rfl, ?_⟩, by decide +kernel⟩
  exact .createClass (by decide +kernel) (c := 2) (by decide +kernel)

end ClassTree.Hierarchy
