import Mathlib.Tactic.Lemma
/-!
Runs of steps that may fail.
-/

namespace ClassTree

variable {α β ε σ : Type}

lemma exists_of_map_eq_ok {f : α → β} {x : Except ε α} {b : β} (h : f <$> x = .ok b) :
    ∃ a, x = .ok a ∧ f a = b := by
  cases x with
  | error e => cases h
  | ok a =>
    cases h
    exact ⟨a, rfl, rfl⟩

lemma map_eq_error_iff {f : α → β} {x : Except ε α} {e : ε} :
    f <$> x = .error e ↔ x = .error e := by
  cases x <;> simp [Functor.map, Except.map]

lemma exists_of_bind_eq_ok {f : α → Except ε β} {x : Except ε α} {b : β}
    (h : (x >>= f) = .ok b) : ∃ a, x = .ok a ∧ f a = .ok b := by
  cases x with
  | error e => cases h
  | ok a => exact ⟨a, rfl, h⟩

lemma mapM_map_eq_ok {f : α → Except ε β} {g : β → α} {l : List β} (h : ∀ b ∈ l, f (g b) = .ok b) :
    (l.map g).mapM f = .ok l := by
  induction l with
  | nil => rfl
  | cons b l ih =>
    obtain ⟨hb, hl⟩ := List.forall_mem_cons.mp h
    rw [List.map_cons, List.mapM_cons, hb, ih hl]
    rfl

lemma exists_mem_of_mapM_eq_ok {f : α → Except ε β} {l : List α} {bs : List β}
    (h : l.mapM f = .ok bs) {b : β} (hb : b ∈ bs) : ∃ a ∈ l, f a = .ok b := by
  induction l generalizing bs with
  | nil =>
    cases h
    cases hb
  | cons a l ih =>
    rw [List.mapM_cons] at h
    obtain ⟨b', hb', h⟩ := exists_of_bind_eq_ok h
    obtain ⟨bs', hbs', h⟩ := exists_of_bind_eq_ok h
    cases h
    rcases List.mem_cons.mp hb with rfl | hb
    · exact ⟨a, List.mem_cons_self, hb'⟩
    · obtain ⟨a', ha', h⟩ := ih hbs' hb
      exact ⟨a', List.mem_cons_of_mem a ha', h⟩

/-- What each step that ends well keeps, a run that ends well keeps. -/
lemma foldlM_induction {step : σ → α → Except ε σ} {motive : List α → σ → Prop} {s s' : σ}
    {l : List α} (nil : motive [] s)
    (snoc : ∀ l a s s', motive l s → step s a = .ok s' → motive (l ++ [a]) s')
    (h : l.foldlM step s = .ok s') : motive l s' := by
  have run (l done : List α) {s : σ} (hs : motive done s) (h : l.foldlM step s = .ok s') :
      motive (done ++ l) s' := by
    induction l generalizing s done with
    | nil =>
      cases h
      rwa [List.append_nil]
    | cons a l ih =>
      rw [List.foldlM_cons] at h
      obtain ⟨u, ha, h⟩ := exists_of_bind_eq_ok h
      rw [← List.singleton_append, ← List.append_assoc]
      exact ih _ (snoc done a s u hs ha) h
  exact run l [] nil h

/-! ### Problems in order -/

/-- A computation fails with the first of some problems; without any it gives what is asked for. -/
inductive Reports (x : Except ε α) (problems : List ε) (post : α → Prop) : Prop
  | ok {a : α} (h : x = .ok a) (hn : problems = []) (ha : post a)
  | error {e : ε} {rest : List ε} (h : x = .error e) (hc : problems = e :: rest)

namespace Reports

variable {x : Except ε α} {problems problems' : List ε} {post : α → Prop} {post' : β → Prop}

lemma of_ok {a : α} (h : x = .ok a) (ha : post a) : Reports x [] post := .ok h rfl ha

lemma bind {f : α → Except ε β} (h : Reports x problems post)
    (hf : ∀ a, x = .ok a → post a → Reports (f a) problems' post') :
    Reports (x >>= f) (problems ++ problems') post' := by
  cases h with
  | @ok a h hn ha =>
    subst h hn
    exact hf a rfl ha
  | error h hc =>
    subst h hc
    exact .error rfl rfl

lemma mono {post₂ : α → Prop} (h : Reports x problems post) (hp : ∀ a, post a → post₂ a) :
    Reports x problems post₂ := by
  cases h with
  | ok h hn ha => exact .ok h hn (hp _ ha)
  | error h hc => exact .error h hc

lemma eq_error_iff (h : Reports x problems post) {e : ε} :
    x = .error e ↔ problems.head? = some e := by
  cases h with
  | ok h hn _ => simp [h, hn]
  | error h hc => simp [h, hc]

lemma exists_error_iff (h : Reports x problems post) : (∃ e, x = .error e) ↔ problems ≠ [] := by
  cases h with
  | ok h hn _ => simp [h, hn]
  | error h hc => simp [h, hc]

lemma of_eq_ok (h : Reports x problems post) {a : α} (ha : x = .ok a) : post a := by
  cases h with
  | ok h _ hp =>
    obtain rfl := Except.ok.inj (ha.symm.trans h)
    exact hp
  | error h _ =>
    rw [ha] at h
    cases h

end Reports

/-- What is wrong with each element of a list, by those that come before it. -/
def problemsAlong (problem : List α → α → List ε) : List α → List α → List ε
  | _, [] => []
  | before, a :: l => problem before a ++ problemsAlong problem (before ++ [a]) l

lemma problemsAlong_const (problem : α → List ε) (before l : List α) :
    problemsAlong (fun _ => problem) before l = l.flatMap problem := by
  induction l generalizing before with
  | nil => rfl
  | cons a l ih => simp [problemsAlong, ih]

lemma mem_problemsAlong {problem : List α → α → List ε} {before l : List α} {e : ε} :
    e ∈ problemsAlong problem before l ↔
      ∃ earlier a later, l = earlier ++ a :: later ∧ e ∈ problem (before ++ earlier) a := by
  induction l generalizing before with
  | nil => simp [problemsAlong]
  | cons b l ih =>
    rw [problemsAlong, List.mem_append, ih]
    constructor
    · rintro (h | ⟨earlier, a, later, rfl, h⟩)
      · exact ⟨[], b, l, rfl, by simpa using h⟩
      · exact ⟨b :: earlier, a, later, rfl, by simpa using h⟩
    · rintro ⟨_ | ⟨_, earlier⟩, a, later, hl, h⟩
      · obtain ⟨rfl, rfl⟩ := List.cons.inj hl
        exact .inl (by simpa using h)
      · obtain ⟨rfl, rfl⟩ := List.cons.inj hl
        exact .inr ⟨earlier, a, later, rfl, by simpa using h⟩

lemma problemsAlong_ne_nil_iff {problem : List α → α → List ε} {l : List α} :
    problemsAlong problem [] l ≠ [] ↔
      ∃ before a after, l = before ++ a :: after ∧ problem before a ≠ [] := by
  constructor
  · intro h
    obtain ⟨e, he⟩ := List.exists_mem_of_ne_nil _ h
    obtain ⟨before, a, after, hl, he⟩ := mem_problemsAlong.mp he
    exact ⟨before, a, after, hl, List.ne_nil_of_mem he⟩
  · rintro ⟨before, a, after, hl, h⟩
    obtain ⟨e, he⟩ := List.exists_mem_of_ne_nil _ h
    exact List.ne_nil_of_mem (mem_problemsAlong.mpr ⟨before, a, after, hl, he⟩)

lemma reports_foldlM {step : σ → α → Except ε σ} {problem : List α → α → List ε}
    (inv : List α → σ → Prop)
    (hstep : ∀ before a s, inv before s →
      Reports (step s a) (problem before a) (inv (before ++ [a])))
    (l before : List α) {s : σ} (hs : inv before s) :
    Reports (l.foldlM step s) (problemsAlong problem before l) (inv (before ++ l)) := by
  induction l generalizing before s with
  | nil => exact .of_ok rfl (by rwa [List.append_nil])
  | cons a l ih =>
    have hl : before ++ a :: l = before ++ [a] ++ l := List.append_cons before a l
    rw [List.foldlM_cons, problemsAlong, hl]
    exact (hstep before a s hs).bind fun s' _ hs' => ih (before ++ [a]) hs'

/-- When what is wrong with an element does not depend on those before it. -/
lemma reports_foldlM_flatMap {step : σ → α → Except ε σ} {problem : α → List ε}
    (inv : List α → σ → Prop)
    (hstep : ∀ before a s, inv before s → Reports (step s a) (problem a) (inv (before ++ [a])))
    (l : List α) {s : σ} (hs : inv [] s) :
    Reports (l.foldlM step s) (l.flatMap problem) (inv l) := by
  rw [← problemsAlong_const problem []]
  exact reports_foldlM inv hstep l [] hs

lemma reports_foldlM_nil {step : σ → α → Except ε σ} (inv : List α → σ → Prop)
    (hstep : ∀ before a s, inv before s → Reports (step s a) [] (inv (before ++ [a])))
    (l : List α) {s : σ} (hs : inv [] s) : Reports (l.foldlM step s) [] (inv l) := by
  have hl : l.flatMap (fun _ => ([] : List ε)) = [] := List.flatMap_eq_nil_iff.mpr fun _ _ => rfl
  exact hl ▸ reports_foldlM_flatMap inv hstep l hs

end ClassTree
