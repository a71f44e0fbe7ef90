import Mathlib.Data.List.Forall2

/-! # Runs of a partial step function

A system is a step function into `Option`; `none` means that the step cannot
be taken. A run folds it over a list of events. Invariants, invariants that
mention the events taken so far, forward simulations and what a run is to one
component are lifted from one step to a run once, here. -/
namespace UnichainBuilder.Lib.Runs

universe u v w x
variable {σ : Type u} {ε : Type v} {τ : Type w} {ο : Type x}

def run (step : σ → ε → Option σ) : σ → List ε → Option σ
  | s, [] => some s
  | s, e :: es => (step s e).bind fun s' => run step s' es

theorem run_cons_eq_some {step : σ → ε → Option σ} {s t : σ} {e : ε} {es : List ε} :
    run step s (e :: es) = some t ↔ ∃ s', step s e = some s' ∧ run step s' es = some t :=
  Option.bind_eq_some_iff

theorem run_append_eq_some {step : σ → ε → Option σ} {s u : σ} {es es' : List ε} :
    run step s (es ++ es') = some u ↔ ∃ t, run step s es = some t ∧ run step t es' = some u := by
  induction es generalizing s with
  | nil => simp [run]
  | cons e es ih => simp only [List.cons_append, run, Option.bind_eq_some_iff, ih]; grind

/-- What one step preserves, a run preserves. -/
theorem run_invariant {step : σ → ε → Option σ} {P : σ → Prop}
    (hstep : ∀ s e s', P s → step s e = some s' → P s') {es : List ε} {s t : σ}
    (hs : P s) (h : run step s es = some t) : P t := by
  induction es generalizing s with
  | nil => cases h; exact hs
  | cons e es ih =>
    obtain ⟨s', he, hrest⟩ := run_cons_eq_some.mp h
    exact ih (hstep s e s' hs he) hrest

theorem run_history_append {step : σ → ε → Option σ} {P : List ε → σ → Prop}
    (hstep : ∀ es s e s', P es s → step s e = some s' → P (es ++ [e]) s')
    {es : List ε} {s t : σ} {past : List ε} (hs : P past s) (h : run step s es = some t) :
    P (past ++ es) t := by
  induction es generalizing s past with
  | nil => cases h; simpa using hs
  | cons e es ih =>
    obtain ⟨s', he, hrest⟩ := run_cons_eq_some.mp h
    simpa using ih (hstep past s e s' hs he) hrest

/-- An invariant may also speak of the events taken so far. -/
theorem run_history {step : σ → ε → Option σ} {P : List ε → σ → Prop}
    (hstep : ∀ es s e s', P es s → step s e = some s' → P (es ++ [e]) s')
    {es : List ε} {s t : σ} (hs : P [] s) (h : run step s es = some t) : P es t :=
  run_history_append hstep hs h

/-- Forward simulation by a total abstract machine: if every step is matched
by some abstract operations, so is every run. -/
theorem run_simulates {step : σ → ε → Option σ} {apply : τ → ο → τ} {R : σ → τ → Prop}
    (hstep : ∀ s a e s', R s a → step s e = some s' → ∃ ops : List ο, R s' (ops.foldl apply a))
    {es : List ε} {s t : σ} {a : τ} (hs : R s a) (h : run step s es = some t) :
    ∃ ops : List ο, R t (ops.foldl apply a) := by
  induction es generalizing s a with
  | nil => cases h; exact ⟨[], hs⟩
  | cons e es ih =>
    obtain ⟨s', he, hrest⟩ := run_cons_eq_some.mp h
    obtain ⟨ops, hops⟩ := hstep s a e s' hs he
    obtain ⟨ops', hops'⟩ := ih hops hrest
    exact ⟨ops ++ ops', by rwa [List.foldl_append]⟩

/-- What holds behind a run and did not before has come about in one step. -/
theorem run_enters {step : σ → ε → Option σ} {P : σ → Prop} {es : List ε} {s t : σ}
    (hs : ¬ P s) (ht : P t) (h : run step s es = some t) :
    ∃ past e rest u v, es = past ++ e :: rest ∧ run step s past = some u ∧ ¬ P u ∧
      step u e = some v ∧ P v ∧ run step v rest = some t := by
  induction es generalizing s with
  | nil =>
    cases h
    exact absurd ht hs
  | cons e es ih =>
    obtain ⟨s', he, hrest⟩ := run_cons_eq_some.mp h
    by_cases hs' : P s'
    · exact ⟨[], e, es, s, s', rfl, rfl, hs, he, hs', hrest⟩
    · obtain ⟨past, e', rest, u, v, rfl, hpast, hu, hv⟩ := ih hs' hrest
      exact ⟨e :: past, e', rest, u, v, rfl, run_cons_eq_some.mpr ⟨s', he, hpast⟩, hu, hv⟩

/-- A component takes a step of its own at each event that is its, and none at
the others: a run is to the component the run of its own steps. -/
theorem run_component {step : σ → ε → Option σ} {own : τ → ο → Option τ} {R : σ → τ → Prop}
    {isMine : ε → Bool} {Takes : ε → ο → Prop}
    (hmine : ∀ s a e s', R s a → step s e = some s' → isMine e = true →
      ∃ o a', Takes e o ∧ own a o = some a' ∧ R s' a')
    (hother : ∀ s a e s', R s a → step s e = some s' → isMine e = false → R s' a)
    {es : List ε} {s t : σ} {a : τ} (hs : R s a) (h : run step s es = some t) :
    ∃ os b, List.Forall₂ Takes (es.filter isMine) os ∧ run own a os = some b ∧ R t b := by
  induction es generalizing s a with
  | nil =>
    cases h
    exact ⟨[], a, .nil, rfl, hs⟩
  | cons e es ih =>
    obtain ⟨s', he, hrest⟩ := run_cons_eq_some.mp h
    cases hm : isMine e with
    | true =>
      obtain ⟨o, a', htakes, hown, hs'⟩ := hmine s a e s' hs he hm
      obtain ⟨os, b, hos, hb, ht⟩ := ih hs' hrest
      refine ⟨o :: os, b, ?_, run_cons_eq_some.mpr ⟨a', hown, hb⟩, ht⟩
      rw [List.filter_cons_of_pos hm]
      exact .cons htakes hos
    | false =>
      obtain ⟨os, b, hos, hb, ht⟩ := ih (hother s a e s' hs he hm) hrest
      refine ⟨os, b, ?_, hb, ht⟩
      rw [List.filter_cons_of_neg (by simp [hm])]
      exact hos

/-- A run of which `f` has been computed. -/
theorem exists_run {step : σ → ε → Option σ} {s : σ} {es : List ε} {P : σ → Prop} (f : σ → τ)
    {v : τ} (h : (run step s es).map f = some v)
    (hP : ∀ t, run step s es = some t → f t = v → P t) : ∃ t, run step s es = some t ∧ P t := by
  obtain ⟨t, ht, hv⟩ := Option.map_eq_some_iff.mp h
  exact ⟨t, ht, hP t ht hv⟩

/-- A run and its continuation, of which `f` and `g` have been computed. -/
theorem exists_run_run {step : σ → ε → Option σ} {s : σ} {es es' : List ε} {P : σ → σ → Prop}
    (f : σ → τ) (g : σ → ο) {v : τ} {w : ο}
    (h : ((run step s es).bind fun t => (run step t es').map fun u => (f t, g u)) = some (v, w))
    (hP : ∀ t u, run step s es = some t → run step t es' = some u → f t = v → g u = w → P t u) :
    ∃ t u, run step s es = some t ∧ run step t es' = some u ∧ P t u := by
  obtain ⟨t, ht, hrest⟩ := Option.bind_eq_some_iff.mp h
  obtain ⟨u, hu, hv⟩ := Option.map_eq_some_iff.mp hrest
  obtain ⟨hf, hg⟩ := Prod.mk.inj hv
  exact ⟨t, u, ht, hu, hP t u ht hu hf hg⟩

/-- Every event satisfies `P` in the state that it is taken in. -/
def Along (step : σ → ε → Option σ) (P : σ → ε → Prop) : σ → List ε → Prop
  | _, [] => True
  | s, e :: es => P s e ∧ ∀ s', step s e = some s' → Along step P s' es

theorem along_congr {step : σ → ε → Option σ} {P Q : σ → ε → Prop}
    (h : ∀ s e, P s e ↔ Q s e) (es : List ε) (s : σ) : Along step P s es ↔ Along step Q s es := by
  induction es generalizing s with
  | nil => exact Iff.rfl
  | cons e es ih => exact and_congr (h s e) (forall₂_congr fun s' _ => ih s')

/-- What the steps that satisfy `P` preserve, a run along `P` preserves. -/
theorem run_invariant_along {step : σ → ε → Option σ} {P : σ → ε → Prop} {I : σ → Prop}
    (hstep : ∀ s e s', I s → P s e → step s e = some s' → I s') {es : List ε} {s t : σ}
    (hs : I s) (halong : Along step P s es) (h : run step s es = some t) : I t := by
  induction es generalizing s with
  | nil => cases h; exact hs
  | cons e es ih =>
    obtain ⟨s', he, hrest⟩ := run_cons_eq_some.mp h
    exact ih (hstep s e s' hs halong.1 he) (halong.2 s' he) hrest

/-- And what they preserve may speak of the events taken so far. -/
theorem run_history_along {step : σ → ε → Option σ} {P : σ → ε → Prop} {I : List ε → σ → Prop}
    (hstep : ∀ past s e s', I past s → P s e → step s e = some s' → I (past ++ [e]) s')
    {past es : List ε} {s t : σ} (hs : I past s) (halong : Along step P s es)
    (h : run step s es = some t) : I (past ++ es) t := by
  induction es generalizing s past with
  | nil => cases h; simpa using hs
  | cons e es ih =>
    obtain ⟨s', he, hrest⟩ := run_cons_eq_some.mp h
    simpa using ih (hstep past s e s' hs halong.1 he) (halong.2 s' he) hrest

instance {step : σ → ε → Option σ} {P : σ → ε → Prop} [∀ s e, Decidable (P s e)] :
    ∀ s es, Decidable (Along step P s es)
  | _, [] => isTrue trivial
  | s, e :: es =>
    match hnext : step s e with
    | some s' =>
      have : Decidable (Along step P s' es) := instDecidableAlong s' es
      decidable_of_iff (P s e ∧ Along step P s' es) (by simp [Along, hnext])
    | none => decidable_of_iff (P s e) (by simp [Along, hnext])

/-- Every entry satisfies `P` in the light of the entries before it. -/
def AtEvery (P : List ε → ε → Prop) : List ε → List ε → Prop
  | _, [] => True
  | past, e :: es => P past e ∧ AtEvery P (past ++ [e]) es

theorem atEvery_concat {P : List ε → ε → Prop} {past es : List ε} {e : ε} :
    AtEvery P past (es ++ [e]) ↔ AtEvery P past es ∧ P (past ++ es) e := by
  induction es generalizing past with
  | nil => simp [AtEvery]
  | cons e' es ih => simp [AtEvery, ih, and_assoc]

end UnichainBuilder.Lib.Runs
