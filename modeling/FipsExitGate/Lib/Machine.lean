import Mathlib.Data.List.Induction

/-!
# Runs of partial step machines

A machine is a partial step function `σ → ε → Option σ`; `none` means that the
event is not enabled in the state.  `run` folds the step function over a list of
events, and `Visits` names the states a run passes through.  Those two notions
are all that a trace statement needs: a safety result speaks of the state a run
ends in (`run_invariant`), a history result of the states it has visited
(`run_history`, `visits_concat`).

## Main definitions

* `run` — the state a list of events leads to, when every event is enabled
* `Visits` — the states of a run, its initial and its final state included
* `Meets` — a condition on the state and the event of every step
-/

namespace Machine

universe u v

variable {σ : Type u} {ε : Type v} {step : σ → ε → Option σ}

/-- The state reached from `s` by the events `es`, taken in order. -/
def run (step : σ → ε → Option σ) (s : σ) (es : List ε) : Option σ :=
  es.foldlM step s

theorem run_append (s : σ) (es₁ es₂ : List ε) :
    run step s (es₁ ++ es₂) = (run step s es₁).bind fun s' => run step s' es₂ := by
  simp [run, List.foldlM_append]

/-- A run extended by one event takes one more step. -/
theorem run_concat (s : σ) (es : List ε) (e : ε) :
    run step s (es ++ [e]) = (run step s es).bind fun s' => step s' e := by
  rw [run_append]
  congr 1
  funext s'
  simp [run]

theorem run_concat_eq_some {s s'' : σ} {es : List ε} {e : ε}
    (h : run step s (es ++ [e]) = some s'') :
    ∃ s', run step s es = some s' ∧ step s' e = some s'' := by
  rw [run_concat] at h
  exact Option.bind_eq_some_iff.mp h

theorem run_cons_eq_some {s s'' : σ} {e : ε} {es : List ε} (h : run step s (e :: es) = some s'') :
    ∃ s', step s e = some s' ∧ run step s' es = some s'' := by
  rw [run, List.foldlM_cons] at h
  exact Option.bind_eq_some_iff.mp h

theorem run_cons_of_step {s s' : σ} {e : ε} (first : step s e = some s') (es : List ε) :
    run step s (e :: es) = run step s' es := by
  rw [run, List.foldlM_cons, first]
  rfl

/-- Every prefix of a run that succeeds is itself a run that succeeds. -/
theorem exists_run_of_append {s s'' : σ} {es₁ es₂ : List ε}
    (h : run step s (es₁ ++ es₂) = some s'') :
    ∃ s', run step s es₁ = some s' ∧ run step s' es₂ = some s'' := by
  rw [run_append] at h
  exact Option.bind_eq_some_iff.mp h

/-- Two runs, one behind the other. -/
theorem run_append_of_run {s s' s'' : σ} {es₁ es₂ : List ε} (first : run step s es₁ = some s')
    (second : run step s' es₂ = some s'') : run step s (es₁ ++ es₂) = some s'' := by
  rw [run_append, first]
  exact second

/-- **The history rule.**  A property of a state and the events that led to it
holds along every run if it holds initially and every enabled step keeps it. -/
theorem run_history {Inv : List ε → σ → Prop} {s : σ} (base : Inv [] s)
    (kept : ∀ es s₁ e s₂, run step s es = some s₁ → Inv es s₁ → step s₁ e = some s₂ →
      Inv (es ++ [e]) s₂) :
    ∀ (es : List ε) {s' : σ}, run step s es = some s' → Inv es s' := by
  intro es
  induction es using List.reverseRecOn with
  | nil =>
      intro s' h
      cases h
      exact base
  | append_singleton es e ih =>
      intro s' h
      obtain ⟨mid, reached, last⟩ := run_concat_eq_some h
      exact kept es mid e s' reached (ih reached) last

/-- **The invariant rule.**  What holds initially and is kept by every enabled
step holds in every state a run reaches. -/
theorem run_invariant {Inv : σ → Prop}
    (kept : ∀ s e s', Inv s → step s e = some s' → Inv s')
    (es : List ε) {s s' : σ} (base : Inv s) (h : run step s es = some s') : Inv s' :=
  run_history base (fun _ s₁ e s₂ _ inv last => kept s₁ e s₂ inv last) es h

/-! ## The states of a run -/

/-- `s₁` is one of the states the run of `es` from `s` passes through. -/
def Visits (step : σ → ε → Option σ) (s : σ) (es : List ε) (s₁ : σ) : Prop :=
  ∃ es₁ es₂, es = es₁ ++ es₂ ∧ run step s es₁ = some s₁

theorem visits_of_run {s s' : σ} {es : List ε} (h : run step s es = some s') :
    Visits step s es s' :=
  ⟨es, [], by simp, h⟩

/-- The states of a run extended by one event: the old ones and the new end. -/
theorem visits_concat {s s₁ : σ} {es : List ε} {e : ε} :
    Visits step s (es ++ [e]) s₁ ↔
      Visits step s es s₁ ∨ run step s (es ++ [e]) = some s₁ := by
  constructor
  · rintro ⟨es₁, es₂, split, h⟩
    rcases List.eq_nil_or_concat es₂ with rfl | ⟨init, last, rfl⟩
    · rw [List.append_nil] at split
      exact Or.inr (split ▸ h)
    · rw [List.concat_eq_append, ← List.append_assoc] at split
      obtain ⟨front, -⟩ := List.append_inj' split rfl
      exact Or.inl ⟨es₁, init, front, h⟩
  · rintro (⟨es₁, es₂, rfl, h⟩ | h)
    · exact ⟨es₁, es₂ ++ [e], by simp, h⟩
    · exact visits_of_run h

theorem Visits.concat {s s₁ : σ} {es : List ε} (h : Visits step s es s₁) (e : ε) :
    Visits step s (es ++ [e]) s₁ :=
  visits_concat.mpr (Or.inl h)

/-- An invariant holds in every state a run visits. -/
theorem visits_invariant {Inv : σ → Prop}
    (kept : ∀ s e s', Inv s → step s e = some s' → Inv s')
    {s s₁ : σ} {es : List ε} (base : Inv s) (h : Visits step s es s₁) : Inv s₁ := by
  obtain ⟨es₁, -, -, reached⟩ := h
  exact run_invariant kept es₁ base reached

/-- What every step relates, a run relates from any state it visits to its end. -/
theorem visits_related {R : σ → σ → Prop} (refl : ∀ s, R s s)
    (trans : ∀ s₁ s₂ s₃, R s₁ s₂ → R s₂ s₃ → R s₁ s₃)
    (steps : ∀ s e s', step s e = some s' → R s s')
    {s s₁ s₂ : σ} {es : List ε} (visited : Visits step s es s₁)
    (h : run step s es = some s₂) : R s₁ s₂ := by
  obtain ⟨es₁, es₂, rfl, reached⟩ := visited
  obtain ⟨mid, first, rest⟩ := exists_run_of_append h
  obtain rfl : mid = s₁ := Option.some.inj (first.symm.trans reached)
  exact run_invariant (fun s e s' before last => trans _ s _ before (steps s e s' last))
    es₂ (refl mid) rest

/-! ## Runs whose steps meet a condition -/

/-- Every step of the run is taken in a state that, together with the event,
meets the condition `P`. -/
def Meets (step : σ → ε → Option σ) (P : σ → ε → Prop) (s : σ) (es : List ε) : Prop :=
  ∀ es₁ e es₂ s₁, es = es₁ ++ e :: es₂ → run step s es₁ = some s₁ → P s₁ e

/-- A condition that the events meet in every state. -/
theorem meets_of_forall {P : σ → ε → Prop} {s : σ} {es : List ε} (h : ∀ e ∈ es, ∀ s, P s e) :
    Meets step P s es := by
  rintro es₁ e es₂ s₁ rfl -
  exact h e (by simp) s₁

/-- A condition on the first step and on the run after it. -/
theorem meets_cons {P : σ → ε → Prop} {s : σ} {e : ε} {es : List ε} (first : P s e)
    (rest : ∀ s', step s e = some s' → Meets step P s' es) : Meets step P s (e :: es) := by
  intro es₁ e' es₂ s₁ split reached
  cases es₁ with
  | nil =>
      cases split
      cases reached
      exact first
  | cons e₁ es₁ =>
      cases split
      obtain ⟨mid, stepped, reached⟩ := run_cons_eq_some reached
      exact rest mid stepped es₁ e' es₂ s₁ rfl reached

/-- A decidable condition, checked along the run. -/
def checks (step : σ → ε → Option σ) (P : σ → ε → Prop) [∀ s e, Decidable (P s e)] :
    σ → List ε → Bool
  | _, [] => true
  | s, e :: es =>
      decide (P s e) &&
        match step s e with
        | none => true
        | some s' => checks step P s' es

theorem meets_of_checks {P : σ → ε → Prop} [∀ s e, Decidable (P s e)] {es : List ε} {s : σ}
    (checked : checks step P s es = true) : Meets step P s es := by
  induction es generalizing s with
  | nil =>
      intro es₁ e es₂ s₁ split
      simp at split
  | cons e es ih =>
      simp only [checks, Bool.and_eq_true, decide_eq_true_eq] at checked
      refine meets_cons checked.1 fun s' stepped => ih ?_
      simpa [stepped] using checked.2

theorem Meets.of_append {P : σ → ε → Prop} {s : σ} {es₁ es₂ : List ε}
    (meets : Meets step P s (es₁ ++ es₂)) : Meets step P s es₁ := by
  rintro front e back s₁ rfl reached
  exact meets front e (back ++ es₂) s₁ (by simp) reached

/-- The invariant rule for runs whose steps meet a condition. -/
theorem Meets.run_invariant {P : σ → ε → Prop} {Inv : σ → Prop}
    (kept : ∀ s e s', Inv s → P s e → step s e = some s' → Inv s')
    {s s' : σ} {es : List ε} (meets : Meets step P s es) (base : Inv s)
    (h : run step s es = some s') : Inv s' := by
  -- the history carries the condition, so that it can be cut down with the run
  let History := fun (es : List ε) (s' : σ) => Meets step P s es → Inv s'
  have base' : History [] s := fun _ => base
  refine run_history base' ?_ es h meets
  intro es s₁ e s₂ reached inv last meets
  exact kept s₁ e s₂ (inv meets.of_append) (meets es e [] s₁ rfl reached) last

theorem Meets.visits_invariant {P : σ → ε → Prop} {Inv : σ → Prop}
    (kept : ∀ s e s', Inv s → P s e → step s e = some s' → Inv s')
    {s s₁ : σ} {es : List ε} (meets : Meets step P s es) (base : Inv s)
    (h : Visits step s es s₁) : Inv s₁ := by
  obtain ⟨es₁, es₂, rfl, reached⟩ := h
  exact meets.of_append.run_invariant kept base reached

/-! ## Simulation -/

/-- **The simulation rule.**  If every step that meets the condition is matched by a run of
another machine, from related to related states, then so is every run that meets it. -/
theorem Meets.run_simulation {τ : Type u} {η : Type v} {step' : τ → η → Option τ}
    {P : σ → ε → Prop} {R : σ → τ → Prop}
    (matched : ∀ s e s' t, R s t → P s e → step s e = some s' →
      ∃ es t', run step' t es = some t' ∧ R s' t')
    {s s' : σ} {t : τ} {es : List ε} (meets : Meets step P s es) (base : R s t)
    (h : run step s es = some s') : ∃ es' t', run step' t es' = some t' ∧ R s' t' := by
  let Matched (s' : σ) : Prop := ∃ es' t', run step' t es' = some t' ∧ R s' t'
  have kept : ∀ s₁ e s₂, Matched s₁ → P s₁ e → step s₁ e = some s₂ → Matched s₂ := by
    rintro s₁ e s₂ ⟨before, t₁, reached, related⟩ meets last
    obtain ⟨more, t₂, went, related⟩ := matched s₁ e s₂ t₁ related meets last
    exact ⟨before ++ more, t₂, by rw [run_append, reached]; exact went, related⟩
  exact meets.run_invariant kept ⟨[], t, rfl, base⟩ h

end Machine
