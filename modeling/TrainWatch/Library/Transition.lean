import Mathlib.Data.List.Induction

/-! # Runs of a guarded transition function

`step s a = none` means that action `a` is not enabled in `s`.  A run is a list of
actions, each enabled where it stands.  The two rules below are the inductions every
safety proof needs: an invariant of the state, kept by the actions that occur, and
an invariant that also looks at the history.
-/

namespace TrainWatch.Library

universe u v

variable {σ : Type u} {α : Type v}

/-- The state after the actions of `trace`, or `none` if one of them is not enabled. -/
def run (step : σ → α → Option σ) (start : σ) (trace : List α) : Option σ :=
  trace.foldlM step start

variable {step : σ → α → Option σ}

@[simp] theorem run_nil (start : σ) : run step start [] = some start := rfl

@[simp] theorem run_cons (start : σ) (action : α) (trace : List α) :
    run step start (action :: trace) = (step start action).bind (run step · trace) := rfl

theorem run_cons_eq_some {start final : σ} {action : α} {trace : List α} :
    run step start (action :: trace) = some final ↔
      ∃ next, step start action = some next ∧ run step next trace = some final := by
  simp [Option.bind_eq_some_iff]

theorem run_append (start : σ) (first second : List α) :
    run step start (first ++ second) = (run step start first).bind (run step · second) := by
  induction first generalizing start with
  | nil => rfl
  | cons action first inductionHypothesis =>
    simp only [List.cons_append, run_cons, Option.bind_assoc]
    exact Option.bind_congr fun next _ => inductionHypothesis next

theorem run_append_eq_some {start final : σ} {first second : List α} :
    run step start (first ++ second) = some final ↔
      ∃ middle, run step start first = some middle ∧ run step middle second = some final := by
  rw [run_append, Option.bind_eq_some_iff]

theorem run_snoc_eq_some {start final : σ} {trace : List α} {action : α} :
    run step start (trace ++ [action]) = some final ↔
      ∃ last, run step start trace = some last ∧ step last action = some final := by
  rw [run_append_eq_some]
  simp

/-- Invariant rule; only the actions that occur in the trace have to preserve the invariant. -/
theorem run_invariant (invariant : σ → Prop) {trace : List α} {start final : σ}
    (preserved : ∀ action ∈ trace, ∀ s s', invariant s → step s action = some s' → invariant s')
    (holds : invariant start) (reached : run step start trace = some final) : invariant final := by
  induction trace generalizing start with
  | nil => cases reached; exact holds
  | cons action trace inductionHypothesis =>
    obtain ⟨next, first, rest⟩ := run_cons_eq_some.mp reached
    have later := fun a member => preserved a (List.mem_cons_of_mem action member)
    exact inductionHypothesis later
      (preserved action List.mem_cons_self start next holds first) rest

/-- Invariant rule for a property of the state together with the actions that led to it; only the
    prefixes of the trace have to preserve it. -/
theorem run_history (invariant : List α → σ → Prop) {start final : σ} {trace : List α}
    (initial : invariant [] start)
    (preserved : ∀ history action s s', history ++ [action] <+: trace →
      run step start history = some s →
      invariant history s → step s action = some s' → invariant (history ++ [action]) s')
    (reached : run step start trace = some final) : invariant trace final := by
  induction trace using List.reverseRecOn generalizing final with
  | nil => cases reached; exact initial
  | append_singleton trace action inductionHypothesis =>
    obtain ⟨last, earlier, stepped⟩ := run_snoc_eq_some.mp reached
    have holds : invariant trace last := inductionHypothesis
      (fun history a s s' shorter =>
        preserved history a s s' (shorter.trans (List.prefix_append _ _))) earlier
    exact preserved trace action last final (List.prefix_refl _) earlier holds stepped

/-! ## Two runs side by side

A property that compares two runs of one system is proved like an invariant, by a relation
between the two states that every pair of steps keeps. -/

/-- The states of two runs from one start that take their steps in pairs; `together s t` are the
    pairs of actions that may come next. -/
inductive TwoRuns (step : σ → α → Option σ) (together : σ → σ → α → α → Prop) (start : σ) :
    σ → σ → Prop where
  | start : TwoRuns step together start start start
  | step {s t s' t' : σ} {action action' : α} (earlier : TwoRuns step together start s t)
      (pair : together s t action action') (stepped : step s action = some s')
        (stepped' : step t action' = some t') :
      TwoRuns step together start s' t'

variable {together : σ → σ → α → α → Prop} {start s t : σ}

/-- Invariant rule for a relation between the two states that runs in step can reach. -/
theorem TwoRuns.invariant (relation : σ → σ → Prop) (holds : relation start start)
    (preserved : ∀ s t s' t' action action', TwoRuns step together start s t → relation s t →
      together s t action action' → step s action = some s' → step t action' = some t' →
        relation s' t')
    (runs : TwoRuns step together start s t) : relation s t := by
  induction runs with
  | start => exact holds
  | step earlier pair stepped stepped' inductionHypothesis =>
    exact preserved _ _ _ _ _ _ earlier inductionHypothesis pair stepped stepped'

/-- Each of the two is a run of the system. -/
theorem TwoRuns.both_runs (runs : TwoRuns step together start s t) :
    (∃ trace, run step start trace = some s) ∧ ∃ trace, run step start trace = some t := by
  induction runs with
  | start => exact ⟨⟨[], rfl⟩, ⟨[], rfl⟩⟩
  | step _ _ stepped stepped' inductionHypothesis =>
    obtain ⟨⟨trace, reached⟩, ⟨trace', reached'⟩⟩ := inductionHypothesis
    exact ⟨⟨_, run_snoc_eq_some.mpr ⟨_, reached, stepped⟩⟩,
      ⟨_, run_snoc_eq_some.mpr ⟨_, reached', stepped'⟩⟩⟩

end TrainWatch.Library
