/-! Runs of a machine whose actions are not always possible, and what holds in
every state that an action of a run meets. -/
namespace PhpProf

universe u v w

namespace Runs

variable {σ : Type u} {α : Type v}

/-- The actions of a run, each with the state it meets. The run ends at the first
action that is not possible. -/
def trace (perform : σ → α → Option σ) : σ → List α → List (σ × α)
  | _, [] => []
  | state, action :: rest =>
    match perform state action with
    | none => []
    | some next => (state, action) :: trace perform next rest

/-- The state after a run, if every action was possible. -/
def run (perform : σ → α → Option σ) (state : σ) (actions : List α) : Option σ :=
  actions.foldlM perform state

variable {perform : σ → α → Option σ} {state : σ} {actions : List α} {visit : σ × α}

theorem trace_possible (visited : visit ∈ trace perform state actions) :
    ∃ next, perform visit.1 visit.2 = some next := by
  induction actions generalizing state with
  | nil => cases visited
  | cons action rest ih =>
    unfold trace at visited
    split at visited
    · cases visited
    · next next performed =>
      rcases List.mem_cons.mp visited with rfl | later
      · exact ⟨next, performed⟩
      · exact ih later

/-- An action is in the trace with the state the run before it has come to. -/
theorem mem_trace_of_run {before rest : List α} {met next : σ} {action : α}
    (reached : run perform state before = some met) (performed : perform met action = some next) :
    (met, action) ∈ trace perform state (before ++ action :: rest) := by
  induction before generalizing state with
  | nil =>
    cases reached
    simp [trace, performed]
  | cons first later ih =>
    simp only [run, List.foldlM_cons, Option.bind_eq_bind, Option.bind_eq_some_iff] at reached
    obtain ⟨second, stepped, continued⟩ := reached
    simp only [List.cons_append, trace, stepped]
    exact List.mem_cons_of_mem _ (ih continued)

/-- What every possible action preserves holds in every state of a run. -/
theorem trace_invariant {invariant : σ → Prop}
    (preserved : ∀ state action next, perform state action = some next → invariant state →
      invariant next)
    (start : invariant state) (visited : visit ∈ trace perform state actions) :
    invariant visit.1 := by
  induction actions generalizing state with
  | nil => cases visited
  | cons action rest ih =>
    unfold trace at visited
    split at visited
    · cases visited
    · next next performed =>
      rcases List.mem_cons.mp visited with rfl | later
      · exact start
      · exact ih (preserved state action next performed start) later

/-- What every possible action preserves, together with what is recorded of it, holds
at the end of a run with what has been recorded of its trace. -/
theorem run_recorded {γ : Type w} {record : γ → σ × α → γ} {invariant : σ → γ → Prop}
    (preserved : ∀ state action next recorded, perform state action = some next →
      invariant state recorded → invariant next (record recorded (state, action)))
    {recorded : γ} (start : invariant state recorded) {reached : σ}
    (ran : run perform state actions = some reached) :
    invariant reached ((trace perform state actions).foldl record recorded) := by
  induction actions generalizing state recorded with
  | nil =>
    cases ran
    exact start
  | cons action rest ih =>
    simp only [run, List.foldlM_cons, Option.bind_eq_bind, Option.bind_eq_some_iff] at ran
    obtain ⟨next, performed, continued⟩ := ran
    simp only [trace, performed, List.foldl_cons]
    exact ih (preserved state action next recorded performed start) continued

/-- The machine that stops at the first action that is not allowed. -/
def guarded (allowed : σ → α → Prop) [∀ state action, Decidable (allowed state action)]
    (perform : σ → α → Option σ) (state : σ) (action : α) : Option σ :=
  if allowed state action then perform state action else none

/-- The guarded machine goes through a run exactly when all of its trace is allowed. -/
theorem run_guarded_iff {allowed : σ → α → Prop}
    [∀ state action, Decidable (allowed state action)] {reached : σ} :
    run (guarded allowed perform) state actions = some reached ↔
      run perform state actions = some reached ∧
        ∀ visit ∈ trace perform state actions, allowed visit.1 visit.2 := by
  induction actions generalizing state with
  | nil => simp [run, trace]
  | cons action rest ih =>
    have step : ∀ machine : σ → α → Option σ, run machine state (action :: rest) =
        (machine state action).bind fun next => run machine next rest := fun _ => rfl
    rw [step, step, guarded, trace]
    cases performed : perform state action with
    | none => split <;> simp
    | some next =>
      by_cases here : allowed state action
      · simp [here, ih]
      · simp [here]

end Runs

end PhpProf
