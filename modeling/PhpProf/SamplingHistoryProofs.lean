import PhpProf.SampledRequestProofs
import PhpProf.SamplingProcessProofs

/-! What the table holds while signals fall between any two statements. A history
remembers the deliveries since the table was last initialised; over any number of
requests the table counts exactly these, until a report reorders it or teardown
lowers the flag, as long as no signal makes the handler use a destroyed table. -/
namespace PhpProf.SamplingHistoryProofs
open SamplingProcess SamplingProofs
open SampledRequestProofs (Sampled sampleCounts collected_entries)
open SamplingProcessProofs (HitsGap inScript performDefined run_defined_iff secondSetup)

variable {engine : Engine} {config : ProfConfig} {process next : SamplingProcess}

/-- What has happened since the table was last initialised. -/
structure History where
  deliveries : List (List ExecuteData)
  reported : Bool

namespace History

def blank : History := ⟨[], false⟩

/-- What one more action adds. A history starts where `zend_hash_init` runs; a
delivery belongs to it wherever else it falls. -/
def record (history : History) : SamplingProcess × Action → History
  | (process, .statement _) => if process.next = .setupInit then blank else history
  | (_, .report _ _) => { history with reported := true }
  | (_, .deliver executeData) =>
    { history with deliveries := history.deliveries ++ [executeData] }

/-- The history at the end of a run of a process. -/
def ofRun (engine : Engine) (config : ProfConfig) (actions : List Action) : History :=
  (Runs.trace (perform engine) (.fresh config) actions).foldl record blank

end History

variable {history : History}

/-- The globals that count a history. Once a report has run, the table is in an
order of its own and there may be errors. -/
def Counts (engine : Engine) (history : History) (globals : ProfGlobals) : Prop :=
  globals.samplingEnabled = true ∧ (history.reported = false → globals.errors = [] ∧
    globals.samplingUnits =
      OrderedTable.collect (functionName engine) freshUnit hit .empty (samples history.deliveries))

/-- How far the globals agree with the history before each statement. While the
flag is down, or before the table is initialised, no delivery is counted in it. -/
def Invariant (engine : Engine) (config : ProfConfig) (process : SamplingProcess)
    (history : History) : Prop :=
  process.globals.config = config ∧
    match process.next with
    | .setupEnable => process.globals.errors = []
    | .setupInit => process.globals.samplingEnabled = true ∧ process.globals.errors = []
    | .setupSignal | .setupTimer | .serving | .teardownDisable =>
      Counts engine history process.globals
    | .rinit | .teardownTimer | .teardownUnits | .teardownDestroy => True

/-- `zend_hash_init` starts a history. -/
theorem hashInit_invariant (position : process.next = .setupInit)
    (invariant : Invariant engine config process history) (answers : RinitEnv) :
    Invariant engine config (process.statement answers)
      (history.record (process, .statement answers)) := by
  obtain ⟨configured, agrees⟩ := invariant
  simp only [position] at agrees
  have started : history.record (process, .statement answers) = .blank := if_pos position
  rw [started, SamplingProcess.statement, position]
  exact ⟨configured, agrees.1, fun _ => ⟨agrees.2, rfl⟩⟩

/-- Every other statement keeps the history, and the table with it. -/
theorem statement_invariant (invariant : Invariant engine config process history)
    (answers : RinitEnv) :
    Invariant engine config (process.statement answers)
      (history.record (process, .statement answers)) := by
  by_cases initialises : process.next = .setupInit
  · exact hashInit_invariant initialises invariant answers
  obtain ⟨configured, agrees⟩ := invariant
  have kept : history.record (process, .statement answers) = history := if_neg initialises
  rw [kept]
  unfold SamplingProcess.statement
  cases position : process.next with
  | setupInit => exact absurd position initialises
  | rinit =>
    by_cases silent : getWallTime answers.realtime = 0
    · simp only [silent, ↓reduceIte]
      exact ⟨configured, trivial⟩
    · simp only [silent, ↓reduceIte]
      exact ⟨configured, rfl⟩
  | setupEnable =>
    simp only [position] at agrees
    exact ⟨configured, rfl, agrees⟩
  | setupSignal | serving =>
    simp only [position] at agrees
    exact ⟨configured, agrees⟩
  | setupTimer =>
    simp only [position] at agrees
    dsimp only
    split
    · exact ⟨configured, agrees⟩
    · exact ⟨configured, trivial⟩
  | teardownTimer =>
    dsimp only
    split
    · exact ⟨configured, trivial⟩
    · exact ⟨configured, trivial⟩
  | teardownDisable | teardownUnits | teardownDestroy => exact ⟨configured, trivial⟩

theorem handler_config (globals : ProfGlobals) (executeData : List ExecuteData) :
    (profSigprofHandler engine globals executeData).config = globals.config := by
  cases enabled : globals.samplingEnabled with
  | false => simp [profSigprofHandler, enabled]
  | true => rw [handler_step enabled]

/-- A delivery is counted by the table and remembered by the history. -/
theorem counts_delivered {globals : ProfGlobals} (counts : Counts engine history globals)
    (executeData : List ExecuteData) :
    Counts engine { history with deliveries := history.deliveries ++ [executeData] }
      (profSigprofHandler engine globals executeData) := by
  obtain ⟨enabled, counted⟩ := counts
  rw [handler_step enabled]
  refine ⟨enabled, fun unreported => ?_⟩
  obtain ⟨silent, units⟩ := counted unreported
  refine ⟨silent, ?_⟩
  dsimp only
  rw [units]
  cases sampled : sampledFunction executeData with
  | none => simp [samples, sampled]
  | some func => simp [samples, sampled, OrderedTable.collect_concat, countSample]

theorem perform_invariant {action : Action} (performed : process.perform engine action = some next)
    (invariant : Invariant engine config process history) :
    Invariant engine config next (history.record (process, action)) := by
  cases action with
  | statement answers =>
    cases performed
    exact statement_invariant invariant answers
  | report samplingUnits errors =>
    simp only [perform, Option.ite_none_right_eq_some, Option.some.injEq] at performed
    obtain ⟨serving, rfl⟩ := performed
    obtain ⟨configured, agrees⟩ := invariant
    simp only [serving] at agrees
    refine ⟨configured, ?_⟩
    simp only [serving]
    exact ⟨agrees.1, fun unreported => absurd unreported (by simp [History.record])⟩
  | deliver executeData =>
    simp only [perform, Option.ite_none_right_eq_some, Option.some.injEq] at performed
    obtain ⟨-, rfl⟩ := performed
    obtain ⟨configured, agrees⟩ := invariant
    refine ⟨(handler_config _ _).trans configured, ?_⟩
    cases position : process.next with
    | rinit | teardownTimer | teardownUnits | teardownDestroy => trivial
    | setupEnable =>
      simp only [position] at agrees
      exact (SampledRequestProofs.sigprof_errors _ _).trans agrees
    | setupInit =>
      simp only [position] at agrees
      exact ⟨(SamplingProcessProofs.handler_enabled _ _).trans agrees.1,
        (SampledRequestProofs.sigprof_errors _ _).trans agrees.2⟩
    | setupSignal | setupTimer | serving | teardownDisable =>
      simp only [position] at agrees
      exact counts_delivered agrees executeData

theorem run_invariant {actions : List Action} {reached : SamplingProcess}
    (ran : Runs.run (perform engine) (.fresh config) actions = some reached) :
    Invariant engine config reached (.ofRun engine config actions) :=
  Runs.run_recorded (fun _ _ _ _ performed => perform_invariant performed) ⟨rfl, trivial⟩ ran

/-- In every run of a process, over any number of requests and wherever signals are
delivered, but with none that finds user code in the gap before a later request
initialises its table: every action is defined, and a script that is served and not yet
reported on finds the configuration it started with, no errors, and each sample since
the table was initialised counted once, under its name. -/
theorem served_counts_samples (engine : Engine) (config : ProfConfig) {actions : List Action}
    {reached : SamplingProcess}
    (ran : Runs.run (perform engine) (.fresh config) actions = some reached)
    (clear : ∀ visit ∈ Runs.trace (perform engine) (.fresh config) actions, ∀ executeData,
      visit.2 = .deliver executeData → ¬ HitsGap visit.1 executeData) :
    Runs.run (performDefined engine) (.fresh config) actions = some reached ∧
      (reached.next = .serving → (History.ofRun engine config actions).reported = false →
        Sampled engine config (History.ofRun engine config actions).deliveries
          reached.globals) := by
  refine ⟨(run_defined_iff engine config ran).mpr clear, ?_⟩
  intro serving unreported
  obtain ⟨configured, agrees⟩ := run_invariant ran
  simp only [serving] at agrees
  obtain ⟨silent, units⟩ := agrees.2 unreported
  refine ⟨configured, silent, ?_⟩
  rw [units]
  exact collected_entries engine _

/-- A second request with a signal in each gap of its setup. The first of them
comes before the table is initialised, and finds no user code. -/
def disturbedSetup : List Action :=
  secondSetup ++ [.deliver [⟨none⟩],
    .statement SamplingProcessProofs.accepting, .deliver inScript,
    .statement SamplingProcessProofs.accepting, .deliver inScript,
    .statement SamplingProcessProofs.accepting]

/-- Whether what is done keeps out of the gap, or finds no user code there. -/
def staysClear : SamplingProcess × Action → Bool
  | (process, .deliver executeData) =>
    process.next ≠ .setupInit || (sampledFunction executeData).isNone
  | (_, .statement _) | (_, .report _ _) => true

theorem staysClear_not_hitsGap {visit : SamplingProcess × Action} {executeData : List ExecuteData}
    (clear : staysClear visit = true) (delivered : visit.2 = .deliver executeData) :
    ¬ HitsGap visit.1 executeData := by
  obtain ⟨process, action⟩ := visit
  cases delivered
  rintro ⟨position, -, func, sampled⟩
  simp only [staysClear, sampled, Option.isNone_some, Bool.or_false, decide_eq_true_eq] at clear
  exact clear position

theorem disturbed_setup_counts_two :
    ∃ reached, Runs.run (performDefined php) (.fresh (ConfigProofs.samplingConfig 1000))
        disturbedSetup = some reached ∧
      Sampled php (ConfigProofs.samplingConfig 1000) [inScript, inScript] reached.globals := by
  have served : ∃ reached, Runs.run (perform php) (.fresh (ConfigProofs.samplingConfig 1000))
      disturbedSetup = some reached ∧ reached.next = .serving := ⟨_, rfl, rfl⟩
  obtain ⟨reached, ran, serving⟩ := served
  have clear : ∀ visit ∈ Runs.trace (perform php) (.fresh (ConfigProofs.samplingConfig 1000))
      disturbedSetup, staysClear visit = true := List.all_eq_true.mp rfl
  obtain ⟨defined, counts⟩ := served_counts_samples php _ ran
    fun visit visited _ => staysClear_not_hitsGap (clear visit visited)
  exact ⟨reached, defined, counts serving rfl⟩

end PhpProf.SamplingHistoryProofs
