import PhpProf.ConfigProofs
import PhpProf.SamplingProcess
import PhpProf.SamplingProofs

/-! When the handler reaches the table. The flag is meant to guard the table, but
setup raises it one statement too early: between the two, a later request still
has the destroyed table of the one before. -/
namespace PhpProf.SamplingProcessProofs
open OrderedTable SamplingProcess Runs

variable {engine : Engine} {process next : SamplingProcess}

/-! ## The handler and the table -/

/-- The name the handler looks up in the table, unless it returns before. -/
def lookedUp (engine : Engine) (globals : ProfGlobals) (executeData : List ExecuteData) :
    Option Bytes :=
  if globals.samplingEnabled then (innermostUser executeData).bind (getFunctionName engine)
  else none

/-- The handler looks up, and inserts or counts, in `sampling_units`. -/
def Touches (engine : Engine) (globals : ProfGlobals) (executeData : List ExecuteData) : Prop :=
  ∃ name, lookedUp engine globals executeData = some name

instance {globals : ProfGlobals} {executeData : List ExecuteData} :
    Decidable (Touches engine globals executeData) :=
  decidable_of_iff ((lookedUp engine globals executeData).isSome = true) Option.isSome_iff_exists

theorem touches_iff {globals : ProfGlobals} {executeData : List ExecuteData} :
    Touches engine globals executeData ↔ globals.samplingEnabled = true ∧
      ∃ func, SamplingProofs.sampledFunction executeData = some func := by
  unfold Touches lookedUp
  rw [SamplingProofs.innermostUser_eq]
  cases globals.samplingEnabled with
  | false => simp
  | true =>
    cases SamplingProofs.sampledFunction executeData with
    | none => simp
    | some func => simp [getFunctionName_eq]

/-- A counted sample always shows in the table. -/
theorem countSample_ne (units : OrderedTable Bytes ProfSamplingUnit) (func : ZendFunction) :
    SamplingProofs.countSample engine units func ≠ units := by
  intro same
  have counted := find?_accumulate units (functionName engine func) (functionName engine func)
    (SamplingProofs.freshUnit func) fun unit => SamplingProofs.hit unit func
  rw [if_pos rfl, ← SamplingProofs.countSample, same] at counted
  cases found : units.find? (functionName engine func) with
  | none => simp [found] at counted
  | some unit =>
    rw [found, Option.getD_some, Option.some.injEq] at counted
    have hits : unit.hits = unit.hits + 1 := congrArg ProfSamplingUnit.hits counted
    exact absurd hits (by simp)

/-- The handler reaches the table exactly when it changes it. -/
theorem touches_iff_changes (globals : ProfGlobals) (executeData : List ExecuteData) :
    Touches engine globals executeData ↔
      (profSigprofHandler engine globals executeData).samplingUnits ≠ globals.samplingUnits := by
  rw [touches_iff]
  cases enabled : globals.samplingEnabled with
  | false => simp [profSigprofHandler, enabled]
  | true =>
    rw [SamplingProofs.handler_step enabled]
    cases SamplingProofs.sampledFunction executeData with
    | none => simp
    | some func => simp [countSample_ne]

theorem handler_enabled (globals : ProfGlobals) (executeData : List ExecuteData) :
    (profSigprofHandler engine globals executeData).samplingEnabled = globals.samplingEnabled := by
  cases enabled : globals.samplingEnabled with
  | false => simp [profSigprofHandler, enabled]
  | true =>
    rw [SamplingProofs.handler_step enabled]
    exact enabled

/-! ## The invariant -/

/-- How the flag, the table and the handler belong together before each statement.
Only between the first two statements of setup can the flag be up without a
table. -/
def Invariant (process : SamplingProcess) : Prop :=
  match process.next with
  | .rinit | .setupEnable =>
    (process.globals.samplingEnabled = true → process.samplingUnits = .initialised) ∧
      (process.handlerInstalled = true → process.samplingUnits ≠ .uninitialised)
  | .setupInit =>
    process.globals.samplingEnabled = true ∧
      (process.handlerInstalled = true → process.samplingUnits ≠ .uninitialised)
  | .setupSignal | .setupTimer | .serving | .teardownDisable =>
    process.samplingUnits = .initialised
  | .teardownTimer | .teardownUnits | .teardownDestroy =>
    process.globals.samplingEnabled = false ∧ process.samplingUnits = .initialised

theorem fresh_invariant (config : ProfConfig) : Invariant (.fresh config) := by
  constructor
  · intro enabled
    cases enabled
  · intro installed
    cases installed

theorem statement_invariant (invariant : Invariant process) (answers : RinitEnv) :
    Invariant (process.statement answers) := by
  unfold Invariant at invariant
  unfold SamplingProcess.statement
  cases position : process.next with
  | rinit =>
    simp only [position] at invariant
    by_cases silent : getWallTime answers.realtime = 0
    · simp only [silent, ↓reduceIte]
      exact invariant
    · simp only [silent, ↓reduceIte]
      exact invariant
  | setupEnable =>
    simp only [position] at invariant
    exact ⟨rfl, invariant.2⟩
  | setupInit => exact rfl
  | setupSignal =>
    simp only [position] at invariant
    exact invariant
  | setupTimer =>
    simp only [position] at invariant
    dsimp only
    split
    · exact invariant
    · exact ⟨fun _ => invariant, fun _ => by simp [invariant]⟩
  | serving =>
    simp only [position] at invariant
    exact invariant
  | teardownDisable =>
    simp only [position] at invariant
    exact ⟨rfl, invariant⟩
  | teardownTimer =>
    simp only [position] at invariant
    dsimp only
    split
    · exact invariant
    · exact ⟨fun _ => invariant.2, fun _ => by simp [invariant.2]⟩
  | teardownUnits =>
    simp only [position] at invariant
    exact invariant
  | teardownDestroy =>
    simp only [position] at invariant
    refine ⟨fun enabled => ?_, fun _ => by simp⟩
    exact absurd (invariant.1.symm.trans enabled) Bool.false_ne_true

/-- Nothing but a statement of setup or teardown moves the flag, the table or the
handler. -/
theorem perform_invariant {action : Action} (performed : process.perform engine action = some next)
    (invariant : Invariant process) : Invariant next := by
  cases action with
  | statement answers =>
    cases performed
    exact statement_invariant invariant answers
  | report samplingUnits errors =>
    simp only [SamplingProcess.perform, Option.ite_none_right_eq_some, Option.some.injEq]
      at performed
    obtain ⟨-, rfl⟩ := performed
    exact invariant
  | deliver executeData =>
    simp only [SamplingProcess.perform, Option.ite_none_right_eq_some, Option.some.injEq]
      at performed
    obtain ⟨-, rfl⟩ := performed
    simp only [Invariant, handler_enabled]
    exact invariant

/-! ## Without signals -/

/-- Run some statements without a signal between them. -/
def undisturbed (process : SamplingProcess) (answers : RinitEnv) : Nat → SamplingProcess
  | 0 => process
  | count + 1 => (undisturbed process answers count).statement answers

/-- Five statements are RINIT, and the script is served when it succeeds. -/
theorem undisturbed_rinit (begins : process.next = .rinit)
    (mode : process.globals.config.mode = .sampling) {answers : RinitEnv}
    (clock : getWallTime answers.realtime ≠ 0) :
    (undisturbed process answers 5).globals = (phpRinit answers process.globals).1 ∧
      ((undisturbed process answers 5).next = .serving ↔
        (phpRinit answers process.globals).2 = .success) := by
  have sampling : (profInitErrors process.globals).config.mode = .sampling := mode
  simp only [undisturbed, SamplingProcess.statement, begins, clock, ↓reduceIte, phpRinit, sampling,
    profSamplingSetup]
  split <;> simp

/-- Two statements are all that teardown does to the globals; it goes on to free
the units when it succeeds. -/
theorem undisturbed_teardown (begins : process.next = .teardownDisable) (answers : RinitEnv) :
    (undisturbed process answers 2).globals =
        (profSamplingTeardown answers.setitimer process.globals).1 ∧
      ((undisturbed process answers 2).next = .teardownUnits ↔
        (profSamplingTeardown answers.setitimer process.globals).2 = .success) := by
  simp only [undisturbed, SamplingProcess.statement, begins, profSamplingTeardown]
  split <;> simp

/-- A report changes the units and the errors, if anything. -/
theorem report_changes {globals after : ProfGlobals} {env : RshutdownEnv} {outputs : List Output}
    (mode : globals.config.mode = .sampling)
    (reported : profReport engine env globals = some (after, outputs)) :
    after = { globals with samplingUnits := after.samplingUnits, errors := after.errors } := by
  simp only [profReport, mode] at reported
  split at reported
  · obtain ⟨⟨sorted, console⟩, printed, same⟩ := Option.map_eq_some_iff.mp reported
    cases same
    simp only [profSamplingPrintResultConsole] at printed
    split at printed
    · cases printed
      rfl
    · obtain ⟨hits, -, same⟩ := Option.map_eq_some_iff.mp printed
      cases same
      rfl
  · cases reported
    unfold profSamplingPrintResultCallgrind
    split <;> rfl
  · cases reported
    simp only [profSamplingPrintResultPprof]
    split
    · rfl
    · split
      · rfl
      · split <;> rfl

theorem report_performed (serving : process.next = .serving)
    (mode : process.globals.config.mode = .sampling) {env : RshutdownEnv} {after : ProfGlobals}
    {outputs : List Output}
    (reported : profReport engine env process.globals = some (after, outputs)) :
    process.perform engine (.report after.samplingUnits after.errors) =
      some { process with globals := after } := by
  rw [SamplingProcess.perform, if_pos serving, ← report_changes mode reported]

/-! ## Deliveries -/

/-- A delivery reaches the table only while it is initialised. -/
def Safe (engine : Engine) (process : SamplingProcess) (executeData : List ExecuteData) : Prop :=
  Touches engine process.globals executeData → process.samplingUnits = .initialised

instance (process : SamplingProcess) (executeData : List ExecuteData) :
    Decidable (Safe engine process executeData) :=
  inferInstanceAs (Decidable (_ → process.samplingUnits = .initialised))

/-- A delivery that finds user code between raising the flag and initialising the
table, when an earlier teardown has destroyed the last table. -/
structure HitsGap (process : SamplingProcess) (executeData : List ExecuteData) : Prop where
  position : process.next = .setupInit
  destroyed : process.samplingUnits = .destroyed
  sampled : ∃ func, SamplingProofs.sampledFunction executeData = some func

theorem safe_iff (invariant : Invariant process) (installed : process.handlerInstalled = true)
    (executeData : List ExecuteData) :
    Safe engine process executeData ↔ ¬ HitsGap process executeData := by
  unfold Safe
  rw [touches_iff]
  unfold Invariant at invariant
  constructor
  · rintro safe ⟨position, destroyed, sampled⟩
    simp only [position] at invariant
    have initialised := safe ⟨invariant.1, sampled⟩
    rw [destroyed] at initialised
    cases initialised
  · rintro clear ⟨enabled, sampled⟩
    cases position : process.next with
    | rinit | setupEnable =>
      simp only [position] at invariant
      exact invariant.1 enabled
    | setupInit =>
      simp only [position] at invariant
      cases table : process.samplingUnits with
      | initialised => rfl
      | uninitialised => exact absurd table (invariant.2 installed)
      | destroyed => exact absurd ⟨position, table, sampled⟩ clear
    | setupSignal | setupTimer | serving | teardownDisable =>
      simp only [position] at invariant
      exact invariant
    | teardownTimer | teardownUnits | teardownDestroy =>
      simp only [position] at invariant
      exact invariant.2

/-- In every run of a process, over any number of requests and wherever signals
are delivered, each delivery is safe exactly when none hits the gap. -/
theorem deliveries_safe_iff (engine : Engine) (config : ProfConfig) (actions : List Action) :
    (∀ visit ∈ trace (perform engine) (.fresh config) actions, ∀ executeData,
        visit.2 = .deliver executeData → Safe engine visit.1 executeData) ↔
      ∀ visit ∈ trace (perform engine) (.fresh config) actions, ∀ executeData,
        visit.2 = .deliver executeData → ¬ HitsGap visit.1 executeData := by
  refine forall₂_congr fun visit visited => forall₂_congr fun executeData delivered => ?_
  have invariant : Invariant visit.1 :=
    trace_invariant (fun _ _ _ performed => perform_invariant performed) (fresh_invariant config)
      visited
  obtain ⟨next, performed⟩ := trace_possible visited
  rw [delivered] at performed
  simp only [SamplingProcess.perform, Option.ite_none_right_eq_some] at performed
  exact safe_iff invariant performed.1 executeData

/-- What C defines of an action: nothing when the handler uses a table that is not
initialised. -/
def Defined (engine : Engine) (process : SamplingProcess) : Action → Prop
  | .deliver executeData => Safe engine process executeData
  | .statement _ | .report _ _ => True

instance (process : SamplingProcess) (action : Action) :
    Decidable (Defined engine process action) :=
  match action with
  | .deliver executeData => inferInstanceAs (Decidable (Safe engine process executeData))
  | .statement _ | .report _ _ => isTrue trivial

/-- A process that stops before the first action that is not defined. -/
def performDefined (engine : Engine) : SamplingProcess → Action → Option SamplingProcess :=
  guarded (Defined engine) (perform engine)

/-- A run is defined from end to end exactly when no delivery hits the gap. -/
theorem run_defined_iff (engine : Engine) (config : ProfConfig) {actions : List Action}
    {reached : SamplingProcess}
    (ran : run (perform engine) (.fresh config) actions = some reached) :
    run (performDefined engine) (.fresh config) actions = some reached ↔
      ∀ visit ∈ trace (perform engine) (.fresh config) actions, ∀ executeData,
        visit.2 = .deliver executeData → ¬ HitsGap visit.1 executeData := by
  rw [performDefined, run_guarded_iff, ← deliveries_safe_iff]
  constructor
  · rintro ⟨-, defined⟩ visit visited executeData delivered
    have safe := defined visit visited
    rwa [delivered] at safe
  · intro safe
    refine ⟨ran, fun visit visited => ?_⟩
    cases delivered : visit.2 with
    | deliver executeData => exact safe visit visited executeData delivered
    | statement | report => trivial

/-! ## A second request -/

/-- A clock that can be read and a timer that takes every time. -/
def accepting : RinitEnv := ⟨some ⟨1, 0⟩, fun _ => true⟩

/-- A whole request, and the next one up to raising the flag. -/
def secondSetup : List Action := List.replicate 12 (.statement accepting)

/-- A signal while the top-level code of a script runs. -/
def inScript : List ExecuteData := [⟨some (SamplingProofs.topLevel 1 "a.php")⟩]

theorem second_setup_touches_destroyed_table :
    ∃ visit ∈ trace (perform php) (.fresh (ConfigProofs.samplingConfig 1000))
        (secondSetup ++ [.deliver inScript]),
      visit.2 = .deliver inScript ∧ visit.1.next = .setupInit ∧
        Touches php visit.1.globals inScript ∧ visit.1.samplingUnits = .destroyed := by
  have reached : ∃ met, run (perform php) (.fresh (ConfigProofs.samplingConfig 1000))
      secondSetup = some met ∧ met.globals.samplingEnabled = true ∧
        met.handlerInstalled = true ∧ met.next = .setupInit ∧ met.samplingUnits = .destroyed :=
    ⟨_, rfl, rfl, rfl, rfl, rfl⟩
  obtain ⟨met, reached, enabled, installed, position, destroyed⟩ := reached
  have performed : met.perform php (.deliver inScript) = some
      { met with globals := profSigprofHandler php met.globals inScript } := if_pos installed
  refine ⟨_, mem_trace_of_run reached performed, rfl, position, ?_, destroyed⟩
  exact touches_iff.mpr ⟨enabled, _, rfl⟩

end PhpProf.SamplingProcessProofs
