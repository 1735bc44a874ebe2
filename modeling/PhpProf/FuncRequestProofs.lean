import PhpProf.FuncProofs
import PhpProf.ReportProofs
import PhpProf.RequestProofs

/-! What a whole request in func mode prints, for any order of its events. The
table is printed exactly when every observed reading succeeds and every observed
end has a begin to end; it ranks the accounts of the completed calls. -/
namespace PhpProf.FuncRequestProofs
open CallNesting FuncProofs OrderedTable Ranking

variable {engine : Engine}

/-! ## The observed calls -/

/-- The begins and ends that reach the handlers, among all events. -/
def observed (events : List Event) : List (CallEvent Activation) :=
  events.filterMap fun event =>
    match event with
    | .observerBegin func clocks =>
      if profObserver ⟨some func⟩ then some (.enter ⟨func, clocks⟩) else none
    | .observerEnd func clocks =>
      if profObserver ⟨some func⟩ then some (.leave ⟨func, clocks⟩) else none
    | _ => none

/-- Every end has a begin to end. Which function the begin was in does not matter
to the handlers. -/
def Paired (active : List Activation) (events : List (CallEvent Activation))
    (calls : List (Activation × Activation)) : Prop :=
  Nested (fun _ _ => True) active events calls

/-- In func mode only the observed events do anything. -/
theorem deliverAll_func {globals : ProfGlobals} (mode : globals.config.mode = .func)
    (events : List Event) :
    deliverAll engine globals events = observeAll engine globals (observed events) := by
  induction events generalizing globals with
  | nil => rfl
  | cons event rest ih =>
    have kept : (deliver engine globals event).config.mode = .func := by
      rw [RequestProofs.deliver_config, mode]
    have step : deliverAll engine globals (event :: rest) =
        deliverAll engine (deliver engine globals event) rest := rfl
    rw [step, ih kept]
    cases event with
    | observerBegin func clocks =>
      simp only [deliver, mode, observed, List.filterMap_cons]
      split <;> rfl
    | observerEnd func clocks =>
      simp only [deliver, mode, observed, List.filterMap_cons]
      split <;> rfl
    | sigprof | opcode => simp only [deliver, mode, observed, List.filterMap_cons]

/-! ## When nothing is recorded -/

/-- An end without an open begin is recorded too. -/
theorem end_unstarted (globals : ProfGlobals) (stop : Activation)
    (empty : globals.funcStartUnits = []) :
    (observe engine globals (.leave stop)).errors ≠ [] := by
  simp only [observe, profObserverEnd, empty, getFunctionName_eq]
  split
  · simp [profAddWarning, profAddErrorMessage]
  · simp [profAddWarning, profAddErrorMessage]

/-- Nothing is recorded exactly when every reading succeeds and the ends are
paired with begins. -/
theorem silent_iff {active : List Activation} {events : List (CallEvent Activation)}
    {globals : ProfGlobals} (silent : globals.errors = [])
    (stack : globals.funcStartUnits = active.map reading) :
    (observeAll engine globals events).errors = [] ↔
      AllReadable events ∧ ∃ calls, Paired active events calls := by
  constructor
  · intro quiet
    have readable := observeAll_readable quiet
    refine ⟨readable, ?_⟩
    clear silent
    induction events generalizing globals active with
    | nil => exact ⟨[], .done⟩
    | cons event rest ih =>
      have later : AllReadable rest := fun other member =>
        readable other (List.mem_cons_of_mem _ member)
      cases event with
      | enter start =>
        have first : Readable start := readable (.enter start) (by simp)
        rw [observeAll_cons, observe, begin_reads globals first] at quiet
        obtain ⟨calls, below⟩ := @ih (start :: active) _ (by simp [stack]) quiet later
        exact ⟨calls, .enter below⟩
      | leave stop =>
        have first : Readable stop := readable (.leave stop) (by simp)
        cases active with
        | nil =>
          rw [observeAll_cons] at quiet
          have silent := (observe_adds_errors engine).silent quiet
          exact absurd silent (end_unstarted globals stop stack)
        | cons start active =>
          rw [observeAll_cons, observe, end_reads first stack] at quiet
          obtain ⟨calls, after⟩ := @ih active _ rfl quiet later
          exact ⟨(start, stop) :: calls, .leave trivial after⟩
  · rintro ⟨readable, calls, paired⟩
    rw [(observeAll_nested paired globals stack readable).2, silent]

/-! ## Accounts -/

/-- The accounts of all functions with a completed call, by first completion. -/
def accounts (engine : Engine) (difference : UInt64 → UInt64 → ℚ)
    (calls : List (Activation × Activation)) : List (Bytes × ProfFuncUnit) :=
  (calls.map fun call => functionName engine call.2.func).eraseDups.map fun name =>
    (name, accountOf difference (callsNamed engine name calls))

theorem charged_entries (engine : Engine) (calls : List (Activation × Activation)) :
    (charged engine .empty calls).entries = accounts engine seconds calls := by
  have listed : (charged engine .empty calls).keys =
      (calls.map fun call => functionName engine call.2.func).eraseDups := keys_collect _ _ _ calls
  have each : ∀ name ∈ (calls.map fun call => functionName engine call.2.func).eraseDups,
      ((charged engine .empty calls).find? name).map (name, ·) =
        some (name, accountOf seconds (callsNamed engine name calls)) := by
    intro name member
    obtain ⟨call, completed, named⟩ := List.mem_map.mp (List.mem_eraseDups.mp member)
    have nonempty : callsNamed engine name calls ≠ [] :=
      List.ne_nil_of_mem (List.mem_filter.mpr ⟨completed, decide_eq_true named⟩)
    rw [find?_charged, unitOf, if_neg nonempty, Option.map_some]
  rw [entries_eq, listed, List.filterMap_congr each, List.filterMap_eq_map']
  rfl

/-- While the clocks advance the unsigned differences are those of the clocks. -/
theorem accounts_exact {events : List (CallEvent Activation)}
    {calls : List (Activation × Activation)} (paired : Paired [] events calls)
    (advance : ClocksAdvance events) :
    accounts engine seconds calls = accounts engine elapsed calls := by
  have ordered := nested_ordered paired advance
  apply List.map_congr_left
  intro name _
  have own : ∀ call ∈ callsNamed engine name calls, NeverBack call.1 call.2 := fun call member =>
    ordered call (List.mem_of_mem_filter member)
  rw [accountOf_exact own]

/-! ## What is printed -/

/-- The observer records warnings only. -/
theorem observe_only {globals : ProfGlobals} (only : OnlyWarnings globals)
    (event : CallEvent Activation) : OnlyWarnings (observe engine globals event) := by
  cases event with
  | enter start =>
    simp only [observe, profObserverBegin]
    split
    · exact addWarning_only only _
    · exact only
  | leave stop =>
    simp only [observe, profObserverEnd]
    split
    · exact addWarning_only only _
    · split
      · exact addWarning_only only _
      · split
        · exact addWarning_only only _
        · exact only

theorem observeAll_only {globals : ProfGlobals} (only : OnlyWarnings globals)
    (events : List (CallEvent Activation)) : OnlyWarnings (observeAll engine globals events) := by
  induction events generalizing globals with
  | nil => exact only
  | cons event rest ih => exact ih (observe_only only event)

/-- RINIT leaves an empty stack, an empty table and no errors. -/
theorem rinit_func {rinit : RinitEnv} {globals setup : ProfGlobals}
    (mode : globals.config.mode = .func) (started : phpRinit rinit globals = (setup, .success)) :
    setup.config = globals.config ∧ setup.errors = [] ∧ setup.funcStartUnits = [] ∧
      setup.funcUnits = .empty := by
  simp only [phpRinit, profInitErrors, mode, profFuncSetup] at started
  split at started
  · cases started
  · rw [Prod.mk.injEq] at started
    rw [← started.1]
    exact ⟨rfl, rfl, rfl, rfl⟩

/-- A printed func table is that of the units. -/
theorem func_report {env : RshutdownEnv} {globals after : ProfGlobals} {report : List Output}
    (sorts : ReportProofs.SortsByComparator engine) (mode : globals.config.mode = .func)
    (reported : profReport engine env globals = some (after, report)) :
    after.errors = globals.errors ∧ ∃ shown,
      report = [.funcTable (shown.map ReportProofs.funcRow)] ∧
      ShowsTop ReportProofs.funcScore globals.config.funcThreshold
        globals.config.funcLimit.toNat globals.funcUnits.entries shown := by
  simp only [profReport, mode, Option.map_eq_some_iff, Prod.mk.injEq] at reported
  obtain ⟨⟨sorted, rows⟩, printed, rfl, rfl⟩ := reported
  have creatable : ReportProofs.Creatable globals.config.funcLimit := by
    obtain ⟨res, sliced, -⟩ := Option.map_eq_some_iff.mp printed
    exact ReportProofs.creatable_of_htSlice sliced
  obtain ⟨after, rows, shown, same, top, rfl⟩ := ReportProofs.func_report_shows_top sorts creatable
  rw [printed, Option.some.injEq, Prod.mk.injEq] at same
  obtain ⟨rfl, rfl⟩ := same
  refine ⟨?_, shown, rfl, top⟩
  obtain ⟨res, sliced, same⟩ := Option.map_eq_some_iff.mp printed
  rw [Prod.mk.injEq] at same
  rw [← same.1]

/-- A request in func mode prints its table exactly when every observed reading
succeeds and every observed end has a begin to end, in whatever order the events
come. The rows are the highest accounts above the threshold, as many as the limit
allows. Otherwise it prints one general line. -/
theorem func_request_prints (engine : Engine) (sorts : ReportProofs.SortsByComparator engine)
    {rinit : RinitEnv} {env : RshutdownEnv} {globals setup after : ProfGlobals}
    {events : List Event} {outputs : List Output} {result : ZendResult}
    (mode : globals.config.mode = .func) (started : phpRinit rinit globals = (setup, .success))
    (ended : phpRshutdown engine env (deliverAll engine setup events) =
      some (after, outputs, result)) :
    (∃ calls shown, ∃ total : Option UInt64,
      AllReadable (observed events) ∧ Paired [] (observed events) calls ∧
      (total ≠ none → globals.config.outputMode = .console) ∧
      outputs =
        total.toList.map Output.header ++ [.funcTable (shown.map ReportProofs.funcRow)] ∧
      ShowsTop ReportProofs.funcScore globals.config.funcThreshold
        globals.config.funcLimit.toNat (accounts engine seconds calls) shown ∧
      (ClocksAdvance (observed events) →
        accounts engine seconds calls = accounts engine elapsed calls)) ∨
    ¬ (AllReadable (observed events) ∧ ∃ calls, Paired [] (observed events) calls) ∧
      outputs = [.line "There was error during profiling"] := by
  obtain ⟨config, silent, stack, blank⟩ := rinit_func mode started
  rw [← config] at mode ⊢
  rw [deliverAll_func mode] at ended
  have exact : (observeAll engine setup (observed events)).errors = [] ↔ _ :=
    @silent_iff engine [] _ _ silent stack
  by_cases quiet : (observeAll engine setup (observed events)).errors = []
  · left
    obtain ⟨readable, calls, paired⟩ := exact.mp quiet
    have configured : (observeAll engine setup (observed events)).config = setup.config := by
      rw [← deliverAll_func mode, RequestProofs.deliverAll_config]
    have units : (observeAll engine setup (observed events)).funcUnits =
        charged engine .empty calls := by
      rw [(observeAll_nested paired setup stack readable).1, blank]
    obtain ⟨reported, report, total, found, console, rfl⟩ := rshutdown_silent quiet ended
    obtain ⟨errors, shown, rfl, top⟩ :=
      func_report sorts (by rw [configured, mode]) found
    rw [configured] at console
    rw [configured, units, charged_entries] at top
    rw [profPrintErrors_nil (errors.trans quiet), List.map_nil, List.append_nil]
    exact ⟨calls, shown, total, readable, paired, fun headed => (console headed).2, rfl, top,
      accounts_exact paired⟩
  · right
    have only : OnlyWarnings setup := by simp [OnlyWarnings, silent]
    refine ⟨mt exact.mpr quiet, ?_⟩
    rw [rshutdown_recorded quiet ended, printed_warnings (observeAll_only only _) quiet]
    rfl

/-- A recursion, a call without a name, which is not observed, and a signal. -/
def recursionEvents : List Event :=
  [.observerBegin (plainFunction "f") (clocksAt 10 1 100),
    .observerBegin { plainFunction "f" with functionName := none } ⟨none, none, 0⟩,
    .observerBegin (plainFunction "f") (clocksAt 20 2 300), .sigprof [],
    .observerEnd (plainFunction "f") (clocksAt 50 3 900),
    .observerEnd (plainFunction "f") (clocksAt 60 4 50)]

theorem recursion_request_prints :
    ∃ after outputs result shown,
      phpRshutdown php .quiet (deliverAll php
        (phpRinit ⟨some ⟨1, 0⟩, fun _ => true⟩ funcGlobals).1 recursionEvents) =
          some (after, outputs, result) ∧
      .funcTable (shown.map ReportProofs.funcRow) ∈ outputs ∧
      ShowsTop ReportProofs.funcScore 0 50
        [(Text.ascii "f", ⟨80 / 1000000, 4 / 1000000, 550, 2⟩)] shown := by
  have started : phpRinit ⟨some ⟨1, 0⟩, fun _ => true⟩ funcGlobals =
      ((phpRinit ⟨some ⟨1, 0⟩, fun _ => true⟩ funcGlobals).1, .success) := rfl
  have completes : (phpRshutdown php .quiet (deliverAll php
      (phpRinit ⟨some ⟨1, 0⟩, fun _ => true⟩ funcGlobals).1 recursionEvents)).isSome = true := by
    decide +kernel
  obtain ⟨⟨after, outputs, result⟩, ended⟩ := Option.isSome_iff_exists.mp completes
  have nested : Paired [] (observed recursionEvents)
      [(calledAt "f" (clocksAt 20 2 300), calledAt "f" (clocksAt 50 3 900)),
        (calledAt "f" (clocksAt 10 1 100), calledAt "f" (clocksAt 60 4 50))] :=
    .enter (.enter (.leave trivial (.leave trivial .done)))
  have prints := func_request_prints php ReportProofs.php_sorts rfl started ended
  rcases prints with ⟨calls, shown, total, -, paired, -, rfl, top, -⟩ | ⟨silent, -⟩
  · obtain rfl := nested_unique nested paired
    have accounted : accounts php seconds
        [(calledAt "f" (clocksAt 20 2 300), calledAt "f" (clocksAt 50 3 900)),
          (calledAt "f" (clocksAt 10 1 100), calledAt "f" (clocksAt 60 4 50))] =
        [(Text.ascii "f", ⟨80 / 1000000, 4 / 1000000, 550, 2⟩)] := by
      decide +kernel
    rw [accounted] at top
    exact ⟨after, _, result, shown, ended, by simp, top⟩
  · exact absurd ⟨by decide, _, nested⟩ silent

end PhpProf.FuncRequestProofs
