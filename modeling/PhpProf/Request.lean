import PhpProf.Config
import PhpProf.Func
import PhpProf.Opcode
import PhpProf.Sampling

/-! `prof.c`: what the process does when it starts, and what one request does, from
RINIT through the events the engine delivers to RSHUTDOWN. -/
namespace PhpProf

/-- What the outside answers while a request starts. -/
structure RinitEnv where
  realtime : Option Timespec
  setitimer : Itimerval → Bool

/-- What the outside answers while a request ends. Of the text printed to a stream its
file holds what is `stored`, since the results of `fprintf` and `fclose` are ignored. -/
structure RshutdownEnv where
  headerRealtime : Option Timespec
  argv : List Bytes
  fopen : Bool
  stored : Bytes → Bytes
  pprofRealtime : Option Timespec
  pprofOutcome : Profiles.Profile → PprofOutcome
  setitimer : Itimerval → Bool

/-- Nothing outside fails while a request ends, and no total time is printed. -/
def RshutdownEnv.quiet : RshutdownEnv where
  headerRealtime := none
  argv := []
  fopen := true
  stored := id
  pprofRealtime := none
  pprofOutcome := fun _ => .written
  setitimer := fun _ => true

/-- `PHP_RINIT_FUNCTION(prof)`. -/
def phpRinit (env : RinitEnv) (globals : ProfGlobals) : ProfGlobals × ZendResult :=
  let globals := profInitErrors globals
  let globals := { globals with startTime := getWallTime env.realtime }
  if globals.startTime = 0 then (globals, .failure)
  else
    match globals.config.mode with
    | .sampling => profSamplingSetup env.setitimer globals
    | .func => profFuncSetup globals
    | .opcode => profOpcodeSetup globals
    | .none => (globals, .success)

/-- What the engine delivers to the extension while a script runs. -/
inductive Event where
  | sigprof (executeData : List ExecuteData)
  | observerBegin (func : ZendFunction) (clocks : UnitClocks)
  | observerEnd (func : ZendFunction) (clocks : UnitClocks)
  | opcode (event : OpcodeEvent)

/-- Deliver an event to its handler. A mode registers its own handlers only, so
an event of another mode never reaches one. -/
def deliver (engine : Engine) (globals : ProfGlobals) (event : Event) : ProfGlobals :=
  match globals.config.mode, event with
  | .sampling, .sigprof executeData => profSigprofHandler engine globals executeData
  -- the engine asks `prof_observer` which frames to observe
  | .func, .observerBegin func clocks =>
    if profObserver ⟨some func⟩ then profObserverBegin globals clocks else globals
  | .func, .observerEnd func clocks =>
    if profObserver ⟨some func⟩ then profObserverEnd engine globals func clocks else globals
  | .opcode, .opcode event => profOpcodeHandlerCountTimings globals event
  | _, _ => globals

def deliverAll (engine : Engine) (globals : ProfGlobals) (events : List Event) : ProfGlobals :=
  events.foldl (deliver engine) globals

/-- What a request prints or writes when it ends. -/
inductive Output where
  | line (text : String)
  | header (totalNanoseconds : UInt64)
  | samplingConsole (console : SamplingConsole)
  | callgrindFile (text : Bytes)
  | pprofFile (profile : Profiles.Profile)
  | funcTable (rows : List FuncRow)
  | opcodeTable (rows : List OpcodeRow)

/-- `prof_print_common_header`; nothing is printed without a clock. -/
def profPrintCommonHeader (realtime : Option Timespec) (globals : ProfGlobals) : List Output :=
  let endTime := getWallTime realtime
  if endTime = 0 then [] else [.header (endTime - globals.startTime)]

/-- The report of the request's mode; no result after a fatal error. -/
def profReport (engine : Engine) (env : RshutdownEnv) (globals : ProfGlobals) :
    Option (ProfGlobals × List Output) :=
  match globals.config.mode with
  | .sampling =>
    match globals.config.outputMode with
    | .console =>
      (profSamplingPrintResultConsole engine globals).map fun (globals, console) =>
        (globals, [.samplingConsole console])
    | .callgrind =>
      let (globals, file) := profSamplingPrintResultCallgrind env.argv env.fopen globals
      some (globals, file.toList.map fun text => .callgrindFile (env.stored text))
    | .pprof =>
      let (globals, file) :=
        profSamplingPrintResultPprof env.pprofRealtime env.fopen env.pprofOutcome globals
      some (globals, file.toList.map .pprofFile)
  | .func =>
    (profFuncPrintResult engine globals).map fun (globals, rows) => (globals, [.funcTable rows])
  | .opcode => some (globals, [.opcodeTable (profOpcodePrintResult globals)])
  | .none => some (globals, [])

def profTeardown (setitimer : Itimerval → Bool) (globals : ProfGlobals) :
    ProfGlobals × ZendResult :=
  match globals.config.mode with
  | .sampling => profSamplingTeardown setitimer globals
  | .func => profFuncTeardown globals
  | .opcode => profOpcodeTeardown globals
  | .none => (globals, .success)

/-- `PHP_RSHUTDOWN_FUNCTION(prof)`; no result after a fatal error. -/
def phpRshutdown (engine : Engine) (env : RshutdownEnv) (globals : ProfGlobals) :
    Option (ProfGlobals × List Output × ZendResult) :=
  if profHasErrors globals then
    let printed := (profPrintErrors globals).map Output.line
    let (globals, result) := profTeardown env.setitimer (profShutdownErrors globals)
    some (globals, printed, result)
  else
    let header :=
      if globals.config.mode ≠ .none ∧ globals.config.outputMode = .console then
        profPrintCommonHeader env.headerRealtime globals
      else []
    (profReport engine env globals).map fun (globals, report) =>
      let printed := header ++ report ++ (profPrintErrors globals).map Output.line
      let (globals, result) := profTeardown env.setitimer (profShutdownErrors globals)
      (globals, printed, result)

/-- The header is one number, and stands only before a report on the console. -/
theorem printed_header (realtime : Option Timespec) (globals : ProfGlobals) :
    ∃ total : Option UInt64,
      (total ≠ none → globals.config.mode ≠ .none ∧ globals.config.outputMode = .console) ∧
      (if globals.config.mode ≠ .none ∧ globals.config.outputMode = .console then
        profPrintCommonHeader realtime globals else []) = total.toList.map Output.header := by
  split
  · next headed =>
    simp only [profPrintCommonHeader]
    split
    · exact ⟨none, by simp, rfl⟩
    · exact ⟨some _, fun _ => headed, rfl⟩
  · exact ⟨none, by simp, rfl⟩

/-- Only a request without recorded errors reaches its report, and what it prints
besides lines and the header is part of it. -/
theorem phpRshutdown_reports {engine : Engine} {env : RshutdownEnv} {globals after : ProfGlobals}
    {outputs : List Output} {result : ZendResult}
    (ended : phpRshutdown engine env globals = some (after, outputs, result)) {output : Output}
    (printed : output ∈ outputs) (noLine : ∀ text, output ≠ .line text)
    (noHeader : ∀ total, output ≠ .header total) :
    globals.errors = [] ∧ ∃ reported report,
      profReport engine env globals = some (reported, report) ∧ output ∈ report := by
  have notPrinted : ∀ texts : List String, output ∉ texts.map Output.line := by
    intro texts member
    obtain ⟨text, -, same⟩ := List.mem_map.mp member
    exact noLine text same.symm
  unfold phpRshutdown at ended
  cases recorded : profHasErrors globals with
  | true =>
    simp only [recorded, ↓reduceIte, Option.some.injEq, Prod.mk.injEq] at ended
    obtain ⟨-, rfl, -⟩ := ended
    exact absurd printed (notPrinted _)
  | false =>
    simp only [recorded, Bool.false_eq_true, ↓reduceIte, Option.map_eq_some_iff,
      Prod.mk.injEq] at ended
    obtain ⟨⟨reported, report⟩, found, -, rfl, -⟩ := ended
    refine ⟨by simpa [profHasErrors] using recorded, reported, report, found, ?_⟩
    obtain ⟨total, -, header⟩ := printed_header env.headerRealtime globals
    simp only [header, List.mem_append, notPrinted, or_false] at printed
    apply printed.resolve_left
    intro headed
    obtain ⟨number, -, same⟩ := List.mem_map.mp headed
    exact noHeader number same.symm

/-- A request without errors prints its report, behind a header at most, and then what
went wrong in it. -/
theorem rshutdown_silent {engine : Engine} {env : RshutdownEnv} {globals after : ProfGlobals}
    {outputs : List Output} {result : ZendResult} (silent : globals.errors = [])
    (ended : phpRshutdown engine env globals = some (after, outputs, result)) :
    ∃ reported report, ∃ total : Option UInt64,
      profReport engine env globals = some (reported, report) ∧
      (total ≠ none → globals.config.mode ≠ .none ∧ globals.config.outputMode = .console) ∧
      outputs = total.toList.map Output.header ++ report ++
        (profPrintErrors reported).map Output.line := by
  have none : profHasErrors globals = false := by simp [profHasErrors, silent]
  simp only [phpRshutdown, none, Bool.false_eq_true, ↓reduceIte, Option.map_eq_some_iff,
    Prod.mk.injEq] at ended
  obtain ⟨⟨reported, report⟩, found, -, rfl, -⟩ := ended
  obtain ⟨total, console, header⟩ := printed_header env.headerRealtime globals
  exact ⟨reported, report, total, found, console, by rw [header]⟩

theorem profPrintErrors_nil {globals : ProfGlobals} (silent : globals.errors = []) :
    profPrintErrors globals = [] := by
  simp [profPrintErrors, profHasErrors, silent]

/-- A request with errors prints them and nothing else. -/
theorem rshutdown_recorded {engine : Engine} {env : RshutdownEnv} {globals after : ProfGlobals}
    {outputs : List Output} {result : ZendResult} (recorded : globals.errors ≠ [])
    (ended : phpRshutdown engine env globals = some (after, outputs, result)) :
    outputs = (profPrintErrors globals).map Output.line := by
  have some : profHasErrors globals = true := by simpa [profHasErrors] using recorded
  simp only [phpRshutdown, some, ↓reduceIte, Option.some.injEq, Prod.mk.injEq] at ended
  exact ended.2.1.symm

/-- One request as the outside sees it. -/
structure Request where
  rinit : RinitEnv
  events : List Event
  rshutdown : RshutdownEnv

/-- The globals a completed request leaves; no result unless RINIT and
RSHUTDOWN both return `SUCCESS`. -/
def runRequest (engine : Engine) (globals : ProfGlobals) (request : Request) :
    Option ProfGlobals :=
  match phpRinit request.rinit globals with
  | (_, .failure) => none
  | (globals, .success) =>
    match phpRshutdown engine request.rshutdown (deliverAll engine globals request.events) with
    | some (globals, _, .success) => some globals
    | _ => none

/-- The globals after requests that all complete, one after another. -/
def runRequests (engine : Engine) (globals : ProfGlobals) (requests : List Request) :
    Option ProfGlobals :=
  requests.foldlM (runRequest engine) globals

/-- What requests that all complete print, one after another. -/
def printRequests (engine : Engine) (globals : ProfGlobals) :
    List Request → Option (List (List Output))
  | [] => some []
  | request :: rest =>
    match phpRinit request.rinit globals with
    | (_, .failure) => none
    | (globals, .success) =>
      match phpRshutdown engine request.rshutdown (deliverAll engine globals request.events) with
      | some (globals, outputs, .success) =>
        (printRequests engine globals rest).map fun printed => outputs :: printed
      | _ => none

end PhpProf
