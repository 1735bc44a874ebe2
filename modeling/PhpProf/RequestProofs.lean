import PhpProf.FuncProofs

/-! What one request leaves to the next. Setup renews every table and stack a
handler reads, but not the last position of the opcode handler, so opcode mode
alone remembers an earlier request. -/
namespace PhpProf.RequestProofs
open OrderedTable

variable {engine : Engine}

/-- The table a request measures into, by mode. -/
inductive Measurements where
  | sampling (samplingUnits : OrderedTable Bytes ProfSamplingUnit)
  | func (funcUnits : OrderedTable Bytes ProfFuncUnit)
  | opcode (opcodeTimings : OpcodeTimings)
  | none

def measurements (globals : ProfGlobals) : Measurements :=
  match globals.config.mode with
  | .sampling => .sampling globals.samplingUnits
  | .func => .func globals.funcUnits
  | .opcode => .opcode globals.opcodeTimings
  | .none => .none

/-- The globals just before the report of a request. -/
def beforeReport (engine : Engine) (globals : ProfGlobals) (env : RinitEnv)
    (events : List Event) : ProfGlobals :=
  deliverAll engine (phpRinit env globals).1 events

/-! ## What a request keeps -/

/-- Neither the configuration nor the opcode handler's last position changes. -/
structure Keeps (before after : ProfGlobals) : Prop where
  config : after.config = before.config
  lastFile : after.opcodeLastFile = before.opcodeLastFile
  lastLineno : after.opcodeLastLineno = before.opcodeLastLineno
  lastTime : after.opcodeLastTime = before.opcodeLastTime

theorem Keeps.refl (globals : ProfGlobals) : Keeps globals globals := ⟨rfl, rfl, rfl, rfl⟩

theorem Keeps.trans {first second third : ProfGlobals} (early : Keeps first second)
    (late : Keeps second third) : Keeps first third :=
  ⟨late.config.trans early.config, late.lastFile.trans early.lastFile,
    late.lastLineno.trans early.lastLineno, late.lastTime.trans early.lastTime⟩

theorem phpRinit_keeps (env : RinitEnv) (globals : ProfGlobals) :
    Keeps globals (phpRinit env globals).1 := by
  simp only [phpRinit, profInitErrors]
  split
  · exact ⟨rfl, rfl, rfl, rfl⟩
  · split <;> exact ⟨rfl, rfl, rfl, rfl⟩

theorem console_keeps {globals after : ProfGlobals} {console : SamplingConsole}
    (printed : profSamplingPrintResultConsole engine globals = some (after, console)) :
    Keeps globals after := by
  simp only [profSamplingPrintResultConsole] at printed
  split at printed
  · cases printed
    exact Keeps.refl globals
  · simp only [Option.map_eq_some_iff, Prod.mk.injEq] at printed
    obtain ⟨hits, -, rfl, -⟩ := printed
    exact ⟨rfl, rfl, rfl, rfl⟩

theorem callgrind_keeps (argv : List Bytes) (fopen : Bool) (globals : ProfGlobals) :
    Keeps globals (profSamplingPrintResultCallgrind argv fopen globals).1 := by
  unfold profSamplingPrintResultCallgrind
  split <;> exact ⟨rfl, rfl, rfl, rfl⟩

theorem pprof_keeps (realtime : Option Timespec) (fopen : Bool)
    (outcome : Profiles.Profile → PprofOutcome) (globals : ProfGlobals) :
    Keeps globals (profSamplingPrintResultPprof realtime fopen outcome globals).1 := by
  simp only [profSamplingPrintResultPprof]
  split
  · exact ⟨rfl, rfl, rfl, rfl⟩
  · split
    · exact ⟨rfl, rfl, rfl, rfl⟩
    · split <;> exact ⟨rfl, rfl, rfl, rfl⟩

theorem func_keeps {globals after : ProfGlobals} {rows : List FuncRow}
    (printed : profFuncPrintResult engine globals = some (after, rows)) : Keeps globals after := by
  simp only [profFuncPrintResult, Option.map_eq_some_iff, Prod.mk.injEq] at printed
  obtain ⟨funcUnits, -, rfl, -⟩ := printed
  exact ⟨rfl, rfl, rfl, rfl⟩

theorem profReport_keeps {env : RshutdownEnv} {globals after : ProfGlobals}
    {report : List Output} (reported : profReport engine env globals = some (after, report)) :
    Keeps globals after := by
  unfold profReport at reported
  split at reported
  · split at reported
    · obtain ⟨⟨sorted, console⟩, printed, same⟩ := Option.map_eq_some_iff.mp reported
      cases same
      exact console_keeps printed
    · cases reported
      exact callgrind_keeps env.argv env.fopen globals
    · cases reported
      exact pprof_keeps env.pprofRealtime env.fopen env.pprofOutcome globals
  · obtain ⟨⟨sorted, rows⟩, printed, same⟩ := Option.map_eq_some_iff.mp reported
    cases same
    exact func_keeps printed
  · cases reported
    exact Keeps.refl globals
  · cases reported
    exact Keeps.refl globals

theorem profTeardown_keeps (setitimer : Itimerval → Bool) (globals : ProfGlobals) :
    Keeps globals (profTeardown setitimer globals).1 := by
  unfold profTeardown
  split <;> exact ⟨rfl, rfl, rfl, rfl⟩

theorem phpRshutdown_keeps {env : RshutdownEnv} {globals after : ProfGlobals}
    {outputs : List Output} {result : ZendResult}
    (ended : phpRshutdown engine env globals = some (after, outputs, result)) :
    Keeps globals after := by
  unfold phpRshutdown at ended
  split at ended
  · cases ended
    exact profTeardown_keeps env.setitimer globals
  · obtain ⟨⟨reported, report⟩, printed, same⟩ := Option.map_eq_some_iff.mp ended
    cases same
    exact (profReport_keeps printed).trans (profTeardown_keeps env.setitimer reported)

/-! ## Events -/

theorem sigprof_keeps (globals : ProfGlobals) (executeData : List ExecuteData) :
    Keeps globals (profSigprofHandler engine globals executeData) := by
  unfold profSigprofHandler
  split
  · exact Keeps.refl globals
  · split
    · exact Keeps.refl globals
    · split <;> exact ⟨rfl, rfl, rfl, rfl⟩

theorem observerBegin_keeps (globals : ProfGlobals) (clocks : UnitClocks) :
    Keeps globals (profObserverBegin globals clocks) := by
  unfold profObserverBegin
  split <;> exact ⟨rfl, rfl, rfl, rfl⟩

theorem observerEnd_keeps (globals : ProfGlobals) (func : ZendFunction) (clocks : UnitClocks) :
    Keeps globals (profObserverEnd engine globals func clocks) := by
  unfold profObserverEnd
  split
  · exact ⟨rfl, rfl, rfl, rfl⟩
  · split
    · exact ⟨rfl, rfl, rfl, rfl⟩
    · split <;> exact ⟨rfl, rfl, rfl, rfl⟩

theorem deliver_keeps (globals : ProfGlobals) {event : Event}
    (other : ∀ opcode, event ≠ .opcode opcode) :
    Keeps globals (deliver engine globals event) := by
  unfold deliver
  split
  · exact sigprof_keeps ..
  · split
    · exact observerBegin_keeps ..
    · exact Keeps.refl globals
  · split
    · exact observerEnd_keeps ..
    · exact Keeps.refl globals
  · exact absurd rfl (other _)
  · exact Keeps.refl globals

theorem opcode_config (globals : ProfGlobals) (event : OpcodeEvent) :
    (profOpcodeHandlerCountTimings globals event).config = globals.config := by
  simp only [profOpcodeHandlerCountTimings]
  split
  · split <;> rfl
  · split
    · rfl
    · split <;> rfl

theorem deliver_config (globals : ProfGlobals) (event : Event) :
    (deliver engine globals event).config = globals.config := by
  cases event with
  | opcode event =>
    cases mode : globals.config.mode with
    | opcode => simp only [deliver, mode, opcode_config]
    | sampling | func | none => simp only [deliver, mode]
  | sigprof executeData => exact (deliver_keeps globals (by simp)).config
  | observerBegin func clocks => exact (deliver_keeps globals (by simp)).config
  | observerEnd func clocks => exact (deliver_keeps globals (by simp)).config

/-! ## Two runs of the same events -/

/-- What the handlers of the mode read and write. -/
inductive View where
  | sampling (samplingEnabled : Bool) (samplingUnits : OrderedTable Bytes ProfSamplingUnit)
  | func (funcStartUnits : List ProfUnit) (funcUnits : OrderedTable Bytes ProfFuncUnit)
  | opcode (lastFile : Option Nat) (lastLineno : UInt32) (lastTime : UInt64)
      (opcodeTimings : OpcodeTimings)
  | none

def view (globals : ProfGlobals) : View :=
  match globals.config.mode with
  | .sampling => .sampling globals.samplingEnabled globals.samplingUnits
  | .func => .func globals.funcStartUnits globals.funcUnits
  | .opcode => .opcode globals.opcodeLastFile globals.opcodeLastLineno globals.opcodeLastTime
      globals.opcodeTimings
  | .none => .none

structure Agrees (left right : ProfGlobals) : Prop where
  config : left.config = right.config
  view : view left = view right

theorem deliver_agrees {left right : ProfGlobals} (agree : Agrees left right) (event : Event) :
    Agrees (deliver engine left event) (deliver engine right event) := by
  obtain ⟨same, seen⟩ := agree
  refine ⟨by rw [deliver_config, deliver_config, same], ?_⟩
  obtain ⟨config⟩ := left
  obtain ⟨other⟩ := right
  obtain rfl : config = other := same
  obtain ⟨mode⟩ := config
  cases mode with
  | sampling =>
    simp only [view, View.sampling.injEq] at seen
    obtain ⟨rfl, rfl⟩ := seen
    cases event with
    | sigprof executeData =>
      simp only [deliver, profSigprofHandler]
      split
      · rfl
      · split
        · rfl
        · split <;> rfl
    | _ => rfl
  | func =>
    simp only [view, View.func.injEq] at seen
    obtain ⟨rfl, rfl⟩ := seen
    cases event with
    | observerBegin func clocks =>
      simp only [deliver, profObserverBegin]
      split
      · split <;> rfl
      · rfl
    | observerEnd func clocks =>
      simp only [deliver, profObserverEnd]
      split
      · split
        · rfl
        · split
          · rfl
          · split <;> rfl
      · rfl
    | _ => rfl
  | opcode =>
    simp only [view, View.opcode.injEq] at seen
    obtain ⟨rfl, rfl, rfl, rfl⟩ := seen
    cases event with
    | opcode event =>
      simp only [deliver, profOpcodeHandlerCountTimings]
      split
      · split <;> rfl
      · split
        · rfl
        · split <;> rfl
    | _ => rfl
  | none =>
    cases event <;> rfl

theorem deliverAll_agrees {left right : ProfGlobals} (agree : Agrees left right)
    (events : List Event) :
    Agrees (deliverAll engine left events) (deliverAll engine right events) := by
  induction events generalizing left right with
  | nil => exact agree
  | cons event rest ih => exact ih (deliver_agrees agree event)

/-- RINIT renews everything its mode measures with, apart from the opcode
handler's last position. -/
theorem phpRinit_view {env : RinitEnv} {globals : ProfGlobals}
    (begun : (phpRinit env globals).2 = .success) :
    view (phpRinit env globals).1 =
      match globals.config.mode with
      | .sampling => .sampling true .empty
      | .func => .func [] .empty
      | .opcode => .opcode globals.opcodeLastFile globals.opcodeLastLineno globals.opcodeLastTime
          .empty
      | .none => .none := by
  obtain ⟨config⟩ := globals
  obtain ⟨mode⟩ := config
  simp only [phpRinit, profInitErrors] at begun ⊢
  split at begun
  · cases begun
  · next readable =>
    rw [if_neg readable]
    cases mode <;> rfl

theorem phpRinit_agrees {env other : RinitEnv} {left right : ProfGlobals}
    (same : left.config = right.config) (position : right.config.mode = .opcode → Keeps right left)
    (begun : (phpRinit env left).2 = .success) (otherBegun : (phpRinit other right).2 = .success) :
    Agrees (phpRinit env left).1 (phpRinit other right).1 := by
  constructor
  · rw [(phpRinit_keeps env left).config, (phpRinit_keeps other right).config, same]
  · rw [phpRinit_view begun, phpRinit_view otherBegun, same]
    cases mode : right.config.mode with
    | opcode =>
      have kept := position mode
      simp only [kept.lastFile, kept.lastLineno, kept.lastTime]
    | sampling | func | none => rfl

/-! ## The last position -/

/-- A line is remembered only together with a file. -/
def LineNeedsFile (globals : ProfGlobals) : Prop :=
  globals.opcodeLastFile = none → globals.opcodeLastLineno = 0

theorem opcode_begins {globals : ProfGlobals} (paired : LineNeedsFile globals)
    (event : OpcodeEvent) :
    (profOpcodeHandlerCountTimings globals event).opcodeLastFile ≠ none := by
  simp only [profOpcodeHandlerCountTimings]
  split
  · split <;> exact Option.some_ne_none _
  · next begun =>
    have file : globals.opcodeLastFile ≠ none := fun missing => begun ⟨missing, paired missing⟩
    split
    · exact file
    · split
      · exact file
      · exact Option.some_ne_none _

def RunsOpcode (events : List Event) : Prop := ∃ opcode, .opcode opcode ∈ events

theorem deliverAll_keeps (globals : ProfGlobals) {events : List Event}
    (idle : ¬ RunsOpcode events) : Keeps globals (deliverAll engine globals events) := by
  induction events generalizing globals with
  | nil => exact Keeps.refl globals
  | cons event rest ih =>
    have other : ∀ opcode, event ≠ .opcode opcode := by
      rintro opcode rfl
      exact idle ⟨opcode, by simp⟩
    have later : ¬ RunsOpcode rest := by
      rintro ⟨opcode, member⟩
      exact idle ⟨opcode, List.mem_cons_of_mem _ member⟩
    exact (deliver_keeps globals other).trans (ih _ later)

/-- In opcode mode the first opcode sets the last file, and nothing clears it. -/
theorem deliverAll_begins {globals : ProfGlobals} (mode : globals.config.mode = .opcode)
    (paired : LineNeedsFile globals) {events : List Event}
    (ran : RunsOpcode events ∨ globals.opcodeLastFile ≠ none) :
    (deliverAll engine globals events).opcodeLastFile ≠ none := by
  induction events generalizing globals with
  | nil =>
    cases ran with
    | inl opcode => obtain ⟨_, none⟩ := opcode; cases none
    | inr file => exact file
  | cons event rest ih =>
    have sameMode : (deliver engine globals event).config.mode = .opcode := by
      rw [deliver_config, mode]
    by_cases isOpcode : ∃ opcode, event = .opcode opcode
    · obtain ⟨opcode, rfl⟩ := isOpcode
      have file := opcode_begins paired opcode
      have step : deliver engine globals (.opcode opcode) =
          profOpcodeHandlerCountTimings globals opcode := by simp only [deliver, mode]
      rw [← step] at file
      exact ih sameMode (fun missing => absurd missing file) (.inr file)
    · have kept : Keeps globals (deliver engine globals event) :=
        deliver_keeps globals fun opcode same => isOpcode ⟨opcode, same⟩
      refine ih sameMode ?_ ?_
      · rw [LineNeedsFile, kept.lastFile, kept.lastLineno]
        exact paired
      · rw [kept.lastFile]
        refine ran.imp_left ?_
        rintro ⟨opcode, member⟩
        cases List.mem_cons.mp member with
        | inl same => exact absurd ⟨opcode, same.symm⟩ isOpcode
        | inr later => exact ⟨opcode, later⟩

/-! ## Completed requests -/

/-- A completed request leaves what was there just before its report. -/
theorem runRequest_keeps {globals after : ProfGlobals} {request : Request}
    (completed : runRequest engine globals request = some after) :
    Keeps (beforeReport engine globals request.rinit request.events) after := by
  unfold runRequest at completed
  split at completed
  · cases completed
  · next begun rinit =>
    split at completed
    · next ended =>
      cases completed
      rw [beforeReport, rinit]
      exact phpRshutdown_keeps ended
    · cases completed

theorem runRequests_cons {globals after : ProfGlobals} {request : Request}
    {requests : List Request}
    (completed : runRequests engine globals (request :: requests) = some after) :
    ∃ between, runRequest engine globals request = some between ∧
      runRequests engine between requests = some after :=
  Option.bind_eq_some_iff.mp completed

theorem printRequests_cons {globals : ProfGlobals} {request : Request} {rest : List Request}
    {printed : List (List Output)}
    (ran : printRequests engine globals (request :: rest) = some printed) :
    ∃ setup between outputs later, phpRinit request.rinit globals = (setup, .success) ∧
      phpRshutdown engine request.rshutdown (deliverAll engine setup request.events) =
        some (between, outputs, .success) ∧
      runRequest engine globals request = some between ∧
      printRequests engine between rest = some later ∧ printed = outputs :: later := by
  rw [printRequests] at ran
  split at ran
  · cases ran
  · next setup started =>
    split at ran
    · next between outputs ended =>
      obtain ⟨later, continued, same⟩ := Option.map_eq_some_iff.mp ran
      refine ⟨setup, between, outputs, later, started, ended, ?_, continued, same.symm⟩
      simp only [runRequest, started, ended]
    · cases ran

theorem deliverAll_config (globals : ProfGlobals) (events : List Event) :
    (deliverAll engine globals events).config = globals.config := by
  induction events generalizing globals with
  | nil => rfl
  | cons event rest ih => exact (ih _).trans (deliver_config globals event)

theorem runRequest_config {globals after : ProfGlobals} {request : Request}
    (completed : runRequest engine globals request = some after) :
    after.config = globals.config := by
  rw [(runRequest_keeps completed).config, beforeReport, deliverAll_config,
    (phpRinit_keeps request.rinit globals).config]

theorem runRequests_config {globals after : ProfGlobals} {requests : List Request}
    (completed : runRequests engine globals requests = some after) :
    after.config = globals.config := by
  induction requests generalizing globals with
  | nil =>
    cases completed
    rfl
  | cons request rest ih =>
    obtain ⟨between, first, later⟩ := runRequests_cons completed
    rw [ih later, runRequest_config first]

/-- Requests that run no opcode leave the last position alone. -/
theorem runRequests_keeps {globals after : ProfGlobals} {requests : List Request}
    (completed : runRequests engine globals requests = some after)
    (idle : ∀ request ∈ requests, ¬ RunsOpcode request.events) : Keeps globals after := by
  induction requests generalizing globals with
  | nil =>
    cases completed
    exact Keeps.refl _
  | cons request rest ih =>
    obtain ⟨between, first, later⟩ := runRequests_cons completed
    have begun := phpRinit_keeps request.rinit globals
    have ran : Keeps _ (beforeReport engine globals request.rinit request.events) :=
      deliverAll_keeps _ (idle request (by simp))
    have ended := ih later fun other member => idle other (List.mem_cons_of_mem _ member)
    exact ((begun.trans ran).trans (runRequest_keeps first)).trans ended

/-- In opcode mode a request that runs an opcode leaves a last position, and no
later request clears it. -/
theorem runRequests_begins {globals after : ProfGlobals} {requests : List Request}
    (completed : runRequests engine globals requests = some after)
    (mode : globals.config.mode = .opcode) (paired : LineNeedsFile globals)
    (ran : (∃ request ∈ requests, RunsOpcode request.events) ∨ globals.opcodeLastFile ≠ none) :
    after.opcodeLastFile ≠ none := by
  induction requests generalizing globals with
  | nil =>
    cases completed
    exact ran.resolve_left (by simp)
  | cons request rest ih =>
    obtain ⟨between, first, later⟩ := runRequests_cons completed
    have begun := phpRinit_keeps request.rinit globals
    have ended := runRequest_keeps first
    have stillMode : between.config.mode = .opcode := by rw [runRequest_config first, mode]
    have begunMode : (phpRinit request.rinit globals).1.config.mode = .opcode := by
      rw [begun.config, mode]
    have begunPaired : LineNeedsFile (phpRinit request.rinit globals).1 := by
      rw [LineNeedsFile, begun.lastFile, begun.lastLineno]
      exact paired
    by_cases here : RunsOpcode request.events ∨ globals.opcodeLastFile ≠ none
    · have file : between.opcodeLastFile ≠ none := by
        rw [ended.lastFile]
        exact deliverAll_begins begunMode begunPaired (here.imp_right (begun.lastFile ▸ ·))
      exact ih later stillMode (fun missing => absurd missing file) (.inr file)
    · obtain ⟨idle, file⟩ := not_or.mp here
      have idled : Keeps _ (beforeReport engine globals request.rinit request.events) :=
        deliverAll_keeps _ idle
      have kept := (begun.trans idled).trans ended
      refine ih later stillMode ?_ (.inl ?_)
      · rw [LineNeedsFile, kept.lastFile, kept.lastLineno]
        exact paired
      · obtain ⟨other, member, opcode⟩ := ran.resolve_right file
        cases List.mem_cons.mp member with
        | inl same => exact absurd (same ▸ opcode) idle
        | inr later => exact ⟨other, later, opcode⟩

/-! ## Independence -/

/-- The next request measures what it would measure in a fresh process. -/
def Independent (engine : Engine) (config : ProfConfig) (globals : ProfGlobals) : Prop :=
  ∀ (env fresh : RinitEnv) (events : List Event), (phpRinit env globals).2 = .success →
    (phpRinit fresh (.fresh config)).2 = .success →
    measurements (beforeReport engine globals env events) =
      measurements (beforeReport engine (.fresh config) fresh events)

theorem measurements_of_agrees {left right : ProfGlobals} (agree : Agrees left right) :
    measurements left = measurements right := by
  have seen := agree.view
  unfold view at seen
  unfold measurements
  rw [agree.config] at seen ⊢
  cases mode : right.config.mode with
  | sampling =>
    simp only [mode, View.sampling.injEq] at seen
    rw [seen.2]
  | func =>
    simp only [mode, View.func.injEq] at seen
    rw [seen.2]
  | opcode =>
    simp only [mode, View.opcode.injEq] at seen
    rw [seen.2.2.2]
  | none => rfl

theorem independent_of_idle {config : ProfConfig} {globals : ProfGlobals}
    (same : globals.config = config)
    (position : config.mode = .opcode → Keeps (.fresh config) globals) :
    Independent engine config globals := fun _ _ events begun freshBegun =>
  measurements_of_agrees (deliverAll_agrees (phpRinit_agrees same position begun freshBegun) events)

/-- An opcode in a file at another address than the last one. -/
def probe (addr : Nat) : OpcodeEvent := ⟨⟨addr + 1, Text.ascii "b.php"⟩, 7, some ⟨0, 1000⟩⟩

theorem probe_readable (addr : Nat) : ¬ getTime (probe addr).clock = 0 := by
  show ¬ getTime (some ⟨0, 1000⟩) = 0
  decide

def wakeful : RinitEnv := ⟨some ⟨1, 0⟩, fun _ => true⟩

theorem wakeful_begins {globals : ProfGlobals} (mode : globals.config.mode = .opcode) :
    (phpRinit wakeful globals).2 = .success := by
  have readable : ¬ getWallTime wakeful.realtime = 0 := by decide
  simp only [phpRinit, profInitErrors, if_neg readable, mode]
  rfl

theorem wakeful_timings {globals : ProfGlobals} (mode : globals.config.mode = .opcode) :
    (phpRinit wakeful globals).1.config.mode = .opcode ∧
      (phpRinit wakeful globals).1.opcodeTimings = .empty := by
  have stillMode : (phpRinit wakeful globals).1.config.mode = .opcode := by
    rw [(phpRinit_keeps wakeful globals).config, mode]
  have seen := phpRinit_view (wakeful_begins mode)
  simp only [view, stillMode, mode, View.opcode.injEq] at seen
  exact ⟨stillMode, seen.2.2.2⟩

theorem probe_measured {globals : ProfGlobals} (mode : globals.config.mode = .opcode)
    (addr : Nat) :
    measurements (beforeReport engine globals wakeful [.opcode (probe addr)]) =
      .opcode (profOpcodeHandlerCountTimings (phpRinit wakeful globals).1
        (probe addr)).opcodeTimings := by
  have begunMode := (wakeful_timings mode).1
  have step : beforeReport engine globals wakeful [.opcode (probe addr)] =
      profOpcodeHandlerCountTimings (phpRinit wakeful globals).1 (probe addr) := by
    simp only [beforeReport, deliverAll, List.foldl_cons, List.foldl_nil, deliver, begunMode]
  rw [step, measurements, opcode_config, begunMode]

theorem probe_stores {globals : ProfGlobals} {addr : Nat}
    (leftover : globals.opcodeLastFile = some addr) :
    (profOpcodeHandlerCountTimings globals (probe addr)).opcodeTimings =
      storeTiming globals.opcodeTimings (Text.ascii "b.php") globals.opcodeLastLineno
        (seconds globals.opcodeLastTime 1) := by
  have begun : ¬ (globals.opcodeLastFile = none ∧ globals.opcodeLastLineno = 0) := by
    simp [leftover]
  have moved : ¬ (some (probe addr).filename.addr = globals.opcodeLastFile ∧
      (probe addr).lineno = globals.opcodeLastLineno) := by
    simp [leftover, probe]
  simp only [profOpcodeHandlerCountTimings, if_neg begun, if_neg moved,
    if_neg (probe_readable addr)]
  rfl

/-- A leftover position makes the first opcode of the next request store a time
that no fresh process would store. -/
theorem not_independent_of_leftover {config : ProfConfig} {globals : ProfGlobals}
    (same : globals.config = config) (mode : config.mode = .opcode)
    (leftover : globals.opcodeLastFile ≠ none) : ¬ Independent engine config globals := by
  intro independent
  obtain ⟨addr, file⟩ := Option.ne_none_iff_exists'.mp leftover
  have leftMode : globals.config.mode = .opcode := by rw [same, mode]
  have claimed := independent wakeful wakeful [.opcode (probe addr)] (wakeful_begins leftMode)
    (wakeful_begins mode)
  have begunFile : (phpRinit wakeful globals).1.opcodeLastFile = some addr := by
    rw [(phpRinit_keeps wakeful globals).lastFile, file]
  have freshMode : (ProfGlobals.fresh config).config.mode = .opcode := mode
  have freshStores : (profOpcodeHandlerCountTimings (phpRinit wakeful (.fresh config)).1
      (probe addr)).opcodeTimings = (phpRinit wakeful (.fresh config)).1.opcodeTimings := by
    have kept := phpRinit_keeps wakeful (.fresh config)
    have first : (phpRinit wakeful (.fresh config)).1.opcodeLastFile = none ∧
        (phpRinit wakeful (.fresh config)).1.opcodeLastLineno = 0 :=
      ⟨kept.lastFile, kept.lastLineno⟩
    simp only [profOpcodeHandlerCountTimings, if_pos first, if_neg (probe_readable addr)]
  rw [probe_measured leftMode, probe_measured freshMode, Measurements.opcode.injEq,
    probe_stores begunFile, freshStores, (wakeful_timings leftMode).2,
    (wakeful_timings freshMode).2] at claimed
  have keys := congrArg OrderedTable.keys claimed
  simp [storeTiming, keys_accumulate] at keys

/-- The next request measures as in a fresh process exactly when the process is
not in opcode mode, or no earlier request has run an opcode. -/
theorem next_request_independent_iff (engine : Engine) (config : ProfConfig)
    (earlier : List Request) (globals : ProfGlobals)
    (completed : runRequests engine (.fresh config) earlier = some globals) :
    Independent engine config globals ↔
      (config.mode = .opcode → ∀ request ∈ earlier, ¬ RunsOpcode request.events) := by
  have same : globals.config = config := runRequests_config completed
  constructor
  · intro independent mode request member ran
    have leftover := runRequests_begins completed mode (fun _ => rfl) (.inl ⟨request, member, ran⟩)
    exact not_independent_of_leftover same mode leftover independent
  · intro idle
    exact independent_of_idle same fun mode => runRequests_keeps completed (idle mode)

def configOf (mode : ProfMode) : ProfConfig := ⟨mode, .console, 1000, 20, 1, 50, 0, 0⟩

/-- A request that runs one opcode, in whatever mode. -/
def oneOpcode : Request := ⟨wakeful, [.opcode (probe 0)], .quiet⟩

/-- A request with a call that ends and one that does not. -/
def openCall : Request where
  rinit := wakeful
  events :=
    [.observerBegin (FuncProofs.plainFunction "f") (FuncProofs.clocksAt 10 1 100),
      .observerEnd (FuncProofs.plainFunction "f") (FuncProofs.clocksAt 30 2 300),
      .observerBegin (FuncProofs.plainFunction "g") (FuncProofs.clocksAt 40 3 300)]
  rshutdown := .quiet

/-- The call that is open at the end of a request is no call of the next one. -/
theorem func_mode_forgets_requests :
    ∃ globals, runRequests php (.fresh (configOf .func)) [openCall, openCall] = some globals ∧
      globals.funcStartUnits.length = 1 ∧ Independent php (configOf .func) globals := by
  have ran : (runRequests php (.fresh (configOf .func)) [openCall, openCall]).any
      (fun globals => globals.funcStartUnits.length = 1) = true := by decide +kernel
  obtain ⟨globals, completed, left⟩ := (Option.any_eq_true _ _).mp ran
  refine ⟨globals, completed, of_decide_eq_true left, ?_⟩
  refine (next_request_independent_iff php (configOf .func) [openCall, openCall] _ completed).mpr ?_
  exact fun opcodeMode => absurd opcodeMode (by decide)

theorem opcode_mode_remembers_request :
    ¬ ∀ (config : ProfConfig) (earlier : List Request) (globals : ProfGlobals),
      runRequests php (.fresh config) earlier = some globals → Independent php config globals := by
  intro always
  obtain ⟨globals, completed⟩ : ∃ globals,
      runRequests php (.fresh (configOf .opcode)) [oneOpcode] = some globals := ⟨_, rfl⟩
  have ran : ∃ request ∈ [oneOpcode], RunsOpcode request.events :=
    ⟨oneOpcode, List.mem_singleton_self _, probe 0, List.mem_singleton_self _⟩
  have leftover := runRequests_begins completed rfl (fun _ => rfl) (.inl ran)
  exact not_independent_of_leftover (runRequests_config completed) rfl leftover
    (always _ _ _ completed)

end PhpProf.RequestProofs
