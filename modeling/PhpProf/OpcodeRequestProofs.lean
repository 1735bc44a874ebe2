import PhpProf.OpcodeReportProofs
import PhpProf.RequestProofs

/-! What the requests of a process print in opcode mode. The handler remembers its
position from one request to the next, so a visit that begins in one request ends in
a later one. A table is printed exactly when the clock was read at every change of
position; its rows are the latest visits stored at each file and line. -/
namespace PhpProf.OpcodeRequestProofs
open OpcodeProofs OpcodeReportProofs OrderedTable Visits

variable {engine : Engine}

/-- The opcodes among the events of a request. -/
def opcodesOf (events : List Event) : List OpcodeEvent :=
  events.filterMap fun event =>
    match event with
    | .opcode opcode => some opcode
    | _ => none

/-- In opcode mode only opcodes do anything. -/
theorem deliverAll_opcode {globals : ProfGlobals} (mode : globals.config.mode = .opcode)
    (events : List Event) :
    deliverAll engine globals events = handleAll globals (opcodesOf events) := by
  induction events generalizing globals with
  | nil => rfl
  | cons event rest ih =>
    have kept : (deliver engine globals event).config.mode = .opcode := by
      rw [RequestProofs.deliver_config, mode]
    have step : deliverAll engine globals (event :: rest) =
        deliverAll engine (deliver engine globals event) rest := rfl
    rw [step, ih kept]
    cases event with
    | opcode opcode => simp only [deliver, mode, opcodesOf, List.filterMap_cons]; rfl
    | sigprof | observerBegin | observerEnd =>
      simp only [deliver, mode, opcodesOf, List.filterMap_cons]

theorem opcodesOf_append (first second : List Event) :
    opcodesOf (first ++ second) = opcodesOf first ++ opcodesOf second :=
  List.filterMap_append

/-! ## What the handler remembers -/

/-- The opcode that the last position was entered with. A change of position whose
reading fails is missed, unless the opcode is the first of all. -/
def remembered : Option OpcodeEvent → OpcodeEvent → Option OpcodeEvent
  | none, event => some event
  | some entry, event =>
    if place event = place entry ∨ reading event = 0 then some entry else some event

def rememberedAfter (opcodes : List OpcodeEvent) : Option OpcodeEvent :=
  opcodes.foldl remembered none

/-- The globals point to the position that was entered. -/
def Remembers (globals : ProfGlobals) : Option OpcodeEvent → Prop
  | none => globals.opcodeLastFile = none ∧ globals.opcodeLastLineno = 0
  | some entry => enter entry globals = globals

theorem Remembers.keeps {before after : ProfGlobals} {entry : Option OpcodeEvent}
    (remembers : Remembers before entry) (kept : RequestProofs.Keeps before after) :
    Remembers after entry := by
  cases entry with
  | none => exact ⟨kept.lastFile.trans remembers.1, kept.lastLineno.trans remembers.2⟩
  | some entry =>
    have file := congrArg ProfGlobals.opcodeLastFile remembers
    have lineno := congrArg ProfGlobals.opcodeLastLineno remembers
    have time := congrArg ProfGlobals.opcodeLastTime remembers
    rw [← kept.lastFile] at file
    rw [← kept.lastLineno] at lineno
    rw [← kept.lastTime] at time
    simp only [enter] at file lineno time
    simp only [Remembers, enter, file, lineno, time]

theorem handler_remembers {globals : ProfGlobals} {entry : Option OpcodeEvent}
    (remembers : Remembers globals entry) (event : OpcodeEvent) :
    Remembers (profOpcodeHandlerCountTimings globals event) (remembered entry event) := by
  cases entry with
  | none =>
    have first : globals.opcodeLastFile = none ∧ globals.opcodeLastLineno = 0 := remembers
    simp only [profOpcodeHandlerCountTimings, if_pos first]
    split <;> rfl
  | some entry =>
    by_cases missed : place event ≠ place entry ∧ reading event = 0
    · have failed : getTime event.clock = 0 := missed.2
      have begun : ¬ (globals.opcodeLastFile = none ∧ globals.opcodeLastLineno = 0) := by
        rw [← remembers]
        simp [enter]
      have leaves : ¬ (some event.filename.addr = globals.opcodeLastFile ∧
          event.lineno = globals.opcodeLastLineno) := by
        rw [← remembers]
        simpa [enter, place] using missed.1
      have step : profOpcodeHandlerCountTimings globals event =
          profAddWarning globals "get time" := by
        simp only [profOpcodeHandlerCountTimings, if_neg begun, if_neg leaves, failed, ↓reduceIte]
      rw [step, remembered, if_pos (.inr missed.2)]
      exact congrArg (profAddWarning · "get time") remembers
    · have readable : place event ≠ place entry → reading event ≠ 0 := fun moved failed =>
        missed ⟨moved, failed⟩
      have step := handler_step globals entry event readable
      rw [show enter entry globals = globals from remembers] at step
      rw [step, remembered]
      by_cases same : place event = place entry
      · rw [if_pos same, if_pos (.inl same)]
        exact remembers
      · rw [if_neg same, if_neg (not_or.mpr ⟨same, readable same⟩)]
        rfl

theorem handleAll_remembers {globals : ProfGlobals} {entry : Option OpcodeEvent}
    (remembers : Remembers globals entry) (opcodes : List OpcodeEvent) :
    Remembers (handleAll globals opcodes) (opcodes.foldl remembered entry) := by
  induction opcodes generalizing globals entry with
  | nil => exact remembers
  | cons event rest ih => exact ih (handler_remembers remembers event)

theorem runRequest_remembers {globals after : ProfGlobals} {request : Request}
    {entry : Option OpcodeEvent} (mode : globals.config.mode = .opcode)
    (completed : runRequest engine globals request = some after)
    (remembers : Remembers globals entry) :
    Remembers after ((opcodesOf request.events).foldl remembered entry) := by
  have begun := RequestProofs.phpRinit_keeps request.rinit globals
  rw [← begun.config] at mode
  have ran := handleAll_remembers (remembers.keeps begun) (opcodesOf request.events)
  rw [← @deliverAll_opcode engine _ mode] at ran
  exact ran.keeps (RequestProofs.runRequest_keeps completed)

/-- A process remembers what its last opcode entered, however many requests ago. -/
theorem runRequests_remembers {globals after : ProfGlobals} {requests : List Request}
    {entry : Option OpcodeEvent} (mode : globals.config.mode = .opcode)
    (completed : runRequests engine globals requests = some after)
    (remembers : Remembers globals entry) :
    Remembers after ((opcodesOf (requests.flatMap Request.events)).foldl remembered entry) := by
  induction requests generalizing globals entry with
  | nil =>
    cases completed
    exact remembers
  | cons request rest ih =>
    obtain ⟨between, first, later⟩ := RequestProofs.runRequests_cons completed
    have stillMode : between.config.mode = .opcode := by
      rw [RequestProofs.runRequest_config first, mode]
    rw [List.flatMap_cons, opcodesOf_append, List.foldl_append]
    exact ih stillMode later (runRequest_remembers mode first remembers)

/-! ## When nothing is recorded -/

/-- The clock was read at the very first opcode and at every change of position. -/
def SwitchesRead (entry : Option OpcodeEvent) (opcodes : List OpcodeEvent) : Prop :=
  (entry = none → ∀ first ∈ opcodes.head?, reading first ≠ 0) ∧
    ∀ visit ∈ visitsOf place (entry.toList ++ opcodes), reading visit.2 ≠ 0

/-- From a position that has been entered, a run that records nothing reads the clock
at every change of position. -/
theorem entered_switches {globals : ProfGlobals} {entry : OpcodeEvent}
    {opcodes : List OpcodeEvent} (quiet : (handleAll (enter entry globals) opcodes).errors = []) :
    ∀ visit ∈ visits place entry opcodes, reading visit.2 ≠ 0 := by
  induction opcodes generalizing globals entry with
  | nil => exact fun visit none => absurd none List.not_mem_nil
  | cons event rest ih =>
    have run : handleAll (enter entry globals) (event :: rest) =
        handleAll (profOpcodeHandlerCountTimings (enter entry globals) event) rest := rfl
    rw [run] at quiet
    have readable : place event ≠ place entry → reading event ≠ 0 := fun moved failed =>
      switch_records globals moved failed (handler_adds_errors.silent quiet)
    rw [handler_step globals entry event readable] at quiet
    unfold visits
    by_cases same : place event = place entry
    · rw [if_pos same] at quiet ⊢
      exact ih quiet
    · rw [if_neg same] at quiet ⊢
      rintro visit (_ | ⟨_, later⟩)
      · exact readable same
      · exact ih quiet visit later

/-- Nothing is recorded exactly when every reading that is needed succeeds. -/
theorem silent_iff {globals : ProfGlobals} (silent : globals.errors = [])
    {entry : Option OpcodeEvent} (remembers : Remembers globals entry)
    (opcodes : List OpcodeEvent) :
    (handleAll globals opcodes).errors = [] ↔ SwitchesRead entry opcodes := by
  cases entry with
  | some entry =>
    have entered : handleAll globals opcodes = handleAll (enter entry globals) opcodes :=
      congrArg (handleAll · opcodes) (Eq.symm remembers)
    rw [entered]
    constructor
    · exact fun quiet => ⟨by simp, entered_switches quiet⟩
    · rintro ⟨-, switches⟩
      have later : ∀ visit ∈ visits place entry opcodes, reading visit.2 ≠ 0 := switches
      rw [handleAll_entered globals entry later]
      exact silent
  | none =>
    obtain ⟨noFile, noLine⟩ := remembers
    cases opcodes with
    | nil => simp [handleAll, silent, SwitchesRead, visitsOf]
    | cons first rest =>
      have run : handleAll globals (first :: rest) =
          handleAll (profOpcodeHandlerCountTimings globals first) rest := rfl
      constructor
      · intro quiet
        have readable := (silent_timings noFile noLine quiet).2
        refine ⟨?_, fun visit member => (readable visit member).2⟩
        rintro - _ ⟨⟩ failed
        rw [run] at quiet
        exact first_records noFile noLine failed (handler_adds_errors.silent quiet)
      · rintro ⟨begun, switches⟩
        rw [run, handler_first noFile noLine (begun rfl first rfl), handleAll_entered _ _ switches]
        exact silent

/-- A run that records nothing stores every visit that ends in it. -/
theorem stored_switches {globals : ProfGlobals} {entry : Option OpcodeEvent}
    (remembers : Remembers globals entry) {opcodes : List OpcodeEvent}
    (quiet : (handleAll globals opcodes).errors = []) :
    (handleAll globals opcodes).opcodeTimings =
      (visitsOf place (entry.toList ++ opcodes)).foldl store globals.opcodeTimings := by
  cases entry with
  | some entry =>
    rw [← show enter entry globals = globals from remembers] at quiet
    have timings := congrArg ProfGlobals.opcodeTimings
      (handleAll_entered globals entry (entered_switches quiet))
    rw [show enter entry globals = globals from remembers] at timings
    exact timings
  | none => exact (silent_timings remembers.1 remembers.2 quiet).1

theorem handler_only {globals : ProfGlobals} (only : OnlyWarnings globals) (event : OpcodeEvent) :
    OnlyWarnings (profOpcodeHandlerCountTimings globals event) := by
  simp only [profOpcodeHandlerCountTimings]
  split
  · split
    · exact addWarning_only only _
    · exact only
  · split
    · exact only
    · split
      · exact addWarning_only only _
      · exact only

theorem handleAll_only {globals : ProfGlobals} (only : OnlyWarnings globals)
    (opcodes : List OpcodeEvent) : OnlyWarnings (handleAll globals opcodes) := by
  induction opcodes generalizing globals with
  | nil => exact only
  | cons event rest ih => exact ih (handler_only only event)

/-! ## The rows -/

/-- How long the latest visit stored at a file and line lasted. -/
def latestTime (visits : List (OpcodeEvent × OpcodeEvent)) (position : Bytes × UInt32) : Option ℚ :=
  ((visits.filter fun visit => storedAt visit = position).getLast?).map duration

/-- The files that visits are stored under, by first store. -/
def storedFiles (visits : List (OpcodeEvent × OpcodeEvent)) : List Bytes :=
  (visits.map fun visit => (storedAt visit).1).eraseDups

/-- The lines of a file whose latest visit took longer than the threshold, in
ascending order. -/
structure LatestAbove (threshold : ℚ) (visits : List (OpcodeEvent × OpcodeEvent)) (file : Bytes)
    (lines : List (UInt32 × ℚ)) : Prop where
  ascending : lines.Pairwise fun earlier later => earlier.1 < later.1
  latest : ∀ line time, (line, time) ∈ lines ↔
    latestTime visits (file, line) = some time ∧ threshold < time

/-- A report of visits lists file after file the lines above the threshold. -/
def Reports (threshold : ℚ) (visits : List (OpcodeEvent × OpcodeEvent))
    (rows : List OpcodeRow) : Prop :=
  ∃ lines : Bytes → List (UInt32 × ℚ),
    (∀ file ∈ storedFiles visits, LatestAbove threshold visits file (lines file)) ∧
      rows = (storedFiles visits).flatMap fun file => (lines file).map (opcodeRow file)

/-- The table that a run of visits leaves. -/
def storedVisits (visits : List (OpcodeEvent × OpcodeEvent)) : OpcodeTimings :=
  visits.foldl store .empty

theorem keys_storedVisits (visits : List (OpcodeEvent × OpcodeEvent)) :
    (storedVisits visits).keys = storedFiles visits := by
  have collected : storedVisits visits =
      collect (fun visit => (storedAt visit).1) (fun _ => (empty : OrderedTable UInt32 ℚ))
        (fun fileTimings visit => fileTimings.update (storedAt visit).2 (duration visit))
        empty visits := rfl
  rw [collected, keys_collect]
  rfl

/-- The lines stored for a file. -/
def linesOf (visits : List (OpcodeEvent × OpcodeEvent)) (file : Bytes) : OrderedTable UInt32 ℚ :=
  ((storedVisits visits).find? file).getD .empty

theorem find?_linesOf {visits : List (OpcodeEvent × OpcodeEvent)} {file : Bytes}
    (stored : file ∈ storedFiles visits) (line : UInt32) :
    (linesOf visits file).find? line = latestTime visits (file, line) := by
  rw [← keys_storedVisits, mem_keys_iff] at stored
  obtain ⟨lines, found⟩ := stored
  rw [latestTime, ← timingAt_stored, timingAt, linesOf]
  show _ = ((storedVisits visits).find? file).bind _
  rw [found, Option.getD_some, Option.bind_some]

theorem entries_storedVisits (visits : List (OpcodeEvent × OpcodeEvent)) :
    (storedVisits visits).entries =
      (storedFiles visits).map fun file => (file, linesOf visits file) := by
  have each : ∀ file ∈ storedFiles visits,
      ((storedVisits visits).find? file).map (file, ·) = some (file, linesOf visits file) := by
    intro file stored
    rw [← keys_storedVisits, mem_keys_iff] at stored
    obtain ⟨lines, found⟩ := stored
    rw [linesOf, found, Option.map_some, Option.getD_some]
  rw [entries_eq, keys_storedVisits, List.filterMap_congr each, List.filterMap_eq_map']

/-- The report of the stored visits shows the latest ones above the threshold. -/
theorem report_reports {globals : ProfGlobals} {visits : List (OpcodeEvent × OpcodeEvent)}
    (stored : globals.opcodeTimings = storedVisits visits)
    (fit : ∀ visit ∈ visits, visit.1.lineno.toNat < 2 ^ 32 - 1) :
    Reports globals.config.opcodeThreshold visits (profOpcodePrintResult globals) := by
  have timed : ∀ file ∈ storedFiles visits, ∀ entry ∈ (linesOf visits file).entries,
      ∃ visit ∈ visits, visit.1.lineno = entry.1 ∧ duration visit = entry.2 := by
    intro file held entry member
    have found := (find?_eq_some_iff _).mpr member
    rw [find?_linesOf held, latestTime, ← timingAt_stored] at found
    obtain ⟨visit, visited, position, lasted⟩ := stored_is_visit found
    exact ⟨visit, visited, congrArg Prod.snd position, lasted⟩
  have listings : ∀ file, ∃ lines, file ∈ storedFiles visits →
      LatestAbove globals.config.opcodeThreshold visits file lines ∧
        profOpcodeFileRows globals.config.opcodeThreshold file (linesOf visits file) =
          lines.map (opcodeRow file) := by
    intro file
    by_cases held : file ∈ storedFiles visits
    · have fitting : ∀ entry ∈ (linesOf visits file).entries, entry.1.toNat < 2 ^ 32 - 1 := by
        intro entry member
        obtain ⟨visit, visited, line, -⟩ := timed file held entry member
        exact line ▸ fit visit visited
      have nonneg : ∀ entry ∈ (linesOf visits file).entries, 0 ≤ entry.2 := by
        intro entry member
        obtain ⟨visit, -, -, lasted⟩ := timed file held entry member
        exact lasted ▸ duration_nonneg visit
      obtain ⟨lines, listing, rows⟩ := fileRows_listing file fitting nonneg
      refine ⟨lines, fun _ => ⟨⟨listing.ascending, fun line time => ?_⟩, rows⟩⟩
      rw [listing.stored, find?_linesOf held]
    · exact ⟨[], fun stored => absurd stored held⟩
  choose lines listing using listings
  refine ⟨lines, fun file held => (listing file held).1, ?_⟩
  rw [profOpcodePrintResult, stored, entries_storedVisits, List.flatMap_map]
  exact List.flatMap_congr fun file held => (listing file held).2

/-! ## The requests -/

/-- The table of a request, which may have a header on the console. -/
def Prints (config : ProfConfig) (visits : List (OpcodeEvent × OpcodeEvent))
    (outputs : List Output) : Prop :=
  ∃ rows, ∃ total : Option UInt64, (total ≠ none → config.outputMode = .console) ∧
    outputs = total.toList.map Output.header ++ [.opcodeTable rows] ∧
    Reports config.opcodeThreshold visits rows

theorem rinit_opcode {rinit : RinitEnv} {globals setup : ProfGlobals}
    (mode : globals.config.mode = .opcode)
    (started : phpRinit rinit globals = (setup, .success)) :
    setup.errors = [] ∧ setup.opcodeTimings = .empty := by
  simp only [phpRinit, profInitErrors, mode, profOpcodeSetup] at started
  split at started
  · cases started
  · rw [Prod.mk.injEq] at started
    rw [← started.1]
    exact ⟨rfl, rfl⟩

/-- A request prints the visits that end in it, or one general line. -/
theorem request_prints {globals setup after : ProfGlobals} {entry : Option OpcodeEvent}
    (mode : globals.config.mode = .opcode) (remembers : Remembers globals entry)
    {rinit : RinitEnv} {env : RshutdownEnv} {events : List Event} {outputs : List Output}
    {result : ZendResult} (started : phpRinit rinit globals = (setup, .success))
    (fit : ∀ opcode ∈ entry.toList ++ opcodesOf events, opcode.lineno.toNat < 2 ^ 32 - 1)
    (ended : phpRshutdown engine env (deliverAll engine setup events) =
      some (after, outputs, result)) :
    (SwitchesRead entry (opcodesOf events) ∧ Prints globals.config
      (visitsOf place (entry.toList ++ opcodesOf events)) outputs) ∨
    ¬ SwitchesRead entry (opcodesOf events) ∧
      outputs = [.line "There was error during profiling"] := by
  obtain ⟨silent, blank⟩ := rinit_opcode mode started
  have begun : RequestProofs.Keeps globals setup := by
    have kept := RequestProofs.phpRinit_keeps rinit globals
    rwa [started] at kept
  have remembers := remembers.keeps begun
  rw [← begun.config] at mode ⊢
  rw [deliverAll_opcode mode] at ended
  have exact := silent_iff silent remembers (opcodesOf events)
  by_cases quiet : (handleAll setup (opcodesOf events)).errors = []
  · left
    refine ⟨exact.mp quiet, ?_⟩
    have kept : (handleAll setup (opcodesOf events)).config = setup.config := by
      rw [← @deliverAll_opcode engine setup mode, RequestProofs.deliverAll_config]
    have timings : (handleAll setup (opcodesOf events)).opcodeTimings =
        storedVisits (visitsOf place (entry.toList ++ opcodesOf events)) := by
      rw [stored_switches remembers quiet, blank, storedVisits]
    obtain ⟨reported, report, total, found, console, rfl⟩ := rshutdown_silent quiet ended
    simp only [profReport, kept, mode, Option.some.injEq, Prod.mk.injEq] at found
    obtain ⟨rfl, rfl⟩ := found
    have reports := report_reports timings fun visit member =>
      fit _ (visitsOf_mem member).1
    rw [kept] at reports console
    rw [profPrintErrors_nil quiet, List.map_nil, List.append_nil]
    exact ⟨_, total, fun headed => (console headed).2, rfl, reports⟩
  · right
    have only : OnlyWarnings setup := by simp [OnlyWarnings, silent]
    refine ⟨mt exact.mpr quiet, ?_⟩
    rw [rshutdown_recorded quiet ended, printed_warnings (handleAll_only only _) quiet]
    rfl

/-- What is remembered has been run. -/
theorem mem_remembered {entry : Option OpcodeEvent} {opcodes : List OpcodeEvent}
    {opcode : OpcodeEvent} (member : opcode ∈ (opcodes.foldl remembered entry).toList) :
    opcode ∈ entry.toList ++ opcodes := by
  induction opcodes generalizing entry with
  | nil => simpa using member
  | cons event rest ih =>
    have later := ih member
    have here : ∀ other ∈ (remembered entry event).toList, other ∈ entry.toList ++ [event] := by
      cases entry with
      | none => simp [remembered]
      | some entry =>
        simp only [remembered]
        split <;> simp
    rcases List.mem_append.mp later with kept | ran
    · have known := here opcode kept
      simp only [List.mem_append, List.mem_cons] at known ⊢
      tauto
    · simp [ran]

/-- Any request of a process in opcode mode, after requests that have completed, prints
its table exactly when the clock was read at the very first opcode and at every change
of position, the change from the last position of the earlier requests included. It
then lists the latest visit stored at each file and line above the threshold, and
otherwise prints one general line. -/
theorem opcode_request_prints (engine : Engine) {config : ProfConfig}
    (mode : config.mode = .opcode) {earlier : List Request} {globals : ProfGlobals}
    (completed : runRequests engine (.fresh config) earlier = some globals)
    {rinit : RinitEnv} {env : RshutdownEnv} {setup after : ProfGlobals} {events : List Event}
    {outputs : List Output} {result : ZendResult}
    (started : phpRinit rinit globals = (setup, .success))
    (fit : ∀ opcode ∈ opcodesOf (earlier.flatMap Request.events ++ events),
      opcode.lineno.toNat < 2 ^ 32 - 1)
    (ended : phpRshutdown engine env (deliverAll engine setup events) =
      some (after, outputs, result)) :
    let entry := rememberedAfter (opcodesOf (earlier.flatMap Request.events))
    (SwitchesRead entry (opcodesOf events) ∧
      Prints config (visitsOf place (entry.toList ++ opcodesOf events)) outputs) ∨
    ¬ SwitchesRead entry (opcodesOf events) ∧
      outputs = [.line "There was error during profiling"] := by
  intro entry
  have fresh : Remembers (.fresh config) none := ⟨rfl, rfl⟩
  have remembers : Remembers globals entry := runRequests_remembers mode completed fresh
  have same := RequestProofs.runRequests_config completed
  rw [← show globals.config = config from same] at mode ⊢
  refine request_prints mode remembers started (fun opcode member => fit opcode ?_) ended
  rw [opcodesOf_append]
  rcases List.mem_append.mp member with before | now
  · have ran := mem_remembered before
    exact List.mem_append_left _ (by simpa using ran)
  · exact List.mem_append_right _ now

/-- A request that runs opcodes after a signal that nobody handles. -/
def opcodeRequest (opcodes : List OpcodeEvent) : Request :=
  ⟨RequestProofs.wakeful, .sigprof [] :: opcodes.map .opcode, .quiet⟩

/-- The first lines of the loop again, later. -/
def laterRound : List OpcodeEvent := [opcodeAt 1 "a.php" 1 40, opcodeAt 1 "a.php" 2 43]

/-- The second of two requests begins with the line that the first has ended at. -/
theorem second_request_prints :
    ∃ globals after outputs result rows,
      runRequests php (.fresh opcodeConfig) [opcodeRequest twoRounds] = some globals ∧
      phpRshutdown php .quiet (deliverAll php (phpRinit RequestProofs.wakeful globals).1
        (opcodeRequest laterRound).events) = some (after, outputs, result) ∧
      .opcodeTable rows ∈ outputs ∧
      Reports 0 (visitsOf place (opcodeAt 1 "a.php" 3 24 :: laterRound)) rows := by
  have ends : ((runRequests php (.fresh opcodeConfig) [opcodeRequest twoRounds]).bind fun globals =>
      phpRshutdown php .quiet (deliverAll php (phpRinit RequestProofs.wakeful globals).1
        (opcodeRequest laterRound).events)).isSome = true := by
    decide +kernel
  obtain ⟨⟨after, outputs, result⟩, found⟩ := Option.isSome_iff_exists.mp ends
  obtain ⟨globals, completed, ended⟩ := Option.bind_eq_some_iff.mp found
  have mode : globals.config.mode = .opcode := by
    rw [RequestProofs.runRequests_config completed]
    rfl
  have begins := RequestProofs.wakeful_begins mode
  have prints := opcode_request_prints php rfl completed (Prod.ext rfl begins) (by decide) ended
  have opcodes : opcodesOf (opcodeRequest laterRound).events = laterRound := rfl
  have entry : rememberedAfter (opcodesOf ([opcodeRequest twoRounds].flatMap Request.events)) =
      some (opcodeAt 1 "a.php" 3 24) := by decide
  rw [opcodes, entry] at prints
  rcases prints with ⟨-, rows, total, -, rfl, reports⟩ | ⟨unread, -⟩
  · exact ⟨globals, after, _, result, rows, completed, ended, by simp, reports⟩
  · exact absurd (by unfold SwitchesRead; decide) unread

/-! ## All requests of a process -/

theorem remembered_latestEntry {entry : OpcodeEvent} {opcodes : List OpcodeEvent}
    (read : ∀ visit ∈ visits place entry opcodes, reading visit.2 ≠ 0) :
    opcodes.foldl remembered (some entry) = some (latestEntry place entry opcodes) := by
  induction opcodes generalizing entry with
  | nil => rfl
  | cons event rest ih =>
    unfold visits at read
    unfold latestEntry
    rw [List.foldl_cons, remembered]
    by_cases same : place event = place entry
    · rw [if_pos same] at read ⊢
      rw [if_pos (.inl same)]
      exact ih read
    · rw [if_neg same] at read ⊢
      have readable := read (entry, event) List.mem_cons_self
      rw [if_neg (not_or.mpr ⟨same, readable⟩)]
      exact ih fun visit later => read visit (List.mem_cons_of_mem _ later)

theorem entered_append (entry : OpcodeEvent) (first : List OpcodeEvent)
    {second : List OpcodeEvent} (read : SwitchesRead (some entry) (first ++ second)) :
    SwitchesRead (some entry) first ∧
      SwitchesRead (first.foldl remembered (some entry)) second ∧
      visits place entry (first ++ second) = visits place entry first ++
        visitsOf place ((first.foldl remembered (some entry)).toList ++ second) := by
  have whole : ∀ visit ∈ visits place entry (first ++ second), reading visit.2 ≠ 0 := read.2
  rw [visits_append] at whole
  have early : ∀ visit ∈ visits place entry first, reading visit.2 ≠ 0 := fun visit member =>
    whole visit (List.mem_append_left _ member)
  rw [remembered_latestEntry early, visits_append]
  exact ⟨⟨by simp, early⟩,
    ⟨by simp, fun visit member => whole visit (List.mem_append_right _ member)⟩, rfl⟩

/-- What ends in the second half of a run begins where the first half has left off. -/
theorem switches_append {entry : Option OpcodeEvent} {first second : List OpcodeEvent}
    (read : SwitchesRead entry (first ++ second)) :
    SwitchesRead entry first ∧ SwitchesRead (first.foldl remembered entry) second ∧
      visitsOf place (entry.toList ++ (first ++ second)) =
        visitsOf place (entry.toList ++ first) ++
          visitsOf place ((first.foldl remembered entry).toList ++ second) := by
  cases entry with
  | some entry => exact entered_append entry first read
  | none =>
    cases first with
    | nil => exact ⟨⟨by simp, by simp [visitsOf]⟩, read, rfl⟩
    | cons opcode rest =>
      obtain ⟨begun, later⟩ := read
      have readable : ∀ first ∈ (opcode :: rest).head?, reading first ≠ 0 := begun rfl
      obtain ⟨early, late, split⟩ := entered_append opcode rest ⟨by simp, later⟩
      exact ⟨⟨fun _ => readable, early.2⟩, late, split⟩

/-- The visits end in the request. -/
def EndIn (request : Request) (visits : List (OpcodeEvent × OpcodeEvent)) : Prop :=
  ∀ visit ∈ visits, visit.2 ∈ opcodesOf request.events

theorem visits_endIn (entry : Option OpcodeEvent) (request : Request) :
    EndIn request (visitsOf place (entry.toList ++ opcodesOf request.events)) := by
  intro visit member
  cases entry with
  | some entry => exact exit_mem member
  | none =>
    rw [Option.toList_none, List.nil_append] at member
    exact (visitsOf_mem member).2

/-- Requests that follow each other print segments of the visits of the process. -/
theorem printRequests_segments {globals : ProfGlobals} {requests : List Request}
    {entry : Option OpcodeEvent} {printed : List (List Output)}
    (mode : globals.config.mode = .opcode) (remembers : Remembers globals entry)
    (ran : printRequests engine globals requests = some printed)
    (fit : ∀ opcode ∈ entry.toList ++ opcodesOf (requests.flatMap Request.events),
      opcode.lineno.toNat < 2 ^ 32 - 1)
    (read : SwitchesRead entry (opcodesOf (requests.flatMap Request.events))) :
    ∃ segments : List (List (OpcodeEvent × OpcodeEvent)),
      segments.flatten =
        visitsOf place (entry.toList ++ opcodesOf (requests.flatMap Request.events)) ∧
      List.Forall₂ EndIn requests segments ∧
      List.Forall₂ (Prints globals.config) segments printed := by
  induction requests generalizing globals entry printed with
  | nil =>
    cases ran
    refine ⟨[], ?_, .nil, .nil⟩
    cases entry with
    | none => rfl
    | some entry => rfl
  | cons request rest ih =>
    obtain ⟨setup, between, outputs, later, started, ended, first, continued, rfl⟩ :=
      RequestProofs.printRequests_cons ran
    rw [List.flatMap_cons, opcodesOf_append] at fit read ⊢
    obtain ⟨early, late, split⟩ := switches_append read
    have config := RequestProofs.runRequest_config first
    have fitEarly : ∀ opcode ∈ entry.toList ++ opcodesOf request.events,
        opcode.lineno.toNat < 2 ^ 32 - 1 := fun opcode member =>
      fit opcode (by rw [← List.append_assoc]; exact List.mem_append_left _ member)
    have fitLate : ∀ opcode ∈ ((opcodesOf request.events).foldl remembered entry).toList ++
        opcodesOf (rest.flatMap Request.events), opcode.lineno.toNat < 2 ^ 32 - 1 := by
      intro opcode member
      rcases List.mem_append.mp member with before | after
      · exact fitEarly opcode (mem_remembered before)
      · exact fit opcode (List.mem_append_right _ (List.mem_append_right _ after))
    obtain ⟨segments, whole, endings, shown⟩ := ih (by rw [config, mode])
      (runRequest_remembers mode first remembers) continued fitLate late
    rw [config] at shown
    refine ⟨visitsOf place (entry.toList ++ opcodesOf request.events) :: segments, ?_,
      .cons (visits_endIn entry request) endings, ?_⟩
    · rw [List.flatten_cons, whole, split]
    · rcases request_prints mode remembers started fitEarly ended with ⟨-, prints⟩ | ⟨unread, -⟩
      · exact .cons prints shown
      · exact absurd early unread

/-- When the clock was read at the first opcode of a process in opcode mode and at every
change of position, each request reports the visits that end in it: the requests
together have every visit of the whole process, in order and each once. -/
theorem opcode_requests_partition_visits (engine : Engine) {config : ProfConfig}
    (mode : config.mode = .opcode) {requests : List Request} {printed : List (List Output)}
    (ran : printRequests engine (.fresh config) requests = some printed)
    (fit : ∀ opcode ∈ opcodesOf (requests.flatMap Request.events),
      opcode.lineno.toNat < 2 ^ 32 - 1)
    (read : SwitchesRead none (opcodesOf (requests.flatMap Request.events))) :
    ∃ segments : List (List (OpcodeEvent × OpcodeEvent)),
      segments.flatten = visitsOf place (opcodesOf (requests.flatMap Request.events)) ∧
      List.Forall₂ EndIn requests segments ∧
      List.Forall₂ (Prints config) segments printed := by
  have fresh : Remembers (.fresh config) none := ⟨rfl, rfl⟩
  exact printRequests_segments mode fresh ran fit read

theorem two_requests_partition_visits :
    ∃ printed segments,
      printRequests php (.fresh opcodeConfig)
        [opcodeRequest twoRounds, opcodeRequest laterRound] = some printed ∧
      segments.flatten = visitsOf place (twoRounds ++ laterRound) ∧
      List.Forall₂ EndIn [opcodeRequest twoRounds, opcodeRequest laterRound] segments ∧
      List.Forall₂ (Prints opcodeConfig) segments printed := by
  have completes : (printRequests php (.fresh opcodeConfig)
      [opcodeRequest twoRounds, opcodeRequest laterRound]).isSome = true := by
    decide +kernel
  obtain ⟨printed, ran⟩ := Option.isSome_iff_exists.mp completes
  obtain ⟨segments, whole, shown⟩ :=
    opcode_requests_partition_visits php rfl ran (by decide) (by unfold SwitchesRead; decide)
  exact ⟨printed, segments, ran, whole, shown⟩

end PhpProf.OpcodeRequestProofs
