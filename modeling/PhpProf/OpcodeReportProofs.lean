import PhpProf.OpcodeProofs
import PhpProf.Request

/-! What the opcode report shows. The dense scan over line numbers is compared
with the entries of each file's table, and every time shown is traced back to
the two readings it is the difference of. -/
namespace PhpProf.OpcodeReportProofs
open OpcodeProofs OrderedTable Text Visits

/-! ## What a request stores -/

/-- A time in seconds, and the file and the line it is stored under. -/
structure Stored where
  filename : Bytes
  lineno : UInt32
  oplineTime : ℚ

/-- What the handler stores when an opcode is about to run. -/
def storedBy (globals : ProfGlobals) (event : OpcodeEvent) : Option Stored :=
  if globals.opcodeLastFile = none ∧ globals.opcodeLastLineno = 0 then none
  else if some event.filename.addr = globals.opcodeLastFile ∧
      event.lineno = globals.opcodeLastLineno then none
  else if getTime event.clock = 0 then none
  else some ⟨event.filename.val, globals.opcodeLastLineno,
    seconds globals.opcodeLastTime (getTime event.clock)⟩

/-- Everything a run of opcodes stores, in order. -/
def storesOf (globals : ProfGlobals) : List OpcodeEvent → List Stored
  | [] => []
  | event :: rest => (storedBy globals event).toList ++
      storesOf (profOpcodeHandlerCountTimings globals event) rest

/-- A table after more times are stored in it. -/
def storeAll (timings : OpcodeTimings) (stores : List Stored) : OpcodeTimings :=
  collect Stored.filename (fun _ => .empty)
    (fun fileTimings stored => fileTimings.update stored.lineno stored.oplineTime) timings stores

theorem handler_stores (globals : ProfGlobals) (event : OpcodeEvent) :
    (profOpcodeHandlerCountTimings globals event).opcodeTimings =
      storeAll globals.opcodeTimings (storedBy globals event).toList := by
  simp only [profOpcodeHandlerCountTimings, storedBy]
  split
  · split <;> rfl
  · split
    · rfl
    · split <;> rfl

theorem handleAll_stores (globals : ProfGlobals) (events : List OpcodeEvent) :
    (handleAll globals events).opcodeTimings =
      storeAll globals.opcodeTimings (storesOf globals events) := by
  induction events generalizing globals with
  | nil => rfl
  | cons event rest ih =>
    have step : handleAll globals (event :: rest) =
        handleAll (profOpcodeHandlerCountTimings globals event) rest := rfl
    rw [step, ih, handler_stores, storesOf, storeAll, storeAll, storeAll, collect, collect, collect,
      List.foldl_append]

/-- The files stand in the order in which something was first stored for them. -/
theorem keys_stored (stores : List Stored) :
    (storeAll .empty stores).keys = (stores.map Stored.filename).eraseDups :=
  keys_collect ..

/-! ## No time is negative -/

def Nonnegative (timings : OpcodeTimings) : Prop :=
  ∀ position timing, timingAt timings position = some timing → 0 ≤ timing

theorem storedBy_nonneg {globals : ProfGlobals} {event : OpcodeEvent} {stored : Stored}
    (stores : storedBy globals event = some stored) : 0 ≤ stored.oplineTime := by
  unfold storedBy at stores
  split at stores
  · cases stores
  · split at stores
    · cases stores
    · split at stores
      · cases stores
      · cases stores
        exact seconds_nonneg ..

theorem handleAll_nonnegative {globals : ProfGlobals}
    (start : Nonnegative globals.opcodeTimings) (events : List OpcodeEvent) :
    Nonnegative (handleAll globals events).opcodeTimings := by
  induction events generalizing globals with
  | nil => exact start
  | cons event rest ih =>
    apply ih
    rw [handler_stores]
    cases stores : storedBy globals event with
    | none => exact start
    | some stored =>
      intro position timing found
      have step : timingAt (storeTiming globals.opcodeTimings stored.filename stored.lineno
          stored.oplineTime) position = some timing := found
      rw [timingAt_storeTiming] at step
      split at step
      · cases step
        exact storedBy_nonneg stores
      · exact start position timing step

/-! ## The scan over the lines of a file -/

private theorem foldl_max_le {items : List Nat} {start bound : Nat} :
    items.foldl max start ≤ bound ↔ start ≤ bound ∧ ∀ item ∈ items, item ≤ bound := by
  induction items generalizing start with
  | nil => simp
  | cons item rest ih =>
    rw [List.foldl_cons, ih, Nat.max_le, List.forall_mem_cons, and_assoc]

/-- The number of lines the scan tries, before and after it is cut to 32 bits. -/
theorem scan_bound {fileTimings : OrderedTable UInt32 ℚ}
    (fit : ∀ entry ∈ fileTimings.entries, entry.1.toNat < 2 ^ 32 - 1) :
    (UInt32.ofNat (zendHashNextFreeElement fileTimings)).toNat =
      zendHashNextFreeElement fileTimings := by
  have bound : zendHashNextFreeElement fileTimings ≤ 2 ^ 32 - 1 := by
    apply foldl_max_le.mpr
    refine ⟨Nat.zero_le _, fun next member => ?_⟩
    obtain ⟨line, held, rfl⟩ := List.mem_map.mp member
    obtain ⟨entry, stored, rfl⟩ := List.mem_map.mp held
    exact fit entry stored
  rw [UInt32.toNat_ofNat']
  omega

/-- The scan reaches every line that is stored. -/
theorem line_scanned {fileTimings : OrderedTable UInt32 ℚ}
    (fit : ∀ entry ∈ fileTimings.entries, entry.1.toNat < 2 ^ 32 - 1) :
    ∀ entry ∈ fileTimings.entries,
      entry.1.toNat < (UInt32.ofNat (zendHashNextFreeElement fileTimings)).toNat := by
  intro entry member
  rw [scan_bound fit]
  have reached := (foldl_max_le.mp (Nat.le_refl (zendHashNextFreeElement fileTimings))).2
  exact reached _ (List.mem_map_of_mem (List.mem_map_of_mem member))

/-- The lines of a file that are shown, with their times. -/
structure Listing (opcodeThreshold : ℚ) (fileTimings : OrderedTable UInt32 ℚ)
    (listed : List (UInt32 × ℚ)) : Prop where
  ascending : listed.Pairwise fun earlier later => earlier.1 < later.1
  stored : ∀ line timing, (line, timing) ∈ listed ↔
    fileTimings.find? line = some timing ∧ opcodeThreshold < timing

def opcodeRow (filename : Bytes) (entry : UInt32 × ℚ) : OpcodeRow :=
  ⟨cString filename, entry.1.toInt32, entry.2⟩

/-- What the scan lists at one line number. -/
def listedAt (opcodeThreshold : ℚ) (fileTimings : OrderedTable UInt32 ℚ) (line : Nat) :
    Option (UInt32 × ℚ) :=
  (fileTimings.find? (UInt32.ofNat line)).bind fun timing =>
    if opcodeThreshold < timing then some (UInt32.ofNat line, timing) else none

theorem listedAt_eq_some {opcodeThreshold : ℚ} {fileTimings : OrderedTable UInt32 ℚ} {number : Nat}
    {line : UInt32} {timing : ℚ} :
    listedAt opcodeThreshold fileTimings number = some (line, timing) ↔
      UInt32.ofNat number = line ∧ fileTimings.find? line = some timing ∧
        opcodeThreshold < timing := by
  unfold listedAt
  rw [Option.bind_eq_some_iff]
  constructor
  · rintro ⟨time, found, shown⟩
    split at shown
    · next above =>
      cases shown
      exact ⟨rfl, found, above⟩
    · cases shown
  · rintro ⟨rfl, found, above⟩
    exact ⟨timing, found, if_pos above⟩

/-- The empty marker is never stored, so a line is skipped only when nothing is
stored for it or its time is too short. -/
theorem fileRows_listing {opcodeThreshold : ℚ} (filename : Bytes)
    {fileTimings : OrderedTable UInt32 ℚ}
    (fit : ∀ entry ∈ fileTimings.entries, entry.1.toNat < 2 ^ 32 - 1)
    (nonneg : ∀ entry ∈ fileTimings.entries, 0 ≤ entry.2) :
    ∃ listed, Listing opcodeThreshold fileTimings listed ∧
      profOpcodeFileRows opcodeThreshold filename fileTimings =
        listed.map (opcodeRow filename) := by
  have exact : ∀ number < (UInt32.ofNat (zendHashNextFreeElement fileTimings)).toNat,
      (UInt32.ofNat number).toNat = number := by
    intro number below
    have high := (UInt32.ofNat (zendHashNextFreeElement fileTimings)).toNat_lt
    rw [UInt32.toNat_ofNat']
    omega
  refine ⟨(List.range (UInt32.ofNat (zendHashNextFreeElement fileTimings)).toNat).filterMap
    (listedAt opcodeThreshold fileTimings), ⟨?_, ?_⟩, ?_⟩
  · rw [List.pairwise_filterMap]
    refine List.pairwise_lt_range.imp_of_mem fun {early late} earlyHeld lateHeld ordered => ?_
    rintro ⟨line, timing⟩ shown ⟨other, otherTiming⟩ otherShown
    obtain ⟨rfl, -⟩ := listedAt_eq_some.mp shown
    obtain ⟨rfl, -⟩ := listedAt_eq_some.mp otherShown
    rw [UInt32.lt_iff_toNat_lt, exact early (List.mem_range.mp earlyHeld),
      exact late (List.mem_range.mp lateHeld)]
    exact ordered
  · intro line timing
    rw [List.mem_filterMap]
    constructor
    · rintro ⟨number, -, shown⟩
      exact (listedAt_eq_some.mp shown).2
    · rintro ⟨found, above⟩
      have member := fileTimings.find?_eq_some_iff.mp found
      have scanned := line_scanned fit _ member
      refine ⟨line.toNat, List.mem_range.mpr scanned, listedAt_eq_some.mpr ⟨?_, found, above⟩⟩
      exact UInt32.ofNat_toNat
  · rw [profOpcodeFileRows, List.map_filterMap]
    refine List.filterMap_congr fun number _ => ?_
    unfold listedAt
    cases found : fileTimings.find? (UInt32.ofNat number) with
    | none => rfl
    | some timing =>
      have timed := nonneg _ (fileTimings.find?_eq_some_iff.mp found)
      have negative : ¬ 0 ≤ profOpcodeEmptyTiming := by decide +kernel
      have marked : timing ≠ profOpcodeEmptyTiming := by
        rintro rfl
        exact negative timed
      by_cases low : timing ≤ opcodeThreshold
      · simp [marked, low, not_lt.mpr low]
      · simp [marked, low, not_le.mp low, opcodeRow]

/-- Every line number in the table leaves room for the next one. -/
def LinesFit (timings : OpcodeTimings) : Prop :=
  ∀ file ∈ timings.entries, ∀ entry ∈ file.2.entries, entry.1.toNat < 2 ^ 32 - 1

instance : Decidable (LinesFit timings) :=
  inferInstanceAs (Decidable (∀ file ∈ timings.entries, ∀ entry ∈ file.2.entries, _))

theorem Nonnegative.entry {timings : OpcodeTimings} (nonneg : Nonnegative timings)
    {file : Bytes × OrderedTable UInt32 ℚ} (member : file ∈ timings.entries) :
    ∀ entry ∈ file.2.entries, 0 ≤ entry.2 := by
  intro entry held
  have fileFound : timings.find? file.1 = some file.2 := timings.find?_eq_some_iff.mpr member
  have lineFound : file.2.find? entry.1 = some entry.2 := file.2.find?_eq_some_iff.mpr held
  apply nonneg (file.1, entry.1)
  rw [timingAt, fileFound, Option.bind_some, lineFound]

/-- In whatever order lines were run, the report lists the files in the order in
which they were first stored under, and for each file one row for every stored
line above the threshold, in ascending order. The scan tries every stored line. -/
theorem opcode_report_lists_stored (globals : ProfGlobals) (events : List OpcodeEvent)
    (fit : LinesFit (handleAll (profOpcodeSetup globals).1 events).opcodeTimings) :
    let setup := (profOpcodeSetup globals).1
    let after := handleAll setup events
    after.opcodeTimings.keys = ((storesOf setup events).map Stored.filename).eraseDups ∧
      (∀ file ∈ after.opcodeTimings.entries, ∀ entry ∈ file.2.entries,
        entry.1.toNat < (UInt32.ofNat (zendHashNextFreeElement file.2)).toNat) ∧
      ∃ listed : Bytes × OrderedTable UInt32 ℚ → List (UInt32 × ℚ),
        (∀ file ∈ after.opcodeTimings.entries,
          Listing after.config.opcodeThreshold file.2 (listed file)) ∧
        profOpcodePrintResult after = after.opcodeTimings.entries.flatMap fun file =>
          (listed file).map (opcodeRow file.1) := by
  intro setup after
  have run : after.opcodeTimings = storeAll .empty (storesOf setup events) :=
    handleAll_stores setup events
  have blank : Nonnegative setup.opcodeTimings := by
    intro position timing found
    cases found
  have nonneg : Nonnegative after.opcodeTimings := handleAll_nonnegative blank events
  refine ⟨by rw [run, keys_stored], fun file member => line_scanned (fit file member), ?_⟩
  have listings : ∀ file : Bytes × OrderedTable UInt32 ℚ, ∃ listed,
      file ∈ after.opcodeTimings.entries →
        Listing after.config.opcodeThreshold file.2 listed ∧
          profOpcodeFileRows after.config.opcodeThreshold file.1 file.2 =
            listed.map (opcodeRow file.1) := by
    intro file
    by_cases member : file ∈ after.opcodeTimings.entries
    · obtain ⟨listed, listing⟩ := fileRows_listing file.1 (fit file member) (nonneg.entry member)
      exact ⟨listed, fun _ => listing⟩
    · exact ⟨[], fun held => absurd held member⟩
  choose listed listing using listings
  refine ⟨listed, fun file member => (listing file member).1, ?_⟩
  exact List.flatMap_congr fun file member => (listing file member).2

/-- Lines of two files, run out of order. -/
def shuffledLines : List OpcodeEvent :=
  [opcodeAt 2 "b.php" 9 10, opcodeAt 2 "b.php" 4 15, opcodeAt 1 "a.php" 7 20,
    opcodeAt 2 "b.php" 1 50]

theorem shuffled_lines_are_listed :
    (handleAll (started opcodeConfig) shuffledLines).opcodeTimings.keys =
      [ascii "b.php", ascii "a.php"] := by
  have files :=
    (opcode_report_lists_stored (.fresh opcodeConfig) shuffledLines (by decide +kernel)).1
  refine files.trans ?_
  decide +kernel

/-! ## Failed readings -/

theorem handler_adds_errors : OnlyAddsErrors profOpcodeHandlerCountTimings := by
  intro globals event
  simp only [profOpcodeHandlerCountTimings]
  split
  · split
    · exact List.prefix_append ..
    · exact List.prefix_rfl
  · split
    · exact List.prefix_rfl
    · split
      · exact List.prefix_append ..
      · exact List.prefix_rfl

/-- A failed first reading is recorded, although the position is kept. -/
theorem first_records {globals : ProfGlobals} (noFile : globals.opcodeLastFile = none)
    (noLine : globals.opcodeLastLineno = 0) {event : OpcodeEvent} (failed : reading event = 0) :
    (profOpcodeHandlerCountTimings globals event).errors ≠ [] := by
  have failedTime : getTime event.clock = 0 := failed
  simp only [profOpcodeHandlerCountTimings, if_pos (And.intro noFile noLine), failedTime,
    ↓reduceIte, profAddWarning, profAddErrorMessage]
  exact List.concat_ne_nil _ _

theorem switch_records (globals : ProfGlobals) {entry event : OpcodeEvent}
    (moved : place event ≠ place entry) (failed : reading event = 0) :
    (profOpcodeHandlerCountTimings (enter entry globals) event).errors ≠ [] := by
  have failedTime : getTime event.clock = 0 := failed
  have begun : ¬ ((enter entry globals).opcodeLastFile = none ∧
      (enter entry globals).opcodeLastLineno = 0) := by simp [enter]
  have leaves : ¬ (some event.filename.addr = (enter entry globals).opcodeLastFile ∧
      event.lineno = (enter entry globals).opcodeLastLineno) := by
    simpa [enter, place] using moved
  simp only [profOpcodeHandlerCountTimings, if_neg begun, if_neg leaves, failedTime, ↓reduceIte,
    profAddWarning, profAddErrorMessage]
  exact List.concat_ne_nil _ _

/-- A run that records nothing has read the clock at every change of position. -/
theorem switches_readable {globals : ProfGlobals} {entry : OpcodeEvent}
    (entered : reading entry ≠ 0) {events : List OpcodeEvent}
    (silent : (handleAll (enter entry globals) events).errors = []) :
    ∀ visit ∈ visits place entry events, reading visit.1 ≠ 0 ∧ reading visit.2 ≠ 0 := by
  induction events generalizing globals entry with
  | nil => exact fun visit none => absurd none List.not_mem_nil
  | cons event rest ih =>
    have run : handleAll (enter entry globals) (event :: rest) =
        handleAll (profOpcodeHandlerCountTimings (enter entry globals) event) rest := rfl
    rw [run] at silent
    unfold visits
    by_cases same : place event = place entry
    · rw [handler_step globals entry event (absurd same), if_pos same] at silent
      rw [if_pos same]
      exact ih entered silent
    · have readable : reading event ≠ 0 := by
        intro failed
        exact switch_records globals same failed (handler_adds_errors.silent silent)
      rw [handler_step globals entry event fun _ => readable, if_neg same] at silent
      rw [if_neg same]
      intro visit member
      rcases List.mem_cons.mp member with rfl | later
      · exact ⟨entered, readable⟩
      · exact ih readable silent visit later

/-- A request that records nothing stores each visit once, and has read the
clock at both ends of each. -/
theorem silent_timings {globals : ProfGlobals} (noFile : globals.opcodeLastFile = none)
    (noLine : globals.opcodeLastLineno = 0) {events : List OpcodeEvent}
    (silent : (handleAll globals events).errors = []) :
    (handleAll globals events).opcodeTimings =
        (visitsOf place events).foldl store globals.opcodeTimings ∧
      ∀ visit ∈ visitsOf place events, reading visit.1 ≠ 0 ∧ reading visit.2 ≠ 0 := by
  cases events with
  | nil => exact ⟨rfl, fun visit none => absurd none List.not_mem_nil⟩
  | cons first rest =>
    have run : handleAll globals (first :: rest) =
        handleAll (profOpcodeHandlerCountTimings globals first) rest := rfl
    rw [run] at silent ⊢
    have entered : reading first ≠ 0 := by
      intro failed
      exact first_records noFile noLine failed (handler_adds_errors.silent silent)
    rw [handler_first noFile noLine entered] at silent ⊢
    have readable := switches_readable entered silent
    rw [handleAll_entered globals first fun visit member => (readable visit member).2]
    exact ⟨rfl, readable⟩

/-- No successful reading is earlier than one before it. -/
def MonotoneClock (events : List OpcodeEvent) : Prop :=
  events.Pairwise fun earlier later => ∀ start ∈ earlier.clock, ∀ stop ∈ later.clock,
    start.microseconds ≤ stop.microseconds

instance : Decidable (MonotoneClock events) := inferInstanceAs (Decidable (List.Pairwise _ _))

/-- A printed time is the exact difference of the readings taken at two
consecutive changes of position, the first opcode counting as one. -/
def SwitchDifference (events : List OpcodeEvent) (time : ℚ) : Prop :=
  ∃ entry exit start stop, IsVisit place events entry exit ∧
    entry.clock = some start ∧ exit.clock = some stop ∧
    start.microseconds ≠ 0 ∧ start.microseconds ≤ stop.microseconds ∧
    time = elapsed start.microseconds stop.microseconds ∧ 0 ≤ time

theorem clock_of_reading {event : OpcodeEvent} (readable : reading event ≠ 0) :
    ∃ ts, event.clock = some ts ∧ reading event = ts.microseconds := by
  cases read : event.clock with
  | none => exact absurd (by rw [reading, read]; rfl) readable
  | some ts => exact ⟨ts, rfl, by rw [reading, read]; rfl⟩

theorem visit_switchDifference {events : List OpcodeEvent} (monotone : MonotoneClock events)
    {visit : OpcodeEvent × OpcodeEvent} (member : visit ∈ visitsOf place events)
    (readable : reading visit.1 ≠ 0 ∧ reading visit.2 ≠ 0) :
    SwitchDifference events (duration visit) := by
  obtain ⟨start, startClock, startRead⟩ := clock_of_reading readable.1
  obtain ⟨stop, stopClock, stopRead⟩ := clock_of_reading readable.2
  have ordered : start.microseconds ≤ stop.microseconds :=
    visits_ordered monotone visit member start startClock stop stopClock
  refine ⟨visit.1, visit.2, start, stop, mem_visitsOf.mp member, startClock, stopClock,
    startRead ▸ readable.1, ordered, ?_, duration_nonneg visit⟩
  rw [duration, startRead, stopRead, seconds_eq_elapsed ordered]

/-- Every row shows a time that the table holds. -/
theorem row_timed {globals : ProfGlobals} {row : OpcodeRow}
    (printed : row ∈ profOpcodePrintResult globals) :
    ∃ position, timingAt globals.opcodeTimings position = some row.time := by
  obtain ⟨file, member, shown⟩ := List.mem_flatMap.mp printed
  obtain ⟨line, -, listed⟩ := List.mem_filterMap.mp shown
  split at listed
  · cases listed
  · next timing found =>
    split at listed
    · cases listed
    · split at listed
      · cases listed
      · cases listed
        have fileFound : globals.opcodeTimings.find? file.1 = some file.2 :=
          globals.opcodeTimings.find?_eq_some_iff.mpr member
        exact ⟨(file.1, UInt32.ofNat line), by rw [timingAt, fileFound, Option.bind_some, found]⟩

theorem opcode_table_printed {engine : Engine} {env : RshutdownEnv} {globals final : ProfGlobals}
    {outputs : List Output} {result : ZendResult} {rows : List OpcodeRow}
    (ended : phpRshutdown engine env globals = some (final, outputs, result))
    (printed : .opcodeTable rows ∈ outputs) :
    globals.errors = [] ∧ rows = profOpcodePrintResult globals := by
  obtain ⟨silent, reported, report, found, member⟩ :=
    phpRshutdown_reports ended printed (by simp) (by simp)
  refine ⟨silent, ?_⟩
  unfold profReport at found
  split at found
  · split at found
    · obtain ⟨⟨sorted, console⟩, -, same⟩ := Option.map_eq_some_iff.mp found
      cases same
      simp at member
    · cases found
      simp at member
    · cases found
      simp at member
  · obtain ⟨⟨sorted, table⟩, -, same⟩ := Option.map_eq_some_iff.mp found
    cases same
    simp at member
  · cases found
    simpa using member
  · cases found
    simp at member

/-- Whenever RSHUTDOWN prints the opcode table, no reading it depends on has
failed and no subtraction has wrapped: each time shown is the exact difference
of two successful readings. -/
theorem printed_times_are_differences (engine : Engine) (env : RshutdownEnv)
    {globals : ProfGlobals} (noFile : globals.opcodeLastFile = none)
    (noLine : globals.opcodeLastLineno = 0) {events : List OpcodeEvent}
    (monotone : MonotoneClock events) {final : ProfGlobals} {outputs : List Output}
    {result : ZendResult} {rows : List OpcodeRow}
    (ended : phpRshutdown engine env (handleAll (profOpcodeSetup globals).1 events) =
      some (final, outputs, result))
    (printed : .opcodeTable rows ∈ outputs) :
    ∀ row ∈ rows, SwitchDifference events row.time := by
  obtain ⟨silent, rfl⟩ := opcode_table_printed ended printed
  have freshFile : (profOpcodeSetup globals).1.opcodeLastFile = none := noFile
  obtain ⟨stored, readable⟩ := silent_timings freshFile noLine silent
  intro row shown
  obtain ⟨position, timed⟩ := row_timed shown
  rw [stored] at timed
  obtain ⟨visit, member, -, measured⟩ := stored_is_visit timed
  rw [← measured]
  exact visit_switchDifference monotone member (readable visit member)

/-- The clock would fail at the last opcode, which does not read it. -/
def unreadFailure : List OpcodeEvent :=
  [opcodeAt 1 "a.php" 4 10, opcodeAt 1 "a.php" 5 25, ⟨⟨1, ascii "a.php"⟩, 5, none⟩]

theorem unread_failure_is_harmless :
    ∃ final outputs result rows,
      phpRshutdown php .quiet (handleAll (started opcodeConfig) unreadFailure) =
        some (final, outputs, result) ∧ .opcodeTable rows ∈ outputs ∧
      ∀ row ∈ rows, SwitchDifference unreadFailure row.time := by
  have ended : ∃ final outputs result rows,
      phpRshutdown php .quiet (handleAll (started opcodeConfig) unreadFailure) =
        some (final, outputs, result) ∧ .opcodeTable rows ∈ outputs :=
    ⟨_, _, _, _, rfl, List.mem_append_left _ (List.mem_append_right _ (List.mem_singleton_self _))⟩
  obtain ⟨final, outputs, result, rows, ended, printed⟩ := ended
  exact ⟨final, outputs, result, rows, ended, printed,
    @printed_times_are_differences php .quiet (.fresh opcodeConfig) rfl rfl unreadFailure
      (by decide) final outputs result rows ended printed⟩

end PhpProf.OpcodeReportProofs
