import Mathlib.Data.UInt
import Mathlib.Tactic.Positivity
import Mathlib.Tactic.Ring
import PhpProf.Opcode
import PhpProf.Visits

/-! Where the opcode handler stores the time it measures. The reference is the
list of visits to positions; the handler measures each visit once, stores it
under the line that was left and the file that was entered, and overwrites what
was stored there. -/
namespace PhpProf.OpcodeProofs
open OrderedTable Visits

/-- Run opcodes, one after another. -/
def handleAll (globals : ProfGlobals) (events : List OpcodeEvent) : ProfGlobals :=
  events.foldl profOpcodeHandlerCountTimings globals

/-- A fresh process at the start of a request. -/
def started (config : ProfConfig) : ProfGlobals := (profOpcodeSetup (.fresh config)).1

/-- A position as the handler compares it. -/
def place (event : OpcodeEvent) : Nat × UInt32 := (event.filename.addr, event.lineno)

def reading (event : OpcodeEvent) : UInt64 := getTime event.clock

/-- Every reading succeeds, and none goes back. -/
structure Timed (events : List OpcodeEvent) : Prop where
  readable : ∀ event ∈ events, reading event ≠ 0
  advance : events.Pairwise fun earlier later => reading earlier ≤ reading later

/-- The globals once a position has been entered. -/
def enter (event : OpcodeEvent) (globals : ProfGlobals) : ProfGlobals :=
  { globals with
    opcodeLastFile := some event.filename.addr
    opcodeLastLineno := event.lineno
    opcodeLastTime := reading event }

/-- What the handler measures of a visit. -/
def duration (visit : OpcodeEvent × OpcodeEvent) : ℚ := seconds (reading visit.1) (reading visit.2)

/-- Where the handler stores a visit: the file entered and the line left. -/
def storedAt (visit : OpcodeEvent × OpcodeEvent) : Bytes × UInt32 :=
  (visit.2.filename.val, visit.1.lineno)

def store (timings : OpcodeTimings) (visit : OpcodeEvent × OpcodeEvent) : OpcodeTimings :=
  storeTiming timings (storedAt visit).1 (storedAt visit).2 (duration visit)

/-! ## The run of the handler -/

theorem handler_first {globals : ProfGlobals} (noFile : globals.opcodeLastFile = none)
    (noLine : globals.opcodeLastLineno = 0) {event : OpcodeEvent} (readable : reading event ≠ 0) :
    profOpcodeHandlerCountTimings globals event = enter event globals := by
  unfold profOpcodeHandlerCountTimings
  rw [if_pos ⟨noFile, noLine⟩]
  exact if_neg readable

/-- An opcode at the position entered changes nothing and reads no clock; another
position stores the visit that ends. -/
theorem handler_step (globals : ProfGlobals) (entry event : OpcodeEvent)
    (readable : place event ≠ place entry → reading event ≠ 0) :
    profOpcodeHandlerCountTimings (enter entry globals) event =
      if place event = place entry then enter entry globals
      else enter event
        { globals with opcodeTimings := store globals.opcodeTimings (entry, event) } := by
  have begun : ¬ ((enter entry globals).opcodeLastFile = none ∧
      (enter entry globals).opcodeLastLineno = 0) := by simp [enter]
  have stays : (some event.filename.addr = (enter entry globals).opcodeLastFile ∧
      event.lineno = (enter entry globals).opcodeLastLineno) ↔ place event = place entry := by
    simp [enter, place]
  unfold profOpcodeHandlerCountTimings
  rw [if_neg begun]
  by_cases same : place event = place entry
  · rw [if_pos (stays.mpr same), if_pos same]
  · rw [if_neg (mt stays.mp same), if_neg same]
    exact if_neg (readable same)

theorem handleAll_entered (globals : ProfGlobals) (entry : OpcodeEvent) {events : List OpcodeEvent}
    (readable : ∀ visit ∈ visits place entry events, reading visit.2 ≠ 0) :
    handleAll (enter entry globals) events =
      enter (latestEntry place entry events)
        { globals with
          opcodeTimings := (visits place entry events).foldl store globals.opcodeTimings } := by
  induction events generalizing entry globals with
  | nil => rfl
  | cons event rest ih =>
    unfold visits at readable
    unfold visits latestEntry
    by_cases same : place event = place entry
    · have step := handler_step globals entry event (absurd same)
      rw [if_pos same] at step readable ⊢
      rw [if_pos same]
      exact (congrArg (fun globals => handleAll globals rest) step).trans
        (ih globals entry readable)
    · rw [if_neg same] at readable ⊢
      have step := handler_step globals entry event fun _ => readable _ List.mem_cons_self
      rw [if_neg same] at step ⊢
      exact (congrArg (fun globals => handleAll globals rest) step).trans
        (ih _ event fun visit member => readable visit (List.mem_cons_of_mem _ member))

/-- From a fresh state the handler stores each visit once, in order. -/
theorem timings_started (config : ProfConfig) {events : List OpcodeEvent}
    (readable : ∀ event ∈ events, reading event ≠ 0) :
    (handleAll (started config) events).opcodeTimings =
      (visitsOf place events).foldl store .empty := by
  cases events with
  | nil => rfl
  | cons first rest =>
    have later : ∀ visit ∈ visits place first rest, reading visit.2 ≠ 0 := by
      intro visit member
      have visited : visit ∈ visitsOf place (first :: rest) := member
      exact readable visit.2 (visitsOf_mem visited).2
    have begun :
        profOpcodeHandlerCountTimings (started config) first = enter first (started config) :=
      handler_first rfl rfl (readable first (by simp))
    show (handleAll (profOpcodeHandlerCountTimings (started config) first) rest).opcodeTimings = _
    rw [begun, handleAll_entered _ _ later]
    rfl

/-! ## What the table holds -/

def timingAt (timings : OpcodeTimings) (position : Bytes × UInt32) : Option ℚ :=
  (timings.find? position.1).bind fun fileTimings => fileTimings.find? position.2

theorem timingAt_storeTiming (timings : OpcodeTimings) (filename : Bytes) (lineno : UInt32)
    (oplineTime : ℚ) (position : Bytes × UInt32) :
    timingAt (storeTiming timings filename lineno oplineTime) position =
      if position = (filename, lineno) then some oplineTime else timingAt timings position := by
  obtain ⟨file, line⟩ := position
  simp only [timingAt, storeTiming, find?_accumulate, Prod.mk.injEq]
  by_cases sameFile : file = filename
  · subst sameFile
    by_cases sameLine : line = lineno
    · simp [sameLine, find?_update]
    · cases timings.find? file <;> simp [sameLine, find?_update]
  · simp [sameFile]

theorem timingAt_store (timings : OpcodeTimings) (visit : OpcodeEvent × OpcodeEvent)
    (position : Bytes × UInt32) :
    timingAt (store timings visit) position =
      if position = storedAt visit then some (duration visit) else timingAt timings position :=
  timingAt_storeTiming ..

/-- A position holds the latest visit stored there. -/
theorem timingAt_stored (visits : List (OpcodeEvent × OpcodeEvent)) (position : Bytes × UInt32) :
    timingAt (visits.foldl store .empty) position =
      ((visits.filter fun visit => storedAt visit = position).getLast?).map duration := by
  induction visits using List.reverseRecOn with
  | nil => rfl
  | append_singleton visits visit ih =>
    rw [List.foldl_append, List.foldl_cons, List.foldl_nil, timingAt_store, List.filter_append]
    by_cases same : position = storedAt visit
    · simp [same]
    · simp [same, Ne.symm same, ih]

/-- Whatever is stored is the measure of some visit. -/
theorem stored_is_visit {visits : List (OpcodeEvent × OpcodeEvent)} {position : Bytes × UInt32}
    {timing : ℚ} (found : timingAt (visits.foldl store .empty) position = some timing) :
    ∃ visit ∈ visits, storedAt visit = position ∧ duration visit = timing := by
  rw [timingAt_stored, Option.map_eq_some_iff] at found
  obtain ⟨visit, latest, measured⟩ := found
  have member := List.mem_filter.mp (List.mem_of_getLast? latest)
  exact ⟨visit, member.1, of_decide_eq_true member.2, measured⟩

/-! ## Attribution -/

/-- Every timing is the duration of a visit to the position it stands under. -/
def Attributed (events : List OpcodeEvent) (timings : OpcodeTimings) : Prop :=
  ∀ position timing, timingAt timings position = some timing →
    ∃ entry exit, IsVisit place events entry exit ∧
      position = (entry.filename.val, entry.lineno) ∧
      timing = elapsed (reading entry) (reading exit)

/-- No change of position changes the name of the file. A position is the one the handler
compares: the string that the file name is, by its address, and the line. -/
def SwitchesInFile (events : List OpcodeEvent) : Prop :=
  ∀ visit ∈ visitsOf place events, visit.2.filename.val = visit.1.filename.val

instance : Decidable (SwitchesInFile events) :=
  inferInstanceAs (Decidable (∀ visit ∈ visitsOf place events, _))

instance : Decidable (Timed events) :=
  decidable_of_iff ((∀ event ∈ events, reading event ≠ 0) ∧
      events.Pairwise fun earlier later => reading earlier ≤ reading later)
    ⟨fun timed => ⟨timed.1, timed.2⟩, fun timed => ⟨timed.readable, timed.advance⟩⟩

theorem Timed.reached {reached events : List OpcodeEvent} (timed : Timed events)
    (begun : reached <+: events) : Timed reached where
  readable := fun event member => timed.readable event (begun.mem member)
  advance := timed.advance.sublist begun.sublist

theorem switchesInFile_reached {reached events : List OpcodeEvent}
    (inFile : SwitchesInFile events) (begun : reached <+: events) : SwitchesInFile reached :=
  fun visit member => inFile visit ((visitsOf_reached begun).mem member)

theorem duration_eq_elapsed {events : List OpcodeEvent} (timed : Timed events)
    {visit : OpcodeEvent × OpcodeEvent} (member : visit ∈ visitsOf place events) :
    duration visit = elapsed (reading visit.1) (reading visit.2) :=
  seconds_eq_elapsed (visits_ordered timed.advance visit member)

theorem attributed_of_switchesInFile (config : ProfConfig) {events : List OpcodeEvent}
    (timed : Timed events) (inFile : SwitchesInFile events) :
    Attributed events (handleAll (started config) events).opcodeTimings := by
  intro position timing found
  rw [timings_started config timed.readable] at found
  obtain ⟨⟨entry, exit⟩, member, stored, measured⟩ := stored_is_visit found
  have sameFile : exit.filename.val = entry.filename.val := inFile _ member
  refine ⟨entry, exit, mem_visitsOf.mp member, ?_, ?_⟩
  · rw [← stored, ← sameFile]
    rfl
  · rw [← measured, duration_eq_elapsed timed member]

/-- The opcode of an event, apart from the clock. -/
def opcodeOf (event : OpcodeEvent) : ZendString × UInt32 := (event.filename, event.lineno)

/-- The same opcode at another time. -/
def retime (microseconds : Int64) (event : OpcodeEvent) : OpcodeEvent :=
  { event with clock := some ⟨0, microseconds * 1000⟩ }

theorem reading_retime_one (event : OpcodeEvent) : reading (retime 1 event) = 1 := rfl

theorem reading_retime_two (event : OpcodeEvent) : reading (retime 2 event) = 2 := rfl

theorem timed_retimed (past : List OpcodeEvent) (exit : OpcodeEvent) :
    Timed (past.map (retime 1) ++ [retime 2 exit]) where
  readable := by
    intro event member
    cases List.mem_append.mp member with
    | inl earlier =>
      obtain ⟨original, _, rfl⟩ := List.mem_map.mp earlier
      rw [reading_retime_one]
      decide
    | inr last =>
      rw [List.mem_singleton.mp last, reading_retime_two]
      decide
  advance := by
    refine List.pairwise_append.mpr ⟨?_, List.pairwise_singleton .., ?_⟩
    · rw [List.pairwise_map]
      exact List.pairwise_of_forall fun _ _ => UInt64.le_refl 1
    · intro earlier member last ends
      obtain ⟨original, _, rfl⟩ := List.mem_map.mp member
      rw [List.mem_singleton.mp ends, reading_retime_one, reading_retime_two]
      decide

/-- Only the last visit of the retimed sequence takes any time. -/
theorem visits_retimed {before run : List OpcodeEvent} {entry exit : OpcodeEvent}
    (stays : ∀ event ∈ run, place event = place entry) (left : place exit ≠ place entry)
    (entered : ∀ last, before.getLast? = some last → place entry ≠ place last) :
    visitsOf place ((before ++ entry :: run).map (retime 1) ++ [retime 2 exit]) =
      visitsOf place ((before ++ entry :: run).map (retime 1)) ++
        [(retime 1 entry, retime 2 exit)] := by
  have stillStays : ∀ event ∈ run.map (retime 1), place event = place (retime 1 entry) := by
    intro event member
    obtain ⟨original, held, rfl⟩ := List.mem_map.mp member
    exact stays original held
  have stillEntered : ∀ last, (before.map (retime 1)).getLast? = some last →
      place (retime 1 entry) ≠ place last := by
    intro last ends
    rw [List.getLast?_map, Option.map_eq_some_iff] at ends
    obtain ⟨original, held, rfl⟩ := ends
    exact entered original held
  have stillLeft : place (retime 2 exit) ≠ place (retime 1 entry) := left
  have shape : visitsOf place (before.map (retime 1) ++ retime 1 entry ::
      (run.map (retime 1) ++ [retime 2 exit])) = _ :=
    visitsOf_leave stillStays stillLeft stillEntered
  simpa [visits] using shape

/-- A visit that ends in another file is stored where no visit lasted as long. -/
theorem not_attributed_across_files (config : ProfConfig) {events : List OpcodeEvent}
    {entry exit : OpcodeEvent} (member : (entry, exit) ∈ visitsOf place events)
    (crossed : exit.filename.val ≠ entry.filename.val) :
    ∃ reached retimed, reached <+: events ∧ retimed.map opcodeOf = reached.map opcodeOf ∧
      Timed retimed ∧ ¬ Attributed retimed (handleAll (started config) retimed).opcodeTimings := by
  obtain ⟨before, run, after, rfl, stays, left, entered⟩ := mem_visitsOf.mp member
  have retimed := timed_retimed (before ++ entry :: run) exit
  have found := visits_retimed stays left entered
  refine ⟨before ++ entry :: (run ++ [exit]), _, ⟨after, by simp⟩, ?_, retimed, ?_⟩
  · have kept : ∀ microseconds, opcodeOf ∘ retime microseconds = opcodeOf := fun _ => rfl
    simp only [List.map_append, List.map_map, kept, List.map_cons, List.map_nil,
      List.append_assoc, List.cons_append]
    rfl
  · intro attributed
    have measured : timingAt (handleAll (started config)
        ((before ++ entry :: run).map (retime 1) ++ [retime 2 exit])).opcodeTimings
          (exit.filename.val, entry.lineno) = some (seconds 1 2) := by
      rw [timings_started config retimed.readable, found, List.foldl_append, List.foldl_cons,
        List.foldl_nil, timingAt_store]
      exact if_pos rfl
    obtain ⟨start, stop, visit, position, timing⟩ := attributed _ _ measured
    have listed := mem_visitsOf.mpr visit
    rw [found] at listed
    cases List.mem_append.mp listed with
    | inl earlier =>
      obtain ⟨startHeld, stopHeld⟩ := visitsOf_mem earlier
      obtain ⟨startOriginal, _, rfl⟩ := List.mem_map.mp startHeld
      obtain ⟨stopOriginal, _, rfl⟩ := List.mem_map.mp stopHeld
      rw [reading_retime_one, reading_retime_one] at timing
      exact absurd timing (by decide +kernel)
    | inr last =>
      obtain ⟨rfl, rfl⟩ := Prod.mk.inj (List.mem_singleton.mp last)
      exact crossed (Prod.mk.inj position).1

/-- While positions change within one file only, every timing is the duration of
a visit to its own position, in every state reached. Opcodes that change the
file are misattributed, at some time of day, as soon as they do. -/
theorem timings_attributed_within_files (config : ProfConfig) (events : List OpcodeEvent) :
    (Timed events → SwitchesInFile events → ∀ reached, reached <+: events →
      Attributed reached (handleAll (started config) reached).opcodeTimings) ∧
    (¬ SwitchesInFile events →
      ∃ reached retimed, reached <+: events ∧ retimed.map opcodeOf = reached.map opcodeOf ∧
        Timed retimed ∧
        ¬ Attributed retimed (handleAll (started config) retimed).opcodeTimings) := by
  constructor
  · intro timed inFile reached begun
    exact attributed_of_switchesInFile config (timed.reached begun)
      (switchesInFile_reached inFile begun)
  · intro crossing
    simp only [SwitchesInFile, not_forall] at crossing
    obtain ⟨⟨entry, exit⟩, member, crossed⟩ := crossing
    exact not_attributed_across_files config member crossed

def opcodeAt (addr : Nat) (file : String) (lineno : UInt32) (microseconds : Int64) : OpcodeEvent :=
  ⟨⟨addr, Text.ascii file⟩, lineno, some ⟨0, microseconds * 1000⟩⟩

def opcodeConfig : ProfConfig := ⟨.opcode, .console, 1000, 20, 1, 50, 0, 0⟩

/-- A straight line through one file. -/
def straightLine : List OpcodeEvent :=
  [opcodeAt 1 "a.php" 1 10, opcodeAt 1 "a.php" 1 15, opcodeAt 1 "a.php" 2 20,
    opcodeAt 1 "a.php" 3 50]

theorem straight_line_is_attributed :
    Attributed straightLine (handleAll (started opcodeConfig) straightLine).opcodeTimings :=
  (timings_attributed_within_files opcodeConfig straightLine).1 (by decide) (by decide)
    straightLine List.prefix_rfl

/-- An include on line 5 of one file runs line 1 of another. -/
def includeLine : List OpcodeEvent := [opcodeAt 1 "a.php" 5 10, opcodeAt 2 "b.php" 1 30]

/-- The time of line 5 of the first file is stored under line 5 of the second,
which has run no opcode on that line. -/
theorem include_is_misattributed :
    ¬ ∀ (config : ProfConfig) (events : List OpcodeEvent), Timed events →
      Attributed events (handleAll (started config) events).opcodeTimings := by
  intro always
  have attributed := always opcodeConfig includeLine (by decide)
  have stored : timingAt (handleAll (started opcodeConfig) includeLine).opcodeTimings
      (Text.ascii "b.php", 5) = some (20 / 1000000) := by decide +kernel
  obtain ⟨entry, exit, visit, position, -⟩ := attributed _ _ stored
  have listed := (visitsOf_mem (mem_visitsOf.mpr visit)).1
  simp only [includeLine, List.mem_cons, List.not_mem_nil, or_false] at listed
  cases listed with
  | inl first => exact absurd (first ▸ position) (by decide)
  | inr second => exact absurd (second ▸ position) (by decide)

/-! ## Conservation -/

def storedTime (timings : OpcodeTimings) : ℚ :=
  sumOf (fun _ fileTimings => sumOf (fun _ timing => timing) fileTimings) timings

/-- The time between the first reading and the reading of the last switch. -/
def measuredTime : List OpcodeEvent → ℚ
  | [] => 0
  | first :: rest => elapsed (reading first) (reading (latestEntry place first rest))

/-- A visit whose store is later overwritten took no time. -/
def LosesNothing (events : List OpcodeEvent) : Prop :=
  (visitsOf place events).Pairwise fun earlier later =>
    storedAt earlier = storedAt later → reading earlier.1 = reading earlier.2

instance : Decidable (LosesNothing events) := inferInstanceAs (Decidable (List.Pairwise _ _))

theorem duration_nonneg (visit : OpcodeEvent × OpcodeEvent) : 0 ≤ duration visit :=
  seconds_nonneg ..

theorem duration_eq_zero_iff (visit : OpcodeEvent × OpcodeEvent) :
    duration visit = 0 ↔ reading visit.1 = reading visit.2 := by
  unfold duration seconds
  have scale : (1000000 : ℚ) ≠ 0 := by norm_num
  have zero : (reading visit.2 - reading visit.1).toNat = 0 ↔
      reading visit.2 - reading visit.1 = 0 := by
    rw [← UInt64.toNat_inj]
    rfl
  rw [div_eq_zero_iff, or_iff_left scale, Nat.cast_eq_zero, zero, sub_eq_zero, eq_comm]

/-- A store adds its time and takes away the time it overwrites. -/
theorem storedTime_store (timings : OpcodeTimings) (visit : OpcodeEvent × OpcodeEvent) :
    storedTime (store timings visit) =
      storedTime timings - (timingAt timings (storedAt visit)).getD 0 + duration visit := by
  rw [storedTime, store, storeTiming, sumOf_accumulate, sumOf_update, storedTime, timingAt]
  cases fileFound : timings.find? (storedAt visit).1 with
  | none =>
    have fresh : sumOf (fun _ timing => timing) (empty : OrderedTable UInt32 ℚ) = 0 := rfl
    simp only [Option.elim_none, Option.getD_none, find?_empty, Option.bind_none, fresh]
    ring
  | some fileTimings =>
    simp only [Option.elim_some, Option.getD_some, Option.bind_some]
    cases fileTimings.find? (storedAt visit).2 with
    | none =>
      simp only [Option.elim_none, Option.getD_none]
      ring
    | some timing =>
      simp only [Option.elim_some, Option.getD_some]
      ring

/-- What the visits lasted beyond what the table still holds. -/
def lostTime (visits : List (OpcodeEvent × OpcodeEvent)) : ℚ :=
  (visits.map duration).sum - storedTime (visits.foldl store .empty)

theorem lostTime_concat (visits : List (OpcodeEvent × OpcodeEvent))
    (visit : OpcodeEvent × OpcodeEvent) :
    lostTime (visits ++ [visit]) =
      lostTime visits + (timingAt (visits.foldl store .empty) (storedAt visit)).getD 0 := by
  unfold lostTime
  rw [List.foldl_append, List.foldl_cons, List.foldl_nil, storedTime_store, List.map_append,
    List.sum_append, List.map_singleton, List.sum_singleton]
  ring

theorem timing_nonneg (visits : List (OpcodeEvent × OpcodeEvent)) (position : Bytes × UInt32) :
    0 ≤ (timingAt (visits.foldl store .empty) position).getD 0 := by
  cases found : timingAt (visits.foldl store .empty) position with
  | none => exact le_refl 0
  | some timing =>
    obtain ⟨visit, _, _, rfl⟩ := stored_is_visit found
    exact duration_nonneg visit

theorem lostTime_nil : lostTime [] = 0 := by
  simp [lostTime, storedTime, sumOf, empty]

theorem lostTime_nonneg (visits : List (OpcodeEvent × OpcodeEvent)) : 0 ≤ lostTime visits := by
  induction visits using List.reverseRecOn with
  | nil => rw [lostTime_nil]
  | append_singleton visits visit ih =>
    rw [lostTime_concat]
    exact add_nonneg ih (timing_nonneg visits _)

/-- While earlier stores to a position took no time when they were overwritten,
the position holds no time exactly when none of its visits took any. -/
theorem timing_zero_iff {visits : List (OpcodeEvent × OpcodeEvent)}
    (kept : visits.Pairwise fun earlier later =>
      storedAt earlier = storedAt later → duration earlier = 0) (position : Bytes × UInt32) :
    (timingAt (visits.foldl store .empty) position).getD 0 = 0 ↔
      ∀ visit ∈ visits, storedAt visit = position → duration visit = 0 := by
  have named : (∀ visit ∈ visits, storedAt visit = position → duration visit = 0) ↔
      ∀ visit ∈ visits.filter fun visit => storedAt visit = position, duration visit = 0 := by
    simp [List.mem_filter]
  rw [timingAt_stored, named]
  cases List.eq_nil_or_concat (visits.filter fun visit => storedAt visit = position) with
  | inl none => simp [none]
  | inr split =>
    obtain ⟨overwritten, last, shape⟩ := split
    rw [List.concat_eq_append] at shape
    have stored : ∀ visit ∈ overwritten ++ [last], storedAt visit = position := by
      intro visit member
      rw [← shape] at member
      exact of_decide_eq_true (List.mem_filter.mp member).2
    have order := kept.filter fun visit => storedAt visit = position
    rw [shape] at order ⊢
    rw [List.getLast?_concat, Option.map_some, Option.getD_some]
    constructor
    · intro unspent visit member
      cases List.mem_append.mp member with
      | inl earlier =>
        have same : storedAt visit = storedAt last := by
          rw [stored visit member, stored last (by simp)]
        exact (List.pairwise_append.mp order).2.2 visit earlier last (by simp) same
      | inr latest => rw [List.mem_singleton.mp latest, unspent]
    · exact fun all => all last (by simp)

theorem lostTime_eq_zero_iff (visits : List (OpcodeEvent × OpcodeEvent)) :
    lostTime visits = 0 ↔ visits.Pairwise fun earlier later =>
      storedAt earlier = storedAt later → duration earlier = 0 := by
  induction visits using List.reverseRecOn with
  | nil => simp [lostTime_nil]
  | append_singleton visits visit ih =>
    rw [lostTime_concat, add_eq_zero_iff_of_nonneg (lostTime_nonneg visits)
      (timing_nonneg visits _), ih, List.pairwise_append]
    constructor
    · rintro ⟨kept, unspent⟩
      have spared := (timing_zero_iff kept _).mp unspent
      refine ⟨kept, List.pairwise_singleton .., fun earlier member later last => ?_⟩
      obtain rfl := List.mem_singleton.mp last
      exact spared earlier member
    · rintro ⟨kept, -, across⟩
      refine ⟨kept, (timing_zero_iff kept _).mpr fun earlier member => ?_⟩
      exact across earlier member visit (List.mem_singleton_self visit)

/-- The visits together last from the first reading to the last switch. -/
theorem sum_durations {events : List OpcodeEvent} (timed : Timed events) :
    ((visitsOf place events).map duration).sum = measuredTime events := by
  have exact : (visitsOf place events).map duration =
      (visitsOf place events).map fun visit =>
        (reading visit.2).toNat / (1000000 : ℚ) - (reading visit.1).toNat / 1000000 := by
    refine List.map_congr_left fun visit member => ?_
    rw [duration_eq_elapsed timed member, elapsed, sub_div]
  rw [exact]
  cases events with
  | nil => rfl
  | cons first rest =>
    rw [measuredTime, elapsed, sub_div]
    exact sum_visits (fun event => (reading event).toNat / (1000000 : ℚ)) first rest

/-- The timings add up to the time from the first opcode to the last change of
position exactly when no visit that took time is stored where a later visit is
stored as well. -/
theorem stored_time_conserved_iff (config : ProfConfig) (events : List OpcodeEvent)
    (timed : Timed events) :
    storedTime (handleAll (started config) events).opcodeTimings = measuredTime events ↔
      LosesNothing events := by
  have balance : lostTime (visitsOf place events) = 0 ↔ LosesNothing events := by
    rw [lostTime_eq_zero_iff, LosesNothing]
    simp only [duration_eq_zero_iff]
  rw [timings_started config timed.readable, ← sum_durations timed, ← balance, lostTime,
    sub_eq_zero, eq_comm]

theorem straight_line_is_conserved :
    storedTime (handleAll (started opcodeConfig) straightLine).opcodeTimings =
      measuredTime straightLine :=
  (stored_time_conserved_iff opcodeConfig straightLine (by decide)).mpr (by decide)

/-- A loop over two lines, left after its second round. -/
def twoRounds : List OpcodeEvent :=
  [opcodeAt 1 "a.php" 1 10, opcodeAt 1 "a.php" 2 12, opcodeAt 1 "a.php" 1 15,
    opcodeAt 1 "a.php" 2 19, opcodeAt 1 "a.php" 3 24]

/-- The second round overwrites the first: 9 of 14 microseconds are left. -/
theorem loop_forgets_first_round :
    ¬ ∀ (config : ProfConfig) (events : List OpcodeEvent), Timed events →
      storedTime (handleAll (started config) events).opcodeTimings = measuredTime events := by
  intro always
  exact absurd (always opcodeConfig twoRounds (by decide)) (by decide +kernel)

end PhpProf.OpcodeProofs
