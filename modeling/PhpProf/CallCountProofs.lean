import PhpProf.FuncProofs
import PhpProf.ReportProofs
import PhpProf.RequestProofs

/-! The `calls` column: the counter is 32 bits wide and is printed as a signed
number, so it shows how often a function was called only below `2 ^ 31` calls. -/
namespace PhpProf.CallCountProofs
open CallNesting FuncProofs ReportProofs OrderedTable

variable {engine : Engine}

/-! ## One row -/

theorem calls_of_unit {calls : List (Activation × Activation)} {unit : ProfFuncUnit}
    (accounted : unitOf seconds calls = some unit) : unit.calls = UInt32.ofNat calls.length := by
  unfold unitOf at accounted
  split at accounted
  · cases accounted
  · cases accounted
    rfl

/-- What `%d` makes of a counter that has been increased so many times. -/
theorem printed_count (count : Nat) :
    (UInt32.ofNat count).toInt32.toInt = (count : Int).bmod (2 ^ 32) := by
  rw [UInt32.toInt32_ofNat', Int32.toInt_ofNat']
  rfl

theorem printed_count_exact_iff (count : Nat) :
    (UInt32.ofNat count).toInt32.toInt = count ↔ count < 2 ^ 31 := by
  rw [printed_count, Int.bmod_eq_iff (by decide)]
  omega

/-- The row shows how many calls of its function have completed. -/
def CountsCalls (engine : Engine) (calls : List (Activation × Activation))
    (entry : Bytes × ProfFuncUnit) : Prop :=
  (funcRow entry).calls.toInt = (callsNamed engine entry.1 calls).length

theorem countsCalls_iff {calls : List (Activation × Activation)} {entry : Bytes × ProfFuncUnit}
    (accounted : unitOf seconds (callsNamed engine entry.1 calls) = some entry.2) :
    CountsCalls engine calls entry ↔ (callsNamed engine entry.1 calls).length < 2 ^ 31 := by
  have shown : (funcRow entry).calls = entry.2.calls.toInt32 := rfl
  rw [CountsCalls, shown, calls_of_unit accounted, printed_count_exact_iff]

/-! ## The report -/

/-- The rows are those of some units, each shown once. -/
structure PrintedFor (units : OrderedTable Bytes ProfFuncUnit)
    (shown : List (Bytes × ProfFuncUnit)) (rows : List FuncRow) : Prop where
  rows : rows = shown.map funcRow
  once : shown.Nodup
  units : ∀ entry ∈ shown, entry ∈ units.entries

theorem report_printed_for (sorts : SortsByComparator engine) {globals after : ProfGlobals}
    {rows : List FuncRow} (printed : profFuncPrintResult engine globals = some (after, rows)) :
    ∃ shown, PrintedFor globals.funcUnits shown rows := by
  have sliced : ∃ res, htSlice ((engine.zendHashSort profCompareFuncUnits
      globals.funcUnits).entries.map some) globals.config.funcLimit = some res := by
    rw [profFuncPrintResult, Option.map_eq_some_iff] at printed
    obtain ⟨res, sliced, -⟩ := printed
    exact ⟨res, sliced⟩
  obtain ⟨res, sliced⟩ := sliced
  obtain ⟨final, table, shown, reported, top, same⟩ :=
    func_report_shows_top sorts (creatable_of_htSlice sliced)
  rw [printed] at reported
  cases reported
  exact ⟨shown, same, top.distinct, fun entry member => (top.above entry member).1⟩

/-- After a nested run that reads every clock, a printed row shows the number of
completed calls of its function exactly when there are fewer than `2 ^ 31`. -/
theorem calls_column_exact_iff (engine : Engine) (sorts : SortsByComparator engine)
    {events : List (CallEvent Activation)} {calls : List (Activation × Activation)}
    (nested : Nested SameFunction [] events calls) (readable : AllReadable events)
    (globals : ProfGlobals) {after : ProfGlobals} {rows : List FuncRow}
    (printed : profFuncPrintResult engine (observeAll engine (profFuncSetup globals).1 events) =
      some (after, rows)) :
    ∃ shown,
      PrintedFor (observeAll engine (profFuncSetup globals).1 events).funcUnits shown rows ∧
        ∀ entry ∈ shown,
          (CountsCalls engine calls entry ↔
            (callsNamed engine entry.1 calls).length < 2 ^ 31) := by
  obtain ⟨-, found⟩ := observed_units engine nested readable globals
  obtain ⟨shown, reported⟩ := report_printed_for sorts printed
  refine ⟨shown, reported, fun entry member => countsCalls_iff ?_⟩
  rw [← found entry.1, find?_eq_some_iff]
  exact reported.units entry member

/-- The calls of the recursion, inner call first. -/
def recursionCalls : List (Activation × Activation) :=
  [(calledAt "f" (clocksAt 20 2 300), calledAt "f" (clocksAt 50 3 900)),
    (calledAt "f" (clocksAt 10 1 100), calledAt "f" (clocksAt 60 4 50))]

theorem recursion_shows_its_calls :
    ∃ after rows shown,
      profFuncPrintResult php (observeAll php (profFuncSetup funcGlobals).1 recursion) =
        some (after, rows) ∧
      PrintedFor (observeAll php (profFuncSetup funcGlobals).1 recursion).funcUnits shown rows ∧
      ∀ entry ∈ shown, CountsCalls php recursionCalls entry := by
  have nested : Nested SameFunction [] recursion recursionCalls :=
    .enter (.enter (.leave rfl (.leave rfl .done)))
  have printed : ∃ after rows,
      profFuncPrintResult php (observeAll php (profFuncSetup funcGlobals).1 recursion) =
        some (after, rows) := ⟨_, _, rfl⟩
  obtain ⟨after, rows, printed⟩ := printed
  obtain ⟨shown, reported, exact⟩ :=
    calls_column_exact_iff php php_sorts nested (by decide) funcGlobals printed
  refine ⟨after, rows, shown, printed, reported, fun entry member => (exact entry member).mpr ?_⟩
  have few : (callsNamed php entry.1 recursionCalls).length ≤ 2 := List.length_filter_le ..
  omega

/-! ## A long loop -/

/-- The clocks at some microsecond. -/
def clocksAtMicrosecond (time : Nat) : UnitClocks :=
  ⟨some ⟨Int64.ofNat (time / 1000000), Int64.ofNat (time % 1000000 * 1000)⟩, some ⟨0, 0⟩, 0⟩

/-- One call of a loop: it begins at some microsecond and ends at the next. -/
def loopCall (time : Nat) : Activation × Activation :=
  (calledAt "f" (clocksAtMicrosecond time), calledAt "f" (clocksAtMicrosecond (time + 1)))

def loopCalls (count : Nat) : List (Activation × Activation) := (List.range count).map loopCall

def loopEvents (count : Nat) : List (CallEvent Activation) :=
  (loopCalls count).flatMap fun call => [.enter call.1, .leave call.2]

theorem loop_nested (count : Nat) :
    Nested SameFunction [] (loopEvents count) (loopCalls count) := by
  refine nested_sequence fun call member => ?_
  obtain ⟨time, -, rfl⟩ := List.mem_map.mp member
  rfl

theorem microseconds_at (time : Nat) :
    Timespec.microseconds
        ⟨Int64.ofNat (time / 1000000), Int64.ofNat (time % 1000000 * 1000)⟩ =
      UInt64.ofNat time := by
  have part : Int64.ofNat (time % 1000000 * 1000) / 1000 = Int64.ofNat (time % 1000000) := by
    have quotient : Int64.ofNat (time % 1000000 * 1000 / 1000) =
        Int64.ofNat (time % 1000000 * 1000) / Int64.ofNat 1000 := by
      apply Int64.ofNat_div
      · omega
      · decide
    rw [Nat.mul_div_cancel _ (by decide)] at quotient
    exact quotient.symm
  have whole : Int64.ofNat (time / 1000000) * 1000000 + Int64.ofNat (time % 1000000) =
      Int64.ofNat (time / 1000000 * 1000000 + time % 1000000) := by
    rw [Int64.ofNat_add, Int64.ofNat_mul]
    rfl
  rw [Timespec.microseconds, part, whole, Nat.div_add_mod', Int64.toUInt64_ofNat']

theorem reading_at (name : String) (time : Nat) :
    getProfUnit (calledAt name (clocksAtMicrosecond time)).clocks =
      some ⟨UInt64.ofNat time, 0, 0⟩ := by
  simp only [calledAt, clocksAtMicrosecond, getProfUnit, microseconds_at]
  rfl

theorem wall_at (name : String) (time : Nat) :
    (reading (calledAt name (clocksAtMicrosecond time))).wall = UInt64.ofNat time := by
  rw [reading, reading_at]
  rfl

theorem loop_readable (count : Nat) : AllReadable (loopEvents count) := by
  have readable : ∀ time, Readable (calledAt "f" (clocksAtMicrosecond time)) := by
    intro time
    rw [Readable, reading, reading_at]
    rfl
  intro event member
  obtain ⟨call, called, observed⟩ := List.mem_flatMap.mp member
  obtain ⟨time, -, rfl⟩ := List.mem_map.mp called
  simp only [List.mem_cons, List.not_mem_nil, or_false] at observed
  rcases observed with rfl | rfl
  · exact readable time
  · exact readable (time + 1)

theorem loop_named (count : Nat) :
    callsNamed php (Text.ascii "f") (loopCalls count) = loopCalls count := by
  refine List.filter_eq_self.mpr fun call member => ?_
  obtain ⟨time, -, rfl⟩ := List.mem_map.mp member
  rfl

theorem loop_length (count : Nat) : (loopCalls count).length = count := by
  rw [loopCalls, List.length_map, List.length_range]

/-- The time spent in the loop. -/
theorem loop_wall (count : Nat) :
    (accountOf seconds (loopCalls count)).wallTime = count / 1000000 := by
  have each : ∀ time, seconds (reading (loopCall time).1).wall (reading (loopCall time).2).wall =
      1 / 1000000 := by
    intro time
    have step : UInt64.ofNat (time + 1) - UInt64.ofNat time = 1 := by
      rw [UInt64.ofNat_add, UInt64.add_comm, UInt64.add_sub_cancel]
      rfl
    rw [loopCall, wall_at, wall_at, seconds, step, UInt64.toNat_one, Nat.cast_one]
  have walls : ((loopCalls count).map fun call =>
      seconds (reading call.1).wall (reading call.2).wall) =
        List.replicate count (1 / 1000000 : ℚ) := by
    rw [loopCalls, List.map_map, List.eq_replicate_iff]
    refine ⟨by simp, fun value member => ?_⟩
    obtain ⟨time, -, rfl⟩ := List.mem_map.mp member
    exact each time
  rw [accountOf, walls, List.sum_replicate, nsmul_eq_mul]
  exact mul_one_div _ _

/-- The loop leaves one unit, that of the function it calls. -/
theorem loop_unit {count : Nat} (called : 0 < count) (globals : ProfGlobals) :
    let units := (observeAll php (profFuncSetup globals).1 (loopEvents count)).funcUnits
    units.entries.length ≤ 1 ∧
      (Text.ascii "f", accountOf seconds (loopCalls count)) ∈ units.entries := by
  intro units
  obtain ⟨keys, found⟩ := observed_units php (loop_nested count) (loop_readable count) globals
  constructor
  · have only : units.keys ⊆ [Text.ascii "f"] := by
      intro name member
      rw [keys, List.mem_eraseDups] at member
      obtain ⟨call, called, rfl⟩ := List.mem_map.mp member
      obtain ⟨time, -, rfl⟩ := List.mem_map.mp called
      exact List.mem_singleton_self _
    have fewer := (List.subperm_of_subset units.distinct only).length_le
    rwa [List.length_map] at fewer
  · have nonempty : loopCalls count ≠ [] := by
      rw [← List.length_pos_iff, loop_length]
      exact called
    rw [← find?_eq_some_iff, found, loop_named, unitOf, if_neg nonempty]

theorem observeAll_config (globals : ProfGlobals) (events : List (CallEvent Activation)) :
    (observeAll engine globals events).config = globals.config := by
  induction events generalizing globals with
  | nil => rfl
  | cons event rest ih =>
    rw [observeAll_cons, ih]
    cases event with
    | enter start => exact (RequestProofs.observerBegin_keeps ..).config
    | leave stop => exact (RequestProofs.observerEnd_keeps ..).config

/-- The report after a loop shows its function, with the count reduced to a
signed 32-bit number. -/
theorem loop_row {count : Nat} (called : 0 < count) :
    ∃ after rows, ∃ row ∈ rows,
      profFuncPrintResult php (observeAll php (profFuncSetup funcGlobals).1 (loopEvents count)) =
        some (after, rows) ∧
      row.function = Text.ascii "f" ∧ row.calls.toInt = (count : Int).bmod (2 ^ 32) := by
  obtain ⟨few, present⟩ := loop_unit called funcGlobals
  have config : (observeAll php (profFuncSetup funcGlobals).1 (loopEvents count)).config =
      (profFuncSetup funcGlobals).1.config := observeAll_config _ _
  have creatable : Creatable
      (observeAll php (profFuncSetup funcGlobals).1 (loopEvents count)).config.funcLimit := by
    rw [config]
    decide
  obtain ⟨after, rows, shown, printed, top, rfl⟩ := func_report_shows_top php_sorts creatable
  rw [config] at top
  have long : (0 : ℚ) < (accountOf seconds (loopCalls count)).wallTime := by
    rw [loop_wall]
    positivity
  have row := top.with_room (few.trans (by decide)) present long
  refine ⟨after, _, _, List.mem_map_of_mem row, printed, rfl, ?_⟩
  have counter : (accountOf seconds (loopCalls count)).calls = UInt32.ofNat count := by
    rw [accountOf, loop_length]
  rw [← printed_count, ← counter]
  rfl

/-- A loop of `2 ^ 31` calls, about half an hour of them, is shown as so many
calls below zero. -/
theorem long_loop_shows_negative_calls :
    Nested SameFunction [] (loopEvents (2 ^ 31)) (loopCalls (2 ^ 31)) ∧
      AllReadable (loopEvents (2 ^ 31)) ∧
      ∃ after rows, ∃ row ∈ rows,
        profFuncPrintResult php
            (observeAll php (profFuncSetup funcGlobals).1 (loopEvents (2 ^ 31))) =
          some (after, rows) ∧
        row.function = Text.ascii "f" ∧
        row.calls.toInt = -2147483648 ∧
        (callsNamed php (Text.ascii "f") (loopCalls (2 ^ 31))).length = 2147483648 := by
  have called : 0 < 2 ^ 31 := by decide
  obtain ⟨after, rows, row, member, printed, function, shown⟩ := loop_row called
  refine ⟨loop_nested _, loop_readable _, after, rows, row, member, printed, function, ?_, ?_⟩
  · rw [shown]
    rfl
  · rw [loop_named, loop_length]
    rfl

end PhpProf.CallCountProofs
