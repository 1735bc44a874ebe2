import PhpProf.CallNesting
import PhpProf.Request

/-! What the call observer accounts. The reference is the list of completed
calls, each with the readings of its own begin and end; a failed reading loses
the pairing on the stack, but then no table is printed. -/
namespace PhpProf.FuncProofs
open CallNesting OrderedTable

variable {engine : Engine}

/-- A frame at the moment its begin or its end is observed. -/
structure Activation where
  func : ZendFunction
  clocks : UnitClocks
  deriving DecidableEq

/-- What the observer does at one event. -/
def observe (engine : Engine) (globals : ProfGlobals) : CallEvent Activation → ProfGlobals
  | .enter start => profObserverBegin globals start.clocks
  | .leave stop => profObserverEnd engine globals stop.func stop.clocks

def observeAll (engine : Engine) (globals : ProfGlobals) (events : List (CallEvent Activation)) :
    ProfGlobals :=
  events.foldl (observe engine) globals

/-- A call ends in the function it began in. -/
def SameFunction (start stop : Activation) : Prop := start.func = stop.func

/-- The reading taken at an activation. -/
def reading (activation : Activation) : ProfUnit :=
  (getProfUnit activation.clocks).getD ⟨0, 0, 0⟩

/-- The reading succeeded. -/
def Readable (activation : Activation) : Prop :=
  getProfUnit activation.clocks = some (reading activation)

instance : Decidable (Readable activation) := inferInstanceAs (Decidable (_ = _))

def AllReadable (events : List (CallEvent Activation)) : Prop :=
  ∀ event ∈ events, Readable (payload event)

instance : Decidable (AllReadable events) := inferInstanceAs (Decidable (∀ event ∈ events, _))

theorem unreadable {activation : Activation} (failed : ¬ Readable activation) :
    getProfUnit activation.clocks = none := by
  unfold Readable reading at failed
  cases read : getProfUnit activation.clocks with
  | none => rfl
  | some unit => simp [read] at failed

/-! ## One event -/

theorem begin_reads (globals : ProfGlobals) {start : Activation} (readable : Readable start) :
    profObserverBegin globals start.clocks =
      { globals with funcStartUnits := reading start :: globals.funcStartUnits } := by
  unfold profObserverBegin
  rw [readable]

/-- Charge a completed call to its function. -/
def countCall (engine : Engine) (units : OrderedTable Bytes ProfFuncUnit)
    (start : ProfUnit) (stop : Activation) : OrderedTable Bytes ProfFuncUnit :=
  units.accumulate (functionName engine stop.func) ⟨0, 0, 0, 0⟩ fun unit =>
    unit.charge start (reading stop)

theorem end_reads {globals : ProfGlobals} {stop : Activation} {start : ProfUnit}
    {outer : List ProfUnit} (readable : Readable stop)
    (top : globals.funcStartUnits = start :: outer) :
    profObserverEnd engine globals stop.func stop.clocks =
      { globals with
        funcStartUnits := outer
        funcUnits := countCall engine globals.funcUnits start stop } := by
  unfold profObserverEnd
  rw [readable]
  simp only [getFunctionName_eq, top]
  cases found : globals.funcUnits.find? (functionName engine stop.func) with
  | none => rfl
  | some unit =>
    have kept : globals.funcUnits.add (functionName engine stop.func) ⟨0, 0, 0, 0⟩ =
        globals.funcUnits :=
      add_of_mem _ ((mem_keys_iff _).mpr ⟨unit, found⟩)
    rw [countCall, accumulate, kept]

theorem observe_adds_errors (engine : Engine) : OnlyAddsErrors (observe engine) := by
  intro globals event
  cases event with
  | enter start =>
    simp only [observe, profObserverBegin]
    split
    · exact List.prefix_append ..
    · exact List.prefix_rfl
  | leave stop =>
    simp only [observe, profObserverEnd]
    split
    · exact List.prefix_append ..
    · split
      · exact List.prefix_append ..
      · split
        · exact List.prefix_append ..
        · exact List.prefix_rfl

/-- A failed reading is always recorded, whatever the stack holds. -/
theorem observe_unreadable (globals : ProfGlobals) {event : CallEvent Activation}
    (failed : ¬ Readable (payload event)) : (observe engine globals event).errors ≠ [] := by
  cases event with
  | enter start =>
    have missing : getProfUnit start.clocks = none := unreadable failed
    simp [observe, profObserverBegin, missing, profAddWarning, profAddErrorMessage]
  | leave stop =>
    have missing : getProfUnit stop.clocks = none := unreadable failed
    simp [observe, profObserverEnd, missing, profAddWarning, profAddErrorMessage]

/-! ## A run of events -/

theorem observeAll_cons (globals : ProfGlobals) (event : CallEvent Activation)
    (rest : List (CallEvent Activation)) :
    observeAll engine globals (event :: rest) =
      observeAll engine (observe engine globals event) rest := rfl

/-- A run that records nothing has read every clock. -/
theorem observeAll_readable {globals : ProfGlobals} {events : List (CallEvent Activation)}
    (silent : (observeAll engine globals events).errors = []) : AllReadable events := by
  induction events generalizing globals with
  | nil => simp [AllReadable]
  | cons event rest ih =>
    have kept : (observe engine globals event).errors = [] :=
      (observe_adds_errors engine).silent silent
    intro other member
    cases List.mem_cons.mp member with
    | inl same =>
      subst same
      apply Classical.byContradiction
      intro failed
      exact observe_unreadable globals failed kept
    | inr later => exact ih silent other later

/-- The table once completed calls are charged in order. -/
def charged (engine : Engine) (units : OrderedTable Bytes ProfFuncUnit)
    (calls : List (Activation × Activation)) : OrderedTable Bytes ProfFuncUnit :=
  collect (fun call => functionName engine call.2.func) (fun _ => ⟨0, 0, 0, 0⟩)
    (fun unit call => unit.charge (reading call.1) (reading call.2)) units calls

theorem charged_cons (units : OrderedTable Bytes ProfFuncUnit) (start stop : Activation)
    (calls : List (Activation × Activation)) :
    charged engine units ((start, stop) :: calls) =
      charged engine (countCall engine units (reading start) stop) calls := rfl

/-- While the stack holds the readings of the calls that run, a nested run
charges exactly the calls it completes and records nothing. -/
theorem observeAll_nested {pairs : Activation → Activation → Prop} {active : List Activation}
    {events : List (CallEvent Activation)} {calls : List (Activation × Activation)}
    (nested : Nested pairs active events calls) (globals : ProfGlobals)
    (stack : globals.funcStartUnits = active.map reading) (readable : AllReadable events) :
    (observeAll engine globals events).funcUnits = charged engine globals.funcUnits calls ∧
      (observeAll engine globals events).errors = globals.errors := by
  induction nested generalizing globals with
  | done => exact ⟨rfl, rfl⟩
  | @enter start active rest calls below ih =>
    have first : Readable start := readable (.enter start) (by simp)
    have later : AllReadable rest := fun event member =>
      readable event (List.mem_cons_of_mem _ member)
    have step : observe engine globals (.enter start) =
        { globals with funcStartUnits := reading start :: globals.funcStartUnits } :=
      begin_reads globals first
    rw [observeAll_cons, step]
    exact ih _ (by simp [stack]) later
  | @leave start stop active rest calls own after ih =>
    have first : Readable stop := readable (.leave stop) (by simp)
    have later : AllReadable rest := fun event member =>
      readable event (List.mem_cons_of_mem _ member)
    have step : observe engine globals (.leave stop) =
        { globals with
          funcStartUnits := active.map reading
          funcUnits := countCall engine globals.funcUnits (reading start) stop } :=
      end_reads first stack
    rw [observeAll_cons, step, charged_cons]
    exact ih _ rfl later

/-! ## Accounts -/

/-- The signed number of bytes between two readings. -/
def grown (call : Activation × Activation) : Int :=
  (reading call.2).memory.toNat - (reading call.1).memory.toNat

theorem memory_difference (start stop : UInt64) :
    (stop - start).toInt64 = Int64.ofInt (stop.toNat - start.toNat) := by
  have cast : ∀ n : UInt64, Int64.ofInt n.toNat = n.toInt64 := by
    intro n
    rw [Int64.ofInt_eq_ofNat, ← UInt64.toInt64_ofNat', UInt64.ofNat_toNat]
  rw [UInt64.toInt64_sub, Int64.ofInt_sub, cast, cast]

/-- What completed calls of one function amount to, for a difference of clocks. -/
def accountOf (difference : UInt64 → UInt64 → ℚ) (calls : List (Activation × Activation)) :
    ProfFuncUnit where
  wallTime := (calls.map fun call => difference (reading call.1).wall (reading call.2).wall).sum
  cpuTime := (calls.map fun call => difference (reading call.1).cpu (reading call.2).cpu).sum
  memory := Int64.ofInt (calls.map grown).sum
  calls := UInt32.ofNat calls.length

/-- The unit of a function: none until a call of it has completed. -/
def unitOf (difference : UInt64 → UInt64 → ℚ) (calls : List (Activation × Activation)) :
    Option ProfFuncUnit :=
  if calls = [] then none else some (accountOf difference calls)

/-- The completed calls of one function. -/
def callsNamed (engine : Engine) (name : Bytes) (calls : List (Activation × Activation)) :
    List (Activation × Activation) :=
  calls.filter fun call => functionName engine call.2.func = name

theorem accountOf_concat (calls : List (Activation × Activation)) (start stop : Activation) :
    accountOf seconds (calls ++ [(start, stop)]) =
      (accountOf seconds calls).charge (reading start) (reading stop) := by
  simp only [accountOf, ProfFuncUnit.charge, List.map_append, List.map_cons, List.map_nil,
    List.sum_append, List.sum_singleton, List.length_append, List.length_singleton,
    Int64.ofInt_add, grown, memory_difference, UInt32.ofNat_add]
  rfl

theorem fold_charge (calls : List (Activation × Activation)) :
    calls.foldl (fun unit call => unit.charge (reading call.1) (reading call.2)) ⟨0, 0, 0, 0⟩ =
      accountOf seconds calls := by
  induction calls using List.reverseRecOn with
  | nil => rfl
  | append_singleton calls call ih =>
    rw [List.foldl_append, ih, accountOf_concat]
    rfl

theorem find?_charged (calls : List (Activation × Activation)) (name : Bytes) :
    (charged engine .empty calls).find? name = unitOf seconds (callsNamed engine name calls) := by
  rw [charged, find?_collect, callsNamed]
  cases named : calls.filter fun call => functionName engine call.2.func = name with
  | nil => rfl
  | cons first rest =>
    rw [gathered, fold_charge, unitOf, if_neg (List.cons_ne_nil first rest)]

/-- Neither clock went back between two events. -/
def NeverBack (earlier later : Activation) : Prop :=
  (reading earlier).wall ≤ (reading later).wall ∧ (reading earlier).cpu ≤ (reading later).cpu

instance : DecidableRel NeverBack := fun _ _ => inferInstanceAs (Decidable (_ ∧ _))

/-- What the monotonic clock and the process clock promise over a run. -/
def ClocksAdvance (events : List (CallEvent Activation)) : Prop :=
  (events.map payload).Pairwise NeverBack

instance : Decidable (ClocksAdvance events) := inferInstanceAs (Decidable (List.Pairwise _ _))

theorem accountOf_exact {calls : List (Activation × Activation)}
    (ordered : ∀ call ∈ calls, NeverBack call.1 call.2) :
    accountOf seconds calls = accountOf elapsed calls := by
  have wall : (calls.map fun call => seconds (reading call.1).wall (reading call.2).wall) =
      calls.map fun call => elapsed (reading call.1).wall (reading call.2).wall :=
    List.map_congr_left fun call member => seconds_eq_elapsed (ordered call member).1
  have cpu : (calls.map fun call => seconds (reading call.1).cpu (reading call.2).cpu) =
      calls.map fun call => elapsed (reading call.1).cpu (reading call.2).cpu :=
    List.map_congr_left fun call member => seconds_eq_elapsed (ordered call member).2
  simp only [accountOf, wall, cpu]

theorem unitOf_exact {events : List (CallEvent Activation)}
    {calls : List (Activation × Activation)} {pairs : Activation → Activation → Prop}
    (nested : Nested pairs [] events calls) (advance : ClocksAdvance events) (name : Bytes) :
    unitOf seconds (callsNamed engine name calls) =
      unitOf elapsed (callsNamed engine name calls) := by
  have ordered := nested_ordered nested advance
  have own : ∀ call ∈ callsNamed engine name calls, NeverBack call.1 call.2 := fun call member =>
    ordered call (List.mem_of_mem_filter member)
  rw [unitOf, unitOf, accountOf_exact own]

/-- After setup, a nested run that reads every clock holds one unit for each
function with a completed call, by first completion. -/
theorem observed_units (engine : Engine) {pairs : Activation → Activation → Prop}
    {events : List (CallEvent Activation)} {calls : List (Activation × Activation)}
    (nested : Nested pairs [] events calls) (readable : AllReadable events)
    (globals : ProfGlobals) :
    let units := (observeAll engine (profFuncSetup globals).1 events).funcUnits
    units.keys = (calls.map fun call => functionName engine call.2.func).eraseDups ∧
      ∀ name, units.find? name = unitOf seconds (callsNamed engine name calls) := by
  intro units
  have run : units = charged engine .empty calls :=
    (observeAll_nested nested (profFuncSetup globals).1 rfl readable).1
  rw [run]
  exact ⟨keys_collect _ _ _ calls, find?_charged calls⟩

/-! ## What is shown -/

/-- The table is printed only when nothing has been recorded. -/
theorem table_printed_silent {env : RshutdownEnv} {globals final : ProfGlobals}
    {outputs : List Output} {result : ZendResult} {rows : List FuncRow}
    (ended : phpRshutdown engine env globals = some (final, outputs, result))
    (printed : .funcTable rows ∈ outputs) : globals.errors = [] :=
  (phpRshutdown_reports ended printed (by simp) (by simp)).1

/-- Whenever RSHUTDOWN prints the table, every reading has succeeded and the
units are the exact accounts of the completed calls, each charged with its own
begin. A failed begin or end leaves a warning, and with it no table. -/
theorem printed_table_accounts_calls (engine : Engine) (env : RshutdownEnv)
    (globals : ProfGlobals) {events : List (CallEvent Activation)}
    {calls : List (Activation × Activation)} (nested : Nested SameFunction [] events calls)
    {final : ProfGlobals} {outputs : List Output} {result : ZendResult} {rows : List FuncRow}
    (ended : phpRshutdown engine env (observeAll engine (profFuncSetup globals).1 events) =
      some (final, outputs, result))
    (printed : .funcTable rows ∈ outputs) :
    let units := (observeAll engine (profFuncSetup globals).1 events).funcUnits
    AllReadable events ∧
      units.keys = (calls.map fun call => functionName engine call.2.func).eraseDups ∧
      (∀ name, units.find? name = unitOf seconds (callsNamed engine name calls)) ∧
      (ClocksAdvance events →
        ∀ name, units.find? name = unitOf elapsed (callsNamed engine name calls)) := by
  intro units
  have readable := observeAll_readable (table_printed_silent ended printed)
  obtain ⟨keys, found⟩ := observed_units engine nested readable globals
  refine ⟨readable, keys, found, fun advance name => ?_⟩
  rw [← unitOf_exact nested advance]
  exact found name

/-- Clocks at some microseconds of wall and CPU time, with some bytes in use. -/
def clocksAt (wall cpu : Int64) (memory : UInt64) : UnitClocks :=
  ⟨some ⟨0, wall * 1000⟩, some ⟨0, cpu * 1000⟩, memory⟩

def plainFunction (name : String) : ZendFunction where
  type := .userFunction
  closure := false
  scope := none
  functionName := some (Text.ascii name)
  opArray := ⟨⟨1, Text.ascii "a.php"⟩, 1⟩

def calledAt (name : String) (clocks : UnitClocks) : Activation := ⟨plainFunction name, clocks⟩

/-- A function calls itself once and frees what the inner call allocated. -/
def recursion : List (CallEvent Activation) :=
  [.enter (calledAt "f" (clocksAt 10 1 100)), .enter (calledAt "f" (clocksAt 20 2 300)),
    .leave (calledAt "f" (clocksAt 50 3 900)), .leave (calledAt "f" (clocksAt 60 4 50))]

def funcGlobals : ProfGlobals := .fresh ⟨.func, .console, 1000, 20, 1, 50, 0, 0⟩

theorem recursion_is_accounted :
    (observeAll php (profFuncSetup funcGlobals).1 recursion).funcUnits.find? (Text.ascii "f") =
      some ⟨80 / 1000000, 4 / 1000000, 550, 2⟩ := by
  have nested : Nested SameFunction [] recursion
      [(calledAt "f" (clocksAt 20 2 300), calledAt "f" (clocksAt 50 3 900)),
        (calledAt "f" (clocksAt 10 1 100), calledAt "f" (clocksAt 60 4 50))] :=
    .enter (.enter (.leave rfl (.leave rfl .done)))
  have ended : ∃ final rows outputs result,
      phpRshutdown php .quiet (observeAll php (profFuncSetup funcGlobals).1 recursion) =
        some (final, outputs, result) ∧ .funcTable rows ∈ outputs :=
    ⟨_, _, _, _, rfl, List.mem_append_left _ (List.mem_append_right _ (List.mem_singleton_self _))⟩
  obtain ⟨final, rows, outputs, result, ended, printed⟩ := ended
  have accounts := printed_table_accounts_calls php .quiet funcGlobals nested ended printed
  rw [accounts.2.2.2 (by decide)]
  decide +kernel

end PhpProf.FuncProofs
