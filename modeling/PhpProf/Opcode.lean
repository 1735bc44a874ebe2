import PhpProf.Helpers

/-! `opcode.c`: the handler that runs before every opcode and charges the time
since the last change of position, and its report. -/
namespace PhpProf
open Text

def profOpcodeSetup (globals : ProfGlobals) : ProfGlobals × ZendResult :=
  ({ globals with opcodeTimings := .empty }, .success)

/-- `prof_opcode_teardown`. The tables are destroyed; their stale contents stay
in the model. -/
def profOpcodeTeardown (globals : ProfGlobals) : ProfGlobals × ZendResult := (globals, .success)

/-- An opcode about to run: the file of its op array, its line, and the clock at
that moment. -/
structure OpcodeEvent where
  filename : ZendString
  lineno : UInt32
  clock : Option Timespec
  deriving DecidableEq

/-- `zend_hash_lookup`, `array_init_size` for a new file, and
`zend_hash_index_update`. -/
def storeTiming (opcodeTimings : OpcodeTimings) (filename : Bytes) (lineno : UInt32)
    (oplineTime : ℚ) : OpcodeTimings :=
  opcodeTimings.accumulate filename .empty fun fileTimings => fileTimings.update lineno oplineTime

def profOpcodeHandlerCountTimings (globals : ProfGlobals) (event : OpcodeEvent) : ProfGlobals :=
  if globals.opcodeLastFile = none ∧ globals.opcodeLastLineno = 0 then
    let globals :=
      { globals with
        opcodeLastFile := some event.filename.addr
        opcodeLastLineno := event.lineno
        opcodeLastTime := getTime event.clock }
    if globals.opcodeLastTime = 0 then profAddWarning globals "get time" else globals
  else if some event.filename.addr = globals.opcodeLastFile ∧
      event.lineno = globals.opcodeLastLineno then globals
  else
    let endTime := getTime event.clock
    if endTime = 0 then profAddWarning globals "get time"
    else
      let oplineTime := seconds globals.opcodeLastTime endTime
      { globals with
        -- the table of the file being entered, with the line being left
        opcodeTimings :=
          storeTiming globals.opcodeTimings event.filename.val globals.opcodeLastLineno oplineTime
        opcodeLastFile := some event.filename.addr
        opcodeLastLineno := event.lineno
        opcodeLastTime := endTime }

/-! ## The report -/

/-- `zend_hash_next_free_element`: one more than the largest line ever stored. -/
def zendHashNextFreeElement (fileTimings : OrderedTable UInt32 ℚ) : Nat :=
  (fileTimings.keys.map fun line => line.toNat + 1).foldl max 0

/-- `PROF_OPCODE_EMPTY_TIMING`. -/
def profOpcodeEmptyTiming : ℚ := -1

/-- A row of the table; `%d` reads the line as a signed number. -/
structure OpcodeRow where
  file : Bytes
  line : Int32
  time : ℚ
  deriving DecidableEq

/-- The inner loop of the report: every line below `max_line` is looked up. -/
def profOpcodeFileRows (opcodeThreshold : ℚ) (filename : Bytes)
    (fileTimings : OrderedTable UInt32 ℚ) : List OpcodeRow :=
  let maxLine := UInt32.ofNat (zendHashNextFreeElement fileTimings)
  (List.range maxLine.toNat).filterMap fun line =>
    match fileTimings.find? (UInt32.ofNat line) with
    | none => none
    | some timing =>
      if timing = profOpcodeEmptyTiming then none
      else if timing ≤ opcodeThreshold then none
      else some ⟨cString filename, (UInt32.ofNat line).toInt32, timing⟩

def profOpcodePrintResult (globals : ProfGlobals) : List OpcodeRow :=
  globals.opcodeTimings.entries.flatMap fun (filename, fileTimings) =>
    profOpcodeFileRows globals.config.opcodeThreshold filename fileTimings

end PhpProf
