import PhpProf.PointerTable
import PhpProf.Request

/-! The memory behind `errors.c`, `func.c` and `opcode.c`. Readings, units, errors
and line tables are blocks behind pointers, names are counted strings, and every
function takes and gives back what it does in the source. What reads, writes or
frees a block that is not live, or gives back a reference that was not taken, has
no result. Sampling mode has a memory of its own. -/
namespace PhpProf
open PointerTable

/-- What a block holds. The `HashTable` that `ht_slice` returns is one too. -/
inductive Block where
  | unit (unit : ProfUnit)
  | funcUnit (funcUnit : ProfFuncUnit)
  | error (error : ProfError)
  | fileTimings (fileTimings : OrderedTable UInt32 ℚ)
  | slice

namespace Block

/-- Write to the fields of a reading. -/
def setUnit (change : ProfUnit → ProfUnit) : Block → Block
  | .unit reading => .unit (change reading)
  | block => block

def setFuncUnit (change : ProfFuncUnit → ProfFuncUnit) : Block → Block
  | .funcUnit counted => .funcUnit (change counted)
  | block => block

def setFileTimings (change : OrderedTable UInt32 ℚ → OrderedTable UInt32 ℚ) : Block → Block
  | .fileTimings stored => .fileTimings (change stored)
  | block => block

end Block

/-- The globals with pointers. The stack of start readings holds copies; the
strings are counted by address. -/
structure ProfMemory where
  config : ProfConfig
  startTime : UInt64
  errors : List Nat
  funcStartUnits : List ProfUnit
  funcUnits : OrderedTable Bytes Bucket
  opcodeLastFile : Option Nat
  opcodeLastLineno : UInt32
  opcodeLastTime : UInt64
  opcodeTimings : OrderedTable Bytes Bucket
  heap : Heap Block
  strings : References Nat

namespace ProfMemory

/-- The memory of a fresh process. -/
def fresh (config : ProfConfig) : ProfMemory where
  config := config
  startTime := 0
  errors := []
  funcStartUnits := []
  funcUnits := .empty
  opcodeLastFile := none
  opcodeLastLineno := 0
  opcodeLastTime := 0
  opcodeTimings := .empty
  heap := .empty
  strings := .empty

/-- `emalloc`. The new block is the one at `heap.next`. -/
def emalloc (memory : ProfMemory) (block : Block) : ProfMemory :=
  { memory with heap := memory.heap.alloc block }

def efree (memory : ProfMemory) (ptr : Nat) : Option ProfMemory := do
  let _ ← memory.heap.cells ptr
  return { memory with heap := memory.heap.free ptr }

/-- `zend_string_addref`. -/
def addref (memory : ProfMemory) (addr : Nat) : ProfMemory :=
  { memory with strings := memory.strings.take addr }

/-- `zend_string_release`. -/
def release (memory : ProfMemory) (addr : Nat) : Option ProfMemory :=
  if memory.strings.released addr < memory.strings.taken addr then
    some { memory with strings := memory.strings.release addr }
  else none

/-- The reading a pointer points to. -/
def unitAt (memory : ProfMemory) (ptr : Nat) : Option ProfUnit := do
  let .unit unit ← memory.heap.cells ptr | none
  return unit

/-- The unit a pointer points to. -/
def funcUnitAt (memory : ProfMemory) (ptr : Nat) : Option ProfFuncUnit := do
  let .funcUnit funcUnit ← memory.heap.cells ptr | none
  return funcUnit

/-- The error a pointer points to. -/
def errorAt (memory : ProfMemory) (ptr : Nat) : Option ProfError := do
  let .error error ← memory.heap.cells ptr | none
  return error

/-- The line table a pointer points to. -/
def fileTimingsAt (memory : ProfMemory) (ptr : Nat) : Option (OrderedTable UInt32 ℚ) := do
  let .fileTimings fileTimings ← memory.heap.cells ptr | none
  return fileTimings

/-- Write to the reading a pointer points to. -/
def writeUnit (memory : ProfMemory) (ptr : Nat) (change : ProfUnit → ProfUnit) :
    Option ProfMemory := do
  let _ ← memory.unitAt ptr
  return { memory with heap := memory.heap.modify ptr (.setUnit change) }

def writeFuncUnit (memory : ProfMemory) (ptr : Nat) (change : ProfFuncUnit → ProfFuncUnit) :
    Option ProfMemory := do
  let _ ← memory.funcUnitAt ptr
  return { memory with heap := memory.heap.modify ptr (.setFuncUnit change) }

def writeFileTimings (memory : ProfMemory) (ptr : Nat)
    (change : OrderedTable UInt32 ℚ → OrderedTable UInt32 ℚ) : Option ProfMemory := do
  let _ ← memory.fileTimingsAt ptr
  return { memory with heap := memory.heap.modify ptr (.setFileTimings change) }

/-! ## `errors.c` -/

def profInitErrors (memory : ProfMemory) : ProfMemory := { memory with errors := [] }

/-- `prof_shutdown_errors`. The destroyed table holds nothing. -/
def profShutdownErrors (memory : ProfMemory) : Option ProfMemory := do
  let memory ← memory.errors.foldlM efree memory
  return { memory with errors := [] }

def profAddErrorMessage (memory : ProfMemory) (level : ProfErrorLevel) (message : String) :
    ProfMemory :=
  let error := memory.heap.next
  let memory := memory.emalloc (.error ⟨level, message⟩)
  { memory with errors := memory.errors ++ [error] }

def profAddWarning (memory : ProfMemory) (message : String) : ProfMemory :=
  memory.profAddErrorMessage .warning message

def profHasErrors (memory : ProfMemory) : Bool := !memory.errors.isEmpty

/-- `prof_print_errors`, which reads every error. -/
def profPrintErrors (memory : ProfMemory) : Option (List ProfError) :=
  memory.errors.mapM memory.errorAt

/-! ## `func.c` -/

def profFuncSetup (memory : ProfMemory) : ProfMemory × ZendResult :=
  ({ memory with funcUnits := .empty, funcStartUnits := [] }, .success)

/-- `get_prof_unit`, which fills its block as it reads the clocks. -/
def getProfUnit (memory : ProfMemory) (clocks : UnitClocks) :
    Option (ProfMemory × Option Nat) := do
  let unit := memory.heap.next
  let memory := memory.emalloc (.unit ⟨0, 0, 0⟩)
  match clocks.monotonicRaw with
  | none => return (← memory.efree unit, none)
  | some wall =>
    let memory ← memory.writeUnit unit fun unit => { unit with wall := wall.microseconds }
    match clocks.processCputime with
    | none => return (← memory.efree unit, none)
    | some cpu =>
      let memory ← memory.writeUnit unit fun unit => { unit with cpu := cpu.microseconds }
      let memory ← memory.writeUnit unit fun unit => { unit with memory := clocks.memoryUsage }
      return (memory, some unit)

def profObserverBegin (memory : ProfMemory) (clocks : UnitClocks) : Option ProfMemory := do
  match ← memory.getProfUnit clocks with
  | (memory, none) => return memory.profAddWarning "get prof unit"
  | (memory, some unit) =>
    let start ← memory.unitAt unit
    efree { memory with funcStartUnits := start :: memory.funcStartUnits } unit

/-- A zeroed unit in the table, which takes a reference to its key. -/
def createFuncUnit (memory : ProfMemory) (functionName : Bytes) (nameAddr : Nat) : ProfMemory :=
  let funcUnit := memory.heap.next
  let memory := (memory.emalloc (.funcUnit ⟨0, 0, 0, 0⟩)).addref nameAddr
  { memory with funcUnits := memory.funcUnits.add functionName ⟨nameAddr, funcUnit⟩ }

/-- The unit of a name, from the table or new in it. -/
def lookupFuncUnit (memory : ProfMemory) (functionName : Bytes) (nameAddr : Nat) :
    ProfMemory × Nat :=
  match memory.funcUnits.find? functionName with
  | some bucket => (memory, bucket.ptr)
  | none => (memory.createFuncUnit functionName nameAddr, memory.heap.next)

/-- `prof_observer_end`. The name is a string of the caller's, at the address
given. -/
def profObserverEnd (engine : Engine) (memory : ProfMemory) (func : ZendFunction)
    (nameAddr : Nat) (clocks : UnitClocks) : Option ProfMemory := do
  match ← memory.getProfUnit clocks with
  | (memory, none) => return memory.profAddWarning "get prof unit"
  | (memory, some endUnit) =>
    match getFunctionName engine func with
    | none =>
      let memory ← memory.efree endUnit
      return memory.profAddWarning "get function name"
    | some functionName =>
      let memory := memory.addref nameAddr
      match memory.funcStartUnits with
      | [] =>
        let memory ← memory.efree endUnit
        let memory ← memory.release nameAddr
        return memory.profAddWarning "get func start unit"
      | unit :: funcStartUnits =>
        let (memory, funcUnit) :=
          lookupFuncUnit { memory with funcStartUnits } functionName nameAddr
        let stop ← memory.unitAt endUnit
        let memory ← memory.writeFuncUnit funcUnit fun funcUnit => funcUnit.charge unit stop
        let memory ← memory.efree endUnit
        memory.release nameAddr

/-- `prof_compare_func_units`, of the units that have been read through the
pointers. -/
def profCompareFuncUnits (unitAt : Nat → ProfFuncUnit) : Compare Bucket := fun first second =>
  PhpProf.profCompareFuncUnits (first.1, unitAt first.2.ptr) (second.1, unitAt second.2.ptr)

/-- `zend_hash_sort` of the units, which follows the pointers of the table. -/
def sortFuncUnits (engine : Engine) (memory : ProfMemory) : Option ProfMemory := do
  let _ ← (pointers memory.funcUnits).mapM memory.funcUnitAt
  let compare := profCompareFuncUnits fun ptr => (memory.funcUnitAt ptr).getD ⟨0, 0, 0, 0⟩
  return { memory with funcUnits := engine.zendHashSort compare memory.funcUnits }

/-- `ht_slice`. The new table is a block with references to its keys. -/
def htSlice (memory : ProfMemory) (ht : OrderedTable Bytes Bucket) (limit : UInt64) :
    Option (ProfMemory × Nat × OrderedTable Bytes Bucket) := do
  let res := memory.heap.next
  let memory := memory.emalloc .slice
  let slice ← PhpProf.htSlice (ht.entries.map some) limit
  return ((keyReferences slice).foldl addref memory, res, slice)

/-- `prof_func_print_result`, which reads the units of the slice. Destroying the slice
frees no unit. -/
def profFuncPrintResult (engine : Engine) (memory : ProfMemory) : Option ProfMemory := do
  let memory ← memory.sortFuncUnits engine
  let (memory, res, funcUnits) ← memory.htSlice memory.funcUnits memory.config.funcLimit
  let _ ← (pointers funcUnits).mapM memory.funcUnitAt
  let memory ← (keyReferences funcUnits).foldlM release memory
  memory.efree res

/-- `prof_func_teardown`. The destroyed table and stack hold nothing. -/
def profFuncTeardown (memory : ProfMemory) : Option (ProfMemory × ZendResult) := do
  let memory ← (pointers memory.funcUnits).foldlM efree memory
  let memory ← (keyReferences memory.funcUnits).foldlM release memory
  return ({ memory with funcUnits := .empty, funcStartUnits := [] }, .success)

/-! ## `opcode.c` -/

def profOpcodeSetup (memory : ProfMemory) : ProfMemory × ZendResult :=
  ({ memory with opcodeTimings := .empty }, .success)

/-- `zend_hash_lookup` and `array_init_size` for a new file. -/
def createFileTimings (memory : ProfMemory) (filename : ZendString) : ProfMemory :=
  let fileTimings := memory.heap.next
  let memory := (memory.emalloc (.fileTimings .empty)).addref filename.addr
  { memory with
    opcodeTimings := memory.opcodeTimings.add filename.val ⟨filename.addr, fileTimings⟩ }

/-- The line table of a file, from the table or new in it. -/
def lookupFileTimings (memory : ProfMemory) (filename : ZendString) : ProfMemory × Nat :=
  match memory.opcodeTimings.find? filename.val with
  | some bucket => (memory, bucket.ptr)
  | none => (memory.createFileTimings filename, memory.heap.next)

def profOpcodeHandlerCountTimings (memory : ProfMemory) (event : OpcodeEvent) :
    Option ProfMemory := do
  if memory.opcodeLastFile = none ∧ memory.opcodeLastLineno = 0 then
    let memory :=
      { memory with
        opcodeLastFile := some event.filename.addr
        opcodeLastLineno := event.lineno
        opcodeLastTime := getTime event.clock }
    if memory.opcodeLastTime = 0 then return memory.profAddWarning "get time" else return memory
  else if some event.filename.addr = memory.opcodeLastFile ∧
      event.lineno = memory.opcodeLastLineno then return memory
  else
    let endTime := getTime event.clock
    if endTime = 0 then return memory.profAddWarning "get time"
    else
      let (memory, fileTimings) := memory.lookupFileTimings event.filename
      let oplineTime := seconds memory.opcodeLastTime endTime
      let line := memory.opcodeLastLineno
      let memory ← memory.writeFileTimings fileTimings fun fileTimings =>
        fileTimings.update line oplineTime
      return { memory with
        opcodeLastFile := some event.filename.addr
        opcodeLastLineno := event.lineno
        opcodeLastTime := endTime }

/-- `prof_opcode_print_result`, which reads every line table. -/
def profOpcodePrintResult (memory : ProfMemory) : Option ProfMemory := do
  let _ ← (pointers memory.opcodeTimings).mapM memory.fileTimingsAt
  return memory

/-- `prof_opcode_teardown`. The destroyed table holds nothing. -/
def profOpcodeTeardown (memory : ProfMemory) : Option (ProfMemory × ZendResult) := do
  let memory ← (pointers memory.opcodeTimings).foldlM efree memory
  let memory ← (keyReferences memory.opcodeTimings).foldlM release memory
  return ({ memory with opcodeTimings := .empty }, .success)

/-! ## `prof.c` -/

/-- `PHP_RINIT_FUNCTION(prof)`. -/
def phpRinit (env : RinitEnv) (memory : ProfMemory) : ProfMemory × ZendResult :=
  let memory := { memory.profInitErrors with startTime := getWallTime env.realtime }
  if memory.startTime = 0 then (memory, .failure)
  else
    match memory.config.mode with
    | .func => memory.profFuncSetup
    | .opcode => memory.profOpcodeSetup
    | .sampling | .none => (memory, .success)

/-- An event, and the address of the name that its handler asks for, if it does. -/
structure NamedEvent where
  event : Event
  nameAddr : Nat

def deliver (engine : Engine) (memory : ProfMemory) (named : NamedEvent) : Option ProfMemory :=
  match memory.config.mode, named.event with
  | .func, .observerBegin func clocks =>
    if profObserver ⟨some func⟩ then memory.profObserverBegin clocks else some memory
  | .func, .observerEnd func clocks =>
    if profObserver ⟨some func⟩ then memory.profObserverEnd engine func named.nameAddr clocks
    else some memory
  | .opcode, .opcode event => memory.profOpcodeHandlerCountTimings event
  | _, _ => some memory

def deliverAll (engine : Engine) (memory : ProfMemory) (events : List NamedEvent) :
    Option ProfMemory :=
  events.foldlM (deliver engine) memory

/-- The report of the mode. -/
def profReport (engine : Engine) (memory : ProfMemory) : Option ProfMemory :=
  match memory.config.mode with
  | .func => memory.profFuncPrintResult engine
  | .opcode => memory.profOpcodePrintResult
  | .sampling | .none => some memory

def profTeardown (memory : ProfMemory) : Option (ProfMemory × ZendResult) :=
  match memory.config.mode with
  | .func => memory.profFuncTeardown
  | .opcode => memory.profOpcodeTeardown
  | .sampling | .none => some (memory, .success)

/-- `PHP_RSHUTDOWN_FUNCTION(prof)`; no result after a fatal error. Whether or not there is
a report, the errors are printed. -/
def phpRshutdown (engine : Engine) (memory : ProfMemory) : Option (ProfMemory × ZendResult) := do
  let memory ← (if memory.profHasErrors then some memory else memory.profReport engine)
  let _ ← memory.profPrintErrors
  let memory ← memory.profShutdownErrors
  memory.profTeardown

/-- A request whose events come with the addresses of their names. -/
structure NamedRequest where
  rinit : RinitEnv
  events : List NamedEvent
  rshutdown : RshutdownEnv

def NamedRequest.request (named : NamedRequest) : Request where
  rinit := named.rinit
  events := named.events.map NamedEvent.event
  rshutdown := named.rshutdown

/-- The memory a completed request leaves. -/
def runRequest (engine : Engine) (memory : ProfMemory) (request : NamedRequest) :
    Option ProfMemory := do
  let (memory, .success) := memory.phpRinit request.rinit | none
  let memory ← memory.deliverAll engine request.events
  let (memory, .success) ← memory.phpRshutdown engine | none
  return memory

def runRequests (engine : Engine) (memory : ProfMemory) (requests : List NamedRequest) :
    Option ProfMemory :=
  requests.foldlM (runRequest engine) memory

end ProfMemory

end PhpProf
