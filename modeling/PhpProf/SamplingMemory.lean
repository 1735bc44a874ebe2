import PhpProf.Heap
import PhpProf.Request

/-! The memory behind `sampling.c`: the table holds pointers to units, each unit
is allocated by the handler together with a reference to its file name, and
teardown frees what it finds in the table. -/
namespace PhpProf

/-- The sampling globals with pointers for units. The references are to file
names, by address. -/
structure SamplingMemory where
  samplingEnabled : Bool
  samplingUnits : OrderedTable Bytes Nat
  heap : Heap ProfSamplingUnit
  filenames : References Nat

namespace SamplingMemory

/-- The memory of a fresh process. -/
def fresh : SamplingMemory := ⟨false, .empty, .empty, .empty⟩

/-- The unit a pointer points to; zeroes where nothing is live. -/
def unitAt (memory : SamplingMemory) (addr : Nat) : ProfSamplingUnit :=
  (memory.heap.cells addr).getD ⟨0, ⟨0, []⟩, 0⟩

def profSamplingSetup (memory : SamplingMemory) : SamplingMemory :=
  { memory with samplingEnabled := true, samplingUnits := .empty }

/-- `sampling_unit->hits += 1`. -/
def countHit (samplingUnit : ProfSamplingUnit) : ProfSamplingUnit :=
  { samplingUnit with hits := samplingUnit.hits + 1 }

/-- A new unit in the table, with a reference to the file name of its function. -/
def createUnit (memory : SamplingMemory) (functionName : Bytes) (func : ZendFunction) :
    SamplingMemory :=
  { memory with
    samplingUnits := memory.samplingUnits.add functionName memory.heap.next
    heap := memory.heap.alloc
      { hits := 0
        filename := func.opArray.filename
        lineno := func.opArray.lineStart }
    filenames := memory.filenames.take func.opArray.filename.addr }

def profSigprofHandler (engine : Engine) (memory : SamplingMemory)
    (executeData : List ExecuteData) : SamplingMemory :=
  if !memory.samplingEnabled then memory
  else
    match innermostUser executeData with
    | none => memory
    | some func =>
      match getFunctionName engine func with
      | none => memory
      | some functionName =>
        let (memory, samplingUnit) :=
          match memory.samplingUnits.find? functionName with
          | some samplingUnit => (memory, samplingUnit)
          | none => (memory.createUnit functionName func, memory.heap.next)
        { memory with heap := memory.heap.modify samplingUnit countHit }

/-- `total_samples`, through the pointers. -/
def totalSamples (memory : SamplingMemory) : UInt64 :=
  memory.samplingUnits.entries.foldl (fun total entry => total + (memory.unitAt entry.2).hits) 0

/-- `prof_compare_sampling_units`, through the pointers. -/
def profCompareSamplingUnits (memory : SamplingMemory) : Compare Nat := fun first second =>
  PhpProf.profCompareSamplingUnits (first.1, memory.unitAt first.2)
    (second.1, memory.unitAt second.2)

/-- `prof_sampling_print_result_console`. The slice is a table of the same
pointers, and destroying it frees none of them. -/
def profSamplingPrintResultConsole (engine : Engine) (samplingLimit : UInt64)
    (memory : SamplingMemory) : Option SamplingMemory :=
  if memory.totalSamples = 0 then some memory
  else
    let sorted := engine.zendHashSort memory.profCompareSamplingUnits memory.samplingUnits
    (htSlice (sorted.entries.map some) samplingLimit).map fun _ =>
      { memory with samplingUnits := sorted }

/-- `prof_sampling_print_result_pprof`. Removing an entry from the table frees
nothing, since the table has no destructor. -/
def profSamplingPrintResultPprof (realtime : Option Timespec) (fopen : Bool)
    (samplingThreshold : UInt64) (memory : SamplingMemory) : SamplingMemory :=
  if getWallTime realtime = 0 then memory
  else if !fopen then memory
  else
    { memory with
      samplingUnits := memory.samplingUnits.filter fun addr =>
        profSamplingApplyThreshold samplingThreshold (memory.unitAt addr) }

/-- The report of the output mode; no result after a fatal error. The callgrind
report only reads. -/
def profReport (engine : Engine) (config : ProfConfig) (env : RshutdownEnv)
    (memory : SamplingMemory) : Option SamplingMemory :=
  match config.outputMode with
  | .console => memory.profSamplingPrintResultConsole engine config.samplingLimit
  | .callgrind => some memory
  | .pprof =>
    some (memory.profSamplingPrintResultPprof env.pprofRealtime env.fopen config.samplingThreshold)

/-- One turn of the loop of `prof_sampling_teardown`. -/
def releaseUnit (memory : SamplingMemory) (entry : Bytes × Nat) : SamplingMemory :=
  { memory with
    filenames := memory.filenames.release (memory.unitAt entry.2).filename.addr
    heap := memory.heap.free entry.2 }

/-- `prof_sampling_teardown`. The pointers of the destroyed table stay in the
model. -/
def profSamplingTeardown (setitimer : Itimerval → Bool) (memory : SamplingMemory) :
    SamplingMemory × ZendResult :=
  let memory := { memory with samplingEnabled := false }
  if !setitimer ⟨⟨0, 0⟩, ⟨0, 0⟩⟩ then (memory, .failure)
  else (memory.samplingUnits.entries.foldl releaseUnit memory, .success)

/-- A request in sampling mode that reaches its report: setup, deliveries, the
report, deliveries that come late, and teardown. -/
def runRequest (engine : Engine) (config : ProfConfig) (env : RshutdownEnv)
    (deliveries late : List (List ExecuteData)) (memory : SamplingMemory) :
    Option (SamplingMemory × ZendResult) :=
  let sampled := deliveries.foldl (profSigprofHandler engine) memory.profSamplingSetup
  (sampled.profReport engine config env).map fun reported =>
    (late.foldl (profSigprofHandler engine) reported).profSamplingTeardown env.setitimer

end SamplingMemory

end PhpProf
