import PhpProf.PprofMemory

/-! Requests that are sampled and reported to pprof, with their memory: the handler,
the report and the teardown of `sampling.c`, while the engine makes strings and
gives them up. The list of errors, to which a report that fails adds a block, is not
part of this memory. What the engine
reclaims when a request has ended stays in it, so that it shows what has not been
given back. -/
namespace PhpProf

/-! ## The process -/

/-- The sampling globals with pointers. -/
structure PprofProcess where
  config : ProfConfig
  startTime : UInt64
  samplingEnabled : Bool
  samplingUnits : OrderedTable Bytes Bucket
  memory : PprofMemory

namespace PprofProcess

def fresh (config : ProfConfig) : PprofProcess := ⟨config, 0, false, .empty, .empty⟩

/-- `prof_sampling_setup`, after `PHP_RINIT_FUNCTION` has read the clock. -/
def phpRinit (env : RinitEnv) (process : PprofProcess) : PprofProcess × ZendResult :=
  let process := { process with startTime := getWallTime env.realtime }
  if process.startTime = 0 then (process, .failure)
  else
    let process := { process with samplingEnabled := true, samplingUnits := .empty }
    let usec := process.config.samplingInterval.toInt64
    (process, if env.setitimer ⟨⟨0, usec⟩, ⟨0, usec⟩⟩ then .success else .failure)

/-- `get_function_name`: a new string, or another reference to a string that the
engine has. -/
def nameString (memory : PprofMemory) (functionName : Bytes) (existing : Option Nat) :
    Option (PprofMemory × Nat) :=
  match existing with
  | none => some (memory.zendStringInit functionName)
  | some str => (memory.zendStringCopy str).map fun memory => (memory, str)

/-- A unit without hits in the table, which takes a reference to its key. -/
def createUnit (process : PprofProcess) (functionName : Bytes) (name : Nat)
    (func : ZendFunction) : Option (PprofProcess × Nat) := do
  let filename := func.opArray.filename.addr
  let (memory, samplingUnit) :=
    process.memory.emalloc (.samplingUnit ⟨0, filename, func.opArray.lineStart⟩)
  let memory ← memory.zendStringCopy filename
  let memory ← memory.zendStringCopy name
  return ({ process with
    samplingUnits := process.samplingUnits.add functionName ⟨name, samplingUnit⟩
    memory }, samplingUnit)

/-- The unit of a name, from the table or new in it. -/
def lookupUnit (process : PprofProcess) (functionName : Bytes) (name : Nat)
    (func : ZendFunction) : Option (PprofProcess × Nat) :=
  match process.samplingUnits.find? functionName with
  | some bucket => some (process, bucket.ptr)
  | none => process.createUnit functionName name func

/-- `prof_sigprof_handler`. -/
def profSigprofHandler (engine : Engine) (process : PprofProcess)
    (executeData : List ExecuteData) (existing : Option Nat) : Option PprofProcess :=
  if !process.samplingEnabled then some process
  else
    match innermostUser executeData with
    | none => some process
    | some func =>
      match getFunctionName engine func with
      | none => some process
      | some functionName => do
        let (memory, name) ← nameString process.memory functionName existing
        let (process, samplingUnit) ← lookupUnit { process with memory } functionName name func
        let .samplingUnit counted ← process.memory.blocks.cells samplingUnit | none
        let memory ← process.memory.store samplingUnit
          (.samplingUnit { counted with hits := counted.hits + 1 })
        let memory ← memory.zendStringRelease name
        return { process with memory }

/-- One call of `prof_sampling_apply_threshold`. A removed entry gives back its
key. -/
def applyThreshold (process : PprofProcess) (entry : Bytes × Bucket) : Option PprofProcess := do
  let .samplingUnit samplingUnit ← process.memory.blocks.cells entry.2.ptr | none
  if samplingUnit.hits ≤ process.config.samplingThreshold then
    let memory ← process.memory.zendStringRelease entry.2.key
    return { process with samplingUnits := process.samplingUnits.erase entry.1, memory }
  return process

/-- `prof_sampling_print_result_pprof`, with what it comes to once the file is
open. -/
def profSamplingPrintResultPprof (realtime : Option Timespec) (fopen : Bool)
    (env : PprofFileEnv) (process : PprofProcess) :
    Option (PprofProcess × Option (PprofOutcome × Bytes)) := do
  let endTime := getWallTime realtime
  if endTime = 0 then return (process, none)
  if !fopen then return (process, none)
  let process ← process.samplingUnits.entries.foldlM applyThreshold process
  let (memory, reported) ← process.memory.reportPprof env process.config process.startTime
    endTime process.samplingUnits
  return ({ process with memory }, some reported)

/-- One turn of the loop of `prof_sampling_teardown`. -/
def releaseUnit (memory : PprofMemory) (entry : Bytes × Bucket) : Option PprofMemory := do
  let .samplingUnit samplingUnit ← memory.blocks.cells entry.2.ptr | none
  let memory ← memory.zendStringRelease samplingUnit.filename
  memory.efree entry.2.ptr

/-- `prof_sampling_teardown`. The destroyed table holds nothing. -/
def profSamplingTeardown (setitimer : Itimerval → Bool) (process : PprofProcess) :
    Option (PprofProcess × ZendResult) := do
  let process := { process with samplingEnabled := false }
  if !setitimer ⟨⟨0, 0⟩, ⟨0, 0⟩⟩ then return (process, .failure)
  let entries := process.samplingUnits.entries
  let memory ← entries.foldlM releaseUnit process.memory
  let memory ← entries.foldlM (fun memory entry => memory.zendStringRelease entry.2.key) memory
  return ({ process with samplingUnits := .empty, memory }, .success)

end PprofProcess

/-! ## Requests -/

/-- What happens while a process serves a request: the engine makes strings, takes
and gives back references to them, and signals are delivered. A delivery comes
with the string that is the name of the function, if there is one. -/
inductive PprofAction where
  | share (text : Bytes)
  | copy (str : ZendString)
  | drop (str : ZendString)
  | deliver (executeData : List ExecuteData) (existing : Option Nat)

/-- The process, the references the engine has, and the signals delivered since the
request began. -/
structure PprofScript where
  process : PprofProcess
  engineHolds : List (Nat × Bytes)
  delivered : List (List ExecuteData)

/-- What the outside does and answers in one request. The libraries that its report
calls keep to the sizes they are given. -/
structure PprofRequest where
  rinit : RinitEnv
  actions : List PprofAction
  realtime : Option Timespec
  fopen : Bool
  file : PprofFileEnv
  bounds : file.KeepsBounds
  late : List PprofAction
  setitimer : Itimerval → Bool

namespace PprofScript

def fresh (config : ProfConfig) : PprofScript := ⟨.fresh config, [], []⟩

/-- Whether the engine can do this. It takes references where it has one, gives back
its own, and has the file name and the name of a function that is running. -/
def possible (engine : Engine) (script : PprofScript) : PprofAction → Bool
  | .share _ => true
  | .copy str | .drop str => (str.addr, str.val) ∈ script.engineHolds
  | .deliver executeData existing =>
    match innermostUser executeData with
    | none => true
    | some func =>
      (func.opArray.filename.addr, func.opArray.filename.val) ∈ script.engineHolds ∧
        existing.all fun str =>
          (getFunctionName engine func).any fun name => (str, name) ∈ script.engineHolds

/-- One action. What the engine cannot do does not happen. -/
def perform (engine : Engine) (script : PprofScript) (action : PprofAction) :
    Option PprofScript :=
  if !script.possible engine action then some script
  else
    let process := script.process
    match action with
    | .share text =>
      let (memory, str) := process.memory.zendStringInit text
      some { script with
        process := { process with memory }
        engineHolds := (str, text) :: script.engineHolds }
    | .copy str =>
      (process.memory.zendStringCopy str.addr).map fun memory =>
        { script with
          process := { process with memory }
          engineHolds := (str.addr, str.val) :: script.engineHolds }
    | .drop str =>
      (process.memory.zendStringRelease str.addr).map fun memory =>
        { script with
          process := { process with memory }
          engineHolds := script.engineHolds.erase (str.addr, str.val) }
    | .deliver executeData existing =>
      (process.profSigprofHandler engine executeData existing).map fun process =>
        { script with process, delivered := script.delivered ++ [executeData] }

def performAll (engine : Engine) (script : PprofScript) (actions : List PprofAction) :
    Option PprofScript :=
  actions.foldlM (perform engine) script

/-- A request, with what its report comes to and what its last function returns. A
request whose setup fails is not served. -/
def runRequest (engine : Engine) (script : PprofScript) (request : PprofRequest) :
    Option (PprofScript × Option (PprofOutcome × Bytes) × ZendResult) :=
  match script.process.phpRinit request.rinit with
  | (process, .failure) => some ({ script with process }, none, .failure)
  | (process, .success) => do
    let script ← performAll engine { script with process, delivered := [] } request.actions
    let (process, reported) ← script.process.profSamplingPrintResultPprof request.realtime
      request.fopen request.file
    let script ← performAll engine { script with process } request.late
    let (process, result) ← script.process.profSamplingTeardown request.setitimer
    return ({ script with process }, reported, result)

/-- Requests until one fails. -/
def runRequests (engine : Engine) (script : PprofScript) :
    List PprofRequest → Option (PprofScript × ZendResult)
  | [] => some (script, .success)
  | request :: rest => do
    let (script, _, result) ← script.runRequest engine request
    match result with
    | .success => runRequests engine script rest
    | .failure => return (script, .failure)

end PprofScript

end PhpProf
