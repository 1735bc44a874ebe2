import PhpProf.Helpers
import PhpProf.Interner

/-! `sampling.c`: the SIGPROF handler, its timer, and the three reports. -/
namespace PhpProf
open Text

/-! ## The messages of `profile.proto` the report fills in

Absent fields keep their defaults and are left out. The `n_` fields are the
array lengths of the C structures. -/
namespace Profiles

structure ValueType where
  type : Nat
  unit : Nat
  deriving DecidableEq

structure Sample where
  locationId : List Nat
  value : List Int64
  deriving DecidableEq

structure Mapping where
  id : Nat
  hasFunctions : Bool
  deriving DecidableEq

structure Line where
  functionId : Nat
  line : Nat
  deriving DecidableEq

structure Location where
  id : Nat
  mappingId : Nat
  line : List Line
  deriving DecidableEq

structure Function where
  id : Nat
  name : Nat
  systemName : Nat
  filename : Nat
  startLine : Nat
  deriving DecidableEq

/-- A string table slot without a value was never assigned. -/
structure Profile where
  nSampleType : Nat
  sampleType : List ValueType
  nSample : Nat
  sample : List Sample
  nMapping : Nat
  mapping : List Mapping
  nLocation : Nat
  location : List Location
  nFunction : Nat
  function : List Function
  nStringTable : Nat
  stringTable : List (Option Bytes)
  timeNanos : Int64
  durationNanos : Int64
  periodType : ValueType
  period : Int64
  deriving DecidableEq

end Profiles

/-! ## Setup and teardown -/

/-- `prof_sampling_setup`; `setitimer` tells whether the timer was accepted. -/
def profSamplingSetup (setitimer : Itimerval → Bool) (globals : ProfGlobals) :
    ProfGlobals × ZendResult :=
  let globals := { globals with samplingEnabled := true, samplingUnits := .empty }
  let usec := globals.config.samplingInterval.toInt64
  let timeout : Itimerval := ⟨⟨0, usec⟩, ⟨0, usec⟩⟩
  (globals, if setitimer timeout then .success else .failure)

/-- `prof_sampling_teardown`. The units are freed and the table destroyed; its
stale contents stay in the model, so that nothing can rely on their absence. -/
def profSamplingTeardown (setitimer : Itimerval → Bool) (globals : ProfGlobals) :
    ProfGlobals × ZendResult :=
  let globals := { globals with samplingEnabled := false }
  let noTimeout : Itimerval := ⟨⟨0, 0⟩, ⟨0, 0⟩⟩
  (globals, if setitimer noTimeout then .success else .failure)

/-! ## The signal handler -/

/-- The `while` loop of the handler: frames without a function and frames of
internal functions are skipped. -/
def innermostUser : List ExecuteData → Option ZendFunction
  | [] => none
  | frame :: callers =>
    match frame.func with
    | none => innermostUser callers
    | some func => if func.type.userCode then some func else innermostUser callers

def profSigprofHandler (engine : Engine) (globals : ProfGlobals)
    (executeData : List ExecuteData) : ProfGlobals :=
  if !globals.samplingEnabled then globals
  else
    match innermostUser executeData with
    | none => globals
    | some func =>
      match getFunctionName engine func with
      | none => profAddWarning globals "get function name"
      | some functionName =>
        let samplingUnits :=
          match globals.samplingUnits.find? functionName with
          | some _ => globals.samplingUnits
          | none => globals.samplingUnits.add functionName
              { hits := 0
                filename := func.opArray.filename
                lineno := func.opArray.lineStart }
        { globals with
          samplingUnits := samplingUnits.modify functionName fun samplingUnit =>
            { samplingUnit with hits := samplingUnit.hits + 1 } }

/-! ## The console report -/

def profCompareSamplingUnits : Compare ProfSamplingUnit := fun first second =>
  if first.2.hits = second.2.hits then 0
  else if first.2.hits > second.2.hits then -1 else 1

def totalSamples (samplingUnits : OrderedTable Bytes ProfSamplingUnit) : UInt64 :=
  samplingUnits.entries.foldl (fun total entry => total + entry.2.hits) 0

/-- A row of the console table. The percentage printed beside the hits is
floating point and is not modelled. -/
structure SamplingRow where
  function : Bytes
  hits : Int64
  deriving DecidableEq

/-- `total_samples` as printed, and the rows of the table when there is one. -/
structure SamplingConsole where
  totalSamples : Int64
  table : Option (List SamplingRow)
  deriving DecidableEq

/-- `prof_sampling_print_result_console`; no result when `ht_slice` does not
return. The table of units is left sorted. -/
def profSamplingPrintResultConsole (engine : Engine) (globals : ProfGlobals) :
    Option (ProfGlobals × SamplingConsole) :=
  let total := totalSamples globals.samplingUnits
  if total = 0 then some (globals, ⟨total.toInt64, none⟩)
  else
    let sorted := engine.zendHashSort profCompareSamplingUnits globals.samplingUnits
    let globals := { globals with samplingUnits := sorted }
    (htSlice (sorted.entries.map some) globals.config.samplingLimit).map fun hits =>
      (globals, ⟨total.toInt64, some (hits.entries.filterMap fun entry =>
        if entry.2.hits ≤ globals.config.samplingThreshold then none
        else some ⟨cString entry.1, entry.2.hits.toInt64⟩)⟩)

/-! ## The callgrind report -/

/-- The loop that joins `argv`; a smart string without any append stays NULL. -/
def joinArgv (cmd : Option Bytes) : List Bytes → Option Bytes
  | [] => cmd
  | [arg] => some (cmd.getD [] ++ cString arg)
  | arg :: rest => joinArgv (some (cmd.getD [] ++ cString arg ++ ascii " ")) rest

/-- The command line as `%s` prints it; the C library prints `(null)` for NULL. -/
def commandLine (argv : List Bytes) : Bytes := (joinArgv none argv).getD (ascii "(null)")

def callgrindHeader (argv : List Bytes) : Bytes :=
  ascii "# callgrind format\nversion: 1\ncmd: " ++ commandLine argv ++
    ascii "\npart: 1\n\nevents: Hits\n\n"

/-- One `fl=%s\nfn=%s\n%d %lu\n\n`. -/
def callgrindRecord (functionName : Bytes) (samplingUnit : ProfSamplingUnit) : Bytes :=
  ascii "fl=" ++ cString samplingUnit.filename.val ++ ascii "\nfn=" ++ cString functionName ++
    ascii "\n" ++ signedDecimal samplingUnit.lineno.toInt32.toInt ++ ascii " " ++
    decimal samplingUnit.hits.toNat ++ ascii "\n\n"

/-- What is written after the header: one record for each unit above the
threshold. -/
def callgrindRecords (samplingThreshold : UInt64)
    (samplingUnits : OrderedTable Bytes ProfSamplingUnit) : Bytes :=
  samplingUnits.entries.flatMap fun entry =>
    if entry.2.hits ≤ samplingThreshold then [] else callgrindRecord entry.1 entry.2

/-- `prof_sampling_print_result_callgrind`: the contents of `callgrind.out`,
unless it cannot be opened. -/
def profSamplingPrintResultCallgrind (argv : List Bytes) (fopen : Bool) (globals : ProfGlobals) :
    ProfGlobals × Option Bytes :=
  if !fopen then (profAddError globals "open file", none)
  else (globals, some (callgrindHeader argv ++
    callgrindRecords globals.config.samplingThreshold globals.samplingUnits))

/-! ## The pprof report -/

/-- `prof_sampling_apply_threshold`: whether the unit is kept. -/
def profSamplingApplyThreshold (samplingThreshold : UInt64) (samplingUnit : ProfSamplingUnit) :
    Bool :=
  !(samplingUnit.hits ≤ samplingThreshold)

/-- `pprof_string_table_map`: the strings numbered so far; slot 0 is the empty
string, so the numbers start at 1. -/
abbrev PprofStringTableMap := Interner Bytes 1

def getStringTableMapIndex (stringTableMap : PprofStringTableMap) (str : Bytes) :
    PprofStringTableMap × Nat :=
  stringTableMap.intern str

/-- `get_string_table_map_str_index`: the key is the first `len` bytes at `str`. -/
def getStringTableMapStrIndex (stringTableMap : PprofStringTableMap) (str : Bytes) (len : Nat) :
    PprofStringTableMap × Nat :=
  stringTableMap.intern (str.take len)

/-- A C literal in memory, with its final NUL; its length is its `sizeof`. -/
def cLiteral (text : String) : Bytes := ascii text ++ [0]

/-- A value type whose type and unit are interned literals. -/
def pprofValueType (stringTableMap : PprofStringTableMap) (type unit : String) :
    PprofStringTableMap × Profiles.ValueType :=
  let (stringTableMap, typeIndex) :=
    getStringTableMapStrIndex stringTableMap (cLiteral type) (cLiteral type).length
  let (stringTableMap, unitIndex) :=
    getStringTableMapStrIndex stringTableMap (cLiteral unit) (cLiteral unit).length
  (stringTableMap, ⟨typeIndex, unitIndex⟩)

/-- The local variables of the loop over the units. -/
structure PprofLoop where
  stringTableMap : PprofStringTableMap
  functionsI : Nat
  functions : List Profiles.Function
  locationsI : Nat
  locations : List Profiles.Location
  samplesI : Nat
  samples : List Profiles.Sample

/-- One iteration: a function, a location and a sample for one unit. -/
def pprofStep (samplingInterval : UInt64) (loop : PprofLoop)
    (entry : Bytes × ProfSamplingUnit) : PprofLoop :=
  let (functionName, samplingUnit) := entry
  let (stringTableMap, name) := getStringTableMapIndex loop.stringTableMap functionName
  let (stringTableMap, filename) := getStringTableMapIndex stringTableMap samplingUnit.filename.val
  let function : Profiles.Function :=
    { id := loop.functionsI + 1
      name := name
      systemName := name
      filename := filename
      startLine := samplingUnit.lineno.toNat }
  let functionsI := loop.functionsI + 1
  let location : Profiles.Location :=
    { id := loop.locationsI + 1
      mappingId := 1
      line := [⟨functionsI, samplingUnit.lineno.toNat⟩] }
  let sample : Profiles.Sample :=
    { locationId := [location.id]
      -- microseconds to nanoseconds
      value := [samplingUnit.hits.toInt64, (samplingUnit.hits * samplingInterval).toInt64 * 1000] }
  { stringTableMap := stringTableMap
    functionsI := functionsI
    functions := loop.functions ++ [function]
    locationsI := loop.locationsI + 1
    locations := loop.locations ++ [location]
    samplesI := loop.samplesI + 1
    samples := loop.samples ++ [sample] }

/-- The assignments to `string_table`: the empty string, then every interned
string as C sees it, at its own number. -/
def stringTableWrites (stringTableMap : PprofStringTableMap) : List (Nat × Bytes) :=
  (0, []) :: stringTableMap.map.entries.map fun entry => (entry.2, cString entry.1)

/-- What the report has built when it starts packing. -/
structure PprofBuild where
  stringTableMap : PprofStringTableMap
  profile : Profiles.Profile

/-- The part of `prof_sampling_print_result_pprof` between applying the
threshold and packing. -/
def buildPprof (config : ProfConfig) (startTime endTime : UInt64)
    (samplingUnits : OrderedTable Bytes ProfSamplingUnit) : PprofBuild :=
  let (stringTableMap, samplesSampleType) := pprofValueType .empty "samples" "count"
  let (stringTableMap, cpuSampleType) := pprofValueType stringTableMap "cpu" "nanoseconds"
  let (stringTableMap, periodType) := pprofValueType stringTableMap "cpu" "nanoseconds"
  let loop := samplingUnits.entries.foldl (pprofStep config.samplingInterval)
    ⟨stringTableMap, 0, [], 0, [], 0, []⟩
  { stringTableMap := loop.stringTableMap
    profile :=
      { nSampleType := 2
        sampleType := [samplesSampleType, cpuSampleType]
        nSample := loop.samplesI
        sample := loop.samples
        nMapping := 1
        mapping := [⟨1, true⟩]
        nLocation := loop.locationsI
        location := loop.locations
        nFunction := loop.functionsI
        function := loop.functions
        nStringTable := loop.stringTableMap.next
        stringTable := Slots.fill loop.stringTableMap.next (stringTableWrites loop.stringTableMap)
        timeNanos := startTime.toInt64
        durationNanos := (endTime - startTime).toInt64
        periodType := periodType
        period := config.samplingInterval.toInt64 } }

/-- What allocating the buffer, packing, compressing and writing the profile come
to. -/
inductive PprofOutcome where
  | written
  | notAllocated
  | notPacked
  | notCompressed
  | notWritten
  deriving DecidableEq

/-- `prof_sampling_print_result_pprof`: the profile in `cpu.pprof`, if it is
written. -/
def profSamplingPrintResultPprof (realtime : Option Timespec) (fopen : Bool)
    (outcome : Profiles.Profile → PprofOutcome) (globals : ProfGlobals) :
    ProfGlobals × Option Profiles.Profile :=
  let endTime := getWallTime realtime
  if endTime = 0 then (profAddWarning globals "get wall time", none)
  else if !fopen then (profAddError globals "open file", none)
  else
    let samplingUnits := globals.samplingUnits.filter
      (profSamplingApplyThreshold globals.config.samplingThreshold)
    let globals := { globals with samplingUnits := samplingUnits }
    let profile :=
      (buildPprof globals.config globals.startTime endTime globals.samplingUnits).profile
    match outcome profile with
    | .written => (globals, some profile)
    | .notAllocated => (profAddWarning globals "malloc profile buf", none)
    | .notPacked => (profAddError globals "pack profile", none)
    | .notCompressed => (profAddError globals "compress profile", none)
    | .notWritten => (profAddError globals "write to file", none)

end PhpProf
