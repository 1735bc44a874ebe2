import PhpProf.PointerTable
import PhpProf.PprofFile
import PhpProf.SymbolicHeap

/-! The memory behind `prof_sampling_print_result_pprof`: the units it reads, the
arrays and messages it allocates, and the strings. What reads, writes or frees a
block that is not live, reads or writes past the end of one or gives back a string
that is not there has no result. -/
namespace PhpProf

/-! ## Blocks -/

/-- `prof_sampling_unit`. -/
structure PointedUnit where
  hits : UInt64
  filename : Nat
  lineno : UInt32

/-- `Perftools__Profiles__Location`. -/
structure PointedLocation where
  id : Nat
  mappingId : Nat
  nLine : Nat
  line : Option Nat

/-- `Perftools__Profiles__Sample`. -/
structure PointedSample where
  nLocationId : Nat
  locationId : Option Nat
  nValue : Nat
  value : Option Nat

/-- What a block holds. A slot of an array of pointers is empty until it is
assigned. -/
inductive PprofBlock where
  | samplingUnit (samplingUnit : PointedUnit)
  | pointers (slots : List (Option Nat))
  | function (function : Profiles.Function)
  | line (line : Profiles.Line)
  | location (location : PointedLocation)
  | ids (ids : List Nat)
  | values (values : List Int64)
  | sample (sample : PointedSample)
  | bytes (bytes : Bytes)

structure PprofMemory where
  blocks : Heap PprofBlock
  strings : Heap (Shared Bytes)

namespace PprofMemory

def empty : PprofMemory := ⟨.empty, .empty⟩

/-- `emalloc` of a block that is initialised at once. -/
def emalloc (memory : PprofMemory) (block : PprofBlock) : PprofMemory × Nat :=
  ({ memory with blocks := memory.blocks.alloc block }, memory.blocks.next)

def efree (memory : PprofMemory) (ptr : Nat) : Option PprofMemory := do
  let _ ← memory.blocks.cells ptr
  return { memory with blocks := memory.blocks.free ptr }

/-- Assign to the fields of a block. -/
def store (memory : PprofMemory) (ptr : Nat) (block : PprofBlock) : Option PprofMemory := do
  let _ ← memory.blocks.cells ptr
  return { memory with blocks := memory.blocks.modify ptr fun _ => block }

/-- `array[i]`. -/
def pointerAt (memory : PprofMemory) (array i : Nat) : Option Nat := do
  let .pointers slots ← memory.blocks.cells array | none
  (slots[i]?).join

/-- `array[i] = ptr`. -/
def setPointer (memory : PprofMemory) (array i ptr : Nat) : Option PprofMemory := do
  let .pointers slots ← memory.blocks.cells array | none
  if i < slots.length then memory.store array (.pointers (slots.set i (some ptr))) else none

/-- `zend_string_init`. -/
def zendStringInit (memory : PprofMemory) (str : Bytes) : PprofMemory × Nat :=
  ({ memory with strings := memory.strings.share str }, memory.strings.next)

/-- `ZSTR_VAL`. -/
def zstrVal (memory : PprofMemory) (str : Nat) : Option Bytes :=
  (memory.strings.cells str).map Shared.value

/-- `zend_string_copy`. -/
def zendStringCopy (memory : PprofMemory) (str : Nat) : Option PprofMemory := do
  let _ ← memory.strings.cells str
  return { memory with strings := memory.strings.take str }

def zendStringRelease (memory : PprofMemory) (str : Nat) : Option PprofMemory := do
  let _ ← memory.strings.cells str
  return { memory with strings := memory.strings.release str }

/-! ## The string table map -/

/-- A string with its number in the map, which has a reference to it. -/
structure StringIndex where
  key : Nat
  index : Nat

structure StringTableMap where
  map : OrderedTable Bytes StringIndex
  i : Nat

/-- `zend_hash_lookup`, and the next number for a new string. -/
def getStringTableMapIndex (memory : PprofMemory) (stringTableMap : StringTableMap) (str : Nat) :
    Option (PprofMemory × StringTableMap × Nat) := do
  let text ← memory.zstrVal str
  match stringTableMap.map.find? text with
  | some found => return (memory, stringTableMap, found.index)
  | none =>
    let memory ← memory.zendStringCopy str
    let index := stringTableMap.i
    return (memory, ⟨stringTableMap.map.add text ⟨str, index⟩, index + 1⟩, index)

def getStringTableMapStrIndex (memory : PprofMemory) (stringTableMap : StringTableMap)
    (str : Bytes) (len : Nat) : Option (PprofMemory × StringTableMap × Nat) := do
  let (memory, s) := memory.zendStringInit (str.take len)
  let (memory, stringTableMap, index) ← memory.getStringTableMapIndex stringTableMap s
  let memory ← memory.zendStringRelease s
  return (memory, stringTableMap, index)

def pprofValueType (memory : PprofMemory) (stringTableMap : StringTableMap)
    (type unit : String) : Option (PprofMemory × StringTableMap × Profiles.ValueType) := do
  let (memory, stringTableMap, typeIndex) ←
    memory.getStringTableMapStrIndex stringTableMap (cLiteral type) (cLiteral type).length
  let (memory, stringTableMap, unitIndex) ←
    memory.getStringTableMapStrIndex stringTableMap (cLiteral unit) (cLiteral unit).length
  return (memory, stringTableMap, ⟨typeIndex, unitIndex⟩)

/-- `zend_hash_destroy` of the map. -/
def destroyMap (memory : PprofMemory) (stringTableMap : StringTableMap) : Option PprofMemory :=
  stringTableMap.map.entries.foldlM (fun memory entry => memory.zendStringRelease entry.2.key)
    memory

/-! ## The loop over the units -/

/-- The arrays of pointers the report allocates. -/
structure PprofArrays where
  samples : Nat
  locations : Nat
  functions : Nat

structure PprofLocals where
  stringTableMap : StringTableMap
  samplesI : Nat
  functionsI : Nat
  locationsI : Nat

def createFunction (memory : PprofMemory) (arrays : PprofArrays) (locals : PprofLocals)
    (functionName : Nat) (samplingUnit : PointedUnit) : Option (PprofMemory × PprofLocals) := do
  let (memory, function) := memory.emalloc (.function ⟨0, 0, 0, 0, 0⟩)
  let memory ← memory.setPointer arrays.functions locals.functionsI function
  let (memory, stringTableMap, name) ←
    memory.getStringTableMapIndex locals.stringTableMap functionName
  let (memory, stringTableMap, filename) ←
    memory.getStringTableMapIndex stringTableMap samplingUnit.filename
  let memory ← memory.store function (.function
    { id := locals.functionsI + 1
      name := name
      systemName := name
      filename := filename
      startLine := samplingUnit.lineno.toNat })
  return (memory, { locals with stringTableMap, functionsI := locals.functionsI + 1 })

def createLocation (memory : PprofMemory) (arrays : PprofArrays) (locals : PprofLocals)
    (samplingUnit : PointedUnit) : Option (PprofMemory × PprofLocals) := do
  let (memory, lines) := memory.emalloc (.pointers [none])
  let (memory, line) := memory.emalloc (.line ⟨0, 0⟩)
  let memory ← memory.setPointer lines 0 line
  let memory ← memory.store line (.line ⟨locals.functionsI, samplingUnit.lineno.toNat⟩)
  let (memory, location) := memory.emalloc (.location ⟨0, 0, 0, none⟩)
  let memory ← memory.setPointer arrays.locations locals.locationsI location
  let memory ← memory.store location (.location ⟨locals.locationsI + 1, 1, 1, some lines⟩)
  return (memory, { locals with locationsI := locals.locationsI + 1 })

def createSample (memory : PprofMemory) (arrays : PprofArrays) (locals : PprofLocals)
    (samplingInterval : UInt64) (samplingUnit : PointedUnit) :
    Option (PprofMemory × PprofLocals) := do
  let (memory, sampleLocations) := memory.emalloc (.ids [0])
  let last ← memory.pointerAt arrays.locations (locals.locationsI - 1)
  let .location location ← memory.blocks.cells last | none
  let memory ← memory.store sampleLocations (.ids [location.id])
  let (memory, sampleValues) := memory.emalloc (.values [0, 0])
  let memory ← memory.store sampleValues (.values [samplingUnit.hits.toInt64,
    (samplingUnit.hits * samplingInterval).toInt64 * 1000])
  let (memory, sample) := memory.emalloc (.sample ⟨0, none, 0, none⟩)
  let memory ← memory.setPointer arrays.samples locals.samplesI sample
  let memory ← memory.store sample (.sample ⟨1, some sampleLocations, 2, some sampleValues⟩)
  return (memory, { locals with samplesI := locals.samplesI + 1 })

/-- One iteration: a function, a location and a sample for one unit. -/
def pprofStep (arrays : PprofArrays) (samplingInterval : UInt64)
    (state : PprofMemory × PprofLocals) (entry : Bytes × Bucket) :
    Option (PprofMemory × PprofLocals) := do
  let (memory, locals) := state
  let .samplingUnit samplingUnit ← memory.blocks.cells entry.2.ptr | none
  let (memory, locals) ← memory.createFunction arrays locals entry.2.key samplingUnit
  let (memory, locals) ← memory.createLocation arrays locals samplingUnit
  memory.createSample arrays locals samplingInterval samplingUnit

/-! ## The profile -/

/-- An element of `string_table`: the empty literal, or the text of a string. -/
inductive CharPointer where
  | literal
  | val (str : Nat)

/-- The variable `profile`. The value types, the mapping and the string table are
local variables too. -/
structure PointedProfile where
  sampleType : List Profiles.ValueType
  nSample : Nat
  sample : Nat
  nLocation : Nat
  location : Nat
  nFunction : Nat
  function : Nat
  nStringTable : Nat
  stringTable : List (Option CharPointer)
  timeNanos : Int64
  durationNanos : Int64
  periodType : Profiles.ValueType
  period : Int64

/-- The elements of an array of pointers, as far as it is counted. -/
def elements {α : Type} (memory : PprofMemory) (count array : Nat)
    (read : Nat → Option α) : Option (List α) :=
  (List.range count).mapM fun i => memory.pointerAt array i >>= read

def readFunction (memory : PprofMemory) (ptr : Nat) : Option Profiles.Function := do
  let .function function ← memory.blocks.cells ptr | none
  return function

def readLine (memory : PprofMemory) (ptr : Nat) : Option Profiles.Line := do
  let .line line ← memory.blocks.cells ptr | none
  return line

def readLocation (memory : PprofMemory) (ptr : Nat) : Option Profiles.Location := do
  let .location location ← memory.blocks.cells ptr | none
  let lines ← location.line
  let line ← memory.elements location.nLine lines memory.readLine
  return ⟨location.id, location.mappingId, line⟩

def readSample (memory : PprofMemory) (ptr : Nat) : Option Profiles.Sample := do
  let .sample sample ← memory.blocks.cells ptr | none
  let .ids ids ← memory.blocks.cells (← sample.locationId) | none
  let .values values ← memory.blocks.cells (← sample.value) | none
  return ⟨← Profiles.cArray sample.nLocationId ids, ← Profiles.cArray sample.nValue values⟩

/-- What a `char *` points to. -/
def readString (memory : PprofMemory) : CharPointer → Option Bytes
  | .literal => some []
  | .val str => (memory.zstrVal str).map Text.cString

/-- A slot that has never been assigned stays one. -/
def readSlot (memory : PprofMemory) : Option CharPointer → Option (Option Bytes)
  | none => some none
  | some pointer => (memory.readString pointer).map some

/-- The profile that packing finds behind the pointers. -/
def readProfile (memory : PprofMemory) (profile : PointedProfile) : Option Profiles.Profile := do
  let sample ← memory.elements profile.nSample profile.sample memory.readSample
  let location ← memory.elements profile.nLocation profile.location memory.readLocation
  let function ← memory.elements profile.nFunction profile.function memory.readFunction
  let stringTable ← profile.stringTable.mapM memory.readSlot
  return {
    nSampleType := 2
    sampleType := profile.sampleType
    nSample := profile.nSample
    sample := sample
    nMapping := 1
    mapping := [⟨1, true⟩]
    nLocation := profile.nLocation
    location := location
    nFunction := profile.nFunction
    function := function
    nStringTable := profile.nStringTable
    stringTable := stringTable
    timeNanos := profile.timeNanos
    durationNanos := profile.durationNanos
    periodType := profile.periodType
    period := profile.period }

/-! ## Packing, compressing and writing -/

/-- `gzencode`, with the string it returns. The memory of zlib itself is freed by
`deflateEnd`. -/
def gzencode (memory : PprofMemory) (env : PprofFileEnv) (buf : Nat) (len : UInt64) :
    Option (PprofMemory × Option Nat) := do
  if env.zlib.deflateInit2 gzipParams ≠ .ok then return (memory, none)
  let .bytes input ← memory.blocks.cells buf | none
  let stream := gzencodeStream env.scaled input len
  let (status, output) := env.zlib.deflate stream
  if input.length < stream.availIn.toNat ∨ stream.availOut.toNat < output.length then none
  -- the string is allocated first, and `deflate` fills it
  let (memory, out) := memory.zendStringInit output
  if status ≠ .streamEnd then
    let memory ← memory.zendStringRelease out
    return (memory, none)
  return (memory, some out)

/-- What the report comes to, the bytes that `fwrite` has accepted, and the buffer that
is left to free. -/
def writePprof (memory : PprofMemory) (env : PprofFileEnv) (profile : PointedProfile) :
    Option (PprofMemory × Option Nat × PprofOutcome × Bytes) := do
  let message ← (← memory.readProfile profile).message
  let len := env.protobufC.getPackedSize message
  if !env.emalloc len then return (memory, none, .notAllocated, [])
  let packed := env.protobufC.pack message
  if len.toNat < packed.length then none
  let (memory, buf) := memory.emalloc (.bytes packed)
  if UInt64.ofNat packed.length ≠ len then return (memory, some buf, .notPacked, [])
  let (memory, gzprofile) ← memory.gzencode env buf len
  match gzprofile with
  | none => return (memory, some buf, .notCompressed, [])
  | some gzprofile =>
    let text ← memory.zstrVal gzprofile
    let written := text.take (env.fwrite text)
    let memory ← memory.zendStringRelease gzprofile
    return (memory, some buf,
      if text = [] ∨ written.length < text.length then .notWritten else .written, written)

/-! ## Freeing -/

def freeFunctions (memory : PprofMemory) (functions functionsI : Nat) : Option PprofMemory :=
  (List.range functionsI).foldlM (fun memory i => do
    memory.efree (← memory.pointerAt functions i)) memory

def freeLocations (memory : PprofMemory) (locations locationsI : Nat) : Option PprofMemory :=
  (List.range locationsI).foldlM (fun memory i => do
    let ptr ← memory.pointerAt locations i
    let .location location ← memory.blocks.cells ptr | none
    let lines ← location.line
    let memory ← memory.efree (← memory.pointerAt lines 0)
    let memory ← memory.efree lines
    memory.efree ptr) memory

def freeSamples (memory : PprofMemory) (samples samplesI : Nat) : Option PprofMemory :=
  (List.range samplesI).foldlM (fun memory i => do
    let ptr ← memory.pointerAt samples i
    let .sample sample ← memory.blocks.cells ptr | none
    let memory ← memory.efree (← sample.locationId)
    let memory ← memory.efree (← sample.value)
    memory.efree ptr) memory

/-- `efree` of a pointer that may be NULL. -/
def efreeOrNull (memory : PprofMemory) : Option Nat → Option PprofMemory
  | none => some memory
  | some ptr => memory.efree ptr

/-- The end of the report. -/
def freeAll (memory : PprofMemory) (arrays : PprofArrays) (locals : PprofLocals)
    (buf : Option Nat) : Option PprofMemory := do
  let memory ← memory.freeFunctions arrays.functions locals.functionsI
  let memory ← memory.freeLocations arrays.locations locals.locationsI
  let memory ← memory.freeSamples arrays.samples locals.samplesI
  let memory ← memory.efree arrays.functions
  let memory ← memory.efree arrays.locations
  let memory ← memory.efree arrays.samples
  let memory ← memory.efreeOrNull buf
  memory.destroyMap locals.stringTableMap

/-! ## The report -/

/-- The assignments to `string_table`. -/
def stringTableWrites (stringTableMap : StringTableMap) : List (Nat × CharPointer) :=
  (0, .literal) :: stringTableMap.map.entries.map fun entry => (entry.2.index, .val entry.2.key)

/-- The assignments to `string_table` and to `profile`. -/
def fillProfile (config : ProfConfig) (startTime endTime : UInt64) (arrays : PprofArrays)
    (locals : PprofLocals) (sampleType : List Profiles.ValueType)
    (periodType : Profiles.ValueType) : Option PointedProfile := do
  let stringTable ←
    Slots.fillWithin locals.stringTableMap.i (stringTableWrites locals.stringTableMap)
  return {
    sampleType := sampleType
    nSample := locals.samplesI
    sample := arrays.samples
    nLocation := locals.locationsI
    location := arrays.locations
    nFunction := locals.functionsI
    function := arrays.functions
    nStringTable := locals.stringTableMap.i
    stringTable := stringTable
    timeNanos := startTime.toInt64
    durationNanos := (endTime - startTime).toInt64
    periodType := periodType
    period := config.samplingInterval.toInt64 }

/-- `prof_sampling_print_result_pprof` after the threshold has been applied. -/
def reportPprof (env : PprofFileEnv) (config : ProfConfig) (startTime endTime : UInt64)
    (samplingUnits : OrderedTable Bytes Bucket) (memory : PprofMemory) :
    Option (PprofMemory × PprofOutcome × Bytes) := do
  let (memory, stringTableMap, samplesSampleType) ←
    memory.pprofValueType ⟨.empty, 1⟩ "samples" "count"
  let (memory, stringTableMap, cpuSampleType) ←
    memory.pprofValueType stringTableMap "cpu" "nanoseconds"
  let (memory, stringTableMap, periodType) ←
    memory.pprofValueType stringTableMap "cpu" "nanoseconds"
  let count := samplingUnits.entries.length
  let (memory, samples) := memory.emalloc (.pointers (List.replicate count none))
  let (memory, locations) := memory.emalloc (.pointers (List.replicate count none))
  let (memory, functions) := memory.emalloc (.pointers (List.replicate count none))
  let arrays : PprofArrays := ⟨samples, locations, functions⟩
  let (memory, locals) ← samplingUnits.entries.foldlM
    (pprofStep arrays config.samplingInterval) (memory, ⟨stringTableMap, 0, 0, 0⟩)
  let profile ← fillProfile config startTime endTime arrays locals
    [samplesSampleType, cpuSampleType] periodType
  let (memory, buf, reported) ← memory.writePprof env profile
  let memory ← memory.freeAll arrays locals buf
  return (memory, reported)

end PprofMemory

end PhpProf
