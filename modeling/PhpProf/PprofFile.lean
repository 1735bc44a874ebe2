import PhpProf.Gzencode
import PhpProf.ProfileMessages
import PhpProf.Request

/-! The end of `prof_sampling_print_result_pprof`: the profile that has been built
is packed, compressed and written to `cpu.pprof`. -/
namespace PhpProf

/-! ## The messages that are packed

A field that the report does not fill in has the value its message is initialised
with. -/
namespace Profiles

def ValueType.message (valueType : ValueType) : Perftools.ValueType where
  type := .ofNat valueType.type
  unit := .ofNat valueType.unit

def Sample.message (sample : Sample) : Perftools.Sample where
  locationId := sample.locationId.map UInt64.ofNat
  value := sample.value

def Mapping.message (mapping : Mapping) : Perftools.Mapping where
  id := .ofNat mapping.id
  hasFunctions := mapping.hasFunctions

def Line.message (line : Line) : Perftools.Line where
  functionId := .ofNat line.functionId
  line := .ofNat line.line

def Location.message (location : Location) : Perftools.Location where
  id := .ofNat location.id
  mappingId := .ofNat location.mappingId
  line := location.line.map Line.message

def Function.message (function : Function) : Perftools.Function where
  id := .ofNat function.id
  name := .ofNat function.name
  systemName := .ofNat function.systemName
  filename := .ofNat function.filename
  startLine := .ofNat function.startLine

/-- What is read of a C array by its `n_` field; nothing when that is past its
end. -/
def cArray {α : Type} (count : Nat) (elements : List α) : Option (List α) :=
  if count ≤ elements.length then some (elements.take count) else none

/-- The profile as it is packed; nothing when an array is read past its end, or a
slot of the string table that has never been assigned. -/
def Profile.message (profile : Profile) : Option Perftools.Profile := do
  let sampleType ← cArray profile.nSampleType profile.sampleType
  let sample ← cArray profile.nSample profile.sample
  let mapping ← cArray profile.nMapping profile.mapping
  let location ← cArray profile.nLocation profile.location
  let function ← cArray profile.nFunction profile.function
  let slots ← cArray profile.nStringTable profile.stringTable
  let stringTable ← slots.mapM id
  return {
    sampleType := sampleType.map ValueType.message
    sample := sample.map Sample.message
    mapping := mapping.map Mapping.message
    location := location.map Location.message
    function := function.map Function.message
    stringTable := stringTable
    timeNanos := profile.timeNanos
    durationNanos := profile.durationNanos
    periodType := some profile.periodType.message
    period := profile.period }

end Profiles

/-! ## Packing, compressing and writing -/

/-- The two functions of protobuf-c that are called for the profile. What `pack`
writes to its buffer is as long as the size it returns. -/
structure ProtobufC where
  getPackedSize : Perftools.Profile → UInt64
  pack : Perftools.Profile → Bytes

/-- What the end of the report calls: `emalloc` gives the buffer or not, `scaled`
is `1.015` times a length, and `fwrite` tells how many bytes its stream accepts. The
file holds what is `stored` of them, since the result of `fclose` is ignored. -/
structure PprofFileEnv where
  protobufC : ProtobufC
  emalloc : UInt64 → Bool
  zlib : Zlib
  scaled : UInt64 → UInt64
  fwrite : Bytes → Nat
  stored : Bytes → Bytes

/-- What the report relies on: protobuf-c and zlib write no more than they are given
room for. -/
structure PprofFileEnv.KeepsBounds (env : PprofFileEnv) : Prop where
  pack : ∀ message,
    (env.protobufC.pack message).length ≤ (env.protobufC.getPackedSize message).toNat
  deflate : ∀ stream, (env.zlib.deflate stream).2.length ≤ stream.availOut.toNat

/-- What the report comes to, and the bytes that `fwrite` has accepted. -/
def writePprof (env : PprofFileEnv) (profile : Perftools.Profile) : PprofOutcome × Bytes :=
  let len := env.protobufC.getPackedSize profile
  if !env.emalloc len then (.notAllocated, [])
  else
    let buf := env.protobufC.pack profile
    if UInt64.ofNat buf.length ≠ len then (.notPacked, [])
    else
      match gzencode env.zlib env.scaled buf len with
      | none => (.notCompressed, [])
      | some gzprofile =>
        let written := gzprofile.take (env.fwrite gzprofile)
        -- one item of the length of the string, which counts only when it is complete
        if gzprofile = [] ∨ written.length < gzprofile.length then (.notWritten, written)
        else (.written, written)

/-- The outcome for a profile that has been built. One that cannot be read is
never built. -/
def pprofOutcome (env : PprofFileEnv) (profile : Profiles.Profile) : PprofOutcome :=
  match profile.message with
  | none => .notPacked
  | some message => (writePprof env message).1

/-- The bytes of a profile that `fwrite` has accepted. -/
def pprofWritten (env : PprofFileEnv) (profile : Profiles.Profile) : Bytes :=
  match profile.message with
  | none => []
  | some message => (writePprof env message).2

/-- What `cpu.pprof` contains once its stream is closed. -/
def pprofContents (env : PprofFileEnv) (profile : Profiles.Profile) : Bytes :=
  env.stored (pprofWritten env profile)

end PhpProf
