import PhpProf.GzencodeProofs
import PhpProf.PprofFile
import PhpProf.PprofHeaderProofs

/-! What is written to `cpu.pprof`. A reader who decompresses the bytes, decodes the
message, and follows ids and indices finds the units that were reported. -/
namespace PhpProf.PprofFileProofs
open Text GzencodeProofs PprofProofs WireFormat

/-- An encoding of profiles, and a decoder that gets every profile back. -/
structure ProfileFormat where
  encode : Perftools.Profile → Bytes
  decode : Bytes → Option Perftools.Profile
  decode_encode : ∀ profile, decode (encode profile) = some profile

/-- The functions of protobuf-c as documented: the encoding of a message is packed,
as many bytes as were announced, and messages stay below two gibibytes. -/
structure Packs (protobufC : ProtobufC) (profiles : ProfileFormat) : Prop where
  size : ∀ profile, (profiles.encode profile).length < 2 ^ 31 →
    protobufC.getPackedSize profile = UInt64.ofNat (profiles.encode profile).length
  bytes : ∀ profile, (profiles.encode profile).length < 2 ^ 31 →
    protobufC.pack profile = profiles.encode profile

/-! ## Reading a message

What a reader makes of the fields that the report fills in. -/

def valueTypeOf (valueType : Perftools.ValueType) : Profiles.ValueType where
  type := valueType.type.toNatClampNeg
  unit := valueType.unit.toNatClampNeg

def sampleMessageOf (sample : Perftools.Sample) : Profiles.Sample where
  locationId := sample.locationId.map UInt64.toNat
  value := sample.value

def mappingOf (mapping : Perftools.Mapping) : Profiles.Mapping where
  id := mapping.id.toNat
  hasFunctions := mapping.hasFunctions

def lineOf (line : Perftools.Line) : Profiles.Line where
  functionId := line.functionId.toNat
  line := line.line.toNatClampNeg

def locationMessageOf (location : Perftools.Location) : Profiles.Location where
  id := location.id.toNat
  mappingId := location.mappingId.toNat
  line := location.line.map lineOf

def functionMessageOf (function : Perftools.Function) : Profiles.Function where
  id := function.id.toNat
  name := function.name.toNatClampNeg
  systemName := function.systemName.toNatClampNeg
  filename := function.filename.toNatClampNeg
  startLine := function.startLine.toNatClampNeg

def profileOf (profile : Perftools.Profile) : Profiles.Profile where
  nSampleType := profile.sampleType.length
  sampleType := profile.sampleType.map valueTypeOf
  nSample := profile.sample.length
  sample := profile.sample.map sampleMessageOf
  nMapping := profile.mapping.length
  mapping := profile.mapping.map mappingOf
  nLocation := profile.location.length
  location := profile.location.map locationMessageOf
  nFunction := profile.function.length
  function := profile.function.map functionMessageOf
  nStringTable := profile.stringTable.length
  stringTable := profile.stringTable.map some
  timeNanos := profile.timeNanos
  durationNanos := profile.durationNanos
  periodType := valueTypeOf (profile.periodType.getD {})
  period := profile.period

/-- Decompress, decode, and follow every sample to its function and its strings. -/
def readPprof (format : GzipFormat) (profiles : ProfileFormat) (file : Bytes) :
    Option (List ResolvedSample) := do
  let data ← format.decompress file
  let profile ← profiles.decode data
  (profileOf profile).sample.mapM (resolveSample (profileOf profile))

/-! ## The message holds all of the profile -/

/-- The ids and indices of the profile fit the types of their fields. -/
structure NumbersFit (profile : Profiles.Profile) : Prop where
  types : ∀ type ∈ profile.sampleType ++ [profile.periodType],
    type.type < 2 ^ 63 ∧ type.unit < 2 ^ 63
  samples : ∀ sample ∈ profile.sample, ∀ id ∈ sample.locationId, id < 2 ^ 64
  mappings : ∀ mapping ∈ profile.mapping, mapping.id < 2 ^ 64
  locations : ∀ location ∈ profile.location, location.id < 2 ^ 64 ∧ location.mappingId < 2 ^ 64 ∧
    ∀ line ∈ location.line, line.functionId < 2 ^ 64 ∧ line.line < 2 ^ 63
  functions : ∀ function ∈ profile.function, function.id < 2 ^ 64 ∧ function.name < 2 ^ 63 ∧
    function.systemName < 2 ^ 63 ∧ function.filename < 2 ^ 63 ∧ function.startLine < 2 ^ 63

/-- The counts are the lengths of the arrays, and every slot has been assigned. -/
structure Complete (profile : Profiles.Profile) (strings : List Bytes) : Prop where
  sampleTypes : profile.nSampleType = profile.sampleType.length
  samples : profile.nSample = profile.sample.length
  mappings : profile.nMapping = profile.mapping.length
  locations : profile.nLocation = profile.location.length
  functions : profile.nFunction = profile.function.length
  slots : profile.nStringTable = profile.stringTable.length
  strings : profile.stringTable = strings.map some

theorem cArray_whole {α : Type} {count : Nat} {elements : List α}
    (whole : count = elements.length) : Profiles.cArray count elements = some elements := by
  simp [Profiles.cArray, whole]

variable {profile : Profiles.Profile} {strings : List Bytes}

/-- The message of a complete profile. -/
def filledIn (profile : Profiles.Profile) (strings : List Bytes) : Perftools.Profile where
  sampleType := profile.sampleType.map Profiles.ValueType.message
  sample := profile.sample.map Profiles.Sample.message
  mapping := profile.mapping.map Profiles.Mapping.message
  location := profile.location.map Profiles.Location.message
  function := profile.function.map Profiles.Function.message
  stringTable := strings
  timeNanos := profile.timeNanos
  durationNanos := profile.durationNanos
  periodType := some profile.periodType.message
  period := profile.period

theorem message_complete (complete : Complete profile strings) :
    profile.message = some (filledIn profile strings) := by
  have assigned : profile.stringTable.mapM id = some strings := by
    rw [complete.strings]
    exact mapM_of_map (List.map_id _)
  simp only [Profiles.Profile.message, cArray_whole complete.sampleTypes,
    cArray_whole complete.samples, cArray_whole complete.mappings,
    cArray_whole complete.locations, cArray_whole complete.functions,
    cArray_whole complete.slots, assigned, Option.bind_eq_bind, Option.bind_some]
  rfl

theorem valueTypeOf_message {type : Profiles.ValueType}
    (fits : type.type < 2 ^ 63 ∧ type.unit < 2 ^ 63) : valueTypeOf type.message = type := by
  simp only [valueTypeOf, Profiles.ValueType.message, Int64.toNatClampNeg_ofNat_of_lt fits.1,
    Int64.toNatClampNeg_ofNat_of_lt fits.2]

theorem map_back {α β : Type} {write : α → β} {read : β → α} {values : List α}
    (back : ∀ value ∈ values, read (write value) = value) :
    (values.map write).map read = values := by
  rw [List.map_map]
  exact (List.map_congr_left back).trans (List.map_id values)

/-- What a reader makes of the message is the profile it was filled in from. -/
theorem profileOf_filledIn (complete : Complete profile strings) (fits : NumbersFit profile) :
    profileOf (filledIn profile strings) = profile := by
  have types : (profile.sampleType.map Profiles.ValueType.message).map valueTypeOf =
      profile.sampleType :=
    map_back fun type member => valueTypeOf_message (fits.types type (by simp [member]))
  have periodType := valueTypeOf_message (fits.types profile.periodType (by simp))
  have samples : (profile.sample.map Profiles.Sample.message).map sampleMessageOf =
      profile.sample := by
    apply map_back
    intro sample member
    have ids := map_back fun id listed =>
      UInt64.toNat_ofNat_of_lt' (fits.samples sample member id listed)
    simp only [sampleMessageOf, Profiles.Sample.message, ids]
  have mappings : (profile.mapping.map Profiles.Mapping.message).map mappingOf =
      profile.mapping := by
    apply map_back
    intro mapping member
    simp only [mappingOf, Profiles.Mapping.message,
      UInt64.toNat_ofNat_of_lt' (fits.mappings mapping member)]
  have locations : (profile.location.map Profiles.Location.message).map locationMessageOf =
      profile.location := by
    apply map_back
    intro location member
    obtain ⟨id, mappingId, lines⟩ := fits.locations location member
    have each : (location.line.map Profiles.Line.message).map lineOf = location.line := by
      apply map_back
      intro line listed
      simp only [lineOf, Profiles.Line.message, UInt64.toNat_ofNat_of_lt' (lines line listed).1,
        Int64.toNatClampNeg_ofNat_of_lt (lines line listed).2]
    simp only [locationMessageOf, Profiles.Location.message, UInt64.toNat_ofNat_of_lt' id,
      UInt64.toNat_ofNat_of_lt' mappingId, each]
  have functions : (profile.function.map Profiles.Function.message).map functionMessageOf =
      profile.function := by
    apply map_back
    intro function member
    obtain ⟨id, name, systemName, filename, startLine⟩ := fits.functions function member
    simp only [functionMessageOf, Profiles.Function.message, UInt64.toNat_ofNat_of_lt' id,
      Int64.toNatClampNeg_ofNat_of_lt name, Int64.toNatClampNeg_ofNat_of_lt systemName,
      Int64.toNatClampNeg_ofNat_of_lt filename, Int64.toNatClampNeg_ofNat_of_lt startLine]
  obtain ⟨sampleTypeCount, sampleCount, mappingCount, locationCount, functionCount, slotCount,
    filled⟩ := complete
  have slots : strings.length = profile.nStringTable := by
    rw [slotCount, filled, List.length_map]
  simp only [profileOf, filledIn, types, samples, mappings, locations, functions,
    Option.getD_some, periodType, List.length_map, ← sampleTypeCount, ← sampleCount,
    ← mappingCount, ← locationCount, ← functionCount, slots, ← filled]

/-! ## The profile the report builds -/

section Built

variable {config : ProfConfig} {samplingUnits : OrderedTable Bytes ProfSamplingUnit}
  {build : PprofBuild}

/-- The strings of the table, in the order of their numbers. -/
def tableStrings (stringTableMap : PprofStringTableMap) : List Bytes :=
  (stringTableWrites stringTableMap).map Prod.snd

theorem assembled_complete (assembled : Assembled config samplingUnits build) :
    Complete build.profile (tableStrings build.stringTableMap) := by
  obtain ⟨sampleTypes, samples, mappings, locations, functions, slots⟩ :=
    (assembled_wellFormed assembled).lengths
  refine ⟨sampleTypes, samples, mappings, locations, functions, slots, ?_⟩
  rw [assembled.strings, Slots.fill_dense (stringTableWrites_dense _), tableStrings, List.map_map]
  rfl

theorem assembled_fits (assembled : Assembled config samplingUnits build)
    (fewUnits : samplingUnits.entries.length < 2 ^ 61)
    (fewStrings : build.profile.nStringTable < 2 ^ 63) : NumbersFit build.profile := by
  have index : ∀ index ∈ stringIndices build.profile, index < 2 ^ 63 := fun index listed =>
    lt_trans (assembled_indices assembled index listed) fewStrings
  have lineno : ∀ unit : ProfSamplingUnit, unit.lineno.toNat < 2 ^ 63 := fun unit =>
    lt_trans unit.lineno.toNat_lt (by decide)
  refine ⟨?_, ?_, ?_, ?_, ?_⟩
  · intro type member
    have stored : ∀ number ∈ [type.type, type.unit], number < 2 ^ 63 := fun number listed =>
      index number (List.mem_append_left _ (List.mem_flatMap.mpr ⟨type, member, listed⟩))
    exact ⟨stored _ (by simp), stored _ (by simp)⟩
  · intro sample member id listed
    rw [assembled.samples, List.mem_mapIdx] at member
    obtain ⟨i, within, rfl⟩ := member
    obtain rfl := List.mem_singleton.mp listed
    omega
  · intro mapping member
    rw [assembled.mapping.1, List.mem_singleton] at member
    subst member
    decide
  · intro location member
    rw [assembled.locations, List.mem_mapIdx] at member
    obtain ⟨i, within, rfl⟩ := member
    refine ⟨by simp only [locationOf]; omega, by simp only [locationOf]; decide, ?_⟩
    intro line listed
    obtain rfl := List.mem_singleton.mp listed
    exact ⟨by simp only; omega, lineno _⟩
  · intro function member
    have stored : ∀ number ∈ [function.name, function.systemName, function.filename],
        number < 2 ^ 63 := fun number listed =>
      index number (List.mem_append_right _ (List.mem_flatMap.mpr ⟨function, member, listed⟩))
    rw [assembled.functions, List.mem_mapIdx] at member
    obtain ⟨i, within, rfl⟩ := member
    exact ⟨by simp only [functionOf]; omega, stored _ (by simp), stored _ (by simp),
      stored _ (by simp), lineno _⟩

/-- The message packed for a table of units. -/
def packedMessage (build : PprofBuild) : Perftools.Profile :=
  filledIn build.profile (tableStrings build.stringTableMap)

end Built

/-- Two strings for each unit at most, and at most seven others. -/
theorem nStringTable_le (config : ProfConfig) (startTime endTime : UInt64)
    (samplingUnits : OrderedTable Bytes ProfSamplingUnit) :
    (buildPprof config startTime endTime samplingUnits).profile.nStringTable ≤
      2 * samplingUnits.entries.length + 7 := by
  have assembled := buildPprof_assembled config startTime endTime samplingUnits
  have asked := (Interner.empty : PprofStringTableMap).next_internAll_le
    ((PprofHeaderProofs.requestKeys samplingUnits).map Prod.snd)
  have keys : (PprofHeaderProofs.requestKeys samplingUnits).length =
      samplingUnits.entries.length * 2 + 6 := by
    simp [PprofHeaderProofs.requestKeys, PprofHeaderProofs.unitTexts]
  have start : (Interner.empty : PprofStringTableMap).next = 1 := rfl
  rw [← @PprofHeaderProofs.buildPprof_map config startTime endTime, List.length_map, keys,
    start] at asked
  rw [assembled.stringCount]
  omega

/-- A message of not too many units is read back as the profile it was made from. -/
theorem profileOf_packed (config : ProfConfig) (startTime endTime : UInt64)
    {samplingUnits : OrderedTable Bytes ProfSamplingUnit}
    (few : samplingUnits.entries.length < 2 ^ 61) :
    let build := buildPprof config startTime endTime samplingUnits
    build.profile.message = some (packedMessage build) ∧
      profileOf (packedMessage build) = build.profile := by
  intro build
  have assembled := buildPprof_assembled config startTime endTime samplingUnits
  have complete := assembled_complete assembled
  have strings := nStringTable_le config startTime endTime samplingUnits
  refine ⟨message_complete complete, profileOf_filledIn complete ?_⟩
  exact assembled_fits assembled few (lt_of_le_of_lt strings (by omega))

/-! ## The file -/

variable {env : PprofFileEnv} {format : GzipFormat} {profiles : ProfileFormat}

/-- The report only succeeds with the whole of what `gzencode` returned. -/
theorem written_whole {message : Perftools.Profile}
    (written : (writePprof env message).1 = .written) :
    gzencode env.zlib env.scaled (env.protobufC.pack message)
      (env.protobufC.getPackedSize message) = some (writePprof env message).2 := by
  simp only [writePprof] at written ⊢
  split at written
  · cases written
  · next allocated =>
    rw [if_neg allocated]
    split at written
    · cases written
    · next packed =>
      rw [if_neg packed]
      split at written
      · cases written
      · next gzprofile compressed =>
        split at written
        · cases written
        · next whole =>
          rw [not_or, not_lt] at whole
          have all : gzprofile.take (env.fwrite gzprofile) = gzprofile :=
            (List.take_prefix _ _).eq_of_length_le whole.2
          simp only [compressed, all, whole.1, lt_irrefl, or_self, ↓reduceIte]

/-- The bytes that have been written are the compressed message. -/
theorem written_decompresses (packs : Packs env.protobufC profiles)
    (documented : Documented env.zlib format) {message : Perftools.Profile}
    (short : (profiles.encode message).length < 2 ^ 31)
    (written : (writePprof env message).1 = .written) :
    format.decompress (writePprof env message).2 = some (profiles.encode message) := by
  have length : (UInt64.ofNat (profiles.encode message).length).toNat =
      (profiles.encode message).length :=
    UInt64.toNat_ofNat_of_lt' (lt_trans short (by decide))
  have input : (gzencodeStream env.scaled (profiles.encode message)
      (UInt64.ofNat (profiles.encode message).length)).input = profiles.encode message :=
    (input_eq_iff length).mpr (lt_trans short (by decide))
  have compressed := written_whole written
  rw [packs.size message short, packs.bytes message short] at compressed
  obtain ⟨-, stored⟩ := (gzencode_eq_some_iff documented).mp compressed
  rw [stored, input, format.decompress_compress]

/-- Whatever is written for a table of units reads back as these units. -/
theorem readPprof_written (packs : Packs env.protobufC profiles)
    (documented : Documented env.zlib format) {config : ProfConfig} {startTime endTime : UInt64}
    {samplingUnits : OrderedTable Bytes ProfSamplingUnit}
    (few : samplingUnits.entries.length < 2 ^ 61)
    (fit : TimesFit config.samplingInterval samplingUnits) :
    let build := buildPprof config startTime endTime samplingUnits
    (profiles.encode (packedMessage build)).length < 2 ^ 31 →
      pprofOutcome env build.profile = .written →
      readPprof format profiles (pprofWritten env build.profile) =
        some (samplingUnits.entries.map (shownSample config.samplingInterval)) := by
  intro build short written
  obtain ⟨message, same⟩ := profileOf_packed config startTime endTime few
  simp only [build, pprofOutcome, pprofWritten, message] at written ⊢
  have decoded := profiles.decode_encode (packedMessage build)
  have resolved := assembled_resolves
    (buildPprof_assembled config startTime endTime samplingUnits) fit
  rw [readPprof, written_decompresses packs documented short written, Option.bind_eq_bind,
    Option.bind_some, decoded, Option.bind_eq_bind, Option.bind_some, same]
  exact mapM_of_map (by rw [resolved, List.map_map]; rfl)

end PhpProf.PprofFileProofs
