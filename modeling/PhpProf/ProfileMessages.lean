import PhpProf.MessageDescriptor

/-! `profile.pb-c.c`: the messages of `profile.proto` with all their fields, and
their generated field tables. An array of a C structure and its `n_` field are one
list. The runtime library that packs by the tables is not modelled; what the wire
format makes of a message by its table shows that there is such an encoding. -/
namespace PhpProf.Perftools

/-! ## Value types -/

structure ValueType where
  type : Int64 := 0
  unit : Int64 := 0
  deriving DecidableEq

abbrev valueTypeDescriptor : MessageDescriptor where
  name := "perftools.profiles.ValueType"
  fields :=
    [⟨"type", 1, .none, .int64, false⟩,
     ⟨"unit", 2, .none, .int64, false⟩]
  distinct := by decide

namespace ValueType

def values (valueType : ValueType) : valueTypeDescriptor.Value :=
  (valueType.type, valueType.unit, ())

def encode (valueType : ValueType) : Bytes := valueTypeDescriptor.encode valueType.values

def ofValues : valueTypeDescriptor.Value → Option ValueType
  | (type, unit, ()) => some { type, unit }

def decode (data : Bytes) : Option ValueType := (valueTypeDescriptor.decode data).bind ofValues

@[simp] theorem decode_encode (valueType : ValueType) :
    decode valueType.encode = some valueType := by
  rw [decode, encode, MessageDescriptor.decode_encode, Option.bind_some]
  rfl

end ValueType

/-! ## Samples -/

structure Label where
  key : Int64 := 0
  str : Int64 := 0
  num : Int64 := 0
  numUnit : Int64 := 0
  deriving DecidableEq

abbrev labelDescriptor : MessageDescriptor where
  name := "perftools.profiles.Label"
  fields :=
    [⟨"key", 1, .none, .int64, false⟩,
     ⟨"str", 2, .none, .int64, false⟩,
     ⟨"num", 3, .none, .int64, false⟩,
     ⟨"num_unit", 4, .none, .int64, false⟩]
  distinct := by decide

namespace Label

def values (label : Label) : labelDescriptor.Value :=
  (label.key, label.str, label.num, label.numUnit, ())

def encode (label : Label) : Bytes := labelDescriptor.encode label.values

def ofValues : labelDescriptor.Value → Option Label
  | (key, str, num, numUnit, ()) => some { key, str, num, numUnit }

def decode (data : Bytes) : Option Label := (labelDescriptor.decode data).bind ofValues

@[simp] theorem decode_encode (label : Label) : decode label.encode = some label := by
  rw [decode, encode, MessageDescriptor.decode_encode, Option.bind_some]
  rfl

end Label

structure Sample where
  locationId : List UInt64 := []
  value : List Int64 := []
  label : List Label := []
  deriving DecidableEq

abbrev sampleDescriptor : MessageDescriptor where
  name := "perftools.profiles.Sample"
  fields :=
    [⟨"location_id", 1, .repeated, .uint64, true⟩,
     ⟨"value", 2, .repeated, .int64, true⟩,
     ⟨"label", 3, .repeated, .message, false⟩]
  distinct := by decide

namespace Sample

def values (sample : Sample) : sampleDescriptor.Value :=
  (sample.locationId, sample.value, sample.label.map Label.encode, ())

def encode (sample : Sample) : Bytes := sampleDescriptor.encode sample.values

def ofValues : sampleDescriptor.Value → Option Sample
  | (locationId, value, labels, ()) => do
    let label ← labels.mapM Label.decode
    return { locationId, value, label }

def decode (data : Bytes) : Option Sample := (sampleDescriptor.decode data).bind ofValues

@[simp] theorem decode_encode (sample : Sample) : decode sample.encode = some sample := by
  rw [decode, encode, MessageDescriptor.decode_encode, Option.bind_some]
  exact Option.bind_eq_some_iff.mpr ⟨sample.label, mapM_written Label.decode_encode _, rfl⟩

end Sample

/-! ## Mappings -/

structure Mapping where
  id : UInt64 := 0
  memoryStart : UInt64 := 0
  memoryLimit : UInt64 := 0
  fileOffset : UInt64 := 0
  filename : Int64 := 0
  buildId : Int64 := 0
  hasFunctions : Bool := false
  hasFilenames : Bool := false
  hasLineNumbers : Bool := false
  hasInlineFrames : Bool := false
  deriving DecidableEq

abbrev mappingDescriptor : MessageDescriptor where
  name := "perftools.profiles.Mapping"
  fields :=
    [⟨"id", 1, .none, .uint64, false⟩,
     ⟨"memory_start", 2, .none, .uint64, false⟩,
     ⟨"memory_limit", 3, .none, .uint64, false⟩,
     ⟨"file_offset", 4, .none, .uint64, false⟩,
     ⟨"filename", 5, .none, .int64, false⟩,
     ⟨"build_id", 6, .none, .int64, false⟩,
     ⟨"has_functions", 7, .none, .bool, false⟩,
     ⟨"has_filenames", 8, .none, .bool, false⟩,
     ⟨"has_line_numbers", 9, .none, .bool, false⟩,
     ⟨"has_inline_frames", 10, .none, .bool, false⟩]
  distinct := by decide

namespace Mapping

def values (mapping : Mapping) : mappingDescriptor.Value :=
  (mapping.id, mapping.memoryStart, mapping.memoryLimit, mapping.fileOffset, mapping.filename,
    mapping.buildId, mapping.hasFunctions, mapping.hasFilenames, mapping.hasLineNumbers,
    mapping.hasInlineFrames, ())

def encode (mapping : Mapping) : Bytes := mappingDescriptor.encode mapping.values

def ofValues : mappingDescriptor.Value → Option Mapping
  | (id, memoryStart, memoryLimit, fileOffset, filename, buildId, hasFunctions, hasFilenames,
      hasLineNumbers, hasInlineFrames, ()) =>
    some { id, memoryStart, memoryLimit, fileOffset, filename, buildId, hasFunctions,
             hasFilenames, hasLineNumbers, hasInlineFrames }

def decode (data : Bytes) : Option Mapping := (mappingDescriptor.decode data).bind ofValues

@[simp] theorem decode_encode (mapping : Mapping) : decode mapping.encode = some mapping := by
  rw [decode, encode, MessageDescriptor.decode_encode, Option.bind_some]
  rfl

end Mapping

/-! ## Locations -/

structure Line where
  functionId : UInt64 := 0
  line : Int64 := 0
  deriving DecidableEq

abbrev lineDescriptor : MessageDescriptor where
  name := "perftools.profiles.Line"
  fields :=
    [⟨"function_id", 1, .none, .uint64, false⟩,
     ⟨"line", 2, .none, .int64, false⟩]
  distinct := by decide

namespace Line

def values (line : Line) : lineDescriptor.Value := (line.functionId, line.line, ())

def encode (line : Line) : Bytes := lineDescriptor.encode line.values

def ofValues : lineDescriptor.Value → Option Line
  | (functionId, line, ()) => some { functionId, line }

def decode (data : Bytes) : Option Line := (lineDescriptor.decode data).bind ofValues

@[simp] theorem decode_encode (line : Line) : decode line.encode = some line := by
  rw [decode, encode, MessageDescriptor.decode_encode, Option.bind_some]
  rfl

end Line

structure Location where
  id : UInt64 := 0
  mappingId : UInt64 := 0
  address : UInt64 := 0
  line : List Line := []
  isFolded : Bool := false
  deriving DecidableEq

abbrev locationDescriptor : MessageDescriptor where
  name := "perftools.profiles.Location"
  fields :=
    [⟨"id", 1, .none, .uint64, false⟩,
     ⟨"mapping_id", 2, .none, .uint64, false⟩,
     ⟨"address", 3, .none, .uint64, false⟩,
     ⟨"line", 4, .repeated, .message, false⟩,
     ⟨"is_folded", 5, .none, .bool, false⟩]
  distinct := by decide

namespace Location

def values (location : Location) : locationDescriptor.Value :=
  (location.id, location.mappingId, location.address, location.line.map Line.encode,
    location.isFolded, ())

def encode (location : Location) : Bytes := locationDescriptor.encode location.values

def ofValues : locationDescriptor.Value → Option Location
  | (id, mappingId, address, lines, isFolded, ()) => do
    let line ← lines.mapM Line.decode
    return { id, mappingId, address, line, isFolded }

def decode (data : Bytes) : Option Location := (locationDescriptor.decode data).bind ofValues

@[simp] theorem decode_encode (location : Location) : decode location.encode = some location := by
  rw [decode, encode, MessageDescriptor.decode_encode, Option.bind_some]
  exact Option.bind_eq_some_iff.mpr ⟨location.line, mapM_written Line.decode_encode _, rfl⟩

end Location

/-! ## Functions -/

structure Function where
  id : UInt64 := 0
  name : Int64 := 0
  systemName : Int64 := 0
  filename : Int64 := 0
  startLine : Int64 := 0
  deriving DecidableEq

abbrev functionDescriptor : MessageDescriptor where
  name := "perftools.profiles.Function"
  fields :=
    [⟨"id", 1, .none, .uint64, false⟩,
     ⟨"name", 2, .none, .int64, false⟩,
     ⟨"system_name", 3, .none, .int64, false⟩,
     ⟨"filename", 4, .none, .int64, false⟩,
     ⟨"start_line", 5, .none, .int64, false⟩]
  distinct := by decide

namespace Function

def values (function : Function) : functionDescriptor.Value :=
  (function.id, function.name, function.systemName, function.filename, function.startLine, ())

def encode (function : Function) : Bytes := functionDescriptor.encode function.values

def ofValues : functionDescriptor.Value → Option Function
  | (id, name, systemName, filename, startLine, ()) =>
    some { id, name, systemName, filename, startLine }

def decode (data : Bytes) : Option Function := (functionDescriptor.decode data).bind ofValues

@[simp] theorem decode_encode (function : Function) : decode function.encode = some function := by
  rw [decode, encode, MessageDescriptor.decode_encode, Option.bind_some]
  rfl

end Function

/-! ## The profile -/

structure Profile where
  sampleType : List ValueType := []
  sample : List Sample := []
  mapping : List Mapping := []
  location : List Location := []
  function : List Function := []
  stringTable : List Bytes := []
  dropFrames : Int64 := 0
  keepFrames : Int64 := 0
  timeNanos : Int64 := 0
  durationNanos : Int64 := 0
  periodType : Option ValueType := none
  period : Int64 := 0
  comment : List Int64 := []
  defaultSampleType : Int64 := 0
  deriving DecidableEq

abbrev profileDescriptor : MessageDescriptor where
  name := "perftools.profiles.Profile"
  fields :=
    [⟨"sample_type", 1, .repeated, .message, false⟩,
     ⟨"sample", 2, .repeated, .message, false⟩,
     ⟨"mapping", 3, .repeated, .message, false⟩,
     ⟨"location", 4, .repeated, .message, false⟩,
     ⟨"function", 5, .repeated, .message, false⟩,
     ⟨"string_table", 6, .repeated, .string, false⟩,
     ⟨"drop_frames", 7, .none, .int64, false⟩,
     ⟨"keep_frames", 8, .none, .int64, false⟩,
     ⟨"time_nanos", 9, .none, .int64, false⟩,
     ⟨"duration_nanos", 10, .none, .int64, false⟩,
     ⟨"period_type", 11, .none, .message, false⟩,
     ⟨"period", 12, .none, .int64, false⟩,
     ⟨"comment", 13, .repeated, .int64, true⟩,
     ⟨"default_sample_type", 14, .none, .int64, false⟩]
  distinct := by decide

namespace Profile

def values (profile : Profile) : profileDescriptor.Value :=
  (profile.sampleType.map ValueType.encode, profile.sample.map Sample.encode,
    profile.mapping.map Mapping.encode, profile.location.map Location.encode,
    profile.function.map Function.encode, profile.stringTable, profile.dropFrames,
    profile.keepFrames, profile.timeNanos, profile.durationNanos,
    profile.periodType.map ValueType.encode, profile.period, profile.comment,
    profile.defaultSampleType, ())

def encode (profile : Profile) : Bytes := profileDescriptor.encode profile.values

def ofValues : profileDescriptor.Value → Option Profile
  | (sampleTypes, samples, mappings, locations, functions, stringTable, dropFrames,
      keepFrames, timeNanos, durationNanos, packedPeriodType, period, comment,
      defaultSampleType, ()) => do
    let sampleType ← sampleTypes.mapM ValueType.decode
    let sample ← samples.mapM Sample.decode
    let mapping ← mappings.mapM Mapping.decode
    let location ← locations.mapM Location.decode
    let function ← functions.mapM Function.decode
    let periodType ← packedPeriodType.mapM ValueType.decode
    return { sampleType, sample, mapping, location, function, stringTable, dropFrames, keepFrames,
             timeNanos, durationNanos, periodType, period, comment, defaultSampleType }

def decode (data : Bytes) : Option Profile := (profileDescriptor.decode data).bind ofValues

theorem ofValues_values (profile : Profile) : ofValues profile.values = some profile := by
  have periodType : (profile.periodType.map ValueType.encode).mapM ValueType.decode =
      some profile.periodType := by
    cases profile.periodType with
    | none => rfl
    | some valueType => simp
  refine Option.bind_eq_some_iff.mpr ⟨_, mapM_written ValueType.decode_encode _, ?_⟩
  refine Option.bind_eq_some_iff.mpr ⟨_, mapM_written Sample.decode_encode _, ?_⟩
  refine Option.bind_eq_some_iff.mpr ⟨_, mapM_written Mapping.decode_encode _, ?_⟩
  refine Option.bind_eq_some_iff.mpr ⟨_, mapM_written Location.decode_encode _, ?_⟩
  refine Option.bind_eq_some_iff.mpr ⟨_, mapM_written Function.decode_encode _, ?_⟩
  exact Option.bind_eq_some_iff.mpr ⟨_, periodType, rfl⟩

theorem decode_encode (profile : Profile) : decode profile.encode = some profile := by
  rw [decode, encode, MessageDescriptor.decode_encode, Option.bind_some]
  exact profile.ofValues_values

end Profile

end PhpProf.Perftools
