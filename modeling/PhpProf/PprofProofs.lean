import PhpProf.Sampling

/-! What a reader finds in the profile before it is packed. Following a sample
to its location, its line, its function and the string table leads back to the
unit it was built from, for any table of units with repeated and shared names. -/
namespace PhpProf.PprofProofs
open Text Profiles

/-! ## Reading a profile -/

/-- What the profile says about one sample. The hits are read in the type the
handler counts them in. -/
structure ResolvedSample where
  name : Bytes
  filename : Bytes
  lineno : Nat
  startLine : Nat
  hits : UInt64
  nanoseconds : Int
  deriving DecidableEq

def stringAt (profile : Profile) (index : Nat) : Option Bytes :=
  (profile.stringTable[index]?).join

/-- Follow the ids and indices of a sample; anything dangling gives nothing. -/
def resolveSample (profile : Profile) (sample : Sample) : Option ResolvedSample :=
  match sample.locationId, sample.value with
  | [locationId], [hits, nanoseconds] => do
    let location ← profile.location.find? fun location => location.id = locationId
    match location.line with
    | [line] =>
      let function ← profile.function.find? fun function => function.id = line.functionId
      let name ← stringAt profile function.name
      let filename ← stringAt profile function.filename
      some ⟨name, filename, line.line, function.startLine, hits.toUInt64, nanoseconds.toInt⟩
    | _ => none
  | _, _ => none

/-- Every index into the string table that a value type or a function stores. -/
def stringIndices (profile : Profile) : List Nat :=
  (profile.sampleType ++ [profile.periodType]).flatMap (fun type => [type.type, type.unit]) ++
    profile.function.flatMap fun function =>
      [function.name, function.systemName, function.filename]

structure WellFormed (build : PprofBuild) : Prop where
  emptyString : build.profile.stringTable[0]? = some (some [])
  assignedOnce : ∀ slot, 1 ≤ slot → slot < build.profile.nStringTable →
    ((stringTableWrites build.stringTableMap).map Prod.fst).count slot = 1
  inRange : ∀ index ∈ stringIndices build.profile, index < build.profile.nStringTable
  functionIds : (build.profile.function.map Function.id).Nodup ∧
    0 ∉ build.profile.function.map Function.id
  locationIds : (build.profile.location.map Location.id).Nodup ∧
    0 ∉ build.profile.location.map Location.id
  mappings : ∃ mapping, build.profile.mapping = [mapping] ∧
    ∀ location ∈ build.profile.location, location.mappingId = mapping.id
  samples : ∀ sample ∈ build.profile.sample, ∃ id location, sample.locationId = [id] ∧
    build.profile.location.filter (fun other => other.id = id) = [location]
  lines : ∀ location ∈ build.profile.location, ∃ line function, location.line = [line] ∧
    build.profile.function.filter (fun other => other.id = line.functionId) = [function]
  values : ∀ sample ∈ build.profile.sample,
    sample.value.length = build.profile.sampleType.length
  lengths : build.profile.nSampleType = build.profile.sampleType.length ∧
    build.profile.nSample = build.profile.sample.length ∧
    build.profile.nMapping = build.profile.mapping.length ∧
    build.profile.nLocation = build.profile.location.length ∧
    build.profile.nFunction = build.profile.function.length ∧
    build.profile.nStringTable = build.profile.stringTable.length

/-! ## The loop over the units -/

/-- The elements the loop appends for the unit at one position. -/
def functionOf (stringTableMap : PprofStringTableMap) (i : Nat)
    (entry : Bytes × ProfSamplingUnit) : Function where
  id := i + 1
  name := stringTableMap.number entry.1
  systemName := stringTableMap.number entry.1
  filename := stringTableMap.number entry.2.filename.val
  startLine := entry.2.lineno.toNat

def locationOf (i : Nat) (entry : Bytes × ProfSamplingUnit) : Location where
  id := i + 1
  mappingId := 1
  line := [⟨i + 1, entry.2.lineno.toNat⟩]

def sampleOf (samplingInterval : UInt64) (i : Nat) (entry : Bytes × ProfSamplingUnit) : Sample where
  locationId := [i + 1]
  value := [entry.2.hits.toInt64, (entry.2.hits * samplingInterval).toInt64 * 1000]

/-- The loop variables once some units are done. -/
structure Built (samplingInterval : UInt64) (units : List (Bytes × ProfSamplingUnit))
    (loop : PprofLoop) : Prop where
  interned : ∀ entry ∈ units,
    loop.stringTableMap.Has entry.1 ∧ loop.stringTableMap.Has entry.2.filename.val
  functions : loop.functions = units.mapIdx (functionOf loop.stringTableMap)
  locations : loop.locations = units.mapIdx locationOf
  samples : loop.samples = units.mapIdx (sampleOf samplingInterval)
  functionsI : loop.functionsI = units.length
  locationsI : loop.locationsI = units.length
  samplesI : loop.samplesI = units.length

variable {samplingInterval : UInt64}

/-- One iteration appends one element everywhere and only extends the map. -/
theorem pprofStep_built {units : List (Bytes × ProfSamplingUnit)} {loop : PprofLoop}
    (built : Built samplingInterval units loop) (entry : Bytes × ProfSamplingUnit) :
    Built samplingInterval (units ++ [entry]) (pprofStep samplingInterval loop entry) ∧
      (pprofStep samplingInterval loop entry).stringTableMap.Extends loop.stringTableMap := by
  obtain ⟨name, unit⟩ := entry
  have nameExtends := loop.stringTableMap.intern_extends name
  have nameFound := loop.stringTableMap.intern_found name
  generalize named : loop.stringTableMap.intern name = afterName at nameExtends nameFound
  have fileExtends := afterName.1.intern_extends unit.filename.val
  have fileFound := afterName.1.intern_found unit.filename.val
  generalize filed : afterName.1.intern unit.filename.val = afterFile at fileExtends fileFound
  have extended := Interner.extends_trans fileExtends nameExtends
  have map : (pprofStep samplingInterval loop (name, unit)).stringTableMap = afterFile.1 := by
    simp only [pprofStep, getStringTableMapIndex, named, filed]
  have nameNumber := Interner.number_eq (fileExtends _ _ nameFound)
  have fileNumber := Interner.number_eq fileFound
  refine ⟨⟨?_, ?_, ?_, ?_, ?_, ?_, ?_⟩, map ▸ extended⟩
  · intro other member
    rw [map]
    rcases List.mem_append.mp member with earlier | last
    · obtain ⟨hadName, hadFile⟩ := built.interned other earlier
      exact ⟨extended.has hadName, extended.has hadFile⟩
    · obtain rfl := List.mem_singleton.mp last
      exact ⟨Interner.has_of_found (fileExtends _ _ nameFound), Interner.has_of_found fileFound⟩
  · -- the numbers given to earlier units stand in the extended map
    have same : units.mapIdx (functionOf afterFile.1) =
        units.mapIdx (functionOf loop.stringTableMap) := by
      refine List.ext_getElem (by simp) fun i within _ => ?_
      have bound : i < units.length := by simpa using within
      obtain ⟨hadName, hadFile⟩ := built.interned _ (List.getElem_mem bound)
      simp [functionOf, extended.number_eq hadName, extended.number_eq hadFile]
    rw [map, List.mapIdx_concat, same, ← built.functions]
    simp [pprofStep, getStringTableMapIndex, named, filed, functionOf, nameNumber, fileNumber,
      built.functionsI]
  · simp [pprofStep, built.locations, built.locationsI, built.functionsI, locationOf]
  · simp [pprofStep, built.samples, built.locationsI, sampleOf]
  · simp [pprofStep, built.functionsI]
  · simp [pprofStep, built.locationsI]
  · simp [pprofStep, built.samplesI]

theorem pprofLoop_built (samplingInterval : UInt64) (stringTableMap : PprofStringTableMap)
    (units : List (Bytes × ProfSamplingUnit)) :
    let loop := units.foldl (pprofStep samplingInterval) ⟨stringTableMap, 0, [], 0, [], 0, []⟩
    Built samplingInterval units loop ∧ loop.stringTableMap.Extends stringTableMap := by
  intro loop
  induction units using List.reverseRecOn with
  | nil => exact ⟨⟨by simp, rfl, rfl, rfl, rfl, rfl, rfl⟩, Interner.extends_refl _⟩
  | append_singleton units entry ih =>
    obtain ⟨built, extended⟩ := ih
    have step := pprofStep_built built entry
    simp only [loop, List.foldl_append, List.foldl_cons, List.foldl_nil]
    exact ⟨step.1, Interner.extends_trans step.2 extended⟩

/-! ## The string table -/

theorem pprofValueType_interned (stringTableMap : PprofStringTableMap) (type unit : String) :
    let after := pprofValueType stringTableMap type unit
    after.1.Extends stringTableMap ∧
      after.1.map.find? (cLiteral type) = some after.2.type ∧
      after.1.map.find? (cLiteral unit) = some after.2.unit := by
  intro after
  have typeExtends := stringTableMap.intern_extends (cLiteral type)
  have typeFound := stringTableMap.intern_found (cLiteral type)
  have unitExtends := (stringTableMap.intern (cLiteral type)).1.intern_extends (cLiteral unit)
  have unitFound := (stringTableMap.intern (cLiteral type)).1.intern_found (cLiteral unit)
  simp only [after, pprofValueType, getStringTableMapStrIndex, List.take_length]
  exact ⟨Interner.extends_trans unitExtends typeExtends, unitExtends _ _ typeFound, unitFound⟩

theorem stringTableWrites_indices (stringTableMap : PprofStringTableMap) :
    (stringTableWrites stringTableMap).map Prod.fst =
      0 :: stringTableMap.map.entries.map Prod.snd := by
  simp [stringTableWrites, Function.comp_def]

/-- The slots are assigned one after another. -/
theorem stringTableWrites_dense (stringTableMap : PprofStringTableMap) :
    (stringTableWrites stringTableMap).map Prod.fst = List.range stringTableMap.next := by
  rw [stringTableWrites_indices, stringTableMap.dense, stringTableMap.counted, Nat.add_comm,
    List.range_eq_range', List.range'_succ]

theorem stringTableWrites_nodup (stringTableMap : PprofStringTableMap) :
    ((stringTableWrites stringTableMap).map Prod.fst).Nodup :=
  stringTableWrites_dense stringTableMap ▸ List.nodup_range

theorem next_pos (stringTableMap : PprofStringTableMap) : 0 < stringTableMap.next := by
  rw [stringTableMap.counted]
  omega

/-- An interned string stands in the slot of its number, as C sees it. -/
theorem string_of_number {stringTableMap : PprofStringTableMap} {key : Bytes}
    (had : stringTableMap.Has key) :
    (Slots.fill stringTableMap.next (stringTableWrites stringTableMap))[
      stringTableMap.number key]? = some (some (cString key)) := by
  refine Slots.fill_written (stringTableWrites_nodup _) ?_ (stringTableMap.index_bounds had).2
  refine List.mem_cons_of_mem _ (List.mem_map.mpr ⟨(key, stringTableMap.number key), ?_, rfl⟩)
  exact stringTableMap.map.find?_eq_some_iff.mp had

/-! ## The finished profile -/

variable (config : ProfConfig) (startTime endTime : UInt64)
  (samplingUnits : OrderedTable Bytes ProfSamplingUnit)

/-- What the build consists of: the loop's arrays and map, and value types whose
strings have a number in that map. -/
structure Assembled (build : PprofBuild) : Prop where
  loop : Built config.samplingInterval samplingUnits.entries
    ⟨build.stringTableMap, build.profile.nFunction, build.profile.function,
      build.profile.nLocation, build.profile.location, build.profile.nSample,
      build.profile.sample⟩
  sampleTypes : ∃ samplesType cpuType, build.profile.sampleType = [samplesType, cpuType] ∧
    build.profile.nSampleType = 2
  typed : ∀ type ∈ build.profile.sampleType ++ [build.profile.periodType],
    ∃ typeKey unitKey, build.stringTableMap.map.find? typeKey = some type.type ∧
      build.stringTableMap.map.find? unitKey = some type.unit
  mapping : build.profile.mapping = [⟨1, true⟩] ∧ build.profile.nMapping = 1
  strings : build.profile.stringTable =
    Slots.fill build.stringTableMap.next (stringTableWrites build.stringTableMap)
  stringCount : build.profile.nStringTable = build.stringTableMap.next

/-- The strings of a value type are the numbers of two literals. -/
structure Typed (stringTableMap : PprofStringTableMap) (type unit : String)
    (valueType : ValueType) : Prop where
  type : stringTableMap.map.find? (cLiteral type) = some valueType.type
  unit : stringTableMap.map.find? (cLiteral unit) = some valueType.unit

theorem Typed.extend {later earlier : PprofStringTableMap} {type unit : String}
    {valueType : ValueType} (typed : Typed earlier type unit valueType)
    (extended : later.Extends earlier) : Typed later type unit valueType where
  type := extended _ _ typed.type
  unit := extended _ _ typed.unit

theorem buildPprof_typed :
    let build := buildPprof config startTime endTime samplingUnits
    ∃ samplesType cpuType, build.profile.sampleType = [samplesType, cpuType] ∧
      Typed build.stringTableMap "samples" "count" samplesType ∧
      Typed build.stringTableMap "cpu" "nanoseconds" cpuType ∧
      Typed build.stringTableMap "cpu" "nanoseconds" build.profile.periodType := by
  have samplesType := pprofValueType_interned .empty "samples" "count"
  generalize samplesDef : pprofValueType .empty "samples" "count" = afterSamples at samplesType
  have cpuType := pprofValueType_interned afterSamples.1 "cpu" "nanoseconds"
  generalize cpuDef : pprofValueType afterSamples.1 "cpu" "nanoseconds" = afterCpu at cpuType
  have periodType := pprofValueType_interned afterCpu.1 "cpu" "nanoseconds"
  generalize periodDef : pprofValueType afterCpu.1 "cpu" "nanoseconds" = afterPeriod at periodType
  have extended :=
    (pprofLoop_built config.samplingInterval afterPeriod.1 samplingUnits.entries).2
  have fromCpu := Interner.extends_trans extended periodType.1
  have fromSamples := Interner.extends_trans fromCpu cpuType.1
  simp only [buildPprof, samplesDef, cpuDef, periodDef]
  refine ⟨_, _, rfl, ?_, ?_, ?_⟩
  · exact Typed.extend ⟨samplesType.2.1, samplesType.2.2⟩ fromSamples
  · exact Typed.extend ⟨cpuType.2.1, cpuType.2.2⟩ fromCpu
  · exact Typed.extend ⟨periodType.2.1, periodType.2.2⟩ extended

theorem buildPprof_assembled :
    Assembled config samplingUnits (buildPprof config startTime endTime samplingUnits) := by
  obtain ⟨samplesType, cpuType, types, samplesTyped, cpuTyped, periodTyped⟩ :=
    buildPprof_typed config startTime endTime samplingUnits
  refine ⟨?_, ⟨samplesType, cpuType, types, rfl⟩, ?_, ⟨rfl, rfl⟩, rfl, rfl⟩
  · exact (pprofLoop_built config.samplingInterval _ samplingUnits.entries).1
  · simp only [types, List.cons_append, List.nil_append, List.mem_cons, List.not_mem_nil, or_false]
    rintro type (rfl | rfl | rfl)
    · exact ⟨_, _, samplesTyped.type, samplesTyped.unit⟩
    · exact ⟨_, _, cpuTyped.type, cpuTyped.unit⟩
    · exact ⟨_, _, periodTyped.type, periodTyped.unit⟩

variable {config samplingUnits} {build : PprofBuild}

theorem Assembled.functions (assembled : Assembled config samplingUnits build) :
    build.profile.function = samplingUnits.entries.mapIdx (functionOf build.stringTableMap) :=
  assembled.loop.functions

theorem Assembled.locations (assembled : Assembled config samplingUnits build) :
    build.profile.location = samplingUnits.entries.mapIdx locationOf :=
  assembled.loop.locations

theorem Assembled.samples (assembled : Assembled config samplingUnits build) :
    build.profile.sample = samplingUnits.entries.mapIdx (sampleOf config.samplingInterval) :=
  assembled.loop.samples

theorem Assembled.location_listed (assembled : Assembled config samplingUnits build) {i : Nat}
    (within : i < samplingUnits.entries.length) :
    locationOf i samplingUnits.entries[i] ∈ build.profile.location := by
  rw [assembled.locations]
  exact List.mem_mapIdx.mpr ⟨i, within, rfl⟩

theorem Assembled.function_listed (assembled : Assembled config samplingUnits build) {i : Nat}
    (within : i < samplingUnits.entries.length) :
    functionOf build.stringTableMap i samplingUnits.entries[i] ∈ build.profile.function := by
  rw [assembled.functions]
  exact List.mem_mapIdx.mpr ⟨i, within, rfl⟩

theorem assembled_functionIds (assembled : Assembled config samplingUnits build) :
    Numbered Function.id build.profile.function := by
  have counts : ∀ i entry, (functionOf build.stringTableMap i entry).id = i + 1 := fun _ _ => rfl
  rw [assembled.functions]
  exact numbered_mapIdx counts _

theorem assembled_locationIds (assembled : Assembled config samplingUnits build) :
    Numbered Location.id build.profile.location := by
  have counts : ∀ i entry, (locationOf i entry).id = i + 1 := fun _ _ => rfl
  rw [assembled.locations]
  exact numbered_mapIdx counts _

theorem assembled_indices (assembled : Assembled config samplingUnits build) :
    ∀ index ∈ stringIndices build.profile, index < build.profile.nStringTable := by
  have bound : ∀ key index, build.stringTableMap.map.find? key = some index →
      index < build.profile.nStringTable := fun key index found =>
    assembled.stringCount ▸ (build.stringTableMap.index_bounds found).2
  intro index member
  rcases List.mem_append.mp member with ofType | ofFunction
  · obtain ⟨type, listed, stored⟩ := List.mem_flatMap.mp ofType
    obtain ⟨typeKey, unitKey, typeFound, unitFound⟩ := assembled.typed type listed
    simp only [List.mem_cons, List.not_mem_nil, or_false] at stored
    rcases stored with rfl | rfl
    · exact bound _ _ typeFound
    · exact bound _ _ unitFound
  · obtain ⟨function, listed, stored⟩ := List.mem_flatMap.mp ofFunction
    rw [assembled.functions, List.mem_mapIdx] at listed
    obtain ⟨i, within, rfl⟩ := listed
    obtain ⟨hadName, hadFile⟩ := assembled.loop.interned _ (List.getElem_mem within)
    simp only [functionOf, List.mem_cons, List.not_mem_nil, or_false] at stored
    rcases stored with rfl | rfl | rfl
    · exact bound _ _ hadName
    · exact bound _ _ hadName
    · exact bound _ _ hadFile

theorem assembled_wellFormed (assembled : Assembled config samplingUnits build) :
    WellFormed build := by
  have functionIds := assembled_functionIds assembled
  have locationIds := assembled_locationIds assembled
  obtain ⟨samplesType, cpuType, sampleTypes, sampleTypeCount⟩ := assembled.sampleTypes
  refine ⟨?_, ?_, assembled_indices assembled, ⟨numbered_nodup functionIds,
    numbered_ne_zero functionIds⟩, ⟨numbered_nodup locationIds, numbered_ne_zero locationIds⟩,
    ⟨_, assembled.mapping.1, ?_⟩, ?_, ?_, ?_, ?_⟩
  · rw [assembled.strings]
    exact Slots.fill_written (stringTableWrites_nodup _) (List.mem_cons_self ..) (next_pos _)
  · intro slot low high
    rw [stringTableWrites_indices, List.count_cons_of_ne (by omega)]
    exact build.stringTableMap.index_count low (assembled.stringCount ▸ high)
  · intro location member
    rw [assembled.locations, List.mem_mapIdx] at member
    obtain ⟨i, within, rfl⟩ := member
    rfl
  · intro sample member
    rw [assembled.samples, List.mem_mapIdx] at member
    obtain ⟨i, within, rfl⟩ := member
    exact ⟨_, _, rfl, numbered_filter locationIds (assembled.location_listed within)⟩
  · intro location member
    rw [assembled.locations, List.mem_mapIdx] at member
    obtain ⟨i, within, rfl⟩ := member
    exact ⟨_, _, rfl, numbered_filter functionIds (assembled.function_listed within)⟩
  · intro sample member
    rw [assembled.samples, List.mem_mapIdx] at member
    obtain ⟨i, within, rfl⟩ := member
    rw [sampleTypes]
    rfl
  · refine ⟨by rw [sampleTypes, sampleTypeCount]; rfl, ?_, ?_, ?_, ?_, ?_⟩
    · rw [assembled.samples, List.length_mapIdx]
      exact assembled.loop.samplesI
    · rw [assembled.mapping.1, assembled.mapping.2]
      rfl
    · rw [assembled.locations, List.length_mapIdx]
      exact assembled.loop.locationsI
    · rw [assembled.functions, List.length_mapIdx]
      exact assembled.loop.functionsI
    · rw [assembled.strings, assembled.stringCount, Slots.fill_length]

/-! ## Nothing is lost -/

/-- What a unit has to say. -/
def unitSample (samplingInterval : UInt64) (entry : Bytes × ProfSamplingUnit) :
    ResolvedSample where
  name := entry.1
  filename := entry.2.filename.val
  lineno := entry.2.lineno.toNat
  startLine := entry.2.lineno.toNat
  hits := entry.2.hits
  nanoseconds := entry.2.hits.toNat * samplingInterval.toNat * 1000

/-- The names contain no NUL byte. -/
def PrintableUnits (samplingUnits : OrderedTable Bytes ProfSamplingUnit) : Prop :=
  ∀ entry ∈ samplingUnits.entries, 0 ∉ entry.1 ∧ 0 ∉ entry.2.filename.val

instance : Decidable (PrintableUnits samplingUnits) :=
  inferInstanceAs (Decidable (∀ entry ∈ samplingUnits.entries, _ ∧ _))

/-- The sampled time of every unit fits the profile's signed numbers. -/
def TimesFit (samplingInterval : UInt64) (samplingUnits : OrderedTable Bytes ProfSamplingUnit) :
    Prop :=
  ∀ entry ∈ samplingUnits.entries, entry.2.hits.toNat * samplingInterval.toNat * 1000 < 2 ^ 63

instance : Decidable (TimesFit samplingInterval samplingUnits) :=
  inferInstanceAs (Decidable (∀ entry ∈ samplingUnits.entries, _ < _))

/-- Neither the product in microseconds nor its thousandfold wraps. -/
theorem nanoseconds_exact {hits samplingInterval : UInt64}
    (fit : hits.toNat * samplingInterval.toNat * 1000 < 2 ^ 63) :
    ((hits * samplingInterval).toInt64 * 1000).toInt =
      hits.toNat * samplingInterval.toNat * 1000 := by
  have product : (hits * samplingInterval).toNat = hits.toNat * samplingInterval.toNat := by
    rw [UInt64.toNat_mul, Nat.mod_eq_of_lt]
    omega
  have microseconds : (hits * samplingInterval).toInt64.toInt =
      ((hits.toNat * samplingInterval.toNat : Nat) : Int) := by
    rw [toInt_of_small (by omega), product]
  have thousand : (1000 : Int64).toInt = 1000 := rfl
  rw [Int64.toInt_mul, microseconds, thousand, Int.bmod_eq_of_le (by omega) (by omega)]
  push_cast
  rfl

/-- What a unit has to say with C strings for its names, which end at a NUL. -/
def shownSample (samplingInterval : UInt64) (entry : Bytes × ProfSamplingUnit) :
    ResolvedSample :=
  { unitSample samplingInterval entry with
    name := cString entry.1
    filename := cString entry.2.filename.val }

theorem shownSample_printable {samplingInterval : UInt64} {entry : Bytes × ProfSamplingUnit}
    (clean : 0 ∉ entry.1 ∧ 0 ∉ entry.2.filename.val) :
    shownSample samplingInterval entry = unitSample samplingInterval entry := by
  simp only [shownSample, unitSample, cString_of_no_nul clean.1, cString_of_no_nul clean.2]

theorem stringAt_number (assembled : Assembled config samplingUnits build) {key : Bytes}
    (had : build.stringTableMap.Has key) :
    stringAt build.profile (build.stringTableMap.number key) = some (cString key) := by
  rw [stringAt, assembled.strings, string_of_number had, Option.join_some]

/-- The sample at a position leads back to the unit at that position. -/
theorem resolve_sampleOf (assembled : Assembled config samplingUnits build)
    (fit : TimesFit config.samplingInterval samplingUnits) {i : Nat}
    (within : i < samplingUnits.entries.length) :
    resolveSample build.profile (sampleOf config.samplingInterval i samplingUnits.entries[i]) =
      some (shownSample config.samplingInterval samplingUnits.entries[i]) := by
  have location : build.profile.location.find? (fun location => location.id = i + 1) =
      some (locationOf i samplingUnits.entries[i]) :=
    numbered_find? (assembled_locationIds assembled) (assembled.location_listed within)
  have function : build.profile.function.find? (fun function => function.id = i + 1) =
      some (functionOf build.stringTableMap i samplingUnits.entries[i]) :=
    numbered_find? (assembled_functionIds assembled) (assembled.function_listed within)
  have member := List.getElem_mem within
  obtain ⟨hadName, hadFile⟩ := assembled.loop.interned _ member
  have name := stringAt_number assembled hadName
  have filename := stringAt_number assembled hadFile
  have nanoseconds := nanoseconds_exact (fit _ member)
  simp only [resolveSample, sampleOf, location, Option.bind_eq_bind, Option.bind_some, locationOf,
    function, functionOf, name, filename, nanoseconds, UInt64.toUInt64_toInt64, shownSample,
    unitSample]

theorem assembled_resolves (assembled : Assembled config samplingUnits build)
    (fit : TimesFit config.samplingInterval samplingUnits) :
    build.profile.sample.map (resolveSample build.profile) =
      samplingUnits.entries.map fun entry => some (shownSample config.samplingInterval entry) := by
  rw [assembled.samples]
  refine List.ext_getElem (by simp) fun i _ within => ?_
  simp only [List.length_map] at within
  simp only [List.getElem_map, List.getElem_mapIdx]
  exact resolve_sampleOf assembled fit within

theorem assembled_lossless (assembled : Assembled config samplingUnits build)
    (printable : PrintableUnits samplingUnits)
    (fit : TimesFit config.samplingInterval samplingUnits) :
    build.profile.sample.map (resolveSample build.profile) =
      samplingUnits.entries.map fun entry => some (unitSample config.samplingInterval entry) := by
  rw [assembled_resolves assembled fit]
  apply List.map_congr_left
  intro entry member
  rw [shownSample_printable (printable entry member)]

/-- With a positive interval the hits fit as well, so no value is negative. -/
theorem assembled_nonnegative (assembled : Assembled config samplingUnits build)
    (fit : TimesFit config.samplingInterval samplingUnits)
    (positive : 0 < config.samplingInterval.toNat) :
    ∀ sample ∈ build.profile.sample, ∀ value ∈ sample.value, 0 ≤ value.toInt := by
  intro sample member value listed
  rw [assembled.samples, List.mem_mapIdx] at member
  obtain ⟨i, within, rfl⟩ := member
  have bound := fit _ (List.getElem_mem within)
  have small : samplingUnits.entries[i].2.hits.toNat < 2 ^ 63 := by
    have grown := Nat.le_mul_of_pos_right samplingUnits.entries[i].2.hits.toNat positive
    omega
  simp only [sampleOf, List.mem_cons, List.not_mem_nil, or_false] at listed
  rcases listed with rfl | rfl
  · rw [toInt_of_small small]
    omega
  · rw [nanoseconds_exact bound]
    positivity

/-- The units `prof_sampling_print_result_pprof` reports. -/
def reportedUnits (globals : ProfGlobals) : OrderedTable Bytes ProfSamplingUnit :=
  globals.samplingUnits.filter (profSamplingApplyThreshold globals.config.samplingThreshold)

/-- What the units above the threshold have to say, in table order. -/
def keptSamples (globals : ProfGlobals) : List ResolvedSample :=
  (globals.samplingUnits.entries.filter fun entry =>
    entry.2.hits > globals.config.samplingThreshold).map
      (unitSample globals.config.samplingInterval)

theorem reportedUnits_entries (globals : ProfGlobals) :
    (reportedUnits globals).entries = globals.samplingUnits.entries.filter fun entry =>
      entry.2.hits > globals.config.samplingThreshold := by
  refine List.filter_congr fun entry _ => ?_
  simp [profSamplingApplyThreshold, ← UInt64.not_le]

theorem reportedUnits_samples (globals : ProfGlobals) :
    (reportedUnits globals).entries.map (unitSample globals.config.samplingInterval) =
      keptSamples globals := by
  rw [keptSamples, reportedUnits_entries]

theorem written_profile {realtime : Option Timespec} {fopen : Bool}
    {outcome : Profile → PprofOutcome} {globals after : ProfGlobals} {written : Profile}
    (printed : profSamplingPrintResultPprof realtime fopen outcome globals =
      (after, some written)) :
    written = (buildPprof globals.config globals.startTime (getWallTime realtime)
      (reportedUnits globals)).profile := by
  simp only [profSamplingPrintResultPprof] at printed
  split at printed
  · cases printed
  · split at printed
    · cases printed
    · split at printed
      · cases printed
        rfl
      all_goals cases printed

/-- The profile packed for a table of units is well formed, and its samples lead
back to exactly the units above the threshold, in table order. -/
theorem pprof_profile_is_lossless (realtime : Option Timespec) (fopen : Bool)
    (outcome : Profile → PprofOutcome) (globals : ProfGlobals)
    (printable : PrintableUnits globals.samplingUnits)
    (fit : TimesFit globals.config.samplingInterval (reportedUnits globals)) :
    let build := buildPprof globals.config globals.startTime (getWallTime realtime)
      (reportedUnits globals)
    WellFormed build ∧
      build.profile.sample.map (resolveSample build.profile) = (keptSamples globals).map some ∧
      (0 < globals.config.samplingInterval.toNat →
        ∀ sample ∈ build.profile.sample, ∀ value ∈ sample.value, 0 ≤ value.toInt) ∧
      ∀ after written,
        profSamplingPrintResultPprof realtime fopen outcome globals = (after, some written) →
        written = build.profile := by
  intro build
  have assembled := buildPprof_assembled globals.config globals.startTime (getWallTime realtime)
    (reportedUnits globals)
  have reported : PrintableUnits (reportedUnits globals) := fun entry member =>
    printable entry (List.mem_of_mem_filter member)
  refine ⟨assembled_wellFormed assembled, ?_, assembled_nonnegative assembled fit,
    fun _ _ => written_profile⟩
  rw [assembled_lossless assembled reported fit, ← reportedUnits_samples, List.map_map]
  rfl

/-- Two units share a file, and one of them is named like it. -/
def sharedNames : ProfGlobals :=
  { ProfGlobals.fresh ⟨.sampling, .pprof, 1000, 20, 1, 50, 0, 0⟩ with
    startTime := 5
    samplingUnits := .add (.add .empty (ascii "a.php") ⟨7, ⟨1, ascii "a.php"⟩, 3⟩)
      (ascii "main") ⟨2, ⟨1, ascii "a.php"⟩, 1⟩ }

theorem shared_names_read_back :
    ∃ profile, profSamplingPrintResultPprof (some ⟨1, 0⟩) true (fun _ => .written) sharedNames =
        ({ sharedNames with samplingUnits := reportedUnits sharedNames }, some profile) ∧
      profile.sample.map (resolveSample profile) =
        [some ⟨ascii "a.php", ascii "a.php", 3, 3, 7, 7000000⟩,
          some ⟨ascii "main", ascii "a.php", 1, 1, 2, 2000000⟩] := by
  have lossless := pprof_profile_is_lossless (some ⟨1, 0⟩) true (fun _ => .written) sharedNames
    (by decide) (by decide)
  refine ⟨_, rfl, lossless.2.1.trans ?_⟩
  decide

end PhpProf.PprofProofs
