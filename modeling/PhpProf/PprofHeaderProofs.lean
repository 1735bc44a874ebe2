import PhpProf.PprofProofs

/-! The header of the profile against its samples and functions: the period, which
ought to be in the unit of the samples' times, and the unit strings, which share
the string table with the names. -/
namespace PhpProf.PprofHeaderProofs
open Text Profiles PprofProofs

/-! ## The period -/

/-- The period is what one hit adds to the time of a sample. -/
def PeriodAgrees (profile : Profile) : Prop :=
  ∀ sample ∈ profile.sample, ∃ hits time, sample.value = [hits, time] ∧
    time.toInt = hits.toInt * profile.period.toInt

theorem reportedUnits_hit {globals : ProfGlobals} {entry : Bytes × ProfSamplingUnit}
    (reported : entry ∈ (reportedUnits globals).entries) : 0 < entry.2.hits.toNat := by
  have kept := List.of_mem_filter reported
  simp only [profSamplingApplyThreshold, Bool.not_eq_true', decide_eq_false_iff_not,
    UInt64.not_le] at kept
  exact Nat.zero_lt_of_lt (UInt64.lt_iff_toNat_lt.mp kept)

/-- The times are converted to nanoseconds and the period is not, so they agree
only where there is no time at all. -/
theorem sample_disagrees {samplingInterval hits : UInt64} (positive : 0 < samplingInterval.toNat)
    (hit : 0 < hits.toNat) (fit : hits.toNat * samplingInterval.toNat * 1000 < 2 ^ 63) :
    ((hits * samplingInterval).toInt64 * 1000).toInt ≠
      hits.toInt64.toInt * samplingInterval.toInt64.toInt := by
  have product := Nat.mul_pos hit positive
  have hitsSmall : hits.toNat < 2 ^ 63 := by
    have grown := Nat.le_mul_of_pos_right hits.toNat positive
    omega
  have intervalSmall : samplingInterval.toNat < 2 ^ 63 := by
    have grown := Nat.le_mul_of_pos_left samplingInterval.toNat hit
    omega
  rw [nanoseconds_exact fit, toInt_of_small hitsSmall, toInt_of_small intervalSmall]
  norm_cast
  omega

/-- The profile's period agrees with its samples exactly when it has none. -/
theorem period_agrees_iff (startTime endTime : UInt64) {globals : ProfGlobals}
    (positive : 0 < globals.config.samplingInterval.toNat)
    (fit : TimesFit globals.config.samplingInterval (reportedUnits globals)) :
    PeriodAgrees (buildPprof globals.config startTime endTime (reportedUnits globals)).profile ↔
      ∀ entry ∈ globals.samplingUnits.entries,
        entry.2.hits ≤ globals.config.samplingThreshold := by
  have assembled := buildPprof_assembled globals.config startTime endTime (reportedUnits globals)
  have none : (∀ entry ∈ globals.samplingUnits.entries,
      entry.2.hits ≤ globals.config.samplingThreshold) ↔ (reportedUnits globals).entries = [] := by
    simp [reportedUnits, OrderedTable.filter, profSamplingApplyThreshold]
  rw [none]
  constructor
  · intro agrees
    cases reported : (reportedUnits globals).entries with
    | nil => rfl
    | cons entry rest =>
      have member : entry ∈ (reportedUnits globals).entries := by
        rw [reported]
        exact List.mem_cons_self
      have listed : sampleOf globals.config.samplingInterval 0 entry ∈
          (buildPprof globals.config startTime endTime (reportedUnits globals)).profile.sample := by
        rw [assembled.samples, reported, List.mapIdx_cons]
        exact List.mem_cons_self
      obtain ⟨hits, time, value, same⟩ := agrees _ listed
      simp only [sampleOf, List.cons.injEq, and_true] at value
      obtain ⟨rfl, rfl⟩ := value
      exact absurd same (sample_disagrees positive (reportedUnits_hit member) (fit entry member))
  · intro empty sample listed
    rw [assembled.samples, empty, List.mapIdx_nil] at listed
    cases listed

theorem nothing_above_the_threshold_agrees :
    let config : ProfConfig := { sharedNames.config with samplingThreshold := 7 }
    let globals := { sharedNames with config }
    PeriodAgrees (buildPprof config 5 9 (reportedUnits globals)).profile := by
  intro config globals
  exact (@period_agrees_iff 5 9 globals (by decide) (by decide)).mpr (by decide)

/-- Seven hits at 1000 µs are seven milliseconds, and the period is a microsecond. -/
theorem written_period_disagrees :
    ∃ profile, profSamplingPrintResultPprof (some ⟨1, 0⟩) true (fun _ => .written) sharedNames =
        ({ sharedNames with samplingUnits := reportedUnits sharedNames }, some profile) ∧
      ¬ PeriodAgrees profile := by
  refine ⟨_, rfl, fun agrees => ?_⟩
  obtain ⟨hits, time, value, same⟩ := agrees _ List.mem_cons_self
  cases value
  exact absurd same (by decide)

/-! ## The unit strings -/

/-- The unit strings, in the order they are asked for. -/
def unitTexts : List (String × String) :=
  [("samples", "count"), ("cpu", "nanoseconds"), ("cpu", "nanoseconds")]

/-- The texts the report asks an index for, with the indices it gets. -/
def requests (profile : Profile) (samplingUnits : OrderedTable Bytes ProfSamplingUnit) :
    List (Bytes × Nat) :=
  (unitTexts.zip (profile.sampleType ++ [profile.periodType])).flatMap (fun (texts, type) =>
      [(ascii texts.1, type.type), (ascii texts.2, type.unit)]) ++
    (samplingUnits.entries.zip profile.function).flatMap fun (entry, function) =>
      [(entry.1, function.name), (entry.2.filename.val, function.filename)]

/-- Requests get the same index exactly when they are for the same text, and no
two slots of the string table hold the same text. -/
structure InternsText (profile : Profile)
    (samplingUnits : OrderedTable Bytes ProfSamplingUnit) : Prop where
  faithful : ∀ left ∈ requests profile samplingUnits, ∀ right ∈ requests profile samplingUnits,
    left.1 = right.1 ↔ left.2 = right.2
  distinct : ∀ (i j : Nat) (text : Bytes), text ≠ [] → stringAt profile i = some text →
    stringAt profile j = some text → i = j

/-- No function and no file is called like a unit. -/
def AvoidsUnits (samplingUnits : OrderedTable Bytes ProfSamplingUnit) : Prop :=
  ∀ entry ∈ samplingUnits.entries, ∀ text ∈ ["samples", "count", "cpu", "nanoseconds"],
    entry.1 ≠ ascii text ∧ entry.2.filename.val ≠ ascii text

instance : Decidable (AvoidsUnits samplingUnits) :=
  inferInstanceAs (Decidable (∀ entry ∈ samplingUnits.entries, ∀ _ ∈ _, _ ∧ _))

/-- The texts asked for, with the keys they are looked up under. -/
def requestKeys (samplingUnits : OrderedTable Bytes ProfSamplingUnit) : List (Bytes × Bytes) :=
  unitTexts.flatMap (fun (type, unit) =>
      [(ascii type, cLiteral type), (ascii unit, cLiteral unit)]) ++
    samplingUnits.entries.flatMap fun entry =>
      [(entry.1, entry.1), (entry.2.filename.val, entry.2.filename.val)]

theorem pprofLoop_map (samplingInterval : UInt64) (units : List (Bytes × ProfSamplingUnit))
    (loop : PprofLoop) :
    (units.foldl (pprofStep samplingInterval) loop).stringTableMap =
      loop.stringTableMap.internAll
        (units.flatMap fun entry => [entry.1, entry.2.filename.val]) := by
  induction units generalizing loop with
  | nil => rfl
  | cons entry rest ih =>
    rw [List.foldl_cons, ih, List.flatMap_cons, Interner.internAll_append]
    rfl

theorem pprofValueType_map (stringTableMap : PprofStringTableMap) (type unit : String) :
    (pprofValueType stringTableMap type unit).1 =
      stringTableMap.internAll [cLiteral type, cLiteral unit] := by
  simp only [pprofValueType, getStringTableMapStrIndex, List.take_length]
  rfl

variable {config : ProfConfig} {startTime endTime : UInt64}
  {samplingUnits : OrderedTable Bytes ProfSamplingUnit}

/-- The map is what asking for the keys one after another leaves. -/
theorem buildPprof_map :
    (buildPprof config startTime endTime samplingUnits).stringTableMap =
      Interner.empty.internAll ((requestKeys samplingUnits).map Prod.snd) := by
  have names : ((samplingUnits.entries.flatMap fun entry =>
      [(entry.1, entry.1), (entry.2.filename.val, entry.2.filename.val)]).map Prod.snd) =
      samplingUnits.entries.flatMap fun entry => [entry.1, entry.2.filename.val] := by
    rw [List.map_flatMap]
    rfl
  simp only [buildPprof, pprofLoop_map, pprofValueType_map]
  rw [requestKeys, List.map_append, names, Interner.internAll_append]
  rfl

theorem requestKeys_has (key : Bytes) :
    (buildPprof config startTime endTime samplingUnits).stringTableMap.Has key ↔
      key ∈ (requestKeys samplingUnits).map Prod.snd := by
  rw [buildPprof_map, Interner.has_internAll]
  have nothing : ¬ (Interner.empty : PprofStringTableMap).Has key := by
    intro had
    cases had
  simp [nothing]

private theorem zip_mapIdx {α β γ : Type} {build : Nat → α → β} {read : α × β → List γ}
    {plain : α → List γ} (same : ∀ i x, read (x, build i x) = plain x) (xs : List α) :
    (xs.zip (xs.mapIdx build)).flatMap read = xs.flatMap plain := by
  induction xs generalizing build with
  | nil => rfl
  | cons x rest ih =>
    rw [List.mapIdx_cons, List.zip_cons_cons, List.flatMap_cons, List.flatMap_cons, same,
      ih fun i => same (i + 1)]

/-- Every request is answered with the number of its key. -/
theorem requests_eq :
    let build := buildPprof config startTime endTime samplingUnits
    requests build.profile samplingUnits =
      (requestKeys samplingUnits).map fun request =>
        (request.1, build.stringTableMap.number request.2) := by
  intro build
  obtain ⟨samplesType, cpuType, types, samples, cpu, period⟩ :=
    buildPprof_typed config startTime endTime samplingUnits
  have assembled := buildPprof_assembled config startTime endTime samplingUnits
  rw [requests, requestKeys, List.map_append]
  congr 1
  · simp only [types, unitTexts, List.cons_append, List.nil_append, List.zip_cons_cons,
      List.zip_nil_right, List.flatMap_cons, List.flatMap_nil, List.map_cons, List.map_nil,
      List.append_nil, build, Interner.number_eq samples.type, Interner.number_eq samples.unit,
      Interner.number_eq cpu.type, Interner.number_eq cpu.unit]
    rw [← Option.some.inj (cpu.type.symm.trans period.type),
      ← Option.some.inj (cpu.unit.symm.trans period.unit)]
  · rw [assembled.functions, List.map_flatMap]
    apply zip_mapIdx
    exact fun i entry => rfl

/-- A request is for a unit string, under its C literal, or for a name, under
itself. -/
theorem mem_requestKeys {request : Bytes × Bytes} :
    request ∈ requestKeys samplingUnits ↔
      (∃ text ∈ ["samples", "count", "cpu", "nanoseconds"],
        request = (ascii text, cLiteral text)) ∨
      ∃ entry ∈ samplingUnits.entries, ∃ name ∈ [entry.1, entry.2.filename.val],
        request = (name, name) := by
  rw [requestKeys, List.mem_append]
  apply or_congr
  · simp only [unitTexts, List.flatMap_cons, List.flatMap_nil, List.cons_append, List.nil_append,
      List.mem_cons, List.not_mem_nil, or_false, exists_eq_or_imp, exists_eq_left]
    have twice : ∀ cpu nanoseconds : Prop,
        (cpu ∨ nanoseconds ∨ cpu ∨ nanoseconds) = (cpu ∨ nanoseconds) := by
      intro cpu nanoseconds
      rw [← or_assoc, or_self]
    rw [twice]
  · simp

/-- Every key looks to C like the text that was asked for. -/
theorem requestKeys_text (printable : PrintableUnits samplingUnits) {request : Bytes × Bytes}
    (asked : request ∈ requestKeys samplingUnits) : request.1 = cString request.2 := by
  rcases mem_requestKeys.mp asked with ⟨text, unit, rfl⟩ | ⟨entry, member, name, called, rfl⟩
  · simp only [List.mem_cons, List.not_mem_nil, or_false] at unit
    rcases unit with rfl | rfl | rfl | rfl
    all_goals rfl
  · obtain ⟨cleanName, cleanFile⟩ := printable entry member
    simp only [List.mem_cons, List.not_mem_nil, or_false] at called
    rcases called with rfl | rfl
    · exact (cString_of_no_nul cleanName).symm
    · exact (cString_of_no_nul cleanFile).symm

/-- Nothing but a name like a unit string makes one text go by two keys. -/
theorem requestKeys_key (avoids : AvoidsUnits samplingUnits) {left right : Bytes × Bytes}
    (askedLeft : left ∈ requestKeys samplingUnits) (askedRight : right ∈ requestKeys samplingUnits)
    (same : left.1 = right.1) : left.2 = right.2 := by
  have apart : ∀ text ∈ ["samples", "count", "cpu", "nanoseconds"],
      ∀ entry ∈ samplingUnits.entries, ∀ name ∈ [entry.1, entry.2.filename.val],
        name ≠ ascii text := by
    intro text unit entry member name called
    obtain ⟨function, file⟩ := avoids entry member text unit
    simp only [List.mem_cons, List.not_mem_nil, or_false] at called
    rcases called with rfl | rfl
    · exact function
    · exact file
  rcases mem_requestKeys.mp askedLeft with ⟨text, unit, rfl⟩ | ⟨entry, member, name, called, rfl⟩
  · rcases mem_requestKeys.mp askedRight with ⟨other, _, rfl⟩ | ⟨entry, member, name, called, rfl⟩
    · exact congrArg (· ++ [0]) same
    · exact absurd same.symm (apart text unit entry member name called)
  · rcases mem_requestKeys.mp askedRight with ⟨text, unit, rfl⟩ | ⟨other, _, _, _, rfl⟩
    · exact absurd same (apart text unit entry member name called)
    · exact same

/-- A text in a slot is what C sees of a key with that number. -/
theorem slot_key {i : Nat} {text : Bytes} (nonempty : text ≠ [])
    (held : stringAt (buildPprof config startTime endTime samplingUnits).profile i = some text) :
    ∃ request ∈ requestKeys samplingUnits, cString request.2 = text ∧
      (buildPprof config startTime endTime samplingUnits).stringTableMap.number request.2 = i := by
  have assembled := buildPprof_assembled config startTime endTime samplingUnits
  rw [stringAt, assembled.strings, Option.join_eq_some_iff] at held
  have written := Slots.mem_of_fill held
  rcases List.mem_cons.mp written with first | later
  · cases first
    exact absurd rfl nonempty
  · obtain ⟨⟨key, index⟩, listed, same⟩ := List.mem_map.mp later
    cases same
    have found := (OrderedTable.find?_eq_some_iff _).mpr listed
    obtain ⟨request, asked, rfl⟩ :=
      List.mem_map.mp ((requestKeys_has key).mp (Interner.has_of_found found))
    exact ⟨request, asked, rfl, Interner.number_eq found⟩

/-- The interning is faithful on text exactly when no function and no file is
called like a unit: the keys of the unit strings count their final NUL. -/
theorem interns_text_iff (config : ProfConfig) (startTime endTime : UInt64)
    (printable : PrintableUnits samplingUnits) :
    InternsText (buildPprof config startTime endTime samplingUnits).profile samplingUnits ↔
      AvoidsUnits samplingUnits := by
  have has : ∀ request ∈ requestKeys samplingUnits,
      (buildPprof config startTime endTime samplingUnits).stringTableMap.Has request.2 :=
    fun request asked => (requestKeys_has request.2).mpr (List.mem_map_of_mem asked)
  constructor
  · intro interns entry member text unit
    have literal : (ascii text, cLiteral text) ∈ requestKeys samplingUnits :=
      mem_requestKeys.mpr (Or.inl ⟨text, unit, rfl⟩)
    have apart : ∀ name ∈ [entry.1, entry.2.filename.val], name ≠ ascii text := by
      rintro name called rfl
      have asked : (ascii text, ascii text) ∈ requestKeys samplingUnits :=
        mem_requestKeys.mpr (Or.inr ⟨entry, member, ascii text, called, rfl⟩)
      have faithful := interns.faithful
      rw [requests_eq] at faithful
      have number := (faithful _ (List.mem_map_of_mem literal) _ (List.mem_map_of_mem asked)).mp rfl
      have key := Interner.number_injective (has _ literal) (has _ asked) number
      -- the literal's key is one byte longer
      have lengths := congrArg List.length key
      simp [cLiteral] at lengths
    exact ⟨apart _ (by simp), apart _ (by simp)⟩
  · intro avoids
    constructor
    · rw [requests_eq]
      intro left answeredLeft right answeredRight
      obtain ⟨leftKey, askedLeft, rfl⟩ := List.mem_map.mp answeredLeft
      obtain ⟨rightKey, askedRight, rfl⟩ := List.mem_map.mp answeredRight
      constructor
      · intro same
        have key := requestKeys_key avoids askedLeft askedRight same
        simp only [key]
      · intro same
        have key := Interner.number_injective (has _ askedLeft) (has _ askedRight) same
        simp only [requestKeys_text printable askedLeft, requestKeys_text printable askedRight,
          key]
    · intro i j text nonempty heldLeft heldRight
      obtain ⟨left, askedLeft, textLeft, rfl⟩ := slot_key nonempty heldLeft
      obtain ⟨right, askedRight, textRight, rfl⟩ := slot_key nonempty heldRight
      have same : left.1 = right.1 := by
        rw [requestKeys_text printable askedLeft, requestKeys_text printable askedRight, textLeft,
          textRight]
      rw [requestKeys_key avoids askedLeft askedRight same]

theorem shared_names_are_interned_once :
    InternsText (buildPprof sharedNames.config 5 9 (reportedUnits sharedNames)).profile
      (reportedUnits sharedNames) :=
  (interns_text_iff sharedNames.config 5 9 (by decide)).mpr (by decide)

/-- A function has the name of a unit. -/
def cpuFunction : ProfGlobals :=
  { sharedNames with samplingUnits := .add .empty (ascii "cpu") ⟨2, ⟨1, ascii "a.php"⟩, 3⟩ }

/-- The text is in the table twice, and its two requests get different indices. -/
theorem cpu_is_interned_twice :
    ∃ profile, profSamplingPrintResultPprof (some ⟨1, 0⟩) true (fun _ => .written) cpuFunction =
        ({ cpuFunction with samplingUnits := reportedUnits cpuFunction }, some profile) ∧
      stringAt profile 3 = some (ascii "cpu") ∧ stringAt profile 5 = some (ascii "cpu") ∧
      ¬ InternsText profile (reportedUnits cpuFunction) := by
  refine ⟨_, rfl, rfl, rfl, fun interns => ?_⟩
  exact absurd (interns.distinct 3 5 (ascii "cpu") (by decide) rfl rfl) (by decide)

end PhpProf.PprofHeaderProofs
