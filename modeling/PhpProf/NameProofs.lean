import PhpProf.CallgrindProofs
import PhpProf.PprofProofs
import PhpProf.ReportProofs
import PhpProf.SamplingProofs

/-! Whether units can be told apart in the three reports of the sampling mode. The
units are kept under counted names, which may contain NUL bytes, and every writer
hands the bare pointer to C string code. -/
namespace PhpProf.NameProofs
open Text CallgrindProofs PprofProofs ReportProofs SamplingProofs

/-! ## Names up to a NUL -/

/-- The first part of some bytes, up to a NUL or to the end. -/
def Shows (shown bytes : Bytes) : Prop :=
  0 ∉ shown ∧ (bytes = shown ∨ ∃ hidden, bytes = shown ++ 0 :: hidden)

/-- Up to the first NUL, or to the end, two names are the same. -/
def AgreeToNul (left right : Bytes) : Prop := ∃ shown, Shows shown left ∧ Shows shown right

theorem cString_eq_iff {bytes shown : Bytes} : cString bytes = shown ↔ Shows shown bytes := by
  constructor
  · rintro rfl
    refine ⟨fun nul => ?_, ?_⟩
    · have held := List.mem_takeWhile_imp nul
      simp at held
    · have parts : cString bytes ++ bytes.dropWhile (· ≠ 0) = bytes :=
        List.takeWhile_append_dropWhile ..
      have stopped := List.head?_dropWhile_not (fun byte : UInt8 => byte ≠ 0) bytes
      cases left : bytes.dropWhile (· ≠ 0) with
      | nil =>
        rw [left, List.append_nil] at parts
        exact Or.inl parts.symm
      | cons byte hidden =>
        rw [left] at parts stopped
        have nul : byte = 0 := by simpa using stopped
        rw [nul] at parts
        exact Or.inr ⟨hidden, parts.symm⟩
  · rintro ⟨clean, rfl | ⟨hidden, rfl⟩⟩
    · exact cString_of_no_nul clean
    · have front : ∀ byte ∈ shown, decide (byte ≠ 0) = true := by
        intro byte member
        exact decide_eq_true fun nul => clean (nul ▸ member)
      rw [cString, List.takeWhile_append_of_pos front]
      simp

theorem agreeToNul_iff {left right : Bytes} :
    AgreeToNul left right ↔ cString left = cString right := by
  simp only [AgreeToNul, ← cString_eq_iff]
  constructor
  · rintro ⟨shown, rfl, same⟩
    exact same.symm
  · exact fun same => ⟨_, same, rfl⟩

theorem agreeToNul_clean {left right : Bytes} (leftClean : 0 ∉ left) (rightClean : 0 ∉ right) :
    AgreeToNul left right ↔ left = right := by
  rw [agreeToNul_iff, cString_of_no_nul leftClean, cString_of_no_nul rightClean]

/-! ## The names in the reports -/

/-- The records printed to `callgrind.out` for the units of a table, each with the bytes
that `%s` prints of its names. A newline in a name or a script path belongs to these
bytes, although in the file it ends the line. -/
def printedRecords (globals : ProfGlobals) : List Record :=
  (keptUnits globals.config.samplingThreshold globals.samplingUnits).map printedRecord

/-- The name each function of a profile refers to. -/
def functionNames (profile : Profiles.Profile) : List (Option Bytes) :=
  profile.function.map fun function => stringAt profile function.name

/-- No name stands for two units in any of the reports. In the callgrind report it is
the printed texts that differ, whatever lines they come to. -/
structure NamesApart (engine : Engine) (globals : ProfGlobals) : Prop where
  console : ∀ after console rows,
    profSamplingPrintResultConsole engine globals = some (after, console) →
    console.table = some rows → (rows.map SamplingRow.function).Nodup
  callgrind : ((printedRecords globals).map Record.function).Nodup
  pprof : ∀ startTime endTime, (functionNames (buildPprof globals.config startTime endTime
    (reportedUnits globals)).profile).Nodup

theorem reportedUnits_kept (globals : ProfGlobals) :
    (reportedUnits globals).entries =
      keptUnits globals.config.samplingThreshold globals.samplingUnits :=
  reportedUnits_entries globals

/-- The names of the units above the threshold. -/
def keptNames (globals : ProfGlobals) : List Bytes :=
  (keptUnits globals.config.samplingThreshold globals.samplingUnits).map Prod.fst

theorem keptNames_nodup (globals : ProfGlobals) : (keptNames globals).Nodup :=
  globals.samplingUnits.distinct.sublist (List.filter_sublist.map _)

/-- Different names are shown apart unless they agree up to a NUL. -/
theorem shown_nodup_iff {names : List Bytes} (distinct : names.Nodup) :
    (names.map cString).Nodup ↔
      ∀ left ∈ names, ∀ right ∈ names, AgreeToNul left right → left = right := by
  rw [List.nodup_map_iff_inj_on distinct]
  simp only [agreeToNul_iff]

theorem callgrind_names (globals : ProfGlobals) :
    (printedRecords globals).map Record.function = (keptNames globals).map cString := by
  rw [printedRecords, keptNames, List.map_map, List.map_map]
  rfl

theorem pprof_names (globals : ProfGlobals) (startTime endTime : UInt64) :
    functionNames (buildPprof globals.config startTime endTime (reportedUnits globals)).profile =
      ((keptNames globals).map cString).map some := by
  have assembled := buildPprof_assembled globals.config startTime endTime (reportedUnits globals)
  rw [functionNames, assembled.functions, keptNames, ← reportedUnits_kept]
  refine List.ext_getElem (by simp) fun i within _ => ?_
  simp only [List.length_map, List.length_mapIdx] at within
  have had := (assembled.loop.interned _ (List.getElem_mem within)).1
  simp only [List.getElem_map, List.getElem_mapIdx, functionOf]
  rw [stringAt, assembled.strings, string_of_number had, Option.join_some]

/-- The console shows names of units above the threshold, and none of them twice. -/
theorem console_names {engine : Engine} (sorts : SortsByComparator engine)
    {globals after : ProfGlobals} {console : SamplingConsole} {rows : List SamplingRow}
    (printed : profSamplingPrintResultConsole engine globals = some (after, console))
    (table : console.table = some rows) :
    ∃ names : List Bytes, names.Nodup ∧ (∀ name ∈ names, name ∈ keptNames globals) ∧
      rows.map SamplingRow.function = names.map cString := by
  rw [profSamplingPrintResultConsole] at printed
  simp only at printed
  split at printed
  · cases printed
    cases table
  · obtain ⟨res, sliced, same⟩ := Option.map_eq_some_iff.mp printed
    cases same
    cases table
    obtain ⟨other, alsoSliced, top⟩ := sliced_sorted sorts compareSamplingUnits_consistent
      compareSamplingUnits_iff globals.samplingUnits (creatable_of_htSlice sliced)
      globals.config.samplingThreshold.toNat
    obtain rfl := Option.some.inj (sliced.symm.trans alsoSliced)
    refine ⟨(res.entries.filter fun entry =>
      globals.config.samplingThreshold.toNat < samplingScore entry).map Prod.fst, ?_, ?_, ?_⟩
    · exact res.distinct.sublist (List.filter_sublist.map Prod.fst)
    · intro name shown
      obtain ⟨entry, held, rfl⟩ := List.mem_map.mp shown
      obtain ⟨member, above⟩ := top.above entry held
      refine List.mem_map_of_mem (List.mem_filter.mpr ⟨member, ?_⟩)
      exact decide_eq_true (UInt64.lt_iff_toNat_lt.mpr above)
    · have rows := samplingRows_eq globals.config.samplingThreshold res.entries
      refine (congrArg (List.map SamplingRow.function) rows).trans ?_
      rw [List.map_map, List.map_map]
      rfl

/-- All three reports tell units apart exactly when no two units above the
threshold have names that agree up to a NUL. -/
theorem namesApart_iff {engine : Engine} (sorts : SortsByComparator engine)
    (globals : ProfGlobals) :
    NamesApart engine globals ↔
      ∀ left ∈ keptNames globals, ∀ right ∈ keptNames globals,
        AgreeToNul left right → left = right := by
  rw [← shown_nodup_iff (keptNames_nodup globals)]
  constructor
  · intro apart
    rw [← callgrind_names]
    exact apart.callgrind
  · intro nodup
    constructor
    · intro after console rows printed table
      obtain ⟨names, once, kept, shown⟩ := console_names sorts printed table
      rw [shown, List.nodup_map_iff_inj_on once]
      intro left leftShown right rightShown same
      exact List.inj_on_of_nodup_map nodup (kept left leftShown) (kept right rightShown) same
    · rw [callgrind_names]
      exact nodup
    · intro startTime endTime
      rw [pprof_names]
      exact nodup.map (Option.some_injective Bytes)

/-! ## The names that are sampled -/

/-- The function's name has more hits than the threshold. -/
def Reported (engine : Engine) (threshold : UInt64) (deliveries : List (List ExecuteData))
    (func : ZendFunction) : Prop :=
  threshold < UInt64.ofNat (samplesNamed engine (functionName engine func) deliveries).length

/-- The units above the threshold are those of the functions sampled more often. -/
theorem mem_keptNames_iff (engine : Engine) {globals : ProfGlobals}
    (enabled : globals.samplingEnabled = true) (blank : globals.samplingUnits = .empty)
    (deliveries : List (List ExecuteData)) (name : Bytes) :
    name ∈ keptNames (handleAll engine globals deliveries) ↔
      ∃ func ∈ samples deliveries,
        Reported engine globals.config.samplingThreshold deliveries func ∧
          functionName engine func = name := by
  have config : (handleAll engine globals deliveries).config = globals.config := by
    rw [handleAll_eq enabled]
  have entries : ∀ unit, (name, unit) ∈ (handleAll engine globals deliveries).samplingUnits.entries
      ↔ unitOf (samplesNamed engine name deliveries) = some unit := by
    intro unit
    rw [← OrderedTable.find?_eq_some_iff, find?_handled enabled blank]
  rw [keptNames, config]
  constructor
  · intro member
    obtain ⟨⟨_, unit⟩, kept, rfl⟩ := List.mem_map.mp member
    obtain ⟨listed, above⟩ := List.mem_filter.mp kept
    obtain ⟨first, head, same⟩ := Option.map_eq_some_iff.mp ((entries unit).mp listed)
    obtain ⟨sampled, named⟩ := head_named head
    refine ⟨first, sampled, ?_, named⟩
    rw [← same] at above
    rw [Reported, named]
    exact of_decide_eq_true above
  · rintro ⟨func, sampled, reported, rfl⟩
    have named : func ∈ samplesNamed engine (functionName engine func) deliveries :=
      List.mem_filter.mpr ⟨sampled, decide_eq_true rfl⟩
    cases head : (samplesNamed engine (functionName engine func) deliveries).head? with
    | none =>
      rw [List.head?_eq_none_iff] at head
      rw [head] at named
      cases named
    | some first =>
      have amount : unitOf (samplesNamed engine (functionName engine func) deliveries) =
          some ⟨UInt64.ofNat (samplesNamed engine (functionName engine func) deliveries).length,
            first.opArray.filename, first.opArray.lineStart⟩ := by
        rw [unitOf, head]
        rfl
      have listed := (entries _).mpr amount
      exact List.mem_map.mpr ⟨_, List.mem_filter.mpr ⟨listed, decide_eq_true reported⟩, rfl⟩

/-- After any run of the handler the three reports tell all units apart exactly
when no two functions above the threshold have different names that agree up to
a NUL. -/
theorem sampled_names_apart_iff (engine : Engine) (sorts : SortsByComparator engine)
    (setitimer : Itimerval → Bool) (globals : ProfGlobals)
    (deliveries : List (List ExecuteData)) :
    let setup := (profSamplingSetup setitimer globals).1
    let reported := fun func =>
      func ∈ samples deliveries ∧ Reported engine globals.config.samplingThreshold deliveries func
    NamesApart engine (handleAll engine setup deliveries) ↔
      ∀ left right, reported left → reported right →
        AgreeToNul (functionName engine left) (functionName engine right) →
          functionName engine left = functionName engine right := by
  intro setup reported
  have enabled : setup.samplingEnabled = true := rfl
  have blank : setup.samplingUnits = .empty := rfl
  rw [namesApart_iff sorts]
  have kept : ∀ name, name ∈ keptNames (handleAll engine setup deliveries) ↔
      ∃ func ∈ samples deliveries,
        Reported engine globals.config.samplingThreshold deliveries func ∧
          functionName engine func = name := mem_keptNames_iff engine enabled blank deliveries
  constructor
  · intro apart left right leftReported rightReported
    exact apart _ ((kept _).mpr ⟨left, leftReported.1, leftReported.2, rfl⟩) _
      ((kept _).mpr ⟨right, rightReported.1, rightReported.2, rfl⟩)
  · intro apart left leftKept right rightKept
    obtain ⟨leftFunc, leftSampled, leftReported, rfl⟩ := (kept left).mp leftKept
    obtain ⟨rightFunc, rightSampled, rightReported, rfl⟩ := (kept right).mp rightKept
    exact apart leftFunc rightFunc ⟨leftSampled, leftReported⟩ ⟨rightSampled, rightReported⟩

/-- Neither the class nor the function has a NUL in its name. -/
def PlainNames (func : ZendFunction) : Prop :=
  (∀ scope ∈ func.scope, 0 ∉ scope) ∧ ∀ name ∈ func.functionName, 0 ∉ name

/-- Only a class or a function brings a NUL into a name: a closure is named after
what `%s` prints of its file. -/
theorem functionName_clean {func : ZendFunction} (plain : PlainNames func) :
    0 ∉ functionName php func := by
  obtain ⟨cleanScope, cleanName⟩ := plain
  unfold functionName getFunctionName
  split
  · have file : 0 ∉ cString func.opArray.filename.val := (cString_eq_iff.mp rfl).1
    have line : 0 ∉ signedDecimal func.opArray.lineStart.toInt32.toInt :=
      signedDecimal_not_mem _ rfl (by decide)
    simp only [Option.getD_some, List.mem_append, not_or]
    exact ⟨⟨⟨by decide, file⟩, by decide⟩, line⟩
  · split
    · decide
    · show 0 ∉ phpFunctionOrMethodName func
      unfold phpFunctionOrMethodName
      split
      · next scope name isScope isName =>
        simp only [List.mem_append, not_or]
        exact ⟨⟨cleanScope scope isScope, by decide⟩, cleanName name isName⟩
      · next name _ isName => exact cleanName name isName
      · decide

/-- Only sampled methods of anonymous classes can be mistaken for one another. -/
theorem plain_names_apart (setitimer : Itimerval → Bool) (globals : ProfGlobals)
    {deliveries : List (List ExecuteData)}
    (plain : ∀ func ∈ samples deliveries, PlainNames func) :
    NamesApart php (handleAll php (profSamplingSetup setitimer globals).1 deliveries) := by
  have enabled : (profSamplingSetup setitimer globals).1.samplingEnabled = true := rfl
  have kept := mem_keptNames_iff php enabled rfl deliveries
  refine (namesApart_iff php_sorts _).mpr ?_
  intro left leftKept right rightKept
  obtain ⟨leftFunc, leftSampled, -, rfl⟩ := (kept left).mp leftKept
  obtain ⟨rightFunc, rightSampled, -, rfl⟩ := (kept right).mp rightKept
  have leftClean := functionName_clean (plain leftFunc leftSampled)
  have rightClean := functionName_clean (plain rightFunc rightSampled)
  exact (agreeToNul_clean leftClean rightClean).mp

/-- A method of an anonymous class: what tells the class from others follows a
NUL. -/
def anonymousMethod (suffix name : String) : ZendFunction where
  type := .userFunction
  closure := false
  scope := some (ascii "class@anonymous" ++ 0 :: ascii suffix)
  functionName := some (ascii name)
  opArray := ⟨⟨1, ascii "a.php"⟩, 3⟩

/-- Each function is sampled twice, one frame deep. -/
def twice (left right : ZendFunction) : List (List ExecuteData) :=
  [[⟨left⟩], [⟨left⟩], [⟨right⟩], [⟨right⟩]]

def namesConfig : ProfConfig := ⟨.sampling, .callgrind, 1000, 20, 1, 50, 0, 0⟩

/-- A method of an anonymous class beside the script itself. -/
theorem one_anonymous_class_stays_apart :
    NamesApart php (handleAll php (profSamplingSetup (fun _ => true) (.fresh namesConfig)).1
      (twice (anonymousMethod "a.php:3" "run") (topLevel 1 "a.php"))) := by
  refine (sampled_names_apart_iff php php_sorts (fun _ => true) (.fresh namesConfig) _).mpr ?_
  have plain : ∀ left ∈ samples (twice (anonymousMethod "a.php:3" "run") (topLevel 1 "a.php")),
      ∀ right ∈ samples (twice (anonymousMethod "a.php:3" "run") (topLevel 1 "a.php")),
        cString (functionName php left) = cString (functionName php right) →
          functionName php left = functionName php right := by decide
  intro left right leftReported rightReported agree
  exact plain left leftReported.1 right rightReported.1 (agreeToNul_iff.mp agree)

/-- Methods of anonymous classes are shown alike, whatever they are called. -/
theorem anonymous_classes_look_alike :
    ¬ NamesApart php (handleAll php (profSamplingSetup (fun _ => true) (.fresh namesConfig)).1
      (twice (anonymousMethod "a.php:3" "run") (anonymousMethod "a.php:7" "stop"))) := by
  intro apart
  exact absurd apart.callgrind (by decide)

end PhpProf.NameProofs
