import PhpProf.CallgrindProofs
import PhpProf.PprofFileProofs
import PhpProf.ReportProofs
import PhpProf.RequestProofs
import PhpProf.SamplingProofs

/-! What the outside learns from a whole request in sampling mode. The reference
is a count of the samples under each name, straight from the signals that were
delivered; each of the three output modes is read back and compared with it. -/
namespace PhpProf.SampledRequestProofs
open Text Ranking SamplingProofs

/-! ## Counting the samples of a request -/

/-- The SIGPROF deliveries among the events of a request. -/
def deliveries (events : List Event) : List (List ExecuteData) :=
  events.filterMap fun event =>
    match event with
    | .sigprof executeData => some executeData
    | _ => none

/-- How many samples fell under a name, and the first function sampled there. -/
structure SampleCount where
  name : Bytes
  first : ZendFunction
  count : Nat
  deriving DecidableEq

/-- The counts under all names, in the order of their first samples. -/
def sampleCounts (engine : Engine) (deliveries : List (List ExecuteData)) : List SampleCount :=
  ((samples deliveries).map (functionName engine)).eraseDups.filterMap fun name =>
    (samplesNamed engine name deliveries).head?.map fun first =>
      ⟨name, first, (samplesNamed engine name deliveries).length⟩

/-- The counts that a report shows. -/
def countsAbove (engine : Engine) (threshold : UInt64) (deliveries : List (List ExecuteData)) :
    List SampleCount :=
  (sampleCounts engine deliveries).filter fun counted => threshold.toNat < counted.count

/-- The entry of the table of units that stands for a count. -/
def SampleCount.entry (counted : SampleCount) : Bytes × ProfSamplingUnit :=
  (counted.name,
    { hits := UInt64.ofNat counted.count
      filename := counted.first.opArray.filename
      lineno := counted.first.opArray.lineStart })

variable {engine : Engine}

/-- A table that counts samples from nothing holds the counts. -/
theorem collected_entries (engine : Engine) (deliveries : List (List ExecuteData)) :
    (OrderedTable.collect (functionName engine) freshUnit hit .empty
      (samples deliveries)).entries = (sampleCounts engine deliveries).map SampleCount.entry := by
  rw [OrderedTable.entries_eq, OrderedTable.keys_collect, sampleCounts, List.map_filterMap]
  apply List.filterMap_congr
  intro name _
  rw [OrderedTable.find?_collect, gathered_hits, Option.map_map]
  exact Option.map_map ..

theorem handled_entries {globals : ProfGlobals} (enabled : globals.samplingEnabled = true)
    (blank : globals.samplingUnits = .empty) (deliveries : List (List ExecuteData)) :
    (handleAll engine globals deliveries).samplingUnits.entries =
      (sampleCounts engine deliveries).map SampleCount.entry := by
  rw [handleAll_eq enabled, blank]
  exact collected_entries engine deliveries

theorem mem_sampleCounts {deliveries : List (List ExecuteData)} {counted : SampleCount}
    (member : counted ∈ sampleCounts engine deliveries) :
    counted.first ∈ samples deliveries ∧ functionName engine counted.first = counted.name ∧
      counted.count ≤ (samples deliveries).length := by
  obtain ⟨name, -, made⟩ := List.mem_filterMap.mp member
  obtain ⟨first, head, rfl⟩ := Option.map_eq_some_iff.mp made
  obtain ⟨sampled, named⟩ := head_named head
  exact ⟨sampled, named, List.length_filter_le _ _⟩

theorem sampled_count_pos {deliveries : List (List ExecuteData)} {counted : SampleCount}
    (member : counted ∈ sampleCounts engine deliveries) : 0 < counted.count := by
  obtain ⟨name, -, made⟩ := List.mem_filterMap.mp member
  obtain ⟨first, head, rfl⟩ := Option.map_eq_some_iff.mp made
  exact List.length_pos_of_mem (List.mem_of_mem_head? head)

/-- Every sample is counted under one name. -/
theorem counts_sum (engine : Engine) (deliveries : List (List ExecuteData)) :
    ((sampleCounts engine deliveries).map SampleCount.count).sum =
      (samples deliveries).length := by
  have each : ∀ name ∈ ((samples deliveries).map (functionName engine)).eraseDups,
      (((samplesNamed engine name deliveries).head?.map fun first =>
        SampleCount.mk name first (samplesNamed engine name deliveries).length).map
          SampleCount.count) = some (samplesNamed engine name deliveries).length := by
    intro name member
    obtain ⟨func, sampled, named⟩ := List.mem_map.mp (List.mem_eraseDups.mp member)
    have held : func ∈ samplesNamed engine name deliveries :=
      List.mem_filter.mpr ⟨sampled, decide_eq_true named⟩
    obtain ⟨first, rest, shape⟩ := List.exists_cons_of_ne_nil (List.ne_nil_of_mem held)
    rw [shape]
    rfl
  rw [sampleCounts, List.map_filterMap, List.filterMap_congr each, List.filterMap_eq_map']
  exact OrderedTable.sum_lengths (functionName engine) (samples deliveries)

theorem sampleCounts_length_le (engine : Engine) (deliveries : List (List ExecuteData)) :
    (sampleCounts engine deliveries).length ≤ (samples deliveries).length := by
  have counted : ∀ count ∈ (sampleCounts engine deliveries).map SampleCount.count, 1 ≤ count := by
    intro count member
    obtain ⟨counted, listed, rfl⟩ := List.mem_map.mp member
    exact sampled_count_pos listed
  have bound := List.length_le_sum_of_one_le _ counted
  rwa [List.length_map, counts_sum] at bound

/-! ## From RINIT to the report -/

theorem sigprof_errors (globals : ProfGlobals) (executeData : List ExecuteData) :
    (profSigprofHandler engine globals executeData).errors = globals.errors := by
  unfold profSigprofHandler
  split
  · rfl
  · split
    · rfl
    · rw [getFunctionName_eq]

/-- In sampling mode only the signals do anything. -/
theorem deliverAll_sampling {globals : ProfGlobals} (mode : globals.config.mode = .sampling)
    (events : List Event) :
    deliverAll engine globals events = handleAll engine globals (deliveries events) := by
  induction events generalizing globals with
  | nil => rfl
  | cons event rest ih =>
    have kept : (deliver engine globals event).config.mode = .sampling := by
      rw [RequestProofs.deliver_config, mode]
    have later := ih kept
    have step : deliverAll engine globals (event :: rest) =
        deliverAll engine (deliver engine globals event) rest := rfl
    rw [step, later]
    cases event with
    | sigprof executeData => simp only [deliver, mode, deliveries, List.filterMap_cons]; rfl
    | observerBegin | observerEnd | opcode =>
      simp only [deliver, mode, deliveries, List.filterMap_cons]

/-- What a request in sampling mode has before its report, after some deliveries. -/
structure Sampled (engine : Engine) (config : ProfConfig) (deliveries : List (List ExecuteData))
    (globals : ProfGlobals) : Prop where
  config : globals.config = config
  silent : globals.errors = []
  units : globals.samplingUnits.entries =
    (sampleCounts engine deliveries).map SampleCount.entry

/-- RINIT leaves an empty table and no errors. -/
theorem rinit_sampling {rinit : RinitEnv} {globals setup : ProfGlobals}
    (mode : globals.config.mode = .sampling)
    (started : phpRinit rinit globals = (setup, .success)) :
    setup.config = globals.config ∧ setup.errors = [] ∧ setup.samplingEnabled = true ∧
      setup.samplingUnits = .empty := by
  simp only [phpRinit, profInitErrors, mode, profSamplingSetup] at started
  split at started
  · cases started
  · rw [Prod.mk.injEq] at started
    rw [← started.1]
    exact ⟨rfl, rfl, rfl, rfl⟩

theorem sampled_before_report {rinit : RinitEnv} {globals setup : ProfGlobals}
    (mode : globals.config.mode = .sampling)
    (started : phpRinit rinit globals = (setup, .success)) (events : List Event) :
    Sampled engine globals.config (deliveries events) (deliverAll engine setup events) := by
  obtain ⟨config, silent, enabled, blank⟩ := rinit_sampling mode started
  rw [deliverAll_sampling (by rw [config, mode])]
  refine ⟨?_, ?_, handled_entries enabled blank _⟩
  · rw [handleAll_eq enabled, config]
  · rw [handleAll_eq enabled, silent]

/-! ## The pprof file -/

/-- What the pprof file should say about a count. -/
def SampleCount.resolved (samplingInterval : UInt64) (counted : SampleCount) :
    PprofProofs.ResolvedSample where
  name := cString counted.name
  filename := cString counted.first.opArray.filename.val
  lineno := counted.first.opArray.lineStart.toNat
  startLine := counted.first.opArray.lineStart.toNat
  hits := UInt64.ofNat counted.count
  nanoseconds := counted.count * samplingInterval.toNat * 1000

/-- The message that is packed for a request. -/
def requestMessage (realtime : Option Timespec) (globals : ProfGlobals) : Perftools.Profile :=
  PprofFileProofs.packedMessage (buildPprof globals.config globals.startTime
    (getWallTime realtime) (PprofProofs.reportedUnits globals))

/-- What can go wrong in the report, in the order in which it is checked. -/
def pprofErrors : List ProfError :=
  [⟨.warning, "get wall time"⟩, ⟨.error, "open file"⟩, ⟨.warning, "malloc profile buf"⟩,
    ⟨.error, "pack profile"⟩, ⟨.error, "compress profile"⟩, ⟨.error, "write to file"⟩]

/-- The report either writes a profile, or leaves one of its errors. -/
theorem pprof_cases (realtime : Option Timespec) (fopen : Bool)
    (outcome : Profiles.Profile → PprofOutcome) (globals : ProfGlobals) :
    let build := buildPprof globals.config globals.startTime (getWallTime realtime)
      (PprofProofs.reportedUnits globals)
    let printed := profSamplingPrintResultPprof realtime fopen outcome globals
    printed.2 = some build.profile ∧ printed.1.errors = globals.errors ∧
        outcome build.profile = .written ∨
      printed.2 = none ∧
        ∃ error ∈ pprofErrors, printed.1.errors = globals.errors ++ [error] := by
  intro build printed
  simp only [printed, profSamplingPrintResultPprof]
  split
  · exact .inr ⟨rfl, ⟨.warning, "get wall time"⟩, by decide, rfl⟩
  · split
    · exact .inr ⟨rfl, ⟨.error, "open file"⟩, by decide, rfl⟩
    · split
      · next written => exact .inl ⟨rfl, rfl, written⟩
      · exact .inr ⟨rfl, ⟨.warning, "malloc profile buf"⟩, by decide, rfl⟩
      · exact .inr ⟨rfl, ⟨.error, "pack profile"⟩, by decide, rfl⟩
      · exact .inr ⟨rfl, ⟨.error, "compress profile"⟩, by decide, rfl⟩
      · exact .inr ⟨rfl, ⟨.error, "write to file"⟩, by decide, rfl⟩

theorem filter_above {threshold : UInt64} {counts : List SampleCount}
    (small : ∀ counted ∈ counts, counted.count < 2 ^ 64) :
    (counts.map SampleCount.entry).filter (fun entry => entry.2.hits > threshold) =
      (counts.filter fun counted => threshold.toNat < counted.count).map SampleCount.entry := by
  rw [List.filter_map]
  congr 1
  apply List.filter_congr
  intro counted member
  simp only [Function.comp_apply, SampleCount.entry, gt_iff_lt, UInt64.lt_iff_toNat_lt,
    UInt64.toNat_ofNat_of_lt' (small counted member)]

/-! ### A request with three samples -/

def scriptFunction (name : String) (lineStart : UInt32) : ZendFunction where
  type := .userFunction
  closure := false
  scope := none
  functionName := some (ascii name)
  opArray := ⟨⟨1, ascii "a.php"⟩, lineStart⟩

/-- A signal that finds the function below a frame without one. -/
def inFunction (name : String) (lineStart : UInt32) : Event :=
  .sigprof [⟨none⟩, ⟨some (scriptFunction name lineStart)⟩]

def threeSamples : List Event := [inFunction "f" 3, inFunction "g" 9, inFunction "f" 3]

def sampledConfig (outputMode : ProfOutputMode) : ProfConfig :=
  ⟨.sampling, outputMode, 1000, 20, 1, 50, 0, 0⟩

def accepting : RinitEnv := ⟨some ⟨1, 0⟩, fun _ => true⟩

/-- The globals just before the report. -/
def threeSampled (outputMode : ProfOutputMode) : ProfGlobals :=
  deliverAll php (phpRinit accepting (.fresh (sampledConfig outputMode))).1 threeSamples

/-- The encoding of the wire format by the field tables. -/
def tableFormat : PprofFileProofs.ProfileFormat :=
  ⟨Perftools.Profile.encode, Perftools.Profile.decode, Perftools.Profile.decode_encode⟩

/-- The packed profile of these samples, and what zlib makes of it. -/
def compressedThreeSamples : GzencodeProofs.GzipSample where
  input := tableFormat.encode (requestMessage (some ⟨2, 0⟩) (threeSampled .pprof))
  stream :=
    [31, 139, 8, 0, 0, 0, 0, 0, 0, 3, 227, 98, 225, 96, 20, 96, 226, 98, 225, 96, 22, 96, 17, 226,
     228, 98, 100, 20, 98, 97, 106, 232, 172, 146, 2, 10, 91, 48, 42, 113, 1, 37, 25, 149, 64, 74,
     152, 181, 64, 108, 86, 9, 86, 5, 54, 13, 102, 35, 6, 35, 246, 226, 196, 220, 130, 156, 212, 98,
     35, 214, 228, 252, 210, 188, 18, 35, 230, 228, 130, 82, 35, 238, 188, 196, 188, 252, 226, 212,
     228, 252, 188, 148, 98, 35, 198, 52, 35, 214, 68, 189, 130, 140, 2, 143, 134, 41, 175, 239, 48,
     7, 128, 201, 40, 176, 69, 9, 47, 216, 1, 178, 255, 161, 212, 120, 0, 0, 0]
  gzip := rfl

def profileFormat : GzencodeProofs.GzipFormat := compressedThreeSamples.gzipFormat

/-- Packing by the field tables, into a buffer of the length that is announced. -/
def tableProtobufC : ProtobufC where
  getPackedSize profile := UInt64.ofNat (tableFormat.encode profile).length
  pack profile :=
    (tableFormat.encode profile).take (UInt64.ofNat (tableFormat.encode profile).length).toNat

def workingFile : PprofFileEnv where
  protobufC := tableProtobufC
  emalloc := fun _ => true
  zlib := GzencodeProofs.zlibOf profileFormat
  scaled := GzencodeProofs.exactlyScaled
  fwrite := List.length
  stored := id

theorem workingFile_packs : PprofFileProofs.Packs workingFile.protobufC tableFormat where
  size := fun _ _ => rfl
  bytes := by
    intro profile short
    apply List.take_of_length_le
    rw [UInt64.toNat_ofNat_of_lt' (lt_trans short (by decide))]

theorem workingFile_bounds : workingFile.KeepsBounds where
  pack := fun _ => List.length_take_le _ _
  deflate := GzencodeProofs.zlibOf_bounds profileFormat

def writingEnv : RshutdownEnv :=
  { RshutdownEnv.quiet with
    pprofRealtime := some ⟨2, 0⟩
    pprofOutcome := pprofOutcome workingFile }

section PprofFile

variable {fileEnv : PprofFileEnv} {format : GzencodeProofs.GzipFormat}
  {profiles : PprofFileProofs.ProfileFormat}

theorem sampled_file_reads_back (packs : PprofFileProofs.Packs fileEnv.protobufC profiles)
    (documented : GzencodeProofs.Documented fileEnv.zlib format) {config : ProfConfig}
    {deliveries : List (List ExecuteData)} {globals : ProfGlobals}
    (sampled : Sampled engine config deliveries globals)
    (positive : 0 < config.samplingInterval.toNat)
    (fit : (samples deliveries).length * config.samplingInterval.toNat * 1000 < 2 ^ 63)
    {realtime : Option Timespec}
    (short : (profiles.encode (requestMessage realtime globals)).length < 2 ^ 31) :
    let build := buildPprof globals.config globals.startTime (getWallTime realtime)
      (PprofProofs.reportedUnits globals)
    pprofOutcome fileEnv build.profile = .written →
      PprofFileProofs.readPprof format profiles (pprofWritten fileEnv build.profile) =
        some ((countsAbove engine config.samplingThreshold deliveries).map
          (SampleCount.resolved config.samplingInterval)) := by
  intro build written
  obtain rfl := sampled.config
  have samplesFit : (samples deliveries).length < 2 ^ 61 := by
    have grown := Nat.le_mul_of_pos_right (samples deliveries).length positive
    omega
  have times : ∀ counted ∈ sampleCounts engine deliveries,
      (UInt64.ofNat counted.count).toNat = counted.count ∧
        counted.count * globals.config.samplingInterval.toNat * 1000 < 2 ^ 63 := by
    intro counted member
    have fewer := (mem_sampleCounts member).2.2
    have product := Nat.mul_le_mul_right globals.config.samplingInterval.toNat fewer
    refine ⟨UInt64.toNat_ofNat_of_lt' (lt_of_le_of_lt fewer (lt_trans samplesFit (by decide))), ?_⟩
    exact lt_of_le_of_lt (Nat.mul_le_mul_right 1000 product) fit
  have unitsFit : PprofProofs.TimesFit globals.config.samplingInterval
      (PprofProofs.reportedUnits globals) := by
    intro entry member
    have unit := List.mem_of_mem_filter member
    rw [sampled.units] at unit
    obtain ⟨counted, isCount, rfl⟩ := List.mem_map.mp unit
    obtain ⟨count, time⟩ := times counted isCount
    simpa only [SampleCount.entry, count] using time
  have small : ∀ counted ∈ sampleCounts engine deliveries, counted.count < 2 ^ 64 := by
    intro counted member
    have fewer := (mem_sampleCounts member).2.2
    omega
  have reported : (PprofProofs.reportedUnits globals).entries =
      (countsAbove engine globals.config.samplingThreshold deliveries).map SampleCount.entry := by
    rw [PprofProofs.reportedUnits_entries, sampled.units, filter_above small]
    rfl
  have few : (PprofProofs.reportedUnits globals).entries.length < 2 ^ 61 := by
    have kept : (countsAbove engine globals.config.samplingThreshold deliveries).length ≤
        (sampleCounts engine deliveries).length := List.length_filter_le _ _
    have counted := sampleCounts_length_le engine deliveries
    rw [reported, List.length_map]
    omega
  rw [PprofFileProofs.readPprof_written packs documented few unitsFit short written, reported,
    List.map_map]
  apply congrArg some
  apply List.map_congr_left
  intro counted member
  obtain ⟨count, -⟩ := times counted (List.mem_of_mem_filter member)
  simp only [Function.comp_apply, PprofProofs.shownSample, PprofProofs.unitSample,
    SampleCount.entry, SampleCount.resolved, count]

end PprofFile

/-- The bytes that a request has `fwrite` put into its pprof file say of every name that
was sampled more often than the threshold how often that was, and in what file and line
its first function starts. If nothing is written, the line of an error is printed. -/
theorem pprof_request_counts_samples (engine : Engine) {fileEnv : PprofFileEnv}
    {format : GzencodeProofs.GzipFormat} {profiles : PprofFileProofs.ProfileFormat}
    (packs : PprofFileProofs.Packs fileEnv.protobufC profiles)
    (documented : GzencodeProofs.Documented fileEnv.zlib format) {rinit : RinitEnv}
    (env : RshutdownEnv) {globals setup after : ProfGlobals} {events : List Event}
    {outputs : List Output} {result : ZendResult}
    (mode : globals.config.mode = .sampling) (output : globals.config.outputMode = .pprof)
    (started : phpRinit rinit globals = (setup, .success))
    (positive : 0 < globals.config.samplingInterval.toNat)
    (fit : (samples (deliveries events)).length * globals.config.samplingInterval.toNat * 1000 <
      2 ^ 63)
    (short : (profiles.encode (requestMessage env.pprofRealtime
      (deliverAll engine setup events))).length < 2 ^ 31)
    (ended : phpRshutdown engine { env with pprofOutcome := pprofOutcome fileEnv }
      (deliverAll engine setup events) = some (after, outputs, result)) :
    (∃ profile, outputs = [.pprofFile profile] ∧
      PprofFileProofs.readPprof format profiles (pprofWritten fileEnv profile) =
        some ((countsAbove engine globals.config.samplingThreshold (deliveries events)).map
          (SampleCount.resolved globals.config.samplingInterval))) ∨
    ∃ error ∈ pprofErrors, outputs = [.line error.line] := by
  have sampled : Sampled engine globals.config (deliveries events)
      (deliverAll engine setup events) := sampled_before_report mode started events
  generalize deliverAll engine setup events = before at *
  have samplingMode : before.config.mode = .sampling := by rw [sampled.config, mode]
  have pprofMode : before.config.outputMode = .pprof := by rw [sampled.config, output]
  obtain ⟨reported, report, total, found, console, rfl⟩ := rshutdown_silent sampled.silent ended
  obtain rfl : total = none := not_not.mp (mt console (by simp [pprofMode]))
  have cases := pprof_cases env.pprofRealtime env.fopen (pprofOutcome fileEnv) before
  simp only [profReport, samplingMode, pprofMode, Option.some.injEq, Prod.mk.injEq] at found
  obtain ⟨rfl, rfl⟩ := found
  rcases cases with ⟨file, errors, written⟩ | ⟨file, error, known, errors⟩
  · left
    rw [sampled.silent] at errors
    refine ⟨(buildPprof before.config before.startTime (getWallTime env.pprofRealtime)
      (PprofProofs.reportedUnits before)).profile, ?_, ?_⟩
    · simp [file, profPrintErrors_nil errors]
    · exact sampled_file_reads_back packs documented sampled positive fit short written
  · right
    rw [sampled.silent, List.nil_append] at errors
    exact ⟨error, known, by simp [file, profPrintErrors_single errors]⟩

theorem three_samples_in_pprof_file :
    ∃ after profile result, phpRshutdown php writingEnv (threeSampled .pprof) =
        some (after, [.pprofFile profile], result) ∧
      PprofFileProofs.readPprof profileFormat tableFormat (pprofContents workingFile profile) =
        some [⟨ascii "f", ascii "a.php", 3, 3, 2, 2000000⟩] := by
  have writes : (phpRshutdown php writingEnv (threeSampled .pprof)).any (fun ended =>
      ended.2.1.all fun output =>
        match output with
        | .pprofFile _ => true
        | _ => false) = true := by
    decide +kernel
  obtain ⟨⟨after, outputs, result⟩, ended, onlyFiles⟩ := (Option.any_eq_true _ _).mp writes
  have started : phpRinit accepting (.fresh (sampledConfig .pprof)) =
      ((phpRinit accepting (.fresh (sampledConfig .pprof))).1, .success) := rfl
  have counts := pprof_request_counts_samples php workingFile_packs
    (GzencodeProofs.zlibOf_documented profileFormat) writingEnv rfl rfl started (by decide)
    (by decide) (by decide +kernel) ended
  rcases counts with ⟨profile, rfl, read⟩ | ⟨error, -, rfl⟩
  · exact ⟨after, profile, result, ended, read.trans (congrArg some (by decide))⟩
  · cases onlyFiles

/-! ## The callgrind file -/

/-- What the callgrind file should say about a count. -/
def SampleCount.record (counted : SampleCount) : CallgrindProofs.Record where
  file := cString counted.first.opArray.filename.val
  function := cString counted.name
  line := counted.first.opArray.lineStart.toInt32.toInt
  hits := counted.count

/-- What a row of the console table should say about a count. -/
def SampleCount.row (counted : SampleCount) : SamplingRow :=
  ⟨cString counted.name, (UInt64.ofNat counted.count).toInt64⟩

/-- A console report that is printed shows the top of the table. -/
theorem printed_console {globals after : ProfGlobals} {console : SamplingConsole}
    (sorts : ReportProofs.SortsByComparator engine)
    (fits : ReportProofs.allHits globals.samplingUnits < 2 ^ 64)
    (printed : profSamplingPrintResultConsole engine globals = some (after, console)) :
    after.errors = globals.errors ∧
      console.totalSamples = (totalSamples globals.samplingUnits).toInt64 ∧
      ∃ shown, ShowsTop ReportProofs.samplingScore globals.config.samplingThreshold.toNat
          globals.config.samplingLimit.toNat globals.samplingUnits.entries shown ∧
        console.table.getD [] = shown.map ReportProofs.samplingRow := by
  simp only [profSamplingPrintResultConsole] at printed
  split at printed
  · next noHits =>
    simp only [Option.some.injEq, Prod.mk.injEq] at printed
    obtain ⟨rfl, rfl⟩ := printed
    have silent : ReportProofs.allHits globals.samplingUnits = 0 := by
      rw [← ReportProofs.totalSamples_toNat fits, noHits, UInt64.toNat_zero]
    exact ⟨rfl, rfl, [], ReportProofs.showsTop_of_no_hits silent _ _, rfl⟩
  · simp only [Option.map_eq_some_iff, Prod.mk.injEq] at printed
    obtain ⟨hits, sliced, rfl, rfl⟩ := printed
    obtain ⟨res, same, top⟩ := ReportProofs.sliced_sorted sorts
      ReportProofs.compareSamplingUnits_consistent ReportProofs.compareSamplingUnits_iff
      globals.samplingUnits (ReportProofs.creatable_of_htSlice sliced)
      globals.config.samplingThreshold.toNat
    obtain rfl := Option.some.inj (sliced.symm.trans same)
    exact ⟨rfl, rfl, _, top, ReportProofs.samplingRows_eq _ hits.entries⟩

/-- The console report gives the number of all samples, and shows the highest
counts above the threshold, as many as the limit allows. -/
theorem console_request_counts_samples (engine : Engine)
    (sorts : ReportProofs.SortsByComparator engine) {rinit : RinitEnv}
    {env : RshutdownEnv} {globals setup after : ProfGlobals} {events : List Event}
    {outputs : List Output} {result : ZendResult}
    (mode : globals.config.mode = .sampling) (output : globals.config.outputMode = .console)
    (started : phpRinit rinit globals = (setup, .success))
    (fits : (samples (deliveries events)).length < 2 ^ 64)
    (ended : phpRshutdown engine env (deliverAll engine setup events) =
      some (after, outputs, result)) :
    ∃ console shown, ∃ total : Option UInt64,
      outputs = total.toList.map Output.header ++ [.samplingConsole console] ∧
      console.totalSamples = (UInt64.ofNat (samples (deliveries events)).length).toInt64 ∧
      ShowsTop SampleCount.count globals.config.samplingThreshold.toNat
        globals.config.samplingLimit.toNat (sampleCounts engine (deliveries events)) shown ∧
      console.table.getD [] = shown.map SampleCount.row := by
  have sampled : Sampled engine globals.config (deliveries events)
      (deliverAll engine setup events) := sampled_before_report mode started events
  generalize deliverAll engine setup events = before at *
  have samplingMode : before.config.mode = .sampling := by rw [sampled.config, mode]
  have consoleMode : before.config.outputMode = .console := by rw [sampled.config, output]
  obtain ⟨reported, report, header, found, -, rfl⟩ := rshutdown_silent sampled.silent ended
  simp only [profReport, samplingMode, consoleMode, Option.map_eq_some_iff, Prod.mk.injEq] at found
  obtain ⟨⟨_, console⟩, printed, rfl, rfl⟩ := found
  have total : ReportProofs.allHits before.samplingUnits =
      (samples (deliveries events)).length := by
    rw [← counts_sum engine, ReportProofs.allHits, sampled.units, List.map_map]
    refine congrArg List.sum (List.map_congr_left fun counted member => ?_)
    exact UInt64.toNat_ofNat_of_lt' (lt_of_le_of_lt (mem_sampleCounts member).2.2 fits)
  obtain ⟨errors, printedTotal, shownUnits, top, rows⟩ :=
    printed_console sorts (total.trans_lt fits) printed
  rw [sampled.units, sampled.config] at top
  have nodup : (sampleCounts engine (deliveries events)).Nodup := by
    have entries : before.samplingUnits.entries.Nodup := before.samplingUnits.distinct.of_map _
    rw [sampled.units] at entries
    exact entries.of_map _
  have scores : ∀ counted ∈ sampleCounts engine (deliveries events),
      ReportProofs.samplingScore counted.entry = counted.count := fun counted member =>
    UInt64.toNat_ofNat_of_lt' (lt_of_le_of_lt (mem_sampleCounts member).2.2 fits)
  obtain ⟨shown, shownTop, rfl⟩ := top.of_map nodup scores
  refine ⟨console, shown, header, ?_, ?_, shownTop, by rw [rows, List.map_map]; rfl⟩
  · rw [profPrintErrors_nil (errors.trans sampled.silent), List.map_nil, List.append_nil]
  · have number := ReportProofs.totalSamples_toNat (total.trans_lt fits)
    rw [total] at number
    rw [printedTotal, ← number, UInt64.ofNat_toNat]

theorem three_samples_on_console :
    ∃ after outputs console shown result,
      phpRshutdown php .quiet (threeSampled .console) = some (after, outputs, result) ∧
      .samplingConsole console ∈ outputs ∧
      console.totalSamples = 3 ∧
      ShowsTop SampleCount.count 1 20 (sampleCounts php (deliveries threeSamples)) shown ∧
      console.table.getD [] = shown.map SampleCount.row := by
  have started : phpRinit accepting (.fresh (sampledConfig .console)) =
      ((phpRinit accepting (.fresh (sampledConfig .console))).1, .success) := rfl
  have written : (phpRshutdown php .quiet (threeSampled .console)).isSome = true := by
    decide +kernel
  obtain ⟨⟨after, outputs, result⟩, ended⟩ := Option.isSome_iff_exists.mp written
  obtain ⟨console, shown, header, rfl, total, top, rows⟩ :=
    console_request_counts_samples php ReportProofs.php_sorts rfl rfl started (by decide) ended
  exact ⟨after, _, console, shown, result, ended, by simp, total, top, rows⟩

end PhpProf.SampledRequestProofs
