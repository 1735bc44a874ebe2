import PhpProf.PprofMemoryProofs
import PhpProf.PprofProcess
import PhpProf.SampledRequestProofs

/-! Sampled requests that are reported to pprof never use memory that is not theirs,
report what the table of units holds, and leave nothing but the units the threshold
has removed. -/
namespace PhpProf.PprofProcessProofs
open PprofMemoryProofs PprofProcess Text
open SampledRequestProofs (accepting sampledConfig workingFile workingFile_bounds)

/-! ## What a process has -/

def rowBlocks (rows : List Row) : Multiset (Nat × PprofBlock) := ↑(rows.map Row.block)

def rowNames (rows : List Row) : Multiset (Nat × Bytes) := ↑(rows.map Row.nameString)

def rowFiles (rows : List Row) : Multiset (Nat × Bytes) := ↑(rows.map Row.fileString)

/-- The rows are the table. The process has their blocks and strings, the blocks and
file names of the units that have been dropped, and the strings others hold. -/
structure Shows (process : PprofProcess) (rows dropped : List Row)
    (held : Multiset (Nat × Bytes)) : Prop where
  table : process.samplingUnits.entries = rows.map Row.bucket
  has : Has process.memory (rowBlocks (rows ++ dropped))
    (rowNames rows + (rowFiles (rows ++ dropped) + held))

variable {engine : Engine} {process : PprofProcess} {rows before after dropped : List Row}
  {row : Row} {held : Multiset (Nat × Bytes)} {memory : PprofMemory}

theorem rowBlocks_middle : rowBlocks (before ++ row :: after ++ dropped) =
    {row.block} + rowBlocks (before ++ after ++ dropped) := by
  have order : (before ++ row :: after ++ dropped).Perm (row :: (before ++ after ++ dropped)) := by
    simp only [List.append_assoc, List.cons_append]
    exact List.perm_middle
  rw [rowBlocks, Multiset.coe_eq_coe.mpr (order.map Row.block)]
  rfl

theorem rowNames_middle :
    rowNames (before ++ row :: after) = {row.nameString} + rowNames (before ++ after) := by
  rw [rowNames, Multiset.coe_eq_coe.mpr (List.perm_middle.map Row.nameString)]
  rfl

theorem rowFiles_middle : rowFiles (before ++ row :: after ++ dropped) =
    {row.fileString} + rowFiles (before ++ after ++ dropped) := by
  have order : (before ++ row :: after ++ dropped).Perm (row :: (before ++ after ++ dropped)) := by
    simp only [List.append_assoc, List.cons_append]
    exact List.perm_middle
  rw [rowFiles, Multiset.coe_eq_coe.mpr (order.map Row.fileString)]
  rfl

theorem Shows.keys_nodup (shows : Shows process rows dropped held) :
    (rows.map Row.key).Nodup := by
  have distinct := process.samplingUnits.distinct
  rw [shows.table, List.map_map] at distinct
  exact distinct

theorem Shows.block (shows : Shows process rows dropped held) (row : Row)
    (listed : row ∈ rows ++ dropped) :
    process.memory.blocks.cells row.ptr = some (.samplingUnit row.pointed) :=
  shows.has.block (Multiset.mem_coe.mpr (List.mem_map_of_mem listed))

/-! ## The handler -/

theorem nameString_spec (shows : Shows process rows dropped held) (functionName : Bytes)
    {existing : Option Nat} (known : ∀ str, existing = some str → (str, functionName) ∈ held) :
    ∃ memory name, nameString process.memory functionName existing = some (memory, name) ∧
      Shows { process with memory } rows dropped ({(name, functionName)} + held) := by
  have order (name : Nat) : {(name, functionName)} + (rowNames rows + (rowFiles (rows ++ dropped) +
      held)) = rowNames rows + (rowFiles (rows ++ dropped) + ({(name, functionName)} + held)) := by
    ac_rfl
  cases existing with
  | none =>
    obtain ⟨memory, name, made, holds⟩ := shows.has.zendStringInit functionName
    exact ⟨memory, name, by rw [nameString, made], shows.table, holds.regroup rfl (order name)⟩
  | some str =>
    have listed : (str, functionName) ∈ rowNames rows + (rowFiles (rows ++ dropped) + held) := by
      simp only [Multiset.mem_add]
      exact .inr (.inr (known str rfl))
    obtain ⟨memory, copied, holds⟩ := shows.has.zendStringCopy listed
    exact ⟨memory, str, by rw [nameString, copied, Option.map_some], shows.table,
      holds.regroup rfl (order str)⟩

/-- A new unit is the last row. -/
theorem createUnit_spec (shows : Shows process rows dropped held) {functionName : Bytes}
    {name : Nat} {func : ZendFunction}
    (missing : process.samplingUnits.find? functionName = none)
    (named : (name, functionName) ∈ held)
    (filed : (func.opArray.filename.addr, func.opArray.filename.val) ∈ held) :
    ∃ samplingUnits memory ptr, process.createUnit functionName name func =
        some ({ process with samplingUnits, memory }, ptr) ∧
      Shows { process with samplingUnits, memory }
        (rows ++ [⟨functionName, name, ptr, SamplingProofs.freshUnit func⟩]) dropped held := by
  obtain ⟨first, ptr, made, holds⟩ := shows.has.emalloc
    (.samplingUnit ⟨0, func.opArray.filename.addr, func.opArray.lineStart⟩)
  obtain ⟨second, copiedFile, holds⟩ := holds.zendStringCopy
    (show (func.opArray.filename.addr, func.opArray.filename.val) ∈ _ by
      simp only [Multiset.mem_add]
      exact .inr (.inr filed))
  obtain ⟨third, copiedName, holds⟩ := holds.zendStringCopy
    (show (name, functionName) ∈ _ by
      simp only [Multiset.mem_add]
      exact .inr (.inr (.inr named)))
  refine ⟨process.samplingUnits.add functionName ⟨name, ptr⟩, third, ptr, ?_, ?_,
    holds.regroup ?_ ?_⟩
  · simp only [createUnit, made, copiedFile, copiedName, Option.bind_eq_bind, Option.bind_some,
      Option.pure_def]
  · rw [OrderedTable.entries_add _ ((OrderedTable.find?_eq_none_iff _).mp missing), shows.table,
      List.map_append]
    rfl
  · rw [rowBlocks_middle, List.append_nil]
    rfl
  · rw [rowNames_middle, rowFiles_middle, List.append_nil]
    simp only [Row.nameString, Row.fileString, SamplingProofs.freshUnit]
    ac_rfl

/-- A row whose unit has one more hit. -/
def hitRow (row : Row) : Row :=
  { row with samplingUnit := { row.samplingUnit with hits := row.samplingUnit.hits + 1 } }

theorem hit_spec (shows : Shows process (before ++ row :: after) dropped held) :
    ∃ memory, process.memory.store row.ptr
        (.samplingUnit { row.pointed with hits := row.pointed.hits + 1 }) = some memory ∧
      Shows { process with memory } (before ++ hitRow row :: after) dropped held := by
  have has := shows.has.regroup rowBlocks_middle rfl
  obtain ⟨memory, stored, holds⟩ :=
    has.store (.samplingUnit { row.pointed with hits := row.pointed.hits + 1 })
  refine ⟨memory, stored, ?_, holds.regroup ?_ ?_⟩
  · rw [shows.table]
    simp [Row.bucket, hitRow]
  · rw [rowBlocks_middle]
    rfl
  · rw [rowNames_middle, rowFiles_middle, rowNames_middle, rowFiles_middle]
    rfl

theorem releaseName_spec {name : Nat × Bytes} (shows : Shows process rows dropped ({name} + held)) :
    ∃ memory, process.memory.zendStringRelease name.1 = some memory ∧
      Shows { process with memory } rows dropped held := by
  have has : Has process.memory (rowBlocks (rows ++ dropped))
      ({(name.1, name.2)} + (rowNames rows + (rowFiles (rows ++ dropped) + held))) :=
    shows.has.regroup rfl (by ac_rfl)
  obtain ⟨memory, released, holds⟩ := has.zendStringRelease
  exact ⟨memory, released, shows.table, holds⟩

/-! ## The process without pointers -/

variable {globals : ProfGlobals}

/-- Without its pointers, the process is the one of the other modules. -/
structure Mirrors (process : PprofProcess) (globals : ProfGlobals) (rows : List Row) : Prop where
  entries : globals.samplingUnits.entries = rows.map Row.entry
  config : process.config = globals.config
  startTime : process.startTime = globals.startTime
  enabled : process.samplingEnabled = globals.samplingEnabled

/-- What a process mirrors does not depend on the errors. -/
theorem Mirrors.with_errors (mirrors : Mirrors process globals rows) (errors : List ProfError) :
    Mirrors process { globals with errors } rows :=
  ⟨mirrors.entries, mirrors.config, mirrors.startTime, mirrors.enabled⟩

theorem Mirrors.with_memory (mirrors : Mirrors process globals rows) (memory : PprofMemory) :
    Mirrors { process with memory } globals rows :=
  ⟨mirrors.entries, mirrors.config, mirrors.startTime, mirrors.enabled⟩

/-- A row is found under its key. -/
theorem Mirrors.find? (mirrors : Mirrors process globals rows) (listed : row ∈ rows) :
    globals.samplingUnits.find? row.key = some row.samplingUnit := by
  rw [OrderedTable.find?_eq_some_iff, mirrors.entries]
  exact List.mem_map_of_mem (f := Row.entry) listed

theorem Mirrors.missing (mirrors : Mirrors process globals rows)
    (table : process.samplingUnits.entries = rows.map Row.bucket) {key : Bytes}
    (missing : process.samplingUnits.find? key = none) :
    globals.samplingUnits.find? key = none := by
  rw [OrderedTable.find?_eq_none_iff] at missing ⊢
  rw [OrderedTable.keys, table, List.map_map] at missing
  rw [OrderedTable.keys, mirrors.entries, List.map_map]
  exact missing

/-- No other row has the key of a row. -/
theorem other_keys (distinct : ((before ++ row :: after).map Row.key).Nodup) :
    (∀ other ∈ before, other.key ≠ row.key) ∧ ∀ other ∈ after, other.key ≠ row.key := by
  have order : ((before ++ row :: after).map Row.key).Perm
      (row.key :: (before ++ after).map Row.key) := List.perm_middle.map Row.key
  have others := (List.nodup_cons.mp (order.nodup_iff.mp distinct)).1
  have kept : ∀ other ∈ before ++ after, other.key ≠ row.key := fun other listed same =>
    others (same ▸ List.mem_map_of_mem listed)
  exact ⟨fun other listed => kept other (List.mem_append_left _ listed),
    fun other listed => kept other (List.mem_append_right _ listed)⟩

/-- The rows of the table when one of them gets a hit. -/
theorem modify_hit (distinct : ((before ++ row :: after).map Row.key).Nodup)
    {samplingUnits : OrderedTable Bytes ProfSamplingUnit}
    (entries : samplingUnits.entries = (before ++ row :: after).map Row.entry) :
    (samplingUnits.modify row.key fun samplingUnit =>
        { samplingUnit with hits := samplingUnit.hits + 1 }).entries =
      (before ++ hitRow row :: after).map Row.entry := by
  obtain ⟨left, right⟩ := other_keys distinct
  simp only [OrderedTable.modify, entries, List.map_append, List.map_cons, List.map_map]
  congr 1
  · exact List.map_congr_left fun other listed => by simp [Row.entry, left other listed]
  · congr 1
    · simp [Row.entry, hitRow]
    · exact List.map_congr_left fun other listed => by simp [Row.entry, right other listed]

/-- The unit of a name is in some row, which is the last one when it is new. -/
theorem lookupUnit_spec (shows : Shows process rows dropped held)
    (mirrors : Mirrors process globals rows) {name : Nat} {func : ZendFunction}
    (named : (name, functionName engine func) ∈ held)
    (filed : (func.opArray.filename.addr, func.opArray.filename.val) ∈ held) :
    ∃ samplingUnits memory before row after,
      process.lookupUnit (functionName engine func) name func =
        some ({ process with samplingUnits, memory }, row.ptr) ∧
      row.key = functionName engine func ∧
      Shows { process with samplingUnits, memory } (before ++ row :: after) dropped held ∧
      (globals.samplingUnits.add (functionName engine func)
        (SamplingProofs.freshUnit func)).entries = (before ++ row :: after).map Row.entry := by
  cases found : process.samplingUnits.find? (functionName engine func) with
  | some bucket =>
    have listed := (OrderedTable.find?_eq_some_iff _).mp found
    rw [shows.table] at listed
    obtain ⟨row, member, same⟩ := List.mem_map.mp listed
    simp only [Row.bucket, Prod.mk.injEq] at same
    obtain ⟨key, rfl⟩ := same
    obtain ⟨before, after, rfl⟩ := List.append_of_mem member
    have present : functionName engine func ∈ globals.samplingUnits.keys :=
      (OrderedTable.mem_keys_iff _).mpr ⟨row.samplingUnit, key ▸ mirrors.find? member⟩
    refine ⟨process.samplingUnits, process.memory, before, row, after, ?_, key, shows, ?_⟩
    · rw [lookupUnit, found]
    · rw [OrderedTable.add_of_mem _ present, mirrors.entries]
  | none =>
    have missing := mirrors.missing shows.table found
    obtain ⟨samplingUnits, memory, ptr, created, shows⟩ := createUnit_spec shows found named filed
    refine ⟨samplingUnits, memory, rows, _, [], ?_, rfl, shows, ?_⟩
    · rw [lookupUnit, found]
      exact created
    · rw [OrderedTable.entries_add _ ((OrderedTable.find?_eq_none_iff _).mp missing),
        mirrors.entries, List.map_append]
      rfl

/-- The strings that a delivery finds with the engine. -/
structure Known (engine : Engine) (held : Multiset (Nat × Bytes)) (executeData : List ExecuteData)
    (existing : Option Nat) : Prop where
  file : ∀ func, innermostUser executeData = some func →
    (func.opArray.filename.addr, func.opArray.filename.val) ∈ held
  name : ∀ func str, innermostUser executeData = some func → existing = some str →
    (str, functionName engine func) ∈ held

/-- A delivery counts one hit, as without pointers. -/
theorem handler_spec {executeData : List ExecuteData} {existing : Option Nat}
    (shows : Shows process rows dropped held) (mirrors : Mirrors process globals rows)
    (known : Known engine held executeData existing) :
    ∃ after rows, process.profSigprofHandler engine executeData existing = some after ∧
      Shows after rows dropped held ∧
      Mirrors after (PhpProf.profSigprofHandler engine globals executeData) rows := by
  by_cases enabled : globals.samplingEnabled = true
  swap
  · refine ⟨process, rows, ?_, shows, ?_⟩
    · simp [PprofProcess.profSigprofHandler, mirrors.enabled, enabled]
    · simp [PhpProf.profSigprofHandler, enabled]
      exact mirrors
  have awake : process.samplingEnabled = true := mirrors.enabled.trans enabled
  rw [SamplingProofs.handler_step enabled, ← SamplingProofs.innermostUser_eq]
  cases found : innermostUser executeData with
  | none =>
    refine ⟨process, rows, ?_, shows, mirrors⟩
    simp [PprofProcess.profSigprofHandler, awake, found]
  | some func =>
    obtain ⟨memory, name, named, shows⟩ := nameString_spec shows (functionName engine func)
      (fun str => known.name func str found)
    obtain ⟨samplingUnits, memory, before, row, after, looked, key, shows, entries⟩ :=
      lookupUnit_spec shows (mirrors.with_memory memory)
        (Multiset.mem_add.mpr (.inl (Multiset.mem_singleton_self _)))
        (Multiset.mem_add.mpr (.inr (known.file func found)))
    have unit := shows.block row (by simp)
    have distinct := shows.keys_nodup
    obtain ⟨memory, hit, shows⟩ := hit_spec shows
    obtain ⟨memory, released, shows⟩ := releaseName_spec shows
    refine ⟨_, _, ?_, shows, ⟨?_, mirrors.config, mirrors.startTime, mirrors.enabled⟩⟩
    · simp only [awake] at looked unit hit released
      simp only [PprofProcess.profSigprofHandler, awake, found, getFunctionName_eq, named, looked,
        unit, hit, released, Bool.not_true, Bool.false_eq_true, ↓reduceIte, Option.bind_eq_bind,
        Option.bind_some, Option.pure_def]
    · rw [← modify_hit distinct entries, key]
      rfl

/-! ## The engine and the signals -/

theorem known_of_possible {script : PprofScript} {executeData : List ExecuteData}
    {existing : Option Nat} (possible : script.possible engine (.deliver executeData existing)) :
    Known engine ↑script.engineHolds executeData existing := by
  simp only [PprofScript.possible] at possible
  cases found : innermostUser executeData with
  | none => exact ⟨by simp [found], by simp [found]⟩
  | some func =>
    simp only [found, getFunctionName_eq, Bool.decide_and, Bool.and_eq_true, decide_eq_true_eq,
      Option.any_some, Option.all_eq_true] at possible
    refine ⟨?_, ?_⟩
    · intro other same
      rw [found, Option.some.injEq] at same
      exact same ▸ Multiset.mem_coe.mpr possible.1
    · rintro other str same rfl
      rw [found, Option.some.injEq] at same
      exact same ▸ Multiset.mem_coe.mpr (possible.2 str rfl)

/-- Whatever happens to a process that serves a request, it keeps what it shows. -/
theorem perform_spec (engine : Engine) (script : PprofScript) {rows dropped : List Row}
    (shows : Shows script.process rows dropped ↑script.engineHolds)
    (mirrors : Mirrors script.process globals rows) (action : PprofAction) :
    ∃ after rows delivered, script.perform engine action = some after ∧
      after.delivered = script.delivered ++ delivered ∧
      Shows after.process rows dropped ↑after.engineHolds ∧
      Mirrors after.process (SamplingProofs.handleAll engine globals delivered) rows := by
  by_cases possible : script.possible engine action
  swap
  · refine ⟨script, rows, [], ?_, by simp, shows, mirrors⟩
    simp [PprofScript.perform, possible]
  have order (held : Multiset (Nat × Bytes)) (string : Nat × Bytes) : {string} + (rowNames rows +
      (rowFiles (rows ++ dropped) + held)) =
      rowNames rows + (rowFiles (rows ++ dropped) + ({string} + held)) := by
    ac_rfl
  cases action with
  | share text =>
    obtain ⟨memory, str, made, holds⟩ := shows.has.zendStringInit text
    refine ⟨{ script with
        process := { script.process with memory }
        engineHolds := (str, text) :: script.engineHolds }, rows, [], ?_, by simp,
      ⟨shows.table, holds.regroup rfl (order _ _)⟩, mirrors.with_memory memory⟩
    simp [PprofScript.perform, possible, made]
  | copy str =>
    have listed : (str.addr, str.val) ∈ script.engineHolds := by
      simpa [PprofScript.possible] using possible
    obtain ⟨memory, copied, holds⟩ := shows.has.zendStringCopy
      (show (str.addr, str.val) ∈ _ by
        simp only [Multiset.mem_add, Multiset.mem_coe]
        exact .inr (.inr listed))
    refine ⟨{ script with
        process := { script.process with memory }
        engineHolds := (str.addr, str.val) :: script.engineHolds }, rows, [], ?_, by simp,
      ⟨shows.table, holds.regroup rfl (order _ _)⟩, mirrors.with_memory memory⟩
    simp [PprofScript.perform, possible, copied]
  | drop str =>
    have listed : (str.addr, str.val) ∈ script.engineHolds := by
      simpa [PprofScript.possible] using possible
    have split : (↑script.engineHolds : Multiset (Nat × Bytes)) =
        {(str.addr, str.val)} + ↑(script.engineHolds.erase (str.addr, str.val)) := by
      rw [Multiset.coe_eq_coe.mpr (List.perm_cons_erase listed)]
      rfl
    obtain ⟨memory, released, shows⟩ := releaseName_spec (split ▸ shows)
    refine ⟨{ script with
        process := { script.process with memory }
        engineHolds := script.engineHolds.erase (str.addr, str.val) }, rows, [], ?_, by simp,
      shows, mirrors.with_memory memory⟩
    simp [PprofScript.perform, possible, released]
  | deliver executeData existing =>
    obtain ⟨process, rows, handled, shows, mirrors⟩ :=
      handler_spec shows mirrors (known_of_possible possible)
    refine ⟨{ script with process, delivered := script.delivered ++ [executeData] }, rows,
      [executeData], ?_, rfl, shows, mirrors⟩
    simp [PprofScript.perform, possible, handled]

theorem performAll_spec (engine : Engine) (script : PprofScript) {rows dropped : List Row}
    (shows : Shows script.process rows dropped ↑script.engineHolds)
    (mirrors : Mirrors script.process globals rows) (actions : List PprofAction) :
    ∃ after rows delivered, script.performAll engine actions = some after ∧
      after.delivered = script.delivered ++ delivered ∧
      Shows after.process rows dropped ↑after.engineHolds ∧
      Mirrors after.process (SamplingProofs.handleAll engine globals delivered) rows := by
  induction actions generalizing script globals rows with
  | nil => exact ⟨script, rows, [], rfl, by simp, shows, mirrors⟩
  | cons action rest ih =>
    obtain ⟨next, rows, first, performed, recorded, shows, mirrors⟩ :=
      perform_spec engine script shows mirrors action
    obtain ⟨after, rows, later, continued, listed, shows, mirrors⟩ := ih next shows mirrors
    refine ⟨after, rows, first ++ later, ?_, ?_, shows, ?_⟩
    · rw [PprofScript.performAll, List.foldlM_cons, performed]
      exact continued
    · rw [listed, recorded, List.append_assoc]
    · rw [SamplingProofs.handleAll, List.foldl_append]
      exact mirrors

/-! ## The report -/

/-- Whether a unit is above the threshold. -/
def above (threshold : UInt64) (row : Row) : Bool :=
  profSamplingApplyThreshold threshold row.samplingUnit

theorem erase_middle (distinct : ((before ++ row :: after).map Row.key).Nodup)
    {table : OrderedTable Bytes Bucket}
    (entries : table.entries = (before ++ row :: after).map Row.bucket) :
    (table.erase row.key).entries = (before ++ after).map Row.bucket := by
  obtain ⟨left, right⟩ := other_keys distinct
  have keptLeft : before.filter (fun other => other.key ≠ row.key) = before :=
    List.filter_eq_self.mpr fun other listed => by simpa using left other listed
  have keptRight : after.filter (fun other => other.key ≠ row.key) = after :=
    List.filter_eq_self.mpr fun other listed => by simpa using right other listed
  have own : [row].filter (fun other => other.key ≠ row.key) = [] := by simp
  have kept : (before ++ ([row] ++ after)).filter (fun other => other.key ≠ row.key) =
      before ++ after := by
    rw [List.filter_append, List.filter_append, keptLeft, own, keptRight, List.nil_append]
  rw [← kept]
  simp only [OrderedTable.erase, entries, List.filter_map]
  rfl

/-- Units that are not above the threshold lose their entry and keep their block. -/
theorem threshold_loop {threshold : UInt64} (rest : List Row) {kept : List Row}
    (shows : Shows process (kept ++ rest) dropped held)
    (configured : process.config.samplingThreshold = threshold) :
    ∃ samplingUnits memory, (rest.map Row.bucket).foldlM applyThreshold process =
        some { process with samplingUnits, memory } ∧
      Shows { process with samplingUnits, memory } (kept ++ rest.filter (above threshold))
        (dropped ++ rest.filter fun row => !above threshold row) held := by
  induction rest generalizing process kept dropped with
  | nil => exact ⟨process.samplingUnits, process.memory, rfl, by simpa using shows⟩
  | cons row rest ih =>
    have unit := shows.block row (by simp)
    cases high : above threshold row with
    | true =>
      have hits : ¬ row.samplingUnit.hits ≤ threshold := by
        simpa [above, profSamplingApplyThreshold] using high
      have step : applyThreshold process row.bucket = some process := by
        simp only [applyThreshold, Row.bucket, unit, configured, Row.pointed, hits, ↓reduceIte,
          Option.bind_eq_bind, Option.bind_some, Option.pure_def]
      have next : Shows process (kept ++ [row] ++ rest) dropped held := by simpa using shows
      obtain ⟨samplingUnits, memory, continued, shows⟩ := ih next configured
      refine ⟨samplingUnits, memory, ?_, by simpa [high] using shows⟩
      rw [List.map_cons, List.foldlM_cons, step]
      exact continued
    | false =>
      have hits : row.samplingUnit.hits ≤ threshold := by
        simpa [above, profSamplingApplyThreshold] using high
      have names := shows.has.regroup rfl (show _ = {row.nameString} + (rowNames (kept ++ rest) +
        (rowFiles (kept ++ row :: rest ++ dropped) + held)) by rw [rowNames_middle, add_assoc])
      obtain ⟨memory, released, holds⟩ := names.zendStringRelease
      have moved : (kept ++ row :: rest ++ dropped).Perm (kept ++ rest ++ (dropped ++ [row])) := by
        simp only [List.append_assoc, List.cons_append]
        refine List.Perm.append_left kept ?_
        rw [← List.append_assoc]
        exact (List.perm_append_singleton row (rest ++ dropped)).symm
      have next : Shows { process with
          samplingUnits := process.samplingUnits.erase row.key, memory } (kept ++ rest)
          (dropped ++ [row]) held := by
        refine ⟨erase_middle shows.keys_nodup shows.table, holds.regroup ?_ ?_⟩
        · exact Multiset.coe_eq_coe.mpr (moved.map Row.block)
        · rw [rowFiles, Multiset.coe_eq_coe.mpr (moved.map Row.fileString)]
          rfl
      have step : applyThreshold process row.bucket = some { process with
          samplingUnits := process.samplingUnits.erase row.key, memory } := by
        simp only [applyThreshold, Row.bucket, unit, configured, Row.pointed, hits, released,
          ↓reduceIte, Option.bind_eq_bind, Option.bind_some, Option.pure_def]
      obtain ⟨samplingUnits, memory, continued, shows⟩ := ih next configured
      refine ⟨samplingUnits, memory, ?_, by simpa [high] using shows⟩
      rw [List.map_cons, List.foldlM_cons, step]
      exact continued

theorem holding_listed (listed : row ∈ rows) :
    Holding (rowBlocks (rows ++ dropped)) (rowNames rows + (rowFiles (rows ++ dropped) + held))
      row where
  block := Multiset.mem_coe.mpr (List.mem_map_of_mem (List.mem_append_left _ listed))
  name := Multiset.mem_add.mpr (.inl (Multiset.mem_coe.mpr (List.mem_map_of_mem listed)))
  file := by
    simp only [Multiset.mem_add]
    exact .inr (.inl (Multiset.mem_coe.mpr (List.mem_map_of_mem (List.mem_append_left _ listed))))

/-- What the report comes to, without pointers. -/
def reportOf (realtime : Option Timespec) (fopen : Bool) (env : PprofFileEnv)
    (globals : ProfGlobals) : Option (PprofOutcome × Bytes) :=
  if getWallTime realtime = 0 ∨ fopen = false then none
  else
    let profile := (buildPprof globals.config globals.startTime (getWallTime realtime)
      (PprofProofs.reportedUnits globals)).profile
    some (pprofOutcome env profile, pprofWritten env profile)

/-- The profile that is built can be packed. -/
theorem writePprof_built (env : PprofFileEnv) (config : ProfConfig) (startTime endTime : UInt64)
    (samplingUnits : OrderedTable Bytes ProfSamplingUnit) :
    let build := buildPprof config startTime endTime samplingUnits
    PhpProf.writePprof env (PprofFileProofs.packedMessage build) =
      (pprofOutcome env build.profile, pprofWritten env build.profile) := by
  intro build
  have packed : build.profile.message = some (PprofFileProofs.packedMessage build) :=
    PprofFileProofs.message_complete (PprofFileProofs.assembled_complete
      (PprofProofs.buildPprof_assembled config startTime endTime samplingUnits))
  simp only [pprofOutcome, pprofWritten, packed]

/-- What is left of the rows after the report, and what it drops. -/
def keptRows (realtime : Option Timespec) (fopen : Bool) (threshold : UInt64) (rows : List Row) :
    List Row :=
  if getWallTime realtime = 0 ∨ fopen = false then rows else rows.filter (above threshold)

def droppedRows (realtime : Option Timespec) (fopen : Bool) (threshold : UInt64)
    (rows : List Row) : List Row :=
  if getWallTime realtime = 0 ∨ fopen = false then []
  else rows.filter fun row => !above threshold row

theorem report_spec (realtime : Option Timespec) (fopen : Bool) {env : PprofFileEnv}
    (bounds : env.KeepsBounds) (shows : Shows process rows dropped held)
    (mirrors : Mirrors process globals rows) :
    ∃ after, process.profSamplingPrintResultPprof realtime fopen env =
        some (after, reportOf realtime fopen env globals) ∧
      Shows after (keptRows realtime fopen process.config.samplingThreshold rows)
        (dropped ++ droppedRows realtime fopen process.config.samplingThreshold rows) held ∧
      Mirrors after
        (PhpProf.profSamplingPrintResultPprof realtime fopen (pprofOutcome env) globals).1
        (keptRows realtime fopen process.config.samplingThreshold rows) := by
  by_cases early : getWallTime realtime = 0 ∨ fopen = false
  · refine ⟨process, ?_, by simpa [keptRows, droppedRows, early] using shows, ?_⟩
    · rcases early with stopped | closed
      · simp [PprofProcess.profSamplingPrintResultPprof, reportOf, stopped]
      · simp [PprofProcess.profSamplingPrintResultPprof, reportOf, closed]
    · rw [keptRows, if_pos early]
      rcases early with stopped | closed
      · rw [PhpProf.profSamplingPrintResultPprof, if_pos stopped]
        exact mirrors.with_errors _
      · simp only [PhpProf.profSamplingPrintResultPprof, closed]
        split
        · exact mirrors.with_errors _
        · exact mirrors.with_errors _
  simp only [keptRows, droppedRows, reportOf, if_neg early]
  obtain ⟨running, opened⟩ := not_or.mp early
  rw [Bool.not_eq_false] at opened
  have table := shows.table
  have all : Shows process ([] ++ rows) dropped held := by simpa using shows
  obtain ⟨samplingUnits, memory, applied, shows⟩ := threshold_loop rows all rfl
  have kept : (PprofProofs.reportedUnits globals).entries =
      (rows.filter (above process.config.samplingThreshold)).map Row.entry := by
    simp only [PprofProofs.reportedUnits, OrderedTable.filter, mirrors.entries, List.filter_map,
      ← mirrors.config]
    rfl
  obtain ⟨memory, reported, holds⟩ := reportPprof_spec bounds process.config process.startTime
    (getWallTime realtime) shows.table kept shows.has fun _ => holding_listed
  have mirrored : Mirrors { process with samplingUnits, memory }
      { globals with samplingUnits := PprofProofs.reportedUnits globals }
      (rows.filter (above process.config.samplingThreshold)) :=
    ⟨kept, mirrors.config, mirrors.startTime, mirrors.enabled⟩
  refine ⟨{ process with samplingUnits, memory }, ?_, ⟨shows.table, holds⟩, ?_⟩
  · rw [← table] at applied
    rw [writePprof_built] at reported
    simp only [PprofProcess.profSamplingPrintResultPprof, running, opened, applied, reported,
      ← mirrors.config, ← mirrors.startTime, Bool.not_true, Bool.false_eq_true, ↓reduceIte,
      Option.bind_eq_bind, Option.bind_some, Option.pure_def]
  · simp only [PhpProf.profSamplingPrintResultPprof, running, opened, ↓reduceIte, Bool.not_true,
      Bool.false_eq_true]
    split
    · exact mirrored
    all_goals exact mirrored.with_errors _

/-! ## Teardown -/

theorem releaseUnits_spec (rows : List Row)
    (has : Has memory (rowBlocks (rows ++ dropped)) (rowFiles (rows ++ dropped) + held)) :
    ∃ after, (rows.map Row.bucket).foldlM releaseUnit memory = some after ∧
      Has after (rowBlocks dropped) (rowFiles dropped + held) := by
  induction rows generalizing memory with
  | nil => exact ⟨memory, rfl, has⟩
  | cons row rest ih =>
    have unit : memory.blocks.cells row.ptr = some (.samplingUnit row.pointed) :=
      has.block (Multiset.mem_coe.mpr (List.mem_map_of_mem (by simp)))
    have holds := has.regroup (@rowBlocks_middle [] rest dropped row) (show _ = {row.fileString} +
      (rowFiles (rest ++ dropped) + held) by
        rw [← add_assoc]; exact congrArg (· + held) (@rowFiles_middle [] rest dropped row))
    obtain ⟨first, released, holds⟩ := holds.zendStringRelease
    obtain ⟨second, freed, holds⟩ := holds.efree
    obtain ⟨after, ended, holds⟩ := ih holds
    refine ⟨after, ?_, holds⟩
    have step : releaseUnit memory row.bucket = some second := by
      simp only [releaseUnit, Row.bucket, unit, Row.pointed, Option.bind_eq_bind,
        Option.bind_some]
      rw [show memory.zendStringRelease row.samplingUnit.filename.addr = some first from released]
      exact freed
    rw [List.map_cons, List.foldlM_cons, step]
    exact ended

theorem teardown_spec (setitimer : Itimerval → Bool) (shows : Shows process rows dropped held) :
    ∃ after result, process.profSamplingTeardown setitimer = some (after, result) ∧
      (result = .success → after.config = process.config ∧
        Has after.memory (rowBlocks dropped) (rowFiles dropped + held)) := by
  cases stopped : setitimer ⟨⟨0, 0⟩, ⟨0, 0⟩⟩ with
  | false =>
    refine ⟨{ process with samplingEnabled := false }, .failure, ?_, by simp⟩
    simp only [PprofProcess.profSamplingTeardown, stopped]
    rfl
  | true =>
    obtain ⟨first, released, holds⟩ := releaseUnits_spec rows
      (shows.has.regroup rfl (add_left_comm (rowNames rows) (rowFiles (rows ++ dropped)) held))
    have holds := holds.regroup rfl (add_left_comm (rowFiles dropped) (rowNames rows) held)
    obtain ⟨second, destroyed, holds⟩ := release_loop holds
    rw [List.foldlM_map] at destroyed
    refine ⟨{ process with samplingEnabled := false, samplingUnits := .empty, memory := second },
      .success, ?_, fun _ => ⟨rfl, holds⟩⟩
    have keys : (rows.map Row.bucket).foldlM
        (fun memory entry => memory.zendStringRelease entry.2.key) first = some second := by
      rw [List.foldlM_map]
      exact destroyed
    simp only [PprofProcess.profSamplingTeardown, stopped, shows.table, released, keys,
      Bool.not_true, Bool.false_eq_true, ↓reduceIte, Option.bind_eq_bind, Option.bind_some,
      Option.pure_def]

/-! ## Requests -/

/-- Between requests, a process has what has been dropped and what the engine has. -/
structure Rests (script : PprofScript) (config : ProfConfig) (dropped : List Row) : Prop where
  config : script.process.config = config
  has : Has script.process.memory (rowBlocks dropped) (rowFiles dropped + ↑script.engineHolds)

theorem fresh_rests (config : ProfConfig) : Rests (.fresh config) config [] where
  config := rfl
  has := ⟨Heap.holds_empty, Heap.shares_empty⟩

/-- The process without pointers after its setup. -/
def setupGlobals (config : ProfConfig) (env : RinitEnv) : ProfGlobals :=
  { ProfGlobals.fresh config with
    startTime := getWallTime env.realtime
    samplingEnabled := true }

theorem rinit_success {env : RinitEnv} {after : PprofProcess}
    (started : process.phpRinit env = (after, .success)) :
    after = { process with
      startTime := getWallTime env.realtime
      samplingEnabled := true
      samplingUnits := .empty } := by
  simp only [PprofProcess.phpRinit] at started
  split at started
  · cases started
  · exact (congrArg Prod.fst started).symm

theorem rinit_spec {script : PprofScript} {config : ProfConfig} {env : RinitEnv}
    {after : PprofProcess} (rests : Rests script config dropped)
    (started : script.process.phpRinit env = (after, .success)) :
    Shows after [] dropped ↑script.engineHolds ∧ Mirrors after (setupGlobals config env) [] := by
  rw [rinit_success started]
  exact ⟨⟨rfl, rests.has.regroup rfl (by simp [rowNames])⟩, rfl, rests.config, rfl, rfl⟩

/-- What is served of a request before its report. -/
def served (engine : Engine) (script : PprofScript) (request : PprofRequest) :
    Option PprofScript :=
  let process := (script.process.phpRinit request.rinit).1
  PprofScript.performAll engine { script with process, delivered := [] } request.actions

theorem handleAll_config (globals : ProfGlobals) (deliveries : List (List ExecuteData)) :
    (SamplingProofs.handleAll engine globals deliveries).config = globals.config := by
  induction deliveries using List.reverseRecOn with
  | nil => rfl
  | append_singleton deliveries executeData ih =>
    rw [SamplingProofs.handleAll_concat, (RequestProofs.sigprof_keeps _ _).config, ih]

/-- A request that is served runs to its end. What its report comes to is what it comes
to without pointers, and the units it drops are all that it leaves. -/
theorem runRequest_spec (engine : Engine) {script : PprofScript} {config : ProfConfig}
    {request : PprofRequest}
    (rests : Rests script config dropped)
    (started : (script.process.phpRinit request.rinit).2 = .success) :
    ∃ sampled after result rows, served engine script request = some sampled ∧
      script.runRequest engine request = some (after, reportOf request.realtime request.fopen
        request.file (SamplingProofs.handleAll engine (setupGlobals config request.rinit)
          sampled.delivered), result) ∧
      (SamplingProofs.handleAll engine (setupGlobals config request.rinit)
        sampled.delivered).samplingUnits.entries = rows.map Row.entry ∧
      (result = .success → Rests after config (dropped ++
        droppedRows request.realtime request.fopen config.samplingThreshold rows)) := by
  cases begun : script.process.phpRinit request.rinit with
  | mk process result =>
    rw [begun] at started
    cases started
    obtain ⟨shows, mirrors⟩ := rinit_spec rests begun
    obtain ⟨sampled, rows, delivered, performed, recorded, shows, mirrors⟩ :=
      performAll_spec engine { script with process, delivered := [] } shows mirrors
        request.actions
    rw [List.nil_append] at recorded
    subst recorded
    have entries := mirrors.entries
    have configured : sampled.process.config = config :=
      mirrors.config.trans (handleAll_config _ _)
    obtain ⟨reporting, reported, shows, mirrors⟩ :=
      report_spec request.realtime request.fopen request.bounds shows mirrors
    obtain ⟨late, lateRows, delivered, continued, -, shows, mirrors⟩ :=
      performAll_spec engine { sampled with process := reporting } shows mirrors request.late
    have kept : late.process.config = config := by
      rw [mirrors.config, handleAll_config, (RequestProofs.pprof_keeps ..).config,
        handleAll_config]
      rfl
    obtain ⟨ended, result, stopped, released⟩ := teardown_spec request.setitimer shows
    refine ⟨sampled, { late with process := ended }, result, rows, ?_, ?_, entries, ?_⟩
    · rw [served, begun]
      exact performed
    · rw [PprofScript.runRequest, begun]
      simp only [performed, reported, continued, stopped, Option.bind_eq_bind, Option.bind_some,
        Option.pure_def]
    · intro succeeded
      obtain ⟨same, has⟩ := released succeeded
      rw [configured] at has
      exact ⟨same.trans kept, has⟩

theorem droppedRows_low {realtime : Option Timespec} {fopen : Bool} {threshold : UInt64}
    (listed : row ∈ droppedRows realtime fopen threshold rows) :
    row.samplingUnit.hits ≤ threshold := by
  rw [droppedRows] at listed
  split at listed
  · cases listed
  · have low := (List.mem_filter.mp listed).2
    simpa [above, profSamplingApplyThreshold] using low

/-- Requests run to their end, or to the first that fails. -/
theorem runRequests_spec (engine : Engine) {script : PprofScript} {config : ProfConfig}
    (requests : List PprofRequest)
    (rests : Rests script config dropped)
    (low : ∀ row ∈ dropped, row.samplingUnit.hits ≤ config.samplingThreshold) :
    ∃ after result, PprofScript.runRequests engine script requests = some (after, result) ∧
      (result = .success → ∃ dropped, Rests after config dropped ∧
        ∀ row ∈ dropped, row.samplingUnit.hits ≤ config.samplingThreshold) := by
  induction requests generalizing script dropped with
  | nil => exact ⟨script, .success, rfl, fun _ => ⟨dropped, rests, low⟩⟩
  | cons request rest ih =>
    cases begun : script.process.phpRinit request.rinit with
    | mk process started =>
      cases started with
      | failure =>
        refine ⟨{ script with process }, .failure, ?_, by simp⟩
        rw [PprofScript.runRequests, PprofScript.runRequest, begun]
        rfl
      | success =>
        obtain ⟨sampled, between, result, rows, -, ran, -, released⟩ :=
          runRequest_spec engine rests (congrArg Prod.snd begun)
        cases result with
        | failure =>
          refine ⟨between, .failure, ?_, by simp⟩
          rw [PprofScript.runRequests, ran]
          rfl
        | success =>
          obtain ⟨after, result, continued, left⟩ := ih (released rfl) (by
            intro row listed
            rcases List.mem_append.mp listed with earlier | now
            · exact low row earlier
            · exact droppedRows_low now)
          refine ⟨after, result, ?_, left⟩
          rw [PprofScript.runRequests, ran]
          exact continued

/-- A request after any others that have completed, whatever the engine does with its
strings and whatever signals arrive: no memory is used that is dead or out of bounds,
the report comes to what it comes to without pointers, and what is left over is the
units that it has dropped. -/
theorem pprof_request_reports_delivered (engine : Engine) {config : ProfConfig}
    (earlier : List PprofRequest) {between : PprofScript}
    (ran : PprofScript.runRequests engine (.fresh config) earlier = some (between, .success))
    {request : PprofRequest} (started : (between.process.phpRinit request.rinit).2 = .success) :
    ∃ sampled after result, served engine between request = some sampled ∧
      between.runRequest engine request = some (after, reportOf request.realtime request.fopen
        request.file (SamplingProofs.handleAll engine (setupGlobals config request.rinit)
          sampled.delivered), result) ∧
      ∃ dropped rows, Rests between config dropped ∧
        rows.map Row.entry = (SamplingProofs.handleAll engine (setupGlobals config request.rinit)
          sampled.delivered).samplingUnits.entries ∧
        (result = .success → Rests after config (dropped ++
          droppedRows request.realtime request.fopen config.samplingThreshold rows)) := by
  obtain ⟨reached, result, same, left⟩ :=
    runRequests_spec engine earlier (fresh_rests config) (by simp)
  rw [ran, Option.some.injEq, Prod.mk.injEq] at same
  obtain ⟨rfl, rfl⟩ := same
  obtain ⟨dropped, rests, -⟩ := left rfl
  obtain ⟨sampled, after, result, rows, performed, finished, entries, released⟩ :=
    runRequest_spec engine rests started
  exact ⟨sampled, after, result, performed, finished, dropped, rows, rests, entries.symm,
    released⟩

def sampledFunction (name : String) (filename : Nat) : ZendFunction where
  type := .userFunction
  closure := false
  scope := none
  functionName := some (ascii name)
  opArray := ⟨⟨filename, ascii "a.php"⟩, 3⟩

/-- The engine has the file name and one name. Two functions are sampled, one of them
only once, and one more signal comes after the report. -/
def sampledRequest (filename : Nat) : PprofRequest where
  rinit := accepting
  actions := [.share (ascii "a.php"), .share (ascii "f"),
    .deliver [⟨some (sampledFunction "f" filename)⟩] (some (filename + 1)),
    .deliver [⟨some (sampledFunction "g" filename)⟩] none,
    .drop ⟨filename + 1, ascii "f"⟩,
    .deliver [⟨none⟩, ⟨some (sampledFunction "f" filename)⟩] none]
  realtime := some ⟨2, 0⟩
  fopen := true
  file := workingFile
  bounds := workingFile_bounds
  late := [.deliver [⟨some (sampledFunction "f" filename)⟩] none,
    .drop ⟨filename, ascii "a.php"⟩]
  setitimer := fun _ => true

/-- What a report drops is told by the units alone. -/
theorem droppedRows_entries (realtime : Option Timespec) (fopen : Bool) (threshold : UInt64)
    (rows : List Row) :
    (droppedRows realtime fopen threshold rows).map Row.entry =
      if getWallTime realtime = 0 ∨ fopen = false then []
      else (rows.map Row.entry).filter fun entry =>
        !profSamplingApplyThreshold threshold entry.2 := by
  rw [droppedRows, List.filter_map]
  split <;> rfl

/-- What the second request, if it is served, has sampled, and what its teardown returns. -/
def secondRequest : Option (List (Bytes × ProfSamplingUnit) × ZendResult) := do
  let (between, .success) ←
    PprofScript.runRequests php (.fresh (sampledConfig .pprof)) [sampledRequest 0] | none
  let sampled ← served php between (sampledRequest 12)
  let (_, _, result) ← between.runRequest php (sampledRequest 12)
  return ((SamplingProofs.handleAll php (setupGlobals (sampledConfig .pprof) accepting)
    sampled.delivered).samplingUnits.entries, result)

/-- The second request leaves the unit of `g` behind, besides what the first has left. -/
theorem second_request_reports :
    ∃ between sampled after,
      PprofScript.runRequests php (.fresh (sampledConfig .pprof)) [sampledRequest 0] =
        some (between, .success) ∧
      served php between (sampledRequest 12) = some sampled ∧
      between.runRequest php (sampledRequest 12) = some (after, reportOf (some ⟨2, 0⟩) true
        workingFile (SamplingProofs.handleAll php (setupGlobals (sampledConfig .pprof) accepting)
          sampled.delivered), .success) ∧
      ∃ dropped left, Rests between (sampledConfig .pprof) dropped ∧
        Rests after (sampledConfig .pprof) (dropped ++ left) ∧
        left.map Row.entry = [(ascii "g", ⟨1, ⟨12, ascii "a.php"⟩, 3⟩)] := by
  have runs : secondRequest = some
      ([(ascii "f", ⟨2, ⟨12, ascii "a.php"⟩, 3⟩), (ascii "g", ⟨1, ⟨12, ascii "a.php"⟩, 3⟩)],
        .success) := by
    decide +kernel
  have completes : (PprofScript.runRequests php (.fresh (sampledConfig .pprof))
      [sampledRequest 0]).map Prod.snd = some .success := by decide +kernel
  obtain ⟨⟨between, ended⟩, ran, succeeded⟩ := Option.map_eq_some_iff.mp completes
  obtain rfl : ended = .success := succeeded
  have started : (between.process.phpRinit (sampledRequest 12).rinit).2 = .success := rfl
  obtain ⟨sampled, after, result, performed, finished, dropped, rows, rests, entries, left⟩ :=
    pprof_request_reports_delivered php [sampledRequest 0] ran started
  have same : some ((SamplingProofs.handleAll php (setupGlobals (sampledConfig .pprof) accepting)
      sampled.delivered).samplingUnits.entries, result) = secondRequest := by
    simp only [secondRequest, ran, performed, finished, Option.bind_eq_bind, Option.bind_some,
      Option.pure_def]
  rw [runs, Option.some.injEq, Prod.mk.injEq] at same
  obtain ⟨units, rfl⟩ := same
  refine ⟨between, sampled, after, ran, performed, finished, dropped, _, rests, left rfl, ?_⟩
  have listed := entries.trans units
  rw [droppedRows_entries, listed]
  decide

/-- Any sampled requests run until one fails, without memory that is dead or out of
bounds. When all have completed, the blocks that are left are units that were not above
the threshold, and the strings that are left are their file names and what the engine
has. -/
theorem pprof_requests_leave_dropped (engine : Engine) (config : ProfConfig)
    (requests : List PprofRequest) :
    ∃ after result, PprofScript.runRequests engine (.fresh config) requests =
        some (after, result) ∧
      (result = .success → ∃ dropped : List Row,
        (∀ row ∈ dropped, row.samplingUnit.hits ≤ config.samplingThreshold) ∧
        after.process.memory.blocks.Holds (rowBlocks dropped) ∧
        after.process.memory.strings.Shares (rowFiles dropped + ↑after.engineHolds)) := by
  obtain ⟨after, result, ran, left⟩ :=
    runRequests_spec engine requests (fresh_rests config) (by simp)
  refine ⟨after, result, ran, fun succeeded => ?_⟩
  obtain ⟨dropped, rests, low⟩ := left succeeded
  exact ⟨dropped, low, rests.has.1, rests.has.2⟩

end PhpProf.PprofProcessProofs
