import PhpProf.ConfigProofs
import PhpProf.ReportProofs
import PhpProf.SamplingMemory
import PhpProf.SamplingProofs

/-! Who frees the sampling units. The pointers in the table and those that the
pprof report has dropped own all live units; teardown frees the former, so a
request leaves nothing behind exactly when it drops nothing. -/
namespace PhpProf.SamplingMemoryProofs
open OrderedTable SamplingMemory

variable {engine : Engine} {memory : SamplingMemory} {lost : List Nat}

/-! ## Owners -/

/-- The pointers in the table. -/
def pointers (memory : SamplingMemory) : List Nat := memory.samplingUnits.entries.map Prod.snd

/-- The address of the file name of a unit. -/
def filenameAt (memory : SamplingMemory) (addr : Nat) : Nat := (memory.unitAt addr).filename.addr

/-- The table and some lost pointers own all live units, and each of these units
holds one reference to its file name. -/
structure Accounts (memory : SamplingMemory) (lost : List Nat) : Prop where
  owns : memory.heap.Owns (pointers memory ++ lost)
  held : memory.filenames.Held ((pointers memory ++ lost).map (filenameAt memory))

/-- No unit is live, each has been freed exactly once, and as many references to
each file name have been released as taken. -/
structure Released (memory : SamplingMemory) : Prop where
  units : memory.heap.Released
  filenames : memory.filenames.Balanced

theorem fresh_released : Released .fresh where
  units := fun addr below => absurd below (Nat.not_lt_zero addr)
  filenames := References.balanced_empty

theorem setup_accounts (released : Released memory) : Accounts memory.profSamplingSetup [] where
  owns := released.units.owns
  held := References.balanced_iff_held.mp released.filenames

theorem Accounts.regroup (accounts : Accounts memory lost) {after : SamplingMemory}
    {dropped : List Nat} (heap : after.heap = memory.heap)
    (filenames : after.filenames = memory.filenames)
    (same : (pointers memory ++ lost).Perm (pointers after ++ dropped)) :
    Accounts after dropped where
  owns := by
    rw [heap]
    exact accounts.owns.perm same
  held := by
    have located : filenameAt after = filenameAt memory := by
      funext addr
      rw [filenameAt, filenameAt, unitAt, unitAt, heap]
    rw [filenames, located]
    exact accounts.held.perm (same.map _)

/-! ## The handler -/

/-- `hits += 1` through a pointer. -/
def hitAt (memory : SamplingMemory) (addr : Nat) : SamplingMemory :=
  { memory with heap := memory.heap.modify addr countHit }

/-- The memory with a unit for the function, and the pointer to it. -/
def withUnit (memory : SamplingMemory) (functionName : Bytes) (func : ZendFunction) :
    SamplingMemory × Nat :=
  match memory.samplingUnits.find? functionName with
  | some samplingUnit => (memory, samplingUnit)
  | none => (memory.createUnit functionName func, memory.heap.next)

theorem handler_step (enabled : memory.samplingEnabled = true) (executeData : List ExecuteData) :
    memory.profSigprofHandler engine executeData =
      (SamplingProofs.sampledFunction executeData).elim memory fun func =>
        hitAt (withUnit memory (functionName engine func) func).1
          (withUnit memory (functionName engine func) func).2 := by
  have awake : (!memory.samplingEnabled) = false := by rw [enabled]; rfl
  simp only [SamplingMemory.profSigprofHandler, awake, Bool.false_eq_true, ↓reduceIte,
    SamplingProofs.innermostUser_eq]
  cases SamplingProofs.sampledFunction executeData with
  | none => rfl
  | some func =>
    simp only [getFunctionName_eq, Option.elim_some]
    rfl

theorem filenameAt_hit (memory : SamplingMemory) (addr : Nat) :
    filenameAt (hitAt memory addr) = filenameAt memory := by
  funext other
  by_cases same : other = addr
  · subst same
    cases found : memory.heap.cells other with
    | none => simp [filenameAt, unitAt, hitAt, Heap.modify, found]
    | some unit => simp [filenameAt, unitAt, hitAt, Heap.modify, found, countHit]
  · simp [filenameAt, unitAt, hitAt, Heap.modify, same]

theorem hit_accounts (accounts : Accounts memory lost) (addr : Nat) :
    Accounts (hitAt memory addr) lost where
  owns := accounts.owns.modify addr countHit
  held := by
    rw [filenameAt_hit]
    exact accounts.held

theorem create_accounts (accounts : Accounts memory lost) {functionName : Bytes}
    (missing : memory.samplingUnits.find? functionName = none) (func : ZendFunction) :
    Accounts (memory.createUnit functionName func) lost := by
  have extended : pointers (memory.createUnit functionName func) =
      pointers memory ++ [memory.heap.next] := by
    simp only [pointers, createUnit, entries_add _ ((find?_eq_none_iff _).mp missing),
      List.map_append, List.map_singleton]
  have order : ((pointers memory ++ lost) ++ [memory.heap.next]).Perm
      (pointers (memory.createUnit functionName func) ++ lost) := by
    rw [extended, List.append_assoc, List.append_assoc]
    exact List.perm_append_comm.append_left _
  have located : ((pointers memory ++ lost) ++ [memory.heap.next]).map
      (filenameAt (memory.createUnit functionName func)) =
        (pointers memory ++ lost).map (filenameAt memory) ++ [func.opArray.filename.addr] := by
    rw [List.map_append, List.map_singleton]
    congr 1
    · refine List.map_congr_left fun addr member => ?_
      have old : addr ≠ memory.heap.next := Nat.ne_of_lt (accounts.owns.allocated addr member)
      simp [filenameAt, unitAt, createUnit, Heap.alloc, old]
    · simp [filenameAt, unitAt, createUnit, Heap.alloc]
  constructor
  · exact (accounts.owns.alloc _).perm order
  · refine References.Held.perm ?_ (order.map _)
    rw [located]
    exact accounts.held.take _

/-- A delivery takes a reference for every unit it creates, and frees nothing. -/
theorem handler_accounts (accounts : Accounts memory lost) (executeData : List ExecuteData) :
    Accounts (memory.profSigprofHandler engine executeData) lost := by
  by_cases enabled : memory.samplingEnabled = true
  · rw [handler_step enabled]
    cases SamplingProofs.sampledFunction executeData with
    | none => exact accounts
    | some func =>
      apply hit_accounts
      rw [withUnit]
      split
      · exact accounts
      · next missing => exact create_accounts accounts missing func
  · have asleep : memory.profSigprofHandler engine executeData = memory := by
      simp [SamplingMemory.profSigprofHandler, enabled]
    rwa [asleep]

theorem handleAll_accounts (accounts : Accounts memory lost)
    (deliveries : List (List ExecuteData)) :
    Accounts (deliveries.foldl (SamplingMemory.profSigprofHandler engine) memory) lost := by
  induction deliveries generalizing memory with
  | nil => exact accounts
  | cons executeData rest ih => exact ih (handler_accounts accounts executeData)

/-! ## Teardown -/

/-- The loop of teardown frees the owned units one by one, each with its
reference. -/
theorem releaseUnits {entries : List (Bytes × Nat)}
    (owns : memory.heap.Owns (entries.map Prod.snd ++ lost))
    (held : memory.filenames.Held ((entries.map Prod.snd ++ lost).map (filenameAt memory))) :
    let after := entries.foldl releaseUnit memory
    after.heap.Owns lost ∧ after.filenames.Held (lost.map (filenameAt after)) := by
  induction entries generalizing memory with
  | nil => exact ⟨owns, held⟩
  | cons entry rest ih =>
    obtain ⟨gone, -⟩ := List.nodup_cons.mp owns.once
    have located : (rest.map Prod.snd ++ lost).map (filenameAt (releaseUnit memory entry)) =
        (rest.map Prod.snd ++ lost).map (filenameAt memory) := by
      refine List.map_congr_left fun addr member => ?_
      have other : addr ≠ entry.2 := fun same => gone (same ▸ member)
      simp [filenameAt, unitAt, releaseUnit, Heap.free, other]
    apply ih
    · exact owns.free
    · rw [located]
      exact held.release

/-- After a teardown that succeeds, everything has been released unless some
pointer had been lost. -/
theorem teardown_released_iff (accounts : Accounts memory lost)
    {setitimer : Itimerval → Bool} {after : SamplingMemory}
    (ended : memory.profSamplingTeardown setitimer = (after, .success)) :
    Released after ↔ lost = [] := by
  simp only [SamplingMemory.profSamplingTeardown] at ended
  split at ended
  · cases ended
  · cases ended
    obtain ⟨owns, held⟩ := @releaseUnits { memory with samplingEnabled := false } lost
      memory.samplingUnits.entries accounts.owns accounts.held
    constructor
    · exact fun released => owns.released_iff.mp released.units
    · rintro rfl
      exact ⟨owns.released_iff.mpr rfl, References.balanced_iff_held.mpr held⟩

/-! ## The reports -/

/-- The pointers that a report drops from the table: the pprof report drops the
units at or below the threshold when it gets that far. -/
def dropped (config : ProfConfig) (env : RshutdownEnv) (memory : SamplingMemory) : List Nat :=
  if config.outputMode = .pprof ∧ getWallTime env.pprofRealtime ≠ 0 ∧ env.fopen = true then
    (pointers memory).filter fun addr =>
      !profSamplingApplyThreshold config.samplingThreshold (memory.unitAt addr)
  else []

theorem compare_consistent (memory : SamplingMemory) :
    Ranking.Consistent memory.profCompareSamplingUnits where
  swap := fun _ _ => ReportProofs.compareSamplingUnits_consistent.swap _ _
  trans := fun _ _ _ => ReportProofs.compareSamplingUnits_consistent.trans _ _ _

theorem console_accounts (sorts : ReportProofs.SortsByComparator engine)
    (accounts : Accounts memory lost) {samplingLimit : UInt64} {after : SamplingMemory}
    (reported : memory.profSamplingPrintResultConsole engine samplingLimit = some after) :
    Accounts after lost := by
  unfold SamplingMemory.profSamplingPrintResultConsole at reported
  split at reported
  · cases reported
    exact accounts
  · obtain ⟨slice, -, rfl⟩ := Option.map_eq_some_iff.mp reported
    obtain ⟨same, -⟩ := sorts memory.profCompareSamplingUnits memory.samplingUnits
      (compare_consistent memory)
    exact accounts.regroup rfl rfl ((same.symm.map Prod.snd).append_right lost)

/-- The entries that are kept and the pointers of the others. -/
theorem kept_and_dropped (keep : Nat → Bool) (entries : List (Bytes × Nat)) :
    (entries.map Prod.snd).Perm
      ((entries.filter fun entry => keep entry.2).map Prod.snd ++
        (entries.map Prod.snd).filter fun addr => !keep addr) := by
  have kept : (entries.filter fun entry => keep entry.2).map Prod.snd =
      (entries.map Prod.snd).filter keep := by
    rw [List.filter_map]
    rfl
  rw [kept]
  exact (List.filter_append_perm keep _).symm

/-- A report loses exactly what it drops. -/
theorem report_accounts (sorts : ReportProofs.SortsByComparator engine)
    (accounts : Accounts memory lost) {config : ProfConfig} {env : RshutdownEnv}
    {after : SamplingMemory} (reported : memory.profReport engine config env = some after) :
    Accounts after (dropped config env memory ++ lost) := by
  unfold SamplingMemory.profReport at reported
  unfold dropped
  cases mode : config.outputMode with
  | console =>
    simp only [mode] at reported
    simpa [mode] using console_accounts sorts accounts reported
  | callgrind =>
    simp only [mode] at reported
    cases reported
    simpa [mode] using accounts
  | pprof =>
    simp only [mode] at reported
    cases reported
    unfold SamplingMemory.profSamplingPrintResultPprof
    by_cases clock : getWallTime env.pprofRealtime = 0
    · simpa [clock] using accounts
    · cases opened : env.fopen with
      | false => simpa [clock] using accounts
      | true =>
        simp only [clock, Bool.not_true, Bool.false_eq_true, ↓reduceIte, ne_eq,
          not_false_eq_true, and_self]
        refine accounts.regroup rfl rfl ?_
        rw [← List.append_assoc]
        refine List.Perm.append_right lost ?_
        exact kept_and_dropped
          (fun addr => profSamplingApplyThreshold config.samplingThreshold (memory.unitAt addr))
          memory.samplingUnits.entries

/-! ## What the pointers stand for -/

/-- Read through its pointers, the table is that of the globals. -/
structure Represents (memory : SamplingMemory) (globals : ProfGlobals) : Prop where
  enabled : memory.samplingEnabled = globals.samplingEnabled
  units : memory.samplingUnits.mapValues memory.heap.cells = globals.samplingUnits.mapValues some

theorem Represents.find? {globals : ProfGlobals} (represents : Represents memory globals)
    (name : Bytes) :
    (memory.samplingUnits.find? name).map memory.heap.cells =
      (globals.samplingUnits.find? name).map some := by
  rw [← find?_mapValues, represents.units, find?_mapValues]

theorem Accounts.single (accounts : Accounts memory lost) :
    (memory.samplingUnits.entries.map Prod.snd).Nodup :=
  (List.nodup_append.mp accounts.owns.once).1

/-- A new pointer stands for a new unit, and the others for what they did. -/
theorem create_represents {globals : ProfGlobals} (represents : Represents memory globals)
    (accounts : Accounts memory lost) (functionName : Bytes) (func : ZendFunction) :
    Represents (memory.createUnit functionName func)
      { globals with
        samplingUnits :=
          globals.samplingUnits.add functionName (SamplingProofs.freshUnit func) } where
  enabled := represents.enabled
  units := by
    have old : memory.samplingUnits.mapValues (memory.createUnit functionName func).heap.cells =
        memory.samplingUnits.mapValues memory.heap.cells := by
      refine mapValues_congr _ fun entry member => ?_
      have allocated := accounts.owns.allocated entry.2
        (List.mem_append_left _ (List.mem_map_of_mem member))
      exact Function.update_of_ne (Nat.ne_of_lt allocated) _ _
    have new : (memory.createUnit functionName func).heap.cells memory.heap.next =
        some (SamplingProofs.freshUnit func) := Function.update_self ..
    have added : (memory.createUnit functionName func).samplingUnits =
        memory.samplingUnits.add functionName memory.heap.next := rfl
    rw [added, mapValues_add, mapValues_add, old, new, represents.units]

/-- A hit through a pointer is a hit in the table. -/
theorem hit_represents {globals : ProfGlobals} (represents : Represents memory globals)
    (accounts : Accounts memory lost) {functionName : Bytes} {addr : Nat}
    (found : memory.samplingUnits.find? functionName = some addr) :
    Represents (hitAt memory addr)
      { globals with samplingUnits := globals.samplingUnits.modify functionName countHit } where
  enabled := represents.enabled
  units := by
    have hit := mapValues_update memory.samplingUnits found accounts.single memory.heap.cells
      (Option.map countHit)
    have commutes : ∀ unit, some (countHit unit) = Option.map countHit (some unit) :=
      fun _ => rfl
    rw [mapValues_modify _ commutes, ← represents.units, ← hit]
    rfl

/-- The handler does through pointers what it does to the table. -/
theorem handler_represents {globals : ProfGlobals} (represents : Represents memory globals)
    (accounts : Accounts memory lost) (executeData : List ExecuteData) :
    Represents (memory.profSigprofHandler engine executeData)
      (PhpProf.profSigprofHandler engine globals executeData) := by
  by_cases enabled : memory.samplingEnabled = true
  · rw [handler_step enabled, SamplingProofs.handler_step (represents.enabled ▸ enabled)]
    cases SamplingProofs.sampledFunction executeData with
    | none => exact represents
    | some func =>
      have same := represents.find? (functionName engine func)
      simp only [Option.elim_some, SamplingProofs.countSample, accumulate, withUnit]
      cases found : memory.samplingUnits.find? (functionName engine func) with
      | some addr =>
        have present : functionName engine func ∈ globals.samplingUnits.keys := by
          rw [mem_keys_iff]
          rw [found] at same
          cases held : globals.samplingUnits.find? (functionName engine func) with
          | none => simp [held] at same
          | some unit => exact ⟨unit, rfl⟩
        rw [add_of_mem _ present]
        exact hit_represents represents accounts found
      | none =>
        have created := create_represents represents accounts (functionName engine func) func
        refine hit_represents created (create_accounts accounts found func) ?_
        show (memory.samplingUnits.add _ _).find? _ = _
        rw [find?_add, if_pos rfl, found, Option.getD_none]
  · have asleep : memory.profSigprofHandler engine executeData = memory := by
      simp [SamplingMemory.profSigprofHandler, enabled]
    have idle : PhpProf.profSigprofHandler engine globals executeData = globals := by
      rw [represents.enabled] at enabled
      simp [PhpProf.profSigprofHandler, enabled]
    rwa [asleep, idle]

theorem handleAll_represents {globals : ProfGlobals} (represents : Represents memory globals)
    (accounts : Accounts memory lost) (deliveries : List (List ExecuteData)) :
    Represents (deliveries.foldl (SamplingMemory.profSigprofHandler engine) memory)
      (SamplingProofs.handleAll engine globals deliveries) := by
  induction deliveries generalizing memory globals with
  | nil => exact represents
  | cons executeData rest ih =>
    exact ih (handler_represents represents accounts executeData)
      (handler_accounts accounts executeData)

theorem setup_represents (memory : SamplingMemory) (setitimer : Itimerval → Bool)
    (globals : ProfGlobals) :
    Represents memory.profSamplingSetup (PhpProf.profSamplingSetup setitimer globals).1 :=
  ⟨rfl, rfl⟩

/-- A unit that a pointer of the table leads to is one of the table's, and the
other way round. -/
theorem pointed_iff {globals : ProfGlobals} (represents : Represents memory globals)
    (property : ProfSamplingUnit → Prop) :
    (∃ addr ∈ pointers memory, property (memory.unitAt addr)) ↔
      ∃ name unit, globals.samplingUnits.find? name = some unit ∧ property unit := by
  constructor
  · rintro ⟨addr, member, holds⟩
    obtain ⟨⟨name, _⟩, entry, rfl⟩ := List.mem_map.mp member
    have same := represents.find? name
    rw [(find?_eq_some_iff _).mpr entry, Option.map_some, eq_comm, Option.map_eq_some_iff] at same
    obtain ⟨unit, found, stored⟩ := same
    rw [unitAt, ← stored] at holds
    exact ⟨name, unit, found, holds⟩
  · rintro ⟨name, unit, found, holds⟩
    have same := represents.find? name
    rw [found, Option.map_some, Option.map_eq_some_iff] at same
    obtain ⟨addr, pointer, stored⟩ := same
    refine ⟨addr, List.mem_map.mpr ⟨_, (find?_eq_some_iff _).mp pointer, rfl⟩, ?_⟩
    rw [unitAt, stored]
    exact holds

/-! ## Requests -/

/-- The pprof report gets to its threshold, and some function has not been
sampled more often than that. -/
def DropsUnit (engine : Engine) (config : ProfConfig) (env : RshutdownEnv)
    (deliveries : List (List ExecuteData)) : Prop :=
  (config.outputMode = .pprof ∧ getWallTime env.pprofRealtime ≠ 0 ∧ env.fopen = true) ∧
    ∃ func ∈ SamplingProofs.samples deliveries,
      UInt64.ofNat (SamplingProofs.samplesNamed engine (functionName engine func)
        deliveries).length ≤ config.samplingThreshold

/-- What the table holds at or below the threshold are the functions sampled so
rarely. -/
theorem low_unit_iff {globals : ProfGlobals} (enabled : globals.samplingEnabled = true)
    (blank : globals.samplingUnits = .empty) (deliveries : List (List ExecuteData))
    (threshold : UInt64) :
    (∃ name unit, (SamplingProofs.handleAll engine globals deliveries).samplingUnits.find? name =
        some unit ∧ unit.hits ≤ threshold) ↔
      ∃ func ∈ SamplingProofs.samples deliveries,
        UInt64.ofNat (SamplingProofs.samplesNamed engine (functionName engine func)
          deliveries).length ≤ threshold := by
  simp only [SamplingProofs.find?_handled enabled blank, SamplingProofs.unitOf,
    Option.map_eq_some_iff]
  constructor
  · rintro ⟨name, unit, ⟨first, head, rfl⟩, low⟩
    obtain ⟨sampled, rfl⟩ := SamplingProofs.head_named head
    exact ⟨first, sampled, low⟩
  · rintro ⟨func, sampled, low⟩
    have member : func ∈ SamplingProofs.samplesNamed engine (functionName engine func)
        deliveries := List.mem_filter.mpr ⟨sampled, decide_eq_true rfl⟩
    obtain ⟨first, rest, listed⟩ := List.exists_cons_of_ne_nil (List.ne_nil_of_mem member)
    exact ⟨_, _, ⟨first, by rw [listed, List.head?_cons], rfl⟩, low⟩

/-- Something is lost exactly when the report drops a unit. -/
theorem dropped_iff {globals : ProfGlobals} (enabled : globals.samplingEnabled = true)
    (blank : globals.samplingUnits = .empty) {config : ProfConfig} {env : RshutdownEnv}
    {deliveries : List (List ExecuteData)}
    (represents : Represents memory (SamplingProofs.handleAll engine globals deliveries)) :
    dropped config env memory = [] ↔ ¬ DropsUnit engine config env deliveries := by
  have low : (∃ addr ∈ pointers memory, (memory.unitAt addr).hits ≤ config.samplingThreshold) ↔ _ :=
    (pointed_iff represents fun unit => unit.hits ≤ config.samplingThreshold).trans
      (low_unit_iff enabled blank deliveries config.samplingThreshold)
  unfold dropped DropsUnit
  rw [← low]
  split
  · next gets =>
    simp [gets, List.filter_eq_nil_iff, profSamplingApplyThreshold]
  · next stops => simp [stops]

/-- After a request whose teardown succeeds every unit has been released exactly
once, and every file name as often as it was taken, exactly when the report
dropped no unit. -/
theorem units_released_once_iff (engine : Engine) (sorts : ReportProofs.SortsByComparator engine)
    (config : ProfConfig) (env : RshutdownEnv) {before after : SamplingMemory}
    (released : Released before) (deliveries late : List (List ExecuteData))
    (ended : before.runRequest engine config env deliveries late = some (after, .success)) :
    Released after ↔ ¬ DropsUnit engine config env deliveries := by
  obtain ⟨reported, report, teardown⟩ := Option.map_eq_some_iff.mp ended
  have setup := setup_accounts released
  have accounts := report_accounts sorts (handleAll_accounts setup deliveries) report
  have represents : Represents
      (deliveries.foldl (SamplingMemory.profSigprofHandler engine) before.profSamplingSetup)
      (SamplingProofs.handleAll engine (PhpProf.profSamplingSetup (fun _ => true)
        (.fresh config)).1 deliveries) :=
    handleAll_represents (setup_represents before _ _) setup deliveries
  rw [teardown_released_iff (handleAll_accounts accounts late) teardown, List.append_nil]
  exact dropped_iff rfl rfl represents

/-- The environment of a report that can read the clock and write its file. -/
def writable : RshutdownEnv := { RshutdownEnv.quiet with pprofRealtime := some ⟨1, 0⟩ }

/-- The default settings with an output mode. -/
def defaultConfig (outputMode : ProfOutputMode) : ProfConfig :=
  { ConfigProofs.samplingConfig 1000 with outputMode }

/-- One sample of the top-level code of a script. -/
def oneSample : List (List ExecuteData) := [[⟨some (SamplingProofs.topLevel 1 "a.php")⟩]]

/-- Two functions of one file, each sampled twice. -/
def sampledTwice : List (List ExecuteData) :=
  let script := SamplingProofs.topLevel 1 "a.php"
  let helper := { script with
    functionName := some (Text.ascii "f")
    opArray := ⟨script.opArray.filename, 7⟩ }
  [[⟨some script⟩], [⟨some helper⟩, ⟨some script⟩], [⟨some helper⟩, ⟨some script⟩],
    [⟨some script⟩]]

theorem pprof_request_releases :
    ∃ after, SamplingMemory.fresh.runRequest php (defaultConfig .pprof) writable sampledTwice [] =
      some (after, .success) ∧ after.heap.next = 2 ∧ Released after := by
  have ended : ∃ after, SamplingMemory.fresh.runRequest php (defaultConfig .pprof) writable
      sampledTwice [] = some (after, .success) ∧ after.heap.next = 2 := ⟨_, rfl, rfl⟩
  obtain ⟨after, ended, allocated⟩ := ended
  refine ⟨after, ended, allocated, ?_⟩
  refine (units_released_once_iff php ReportProofs.php_sorts _ _ fresh_released _ _ ended).mpr ?_
  rintro ⟨-, func, sampled, low⟩
  have above : ∀ func ∈ SamplingProofs.samples sampledTwice,
      ¬ UInt64.ofNat (SamplingProofs.samplesNamed php (functionName php func)
        sampledTwice).length ≤ (defaultConfig .pprof).samplingThreshold := by decide
  exact above func sampled low

/-- With the default threshold the pprof report drops a unit sampled once, and
teardown leaves it and its file name behind. -/
theorem pprof_request_leaks_unit :
    ∃ after, SamplingMemory.fresh.runRequest php (defaultConfig .pprof) writable oneSample [] =
      some (after, .success) ∧
      after.heap.cells 0 ≠ none ∧ after.filenames.taken 1 = 1 ∧ after.filenames.released 1 = 0 ∧
      ¬ Released after := by
  refine ⟨_, rfl, ?_, rfl, rfl, fun released => ?_⟩
  · exact Option.some_ne_none _
  · exact absurd (released.filenames 1) (by decide)

end PhpProf.SamplingMemoryProofs
