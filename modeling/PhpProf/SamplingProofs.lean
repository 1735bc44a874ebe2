import Mathlib.Data.UInt
import PhpProf.Sampling

/-! What the SIGPROF handler counts. The reference is a plain list of the
functions sampled, one for each delivery that finds user code; the table of
units is compared with counts over that list. -/
namespace PhpProf.SamplingProofs
open OrderedTable

variable {engine : Engine}

/-- Deliver signals to the handler, one after another. -/
def handleAll (engine : Engine) (globals : ProfGlobals) (deliveries : List (List ExecuteData)) :
    ProfGlobals :=
  deliveries.foldl (profSigprofHandler engine) globals

/-- The user function a frame runs, if it runs one. -/
def userFunction (frame : ExecuteData) : Option ZendFunction :=
  frame.func.filter fun func => func.type.userCode

/-- The function a delivery samples: that of its first frame running user code. -/
def sampledFunction (executeData : List ExecuteData) : Option ZendFunction :=
  executeData.findSome? userFunction

/-- The functions sampled by a sequence of deliveries, in order. -/
def samples (deliveries : List (List ExecuteData)) : List ZendFunction :=
  deliveries.filterMap sampledFunction

/-- The samples counted under one name. -/
def samplesNamed (engine : Engine) (name : Bytes) (deliveries : List (List ExecuteData)) :
    List ZendFunction :=
  (samples deliveries).filter fun func => functionName engine func = name

/-- The handler's walk over the frames finds the function sampled. -/
theorem innermostUser_eq (executeData : List ExecuteData) :
    innermostUser executeData = sampledFunction executeData := by
  induction executeData with
  | nil => rfl
  | cons frame callers ih =>
    obtain ⟨func⟩ := frame
    cases func with
    | none => simpa [innermostUser, sampledFunction, userFunction, List.findSome?_cons] using ih
    | some func =>
      cases user : func.type.userCode with
      | true =>
        simp [innermostUser, sampledFunction, userFunction, user, Option.filter_some]
      | false =>
        simpa [innermostUser, sampledFunction, userFunction, user, List.findSome?_cons,
          Option.filter_some] using ih

/-- A unit as the handler creates it. -/
def freshUnit (func : ZendFunction) : ProfSamplingUnit where
  hits := 0
  filename := func.opArray.filename
  lineno := func.opArray.lineStart

def hit (unit : ProfSamplingUnit) (_ : ZendFunction) : ProfSamplingUnit :=
  { unit with hits := unit.hits + 1 }

/-- Count one sample. -/
def countSample (engine : Engine) (units : OrderedTable Bytes ProfSamplingUnit)
    (func : ZendFunction) : OrderedTable Bytes ProfSamplingUnit :=
  units.accumulate (functionName engine func) (freshUnit func) fun unit => hit unit func

/-- All a delivery can do while sampling is enabled. -/
theorem handler_step {globals : ProfGlobals} (enabled : globals.samplingEnabled = true)
    (executeData : List ExecuteData) :
    profSigprofHandler engine globals executeData =
      { globals with
        samplingUnits := (sampledFunction executeData).elim globals.samplingUnits
          (countSample engine globals.samplingUnits) } := by
  have awake : (!globals.samplingEnabled) = false := by rw [enabled]; rfl
  simp only [profSigprofHandler, awake, Bool.false_eq_true, ↓reduceIte, innermostUser_eq]
  cases sampledFunction executeData with
  | none => rfl
  | some func =>
    simp only [getFunctionName_eq, Option.elim_some]
    cases found : globals.samplingUnits.find? (functionName engine func) with
    | none => rfl
    | some unit =>
      have kept : globals.samplingUnits.add (functionName engine func) (freshUnit func) =
          globals.samplingUnits :=
        add_of_mem _ ((mem_keys_iff _).mpr ⟨unit, found⟩)
      rw [countSample, accumulate, kept]
      rfl

theorem handleAll_concat (globals : ProfGlobals) (deliveries : List (List ExecuteData))
    (executeData : List ExecuteData) :
    handleAll engine globals (deliveries ++ [executeData]) =
      profSigprofHandler engine (handleAll engine globals deliveries) executeData := by
  simp [handleAll]

/-- A run of deliveries counts its samples in order and changes nothing else. -/
theorem handleAll_eq {globals : ProfGlobals} (enabled : globals.samplingEnabled = true)
    (deliveries : List (List ExecuteData)) :
    handleAll engine globals deliveries =
      { globals with
        samplingUnits := collect (functionName engine) freshUnit hit globals.samplingUnits
          (samples deliveries) } := by
  induction deliveries using List.reverseRecOn with
  | nil => rfl
  | append_singleton deliveries executeData ih =>
    have after : (handleAll engine globals deliveries).samplingEnabled = true := by
      rw [ih]
      exact enabled
    rw [handleAll_concat, handler_step after, ih]
    cases sampled : sampledFunction executeData with
    | none => simp [samples, sampled]
    | some func => simp [samples, sampled, collect_concat, countSample]

private theorem fold_hits (funcs : List ZendFunction) (unit : ProfSamplingUnit) :
    funcs.foldl hit unit =
      { unit with hits := unit.hits + UInt64.ofNat funcs.length } := by
  induction funcs generalizing unit with
  | nil => simp
  | cons func rest ih =>
    rw [List.foldl_cons, ih, List.length_cons, UInt64.ofNat_add]
    simp only [hit, ProfSamplingUnit.mk.injEq, and_true]
    rw [UInt64.add_assoc, UInt64.add_comm 1]
    rfl

/-- What the samples of one name amount to. -/
def unitOf (funcs : List ZendFunction) : Option ProfSamplingUnit :=
  funcs.head?.map fun first =>
    { hits := UInt64.ofNat funcs.length
      filename := first.opArray.filename
      lineno := first.opArray.lineStart }

theorem gathered_hits (funcs : List ZendFunction) :
    gathered freshUnit hit funcs = unitOf funcs := by
  cases funcs with
  | nil => rfl
  | cons first rest =>
    rw [gathered, fold_hits]
    simp [unitOf, freshUnit]

/-- Under every name the table holds what the samples of that name amount to. -/
theorem find?_handled {globals : ProfGlobals} (enabled : globals.samplingEnabled = true)
    (blank : globals.samplingUnits = .empty) (deliveries : List (List ExecuteData))
    (name : Bytes) :
    (handleAll engine globals deliveries).samplingUnits.find? name =
      unitOf (samplesNamed engine name deliveries) := by
  rw [handleAll_eq enabled, blank]
  exact (find?_collect ..).trans (gathered_hits _)

theorem keys_handled {globals : ProfGlobals} (enabled : globals.samplingEnabled = true)
    (blank : globals.samplingUnits = .empty) (deliveries : List (List ExecuteData)) :
    (handleAll engine globals deliveries).samplingUnits.keys =
      ((samples deliveries).map (functionName engine)).eraseDups := by
  rw [handleAll_eq enabled, blank]
  exact keys_collect (functionName engine) freshUnit hit (samples deliveries)

/-! ## The total -/

theorem totalSamples_eq (units : OrderedTable Bytes ProfSamplingUnit) :
    totalSamples units = sumOf (fun _ unit => unit.hits) units := by
  rw [totalSamples, sumOf, List.sum_eq_foldl, List.foldl_map]

theorem totalSamples_count (units : OrderedTable Bytes ProfSamplingUnit) (func : ZendFunction) :
    totalSamples (countSample engine units func) = totalSamples units + 1 := by
  rw [totalSamples_eq, totalSamples_eq, countSample, sumOf_accumulate]
  cases units.find? (functionName engine func) with
  | none => simp [hit, freshUnit]
  | some unit =>
    simp only [Option.elim_some, Option.getD_some, hit]
    abel

theorem totalSamples_handled {globals : ProfGlobals} (enabled : globals.samplingEnabled = true)
    (blank : globals.samplingUnits = .empty) (deliveries : List (List ExecuteData)) :
    totalSamples (handleAll engine globals deliveries).samplingUnits =
      UInt64.ofNat (samples deliveries).length := by
  rw [handleAll_eq enabled, blank]
  simp only
  induction samples deliveries using List.reverseRecOn with
  | nil => rfl
  | append_singleton funcs func ih =>
    rw [collect_concat, List.length_append, List.length_singleton, UInt64.ofNat_add, ← ih]
    exact totalSamples_count _ func

/-- After setup and any sequence of deliveries the table holds one unit for each
name sampled, by first occurrence, with the number of its samples and the file
and line of the first one. Nothing else changes, a delivery without user code
changes nothing at all, and the report's total is the number of samples. -/
theorem sampling_units_count_samples (engine : Engine) (setitimer : Itimerval → Bool)
    (globals : ProfGlobals) (deliveries : List (List ExecuteData)) :
    let setup := (profSamplingSetup setitimer globals).1
    let after := handleAll engine setup deliveries
    after.samplingUnits.keys = ((samples deliveries).map (functionName engine)).eraseDups ∧
      (∀ name, after.samplingUnits.find? name = unitOf (samplesNamed engine name deliveries)) ∧
      after = { setup with samplingUnits := after.samplingUnits } ∧
      (∀ executeData, sampledFunction executeData = none →
        profSigprofHandler engine after executeData = after) ∧
      totalSamples after.samplingUnits = UInt64.ofNat (samples deliveries).length := by
  intro setup after
  have enabled : setup.samplingEnabled = true := rfl
  have blank : setup.samplingUnits = .empty := rfl
  have run : after = _ := handleAll_eq enabled deliveries
  refine ⟨keys_handled enabled blank deliveries, find?_handled enabled blank deliveries, ?_, ?_,
    totalSamples_handled enabled blank deliveries⟩
  · simp only [after, run]
  · intro executeData silent
    have stillEnabled : after.samplingEnabled = true := by simp only [after, run, enabled]
    rw [handler_step stillEnabled, silent]
    rfl

/-! ## Attribution to a file and a line -/

/-- The unit stands under the file and line of this function. -/
def Describes (unit : ProfSamplingUnit) (func : ZendFunction) : Prop :=
  unit.filename.val = func.opArray.filename.val ∧ unit.lineno = func.opArray.lineStart

instance : Decidable (Describes unit func) := inferInstanceAs (Decidable (_ ∧ _))

def hitsUnder (globals : ProfGlobals) (name : Bytes) : UInt64 :=
  ((globals.samplingUnits.find? name).map ProfSamplingUnit.hits).getD 0

/-- Every delivery that samples a function adds its hit to a unit that describes
the function. -/
def Attributed (engine : Engine) (globals : ProfGlobals) (deliveries : List (List ExecuteData)) :
    Prop :=
  ∀ before executeData later func, deliveries = before ++ executeData :: later →
    sampledFunction executeData = some func →
    ∃ name unit,
      hitsUnder (handleAll engine globals (before ++ [executeData])) name =
        hitsUnder (handleAll engine globals before) name + 1 ∧
      (handleAll engine globals (before ++ [executeData])).samplingUnits.find? name = some unit ∧
      Describes unit func

/-- Functions sampled under one name start at one line of one file. -/
def NamesTellPlaces (engine : Engine) (funcs : List ZendFunction) : Prop :=
  ∀ first ∈ funcs, ∀ second ∈ funcs, functionName engine first = functionName engine second →
    first.opArray.filename.val = second.opArray.filename.val ∧
      first.opArray.lineStart = second.opArray.lineStart

theorem samplesNamed_concat (engine : Engine) (name : Bytes) (deliveries : List (List ExecuteData))
    {executeData : List ExecuteData} {func : ZendFunction}
    (sampled : sampledFunction executeData = some func) :
    samplesNamed engine name (deliveries ++ [executeData]) =
      samplesNamed engine name deliveries ++
        if functionName engine func = name then [func] else [] := by
  by_cases named : functionName engine func = name <;>
    simp [samplesNamed, samples, sampled, named]

theorem hitsUnder_handled {globals : ProfGlobals} (enabled : globals.samplingEnabled = true)
    (blank : globals.samplingUnits = .empty) (deliveries : List (List ExecuteData))
    (name : Bytes) :
    hitsUnder (handleAll engine globals deliveries) name =
      UInt64.ofNat (samplesNamed engine name deliveries).length := by
  rw [hitsUnder, find?_handled enabled blank]
  cases samplesNamed engine name deliveries <;> simp [unitOf]

/-- A delivery adds a hit under the sampled function's name and no other. -/
theorem hit_iff {globals : ProfGlobals} (enabled : globals.samplingEnabled = true)
    (blank : globals.samplingUnits = .empty) (before : List (List ExecuteData))
    {executeData : List ExecuteData} {func : ZendFunction}
    (sampled : sampledFunction executeData = some func) (name : Bytes) :
    hitsUnder (handleAll engine globals (before ++ [executeData])) name =
        hitsUnder (handleAll engine globals before) name + 1 ↔
      functionName engine func = name := by
  rw [hitsUnder_handled enabled blank, hitsUnder_handled enabled blank,
    samplesNamed_concat engine name before sampled]
  by_cases named : functionName engine func = name
  · simp [named, UInt64.ofNat_add]
  · simp [named]

/-- The unit a delivery adds its hit to describes the first function sampled
under the same name. -/
theorem unit_describes_first (engine : Engine) {globals : ProfGlobals}
    (enabled : globals.samplingEnabled = true) (blank : globals.samplingUnits = .empty)
    {deliveries before later : List (List ExecuteData)} {executeData : List ExecuteData}
    {func : ZendFunction}
    (split : deliveries = before ++ executeData :: later)
    (sampled : sampledFunction executeData = some func) :
    ∃ first unit,
      (samplesNamed engine (functionName engine func) deliveries).head? = some first ∧
      (handleAll engine globals (before ++ [executeData])).samplingUnits.find?
        (functionName engine func) = some unit ∧
      Describes unit first := by
  have shape := samplesNamed_concat engine (functionName engine func) before sampled
  rw [if_pos rfl] at shape
  have whole : samplesNamed engine (functionName engine func) deliveries =
      samplesNamed engine (functionName engine func) (before ++ [executeData]) ++
        samplesNamed engine (functionName engine func) later := by
    have cut : before ++ executeData :: later = (before ++ [executeData]) ++ later := by simp
    rw [split, cut]
    simp only [samplesNamed, samples, List.filterMap_append, List.filter_append]
  rw [find?_handled enabled blank, whole, shape]
  cases samplesNamed engine (functionName engine func) before with
  | nil => exact ⟨func, _, rfl, rfl, rfl, rfl⟩
  | cons first rest => exact ⟨first, _, rfl, rfl, rfl, rfl⟩

theorem mem_samples_iff {deliveries : List (List ExecuteData)} {func : ZendFunction} :
    func ∈ samples deliveries ↔ ∃ before executeData later,
      deliveries = before ++ executeData :: later ∧ sampledFunction executeData = some func := by
  constructor
  · intro member
    obtain ⟨executeData, delivered, sampled⟩ := List.mem_filterMap.mp member
    obtain ⟨before, later, split⟩ := List.append_of_mem delivered
    exact ⟨before, executeData, later, split, sampled⟩
  · rintro ⟨before, executeData, later, rfl, sampled⟩
    exact List.mem_filterMap.mpr ⟨executeData, by simp, sampled⟩

theorem head_named {deliveries : List (List ExecuteData)} {name : Bytes} {first : ZendFunction}
    (head : (samplesNamed engine name deliveries).head? = some first) :
    first ∈ samples deliveries ∧ functionName engine first = name := by
  simpa [samplesNamed] using List.mem_of_mem_head? head

/-- Both functions of a name are described by the unit of the first one. -/
theorem attributed_iff {globals : ProfGlobals} (enabled : globals.samplingEnabled = true)
    (blank : globals.samplingUnits = .empty) (deliveries : List (List ExecuteData)) :
    Attributed engine globals deliveries ↔ NamesTellPlaces engine (samples deliveries) := by
  constructor
  · intro attributed
    have atFirst : ∀ func ∈ samples deliveries, ∃ first,
        (samplesNamed engine (functionName engine func) deliveries).head? = some first ∧
          first.opArray.filename.val = func.opArray.filename.val ∧
          first.opArray.lineStart = func.opArray.lineStart := by
      intro func member
      obtain ⟨before, executeData, later, split, sampled⟩ := mem_samples_iff.mp member
      obtain ⟨first, unit, head, found, described⟩ :=
        unit_describes_first engine enabled blank split sampled
      obtain ⟨name, counted, grew, held, right⟩ :=
        attributed before executeData later func split sampled
      obtain rfl := (hit_iff enabled blank before sampled name).mp grew
      obtain rfl := Option.some.inj (held.symm.trans found)
      exact ⟨first, head, described.1.symm.trans right.1, described.2.symm.trans right.2⟩
    intro left leftMember right rightMember same
    obtain ⟨leftFirst, leftHead, leftFile, leftLine⟩ := atFirst left leftMember
    obtain ⟨rightFirst, rightHead, rightFile, rightLine⟩ := atFirst right rightMember
    rw [same, rightHead] at leftHead
    obtain rfl := Option.some.inj leftHead
    exact ⟨leftFile.symm.trans rightFile, leftLine.symm.trans rightLine⟩
  · intro places before executeData later func split sampled
    obtain ⟨first, unit, head, found, described⟩ :=
      unit_describes_first engine enabled blank split sampled
    obtain ⟨firstMember, named⟩ := head_named head
    have member := mem_samples_iff.mpr ⟨before, executeData, later, split, sampled⟩
    obtain ⟨file, line⟩ := places first firstMember func member named
    exact ⟨functionName engine func, unit, (hit_iff enabled blank before sampled _).mpr rfl,
      found, described.1.trans file, described.2.trans line⟩

/-- Every hit goes to the unit of the function's name, which stands under the
file and line of the first function sampled by that name; so all samples are
attributed to their own file and line exactly when names tell places. -/
theorem samples_attributed_iff (engine : Engine) (setitimer : Itimerval → Bool)
    (globals : ProfGlobals) (deliveries : List (List ExecuteData)) :
    let setup := (profSamplingSetup setitimer globals).1
    (∀ before executeData later func, deliveries = before ++ executeData :: later →
      sampledFunction executeData = some func →
      ∃ first unit,
        (samplesNamed engine (functionName engine func) deliveries).head? = some first ∧
        hitsUnder (handleAll engine setup (before ++ [executeData])) (functionName engine func) =
          hitsUnder (handleAll engine setup before) (functionName engine func) + 1 ∧
        (handleAll engine setup (before ++ [executeData])).samplingUnits.find?
          (functionName engine func) = some unit ∧
        Describes unit first) ∧
      (Attributed engine setup deliveries ↔ NamesTellPlaces engine (samples deliveries)) := by
  intro setup
  have enabled : setup.samplingEnabled = true := rfl
  have blank : setup.samplingUnits = .empty := rfl
  refine ⟨?_, attributed_iff enabled blank deliveries⟩
  intro before executeData later func split sampled
  obtain ⟨first, unit, head, found, described⟩ :=
    unit_describes_first engine enabled blank split sampled
  exact ⟨first, unit, head, (hit_iff enabled blank before sampled _).mpr rfl, found, described⟩

/-- The top-level code of a file. -/
def topLevel (addr : Nat) (file : String) : ZendFunction where
  type := .userFunction
  closure := false
  scope := none
  functionName := none
  opArray := ⟨⟨addr, Text.ascii file⟩, 1⟩

/-- One sample in the script and one in a file it includes: both are `main`. -/
def includedSamples : List (List ExecuteData) :=
  [[⟨topLevel 1 "a.php"⟩], [⟨topLevel 2 "b.php"⟩, ⟨topLevel 1 "a.php"⟩]]

theorem included_file_counts_under_script :
    ¬ ∀ (globals : ProfGlobals) (deliveries : List (List ExecuteData)),
      Attributed php (profSamplingSetup (fun _ => true) globals).1 deliveries := by
  intro always
  have config : ProfConfig := ⟨.sampling, .callgrind, 1000, 20, 1, 50, 0, 0⟩
  have attributed := always (.fresh config) includedSamples
  have places := (attributed_iff rfl rfl includedSamples).mp attributed
  have script : topLevel 1 "a.php" ∈ samples includedSamples := by decide
  have included : topLevel 2 "b.php" ∈ samples includedSamples := by decide
  exact absurd (places _ script _ included (by decide)) (by decide)

end PhpProf.SamplingProofs
