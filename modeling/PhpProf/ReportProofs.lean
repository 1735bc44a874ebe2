import PhpProf.Ranking
import PhpProf.Request

/-! What the console reports show. `ht_slice` is compared with cutting the list
of live entries; the two reports are compared with ranking the units above the
threshold and showing the first of them. -/
namespace PhpProf.ReportProofs
open OrderedTable Ranking Text

variable {ν : Type}

/-! ## The slice of a table -/

/-- The entries of a table's slots, without the deleted ones. -/
def live (arData : List (Option (Bytes × ν))) : List (Bytes × ν) := arData.filterMap id

/-- The slots of a hash table: live entries and holes, under different keys. -/
structure HashSlots (ν : Type) where
  arData : List (Option (Bytes × ν))
  distinct : ((live arData).map Prod.fst).Nodup

/-- The loop appends live entries until there are as many as the limit. -/
theorem htSliceLoop_entries {limit n : UInt64} (within : n ≤ limit)
    {res : OrderedTable Bytes ν} {arData : List (Option (Bytes × ν))}
    (distinct : ((res.entries ++ live arData).map Prod.fst).Nodup) :
    (htSliceLoop limit n res arData).entries =
      res.entries ++ (live arData).take (limit.toNat - n.toNat) := by
  induction arData generalizing n res with
  | nil => simp [htSliceLoop, live]
  | cons slot rest ih =>
    cases slot with
    | none => exact ih within distinct
    | some entry =>
      obtain ⟨key, value⟩ := entry
      have first : live (some (key, value) :: rest) = (key, value) :: live rest := rfl
      rw [first] at distinct ⊢
      have bound := UInt64.le_iff_toNat_le.mp within
      unfold htSliceLoop
      by_cases reached : n ≥ limit
      · have done : limit.toNat - n.toNat = 0 := by
          have back := UInt64.le_iff_toNat_le.mp reached
          omega
        rw [if_pos reached, done, List.take_zero, List.append_nil]
      · have below : n.toNat < limit.toNat := by
          have least := mt UInt64.le_iff_toNat_le.mpr reached
          omega
        have next : (n + 1).toNat = n.toNat + 1 := by
          have high := limit.toNat_lt
          rw [UInt64.toNat_add]
          simp only [UInt64.toNat_one]
          omega
        have absent : key ∉ res.keys := by
          rw [List.map_append, List.nodup_append] at distinct
          intro present
          exact distinct.2.2 key present key (by simp) rfl
        have added : (res.add key value).entries = res.entries ++ [(key, value)] :=
          res.entries_add absent
        have room : n + 1 ≤ limit := by
          apply UInt64.le_iff_toNat_le.mpr
          omega
        have counted : limit.toNat - n.toNat = limit.toNat - (n + 1).toNat + 1 := by omega
        rw [if_neg reached, ih room (by simpa [added] using distinct), added, counted,
          List.take_succ_cons, List.append_assoc, List.singleton_append]

/-- `zend_hash_init` returns for this size. -/
def Creatable (limit : UInt64) : Prop := limit.toUInt32 ≤ htMaxSize

instance : Decidable (Creatable limit) := inferInstanceAs (Decidable (_ ≤ _))

theorem htSlice_of_creatable {limit : UInt64} (creatable : Creatable limit)
    (ht : HashSlots ν) :
    ∃ res, htSlice ht.arData limit = some res ∧
      res.entries = (live ht.arData).take limit.toNat := by
  have size : (zendHashInit limit : Option (OrderedTable Bytes ν)) = some .empty :=
    if_neg (UInt32.not_lt.mpr creatable)
  refine ⟨htSliceLoop limit 0 .empty ht.arData, by rw [htSlice, size, Option.map_some], ?_⟩
  exact htSliceLoop_entries (UInt64.zero_le) ht.distinct

theorem creatable_of_htSlice {limit : UInt64} {arData : List (Option (Bytes × ν))}
    {res : OrderedTable Bytes ν} (sliced : htSlice arData limit = some res) :
    Creatable limit := by
  apply Classical.byContradiction
  intro refused
  have size : (zendHashInit limit : Option (OrderedTable Bytes ν)) = none :=
    if_pos (UInt32.not_le.mp refused)
  rw [htSlice, size] at sliced
  cases sliced

/-- The slice is the first live entries, or there is no slice at all when the
low half of the limit is too large for a table. -/
theorem ht_slice_iff (ht : HashSlots ν) (limit : UInt64) :
    (∃ res, htSlice ht.arData limit = some res ∧
        res.entries = (live ht.arData).take limit.toNat) ↔ Creatable limit := by
  constructor
  · rintro ⟨res, sliced, -⟩
    exact creatable_of_htSlice sliced
  · exact fun creatable => htSlice_of_creatable creatable ht

/-- Two live entries around a deleted slot. -/
def holedSlots : HashSlots ProfFuncUnit where
  arData := [some (ascii "f", ⟨2, 1, 0, 1⟩), none, some (ascii "g", ⟨1, 1, 0, 1⟩)]
  distinct := by decide

/-- A limit of `0xffffffff` is a valid setting, but no valid size. -/
theorem large_limit_is_refused :
    ¬ ∀ (ht : HashSlots ProfFuncUnit) (limit : UInt64), 1 ≤ limit.toNat → limit.toNat < 2 ^ 63 →
      ∃ res, htSlice ht.arData limit = some res ∧
        res.entries = (live ht.arData).take limit.toNat := by
  intro always
  obtain ⟨res, sliced, -⟩ := always holedSlots 0xffffffff (by decide) (by decide)
  cases sliced

/-! ## The two reports -/

/-- What `zend_hash_sort` promises for a consistent comparator. -/
def SortsByComparator (engine : Engine) : Prop :=
  ∀ {ν : Type} (compare : Compare ν) (table : OrderedTable Bytes ν), Consistent compare →
    (engine.zendHashSort compare table).entries.Perm table.entries ∧
      (engine.zendHashSort compare table).entries.Pairwise fun first second =>
        compare first second ≤ 0

theorem php_sorts : SortsByComparator php := by
  intro ν compare table consistent
  refine ⟨List.mergeSort_perm .., ?_⟩
  have sorted : (table.entries.mergeSort fun first second =>
      decide (compare first second ≤ 0)).Pairwise fun first second =>
        decide (compare first second ≤ 0) = true := by
    apply List.pairwise_mergeSort
    · intro first second third early late
      simp only [decide_eq_true_eq] at early late ⊢
      exact consistent.trans first second third early late
    · intro first second
      simpa using consistent.total first second
  exact sorted.imp fun {first second} ordered => of_decide_eq_true ordered

def samplingScore (entry : Bytes × ProfSamplingUnit) : Nat := entry.2.hits.toNat

def funcScore (entry : Bytes × ProfFuncUnit) : ℚ := entry.2.wallTime

theorem compareSamplingUnits_iff (first second : Bytes × ProfSamplingUnit) :
    profCompareSamplingUnits first second ≤ 0 ↔ samplingScore second ≤ samplingScore first := by
  unfold profCompareSamplingUnits samplingScore
  by_cases same : first.2.hits = second.2.hits
  · simp [same]
  · have differ := mt UInt64.toNat_inj.mp same
    by_cases more : first.2.hits > second.2.hits
    · have bound := UInt64.lt_iff_toNat_lt.mp more
      simp only [if_neg same, if_pos more]
      omega
    · have bound := mt UInt64.lt_iff_toNat_lt.mpr more
      simp only [if_neg same, if_neg more]
      omega

theorem compareSamplingUnits_consistent : Consistent profCompareSamplingUnits := by
  apply consistent_of_score samplingScore
  · intro first second
    unfold profCompareSamplingUnits
    by_cases same : first.2.hits = second.2.hits
    · simp [same]
    · by_cases more : first.2.hits > second.2.hits
      · simp [same, Ne.symm same, more, UInt64.not_lt.mpr (UInt64.le_of_lt more)]
      · have less : second.2.hits > first.2.hits :=
          UInt64.lt_of_le_of_ne (UInt64.not_lt.mp more) same
        simp [same, Ne.symm same, more, less]
  · exact compareSamplingUnits_iff

theorem zendNormalizeBool_nonneg (n : ℚ) : 0 ≤ zendNormalizeBool n ↔ 0 ≤ n := by
  unfold zendNormalizeBool
  rcases lt_trichotomy n 0 with negative | rfl | positive
  · simp [negative, not_lt.mpr negative.le]
  · decide
  · simp [positive, positive.le]

theorem zendNormalizeBool_neg (n : ℚ) : zendNormalizeBool (-n) = -zendNormalizeBool n := by
  unfold zendNormalizeBool
  rcases lt_trichotomy n 0 with negative | rfl | positive
  · simp [negative, not_lt.mpr negative.le]
  · rfl
  · simp [positive, not_lt.mpr positive.le]

theorem compareFuncUnits_iff (first second : Bytes × ProfFuncUnit) :
    profCompareFuncUnits first second ≤ 0 ↔ funcScore second ≤ funcScore first := by
  unfold profCompareFuncUnits funcScore
  rw [neg_nonpos, zendNormalizeBool_nonneg, sub_nonneg]

theorem compareFuncUnits_consistent : Consistent profCompareFuncUnits := by
  apply consistent_of_score funcScore
  · intro first second
    unfold profCompareFuncUnits
    rw [neg_neg, ← zendNormalizeBool_neg, neg_sub]
  · exact compareFuncUnits_iff

/-- A table has no holes once it is sorted. -/
theorem live_sorted (entries : List (Bytes × ν)) : live (entries.map some) = entries := by
  rw [live, List.filterMap_map]
  exact List.filterMap_some

/-- A table without deleted slots is cut after as many entries as the limit says. -/
theorem htSlice_entries {limit : UInt64} (creatable : Creatable limit)
    (table : OrderedTable Bytes ν) :
    ∃ res, htSlice (table.entries.map some) limit = some res ∧
      res.entries = table.entries.take limit.toNat := by
  have slots := live_sorted table.entries
  obtain ⟨res, sliced, entries⟩ := htSlice_of_creatable creatable
    ⟨table.entries.map some, slots.symm ▸ table.distinct⟩
  exact ⟨res, sliced, entries.trans (by rw [slots])⟩

/-- Dropping the low scores while rows are made shows the rows of the others. -/
theorem rows_above {α ρ β : Type} [LinearOrder β] (score : α → β) (threshold : β) (row : α → ρ)
    (items : List α) :
    (items.filterMap fun item => if score item ≤ threshold then none else some (row item)) =
      (items.filter fun item => threshold < score item).map row := by
  induction items with
  | nil => rfl
  | cons item rest ih =>
    by_cases low : score item ≤ threshold
    · simp [low, not_lt.mpr low, ih]
    · simp [low, not_le.mp low, ih]

/-- What both reports do before they print: sort, cut, and drop the low scores. -/
theorem sliced_sorted {engine : Engine} (sorts : SortsByComparator engine) {compare : Compare ν}
    (consistent : Consistent compare) {β : Type} [LinearOrder β] {score : Bytes × ν → β}
    (byScore : ∀ first second, compare first second ≤ 0 ↔ score second ≤ score first)
    (table : OrderedTable Bytes ν) {limit : UInt64} (creatable : Creatable limit)
    (threshold : β) :
    ∃ res, htSlice ((engine.zendHashSort compare table).entries.map some) limit = some res ∧
      ShowsTop score threshold limit.toNat table.entries
        (res.entries.filter fun entry => threshold < score entry) := by
  obtain ⟨res, sliced, entries⟩ := htSlice_entries creatable (engine.zendHashSort compare table)
  obtain ⟨perm, sorted⟩ := sorts compare table consistent
  refine ⟨res, sliced, ?_⟩
  rw [entries]
  apply showsTop_of_sorted
  · exact table.distinct.of_map _
  · exact perm
  · exact sorted.imp fun {first second} => (byScore first second).mp

/-- A row of the sampling report, whatever the threshold. -/
def samplingRow (entry : Bytes × ProfSamplingUnit) : SamplingRow :=
  ⟨cString entry.1, entry.2.hits.toInt64⟩

def funcRow (entry : Bytes × ProfFuncUnit) : FuncRow where
  function := cString entry.1
  wall := entry.2.wallTime
  cpu := entry.2.cpuTime
  memory := entry.2.memory
  calls := entry.2.calls.toInt32

theorem samplingRows_eq (threshold : UInt64) (entries : List (Bytes × ProfSamplingUnit)) :
    (entries.filterMap fun entry =>
        if entry.2.hits ≤ threshold then none else some (samplingRow entry)) =
      (entries.filter fun entry => threshold.toNat < samplingScore entry).map samplingRow := by
  rw [← rows_above samplingScore threshold.toNat samplingRow entries]
  refine List.filterMap_congr fun entry _ => ?_
  exact if_congr UInt64.le_iff_toNat_le rfl rfl

/-- The hits of all units together. -/
def allHits (units : OrderedTable Bytes ProfSamplingUnit) : Nat :=
  (units.entries.map samplingScore).sum

theorem totalSamples_toNat {units : OrderedTable Bytes ProfSamplingUnit}
    (fits : allHits units < 2 ^ 64) : (totalSamples units).toNat = allHits units := by
  have counted : ∀ (entries : List (Bytes × ProfSamplingUnit)) (total : UInt64),
      (entries.foldl (fun total entry => total + entry.2.hits) total).toNat =
        (total.toNat + (entries.map samplingScore).sum) % 2 ^ 64 := by
    intro entries
    induction entries with
    | nil => exact fun total => (Nat.mod_eq_of_lt total.toNat_lt).symm
    | cons entry rest ih =>
      intro total
      rw [List.foldl_cons, ih, UInt64.toNat_add, List.map_cons, List.sum_cons, samplingScore]
      omega
  rw [totalSamples, counted, UInt64.toNat_zero, Nat.zero_add]
  exact Nat.mod_eq_of_lt fits

/-- Without a total there is nothing to show. -/
theorem showsTop_of_no_hits {units : OrderedTable Bytes ProfSamplingUnit}
    (silent : allHits units = 0) (threshold limit : Nat) :
    ShowsTop samplingScore threshold limit units.entries [] := by
  have none : units.entries.filter (fun entry => threshold < samplingScore entry) = [] := by
    apply List.filter_eq_nil_iff.mpr
    intro entry member
    have zero : samplingScore entry = 0 :=
      List.sum_eq_zero_iff_forall_eq_nat.mp silent _ (List.mem_map_of_mem member)
    simp [zero]
  have nodup : units.entries.Nodup := units.distinct.of_map _
  have ranked : [].Perm (units.entries.filter fun entry => threshold < samplingScore entry) := by
    rw [none]
  have top := showsTop_take nodup ranked List.Pairwise.nil limit
  rwa [List.take_nil] at top

theorem sampling_console_shows_top {engine : Engine} (sorts : SortsByComparator engine)
    {globals : ProfGlobals} (fits : allHits globals.samplingUnits < 2 ^ 64)
    (creatable : Creatable globals.config.samplingLimit) :
    ∃ after console shown, profSamplingPrintResultConsole engine globals = some (after, console) ∧
      ShowsTop samplingScore globals.config.samplingThreshold.toNat
        globals.config.samplingLimit.toNat globals.samplingUnits.entries shown ∧
      console.table.getD [] = shown.map samplingRow := by
  by_cases silent : totalSamples globals.samplingUnits = 0
  · have noHits : allHits globals.samplingUnits = 0 := by
      rw [← totalSamples_toNat fits, silent, UInt64.toNat_zero]
    have printed : profSamplingPrintResultConsole engine globals =
        some (globals, ⟨(totalSamples globals.samplingUnits).toInt64, none⟩) := if_pos silent
    exact ⟨_, _, [], printed, showsTop_of_no_hits noHits _ _, rfl⟩
  · obtain ⟨res, sliced, top⟩ := sliced_sorted sorts compareSamplingUnits_consistent
      compareSamplingUnits_iff globals.samplingUnits creatable
      globals.config.samplingThreshold.toNat
    have printed : ∃ after, profSamplingPrintResultConsole engine globals =
        some (after, ⟨(totalSamples globals.samplingUnits).toInt64,
          some (res.entries.filterMap fun entry =>
            if entry.2.hits ≤ globals.config.samplingThreshold then none
            else some (samplingRow entry))⟩) := by
      rw [profSamplingPrintResultConsole]
      simp only [if_neg silent, sliced, Option.map_some]
      exact ⟨_, rfl⟩
    obtain ⟨after, printed⟩ := printed
    exact ⟨after, _, _, printed, top, samplingRows_eq _ res.entries⟩

theorem func_report_shows_top {engine : Engine} (sorts : SortsByComparator engine)
    {globals : ProfGlobals} (creatable : Creatable globals.config.funcLimit) :
    ∃ after rows shown, profFuncPrintResult engine globals = some (after, rows) ∧
      ShowsTop funcScore globals.config.funcThreshold globals.config.funcLimit.toNat
        globals.funcUnits.entries shown ∧
      rows = shown.map funcRow := by
  obtain ⟨res, sliced, top⟩ := sliced_sorted sorts compareFuncUnits_consistent
    compareFuncUnits_iff globals.funcUnits creatable globals.config.funcThreshold
  have printed : ∃ after, profFuncPrintResult engine globals =
      some (after, res.entries.filterMap fun entry =>
        if funcScore entry ≤ globals.config.funcThreshold then none
        else some (funcRow entry)) := by
    rw [profFuncPrintResult, sliced, Option.map_some]
    exact ⟨_, rfl⟩
  obtain ⟨after, printed⟩ := printed
  exact ⟨after, _, _, printed, top, rows_above funcScore _ funcRow res.entries⟩

/-- Whenever the table for the cut can be created, both console reports print
the rows of the units above the threshold that come first in a descending
order of hits or wall time, and at most as many as the limit. -/
theorem console_reports_show_top (engine : Engine) (sorts : SortsByComparator engine)
    (globals : ProfGlobals) :
    Consistent profCompareSamplingUnits ∧ Consistent profCompareFuncUnits ∧
      (allHits globals.samplingUnits < 2 ^ 64 → Creatable globals.config.samplingLimit →
        ∃ after console shown,
          profSamplingPrintResultConsole engine globals = some (after, console) ∧
          ShowsTop samplingScore globals.config.samplingThreshold.toNat
            globals.config.samplingLimit.toNat globals.samplingUnits.entries shown ∧
          console.table.getD [] = shown.map samplingRow) ∧
      (Creatable globals.config.funcLimit →
        ∃ after rows shown, profFuncPrintResult engine globals = some (after, rows) ∧
          ShowsTop funcScore globals.config.funcThreshold globals.config.funcLimit.toNat
            globals.funcUnits.entries shown ∧
          rows = shown.map funcRow) :=
  ⟨compareSamplingUnits_consistent, compareFuncUnits_consistent,
    sampling_console_shows_top sorts, func_report_shows_top sorts⟩

/-- Tables of two units and of three, of which one is below the threshold, and room
for one row and for two. -/
def rankedGlobals : ProfGlobals :=
  { ProfGlobals.fresh ⟨.sampling, .console, 1000, 1, 1, 2, 1 / 1000, 0⟩ with
    samplingUnits := .add (.add .empty (ascii "f") ⟨2, ⟨1, ascii "a.php"⟩, 3⟩)
      (ascii "g") ⟨7, ⟨1, ascii "a.php"⟩, 9⟩
    funcUnits := .add (.add (.add .empty (ascii "f") ⟨1 / 500, 1 / 1000, 64, 3⟩)
      (ascii "g") ⟨1 / 2000, 1 / 4000, 0, 1⟩) (ascii "h") ⟨1 / 100, 1 / 200, -32, 2⟩ }

theorem highest_units_are_shown :
    (∃ after console shown,
      profSamplingPrintResultConsole php rankedGlobals = some (after, console) ∧
      ShowsTop samplingScore 1 1 rankedGlobals.samplingUnits.entries shown ∧
      console.table.getD [] = shown.map samplingRow) ∧
    ∃ after rows shown, profFuncPrintResult php rankedGlobals = some (after, rows) ∧
      ShowsTop funcScore (1 / 1000) 2 rankedGlobals.funcUnits.entries shown ∧
      rows = shown.map funcRow := by
  obtain ⟨-, -, console, func⟩ := console_reports_show_top php php_sorts rankedGlobals
  exact ⟨console (by decide) (by decide), func (by decide)⟩

end PhpProf.ReportProofs
