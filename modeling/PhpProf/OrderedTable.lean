import Mathlib.Algebra.BigOperators.Group.List.Lemmas
import Mathlib.Data.List.Dedup
import Mathlib.Data.List.Induction
import Mathlib.Data.List.Nodup
import Mathlib.Logic.Function.Basic
import Mathlib.Tactic.Abel

/-! Tables that remember the order in which their keys were first inserted.
Overwriting or changing a value keeps its position, so a table built by a run
of updates lists its keys by first occurrence, and what each key holds depends
only on the updates made under that key. -/
namespace PhpProf

universe u v w

/-- A finite table whose keys are pairwise different, oldest key first. -/
@[ext] structure OrderedTable (κ : Type u) (ν : Type v) where
  entries : List (κ × ν)
  distinct : (entries.map Prod.fst).Nodup
  deriving DecidableEq

namespace OrderedTable

variable {κ : Type u} {ν : Type v}

def empty : OrderedTable κ ν := ⟨[], List.nodup_nil⟩

def keys (table : OrderedTable κ ν) : List κ := table.entries.map Prod.fst

/-- Remove the entries whose value is not kept; the others stay in order. -/
def filter (table : OrderedTable κ ν) (keep : ν → Bool) : OrderedTable κ ν where
  entries := table.entries.filter fun entry => keep entry.2
  distinct := table.distinct.sublist (List.filter_sublist.map Prod.fst)

/-- Change every value; the keys stay as they are. -/
def mapValues {μ : Type w} (table : OrderedTable κ ν) (change : ν → μ) : OrderedTable κ μ where
  entries := table.entries.map fun entry => (entry.1, change entry.2)
  distinct := by
    rw [List.map_map]
    exact table.distinct

variable [DecidableEq κ]

def find? (table : OrderedTable κ ν) (key : κ) : Option ν := table.entries.lookup key

/-- Append an entry, unless the key is already there. -/
def add (table : OrderedTable κ ν) (key : κ) (value : ν) : OrderedTable κ ν :=
  if absent : key ∉ table.keys then
    { entries := table.entries ++ [(key, value)]
      distinct := by
        rw [List.map_append, List.nodup_append]
        refine ⟨table.distinct, by simp, ?_⟩
        rintro old held new fresh rfl
        simp only [List.map_cons, List.map_nil, List.mem_singleton] at fresh
        exact absent (fresh ▸ held) }
  else table

/-- Remove the entry of a key, if there is one. -/
def erase (table : OrderedTable κ ν) (key : κ) : OrderedTable κ ν where
  entries := table.entries.filter fun entry => entry.1 ≠ key
  distinct := table.distinct.sublist (List.filter_sublist.map Prod.fst)

/-- Change the value under one key in place; nothing happens without the key. -/
def modify (table : OrderedTable κ ν) (key : κ) (change : ν → ν) : OrderedTable κ ν where
  entries := table.entries.map fun entry =>
    if entry.1 = key then (entry.1, change entry.2) else entry
  distinct := by
    have same : (Prod.fst ∘ fun entry : κ × ν =>
        if entry.1 = key then (entry.1, change entry.2) else entry) = Prod.fst := by
      funext entry
      by_cases hit : entry.1 = key <;> simp [hit]
    rw [List.map_map, same]
    exact table.distinct

/-- Find the value under a key, start it from `fresh` when there is none, and
change it: the shape of every counter kept in a table. -/
def accumulate (table : OrderedTable κ ν) (key : κ) (fresh : ν) (change : ν → ν) :
    OrderedTable κ ν :=
  (table.add key fresh).modify key change

/-- Store a value under a key, over an older one if there is one. -/
def update (table : OrderedTable κ ν) (key : κ) (value : ν) : OrderedTable κ ν :=
  table.accumulate key value fun _ => value

/-! ## Lookup -/

omit [DecidableEq κ] in
@[simp] theorem keys_empty : (empty : OrderedTable κ ν).keys = [] := rfl

@[simp] theorem find?_empty (key : κ) : (empty : OrderedTable κ ν).find? key = none := rfl

private theorem lookup_cons_if (probe key : κ) (value : ν) (rest : List (κ × ν)) :
    ((key, value) :: rest).lookup probe =
      if probe = key then some value else rest.lookup probe := by
  by_cases same : probe = key
  · simp [same]
  · have miss : (probe == key) = false := beq_eq_false_iff_ne.mpr same
    simp [List.lookup_cons, miss, same]

private theorem lookup_iff_mem {entries : List (κ × ν)} (distinct : (entries.map Prod.fst).Nodup)
    {key : κ} {value : ν} : entries.lookup key = some value ↔ (key, value) ∈ entries := by
  induction entries with
  | nil => simp
  | cons entry rest ih =>
    obtain ⟨head, held⟩ := entry
    simp only [List.map_cons, List.nodup_cons] at distinct
    by_cases hit : key = head
    · subst hit
      have gone : (key, value) ∉ rest := fun member =>
        distinct.1 (List.mem_map.mpr ⟨_, member, rfl⟩)
      simp [gone, eq_comm]
    · simp [lookup_cons_if, hit, ih distinct.2]

theorem find?_eq_some_iff (table : OrderedTable κ ν) {key : κ} {value : ν} :
    table.find? key = some value ↔ (key, value) ∈ table.entries :=
  lookup_iff_mem table.distinct

theorem mem_keys_iff (table : OrderedTable κ ν) {key : κ} :
    key ∈ table.keys ↔ ∃ value, table.find? key = some value := by
  simp [keys, find?_eq_some_iff]

theorem find?_eq_none_iff (table : OrderedTable κ ν) {key : κ} :
    table.find? key = none ↔ key ∉ table.keys := by
  rw [mem_keys_iff, not_exists, Option.eq_none_iff_forall_ne_some]

/-- The entries are the keys with what is found under them. -/
theorem entries_eq (table : OrderedTable κ ν) :
    table.entries = table.keys.filterMap fun key => (table.find? key).map (key, ·) := by
  have found : ∀ entry ∈ table.entries,
      (table.find? entry.1).map (entry.1, ·) = some entry := by
    intro entry member
    rw [table.find?_eq_some_iff.mpr member, Option.map_some]
  rw [keys, List.filterMap_map]
  exact ((List.filterMap_congr found).trans List.filterMap_some).symm

theorem entries_add (table : OrderedTable κ ν) {key : κ} {value : ν} (absent : key ∉ table.keys) :
    (table.add key value).entries = table.entries ++ [(key, value)] := by
  simp [add, absent]

theorem add_of_mem (table : OrderedTable κ ν) {key : κ} {value : ν} (present : key ∈ table.keys) :
    table.add key value = table := by
  simp [add, present]

theorem find?_add (table : OrderedTable κ ν) (key probe : κ) (value : ν) :
    (table.add key value).find? probe =
      if probe = key then some ((table.find? key).getD value) else table.find? probe := by
  by_cases present : key ∈ table.keys
  · rw [add_of_mem table present]
    obtain ⟨held, found⟩ := table.mem_keys_iff.mp present
    split
    · next same => rw [same, found, Option.getD_some]
    · rfl
  · have missing := table.find?_eq_none_iff.mpr present
    simp only [find?, entries_add table present, List.lookup_append, lookup_cons_if] at missing ⊢
    by_cases same : probe = key
    · simp [same, missing]
    · simp [same]

theorem find?_modify (table : OrderedTable κ ν) (key probe : κ) (change : ν → ν) :
    (table.modify key change).find? probe =
      if probe = key then (table.find? key).map change else table.find? probe := by
  obtain ⟨entries, distinct⟩ := table
  simp only [find?, modify]
  clear distinct
  induction entries with
  | nil => simp
  | cons entry rest ih =>
    obtain ⟨head, held⟩ := entry
    by_cases atHead : head = key
    · subst atHead
      by_cases same : probe = head
      · simp [same]
      · simpa [lookup_cons_if, same] using ih
    · by_cases same : probe = head
      · simp [same, atHead]
      · simpa [lookup_cons_if, same, atHead, Ne.symm atHead] using ih

theorem keys_modify (table : OrderedTable κ ν) (key : κ) (change : ν → ν) :
    (table.modify key change).keys = table.keys := by
  simp only [keys, modify, List.map_map]
  apply List.map_congr_left
  intro entry _
  by_cases hit : entry.1 = key <;> simp [hit]

theorem keys_add (table : OrderedTable κ ν) (key : κ) (value : ν) :
    (table.add key value).keys =
      if key ∈ table.keys then table.keys else table.keys ++ [key] := by
  split
  · next present => rw [add_of_mem table present]
  · next absent => simp [keys, entries_add table absent]

theorem keys_accumulate (table : OrderedTable κ ν) (key : κ) (fresh : ν) (change : ν → ν) :
    (table.accumulate key fresh change).keys =
      if key ∈ table.keys then table.keys else table.keys ++ [key] := by
  rw [accumulate, keys_modify, keys_add]

theorem find?_accumulate (table : OrderedTable κ ν) (key probe : κ) (fresh : ν)
    (change : ν → ν) :
    (table.accumulate key fresh change).find? probe =
      if probe = key then some (change ((table.find? key).getD fresh))
      else table.find? probe := by
  rw [accumulate, find?_modify]
  by_cases same : probe = key
  · simp [same, find?_add]
  · simp [same, find?_add]

theorem find?_update (table : OrderedTable κ ν) (key probe : κ) (value : ν) :
    (table.update key value).find? probe =
      if probe = key then some value else table.find? probe :=
  find?_accumulate table key probe value _

/-! ## Tables of changed values -/

variable {μ : Type w}

omit [DecidableEq κ] in
theorem entries_mapValues (table : OrderedTable κ ν) (change : ν → μ) :
    (table.mapValues change).entries = table.entries.map fun entry => (entry.1, change entry.2) :=
  rfl

omit [DecidableEq κ] in
@[simp] theorem keys_mapValues (table : OrderedTable κ ν) (change : ν → μ) :
    (table.mapValues change).keys = table.keys := by
  rw [keys, mapValues, List.map_map]
  rfl

theorem find?_mapValues (table : OrderedTable κ ν) (change : ν → μ) (key : κ) :
    (table.mapValues change).find? key = (table.find? key).map change := by
  obtain ⟨entries, distinct⟩ := table
  simp only [find?, mapValues]
  clear distinct
  induction entries with
  | nil => rfl
  | cons entry rest ih =>
    obtain ⟨head, held⟩ := entry
    rw [List.map_cons, lookup_cons_if, lookup_cons_if, ih]
    split <;> rfl

theorem mapValues_add (table : OrderedTable κ ν) (change : ν → μ) (key : κ) (value : ν) :
    (table.add key value).mapValues change = (table.mapValues change).add key (change value) := by
  by_cases present : key ∈ table.keys
  · rw [add_of_mem table present, add_of_mem _ (by rwa [keys_mapValues])]
  · ext1
    rw [entries_add _ (by rwa [keys_mapValues]), entries_mapValues, entries_mapValues,
      entries_add table present, List.map_append, List.map_singleton]

theorem mapValues_modify (table : OrderedTable κ ν) {change : ν → μ} {before : ν → ν}
    {after : μ → μ} (commutes : ∀ value, change (before value) = after (change value)) (key : κ) :
    (table.modify key before).mapValues change = (table.mapValues change).modify key after := by
  ext1
  simp only [mapValues, modify, List.map_map]
  refine List.map_congr_left fun entry _ => ?_
  by_cases hit : entry.1 = key
  · simp [hit, commutes]
  · simp [hit]

omit [DecidableEq κ] in
theorem mapValues_congr (table : OrderedTable κ ν) {first second : ν → μ}
    (same : ∀ entry ∈ table.entries, first entry.2 = second entry.2) :
    table.mapValues first = table.mapValues second := by
  ext1
  exact List.map_congr_left fun entry member => by rw [same entry member]

/-- Changing what one value stands for changes the entry that holds it, when no
other entry does. -/
theorem mapValues_update [DecidableEq ν] (table : OrderedTable κ ν) {key : κ} {value : ν}
    (found : table.find? key = some value) (single : (table.entries.map Prod.snd).Nodup)
    (meaning : ν → μ) (after : μ → μ) :
    table.mapValues (Function.update meaning value (after (meaning value))) =
      (table.mapValues meaning).modify key after := by
  ext1
  simp only [mapValues, modify, List.map_map]
  refine List.map_congr_left fun entry member => ?_
  by_cases hit : entry.1 = key
  · have held : table.find? key = some entry.2 := by
      rw [find?_eq_some_iff, ← hit]
      exact member
    rw [found, Option.some.injEq] at held
    simp [hit, ← held]
  · have other : entry.2 ≠ value := by
      intro same
      have both := List.inj_on_of_nodup_map single member ((find?_eq_some_iff table).mp found) same
      exact hit (congrArg Prod.fst both)
    simp [hit, other]

/-! ## Tables built by a run of updates -/

variable {α : Type w}

/-- Run through items, accumulating each one under its own key. -/
def collect (key : α → κ) (fresh : α → ν) (change : ν → α → ν) (table : OrderedTable κ ν)
    (items : List α) : OrderedTable κ ν :=
  items.foldl (fun table item =>
    table.accumulate (key item) (fresh item) fun held => change held item) table

/-- What the items of one key leave under it: nothing without items, otherwise
all changes in order, from the start value the first item brings. -/
def gathered (fresh : α → ν) (change : ν → α → ν) : List α → Option ν
  | [] => none
  | first :: rest => some ((first :: rest).foldl change (fresh first))

omit [DecidableEq κ] in
theorem gathered_concat (fresh : α → ν) (change : ν → α → ν) (items : List α) (item : α) :
    gathered fresh change (items ++ [item]) =
      some (change ((gathered fresh change items).getD (fresh item)) item) := by
  cases items with
  | nil => rfl
  | cons first rest => simp [gathered]

omit [DecidableEq κ] in
private theorem eraseDups_concat [BEq κ] [LawfulBEq κ] (keys : List κ) (key : κ) :
    (keys ++ [key]).eraseDups =
      if key ∈ keys then keys.eraseDups else keys.eraseDups ++ [key] := by
  rw [List.eraseDups_append]
  by_cases present : key ∈ keys <;> simp [List.removeAll, List.eraseDups_cons, present]

theorem collect_concat (key : α → κ) (fresh : α → ν) (change : ν → α → ν)
    (table : OrderedTable κ ν) (items : List α) (item : α) :
    collect key fresh change table (items ++ [item]) =
      (collect key fresh change table items).accumulate (key item) (fresh item)
        fun held => change held item := by
  simp [collect]

/-- A collected table lists the keys of its items by first occurrence. -/
theorem keys_collect [BEq κ] [LawfulBEq κ] (key : α → κ) (fresh : α → ν)
    (change : ν → α → ν) (items : List α) :
    (collect key fresh change empty items).keys = (items.map key).eraseDups := by
  induction items using List.reverseRecOn with
  | nil => rfl
  | append_singleton items item ih =>
    rw [collect_concat, keys_accumulate, ih, List.map_append, List.map_singleton,
      eraseDups_concat]
    simp only [List.mem_eraseDups]

theorem nodup_eraseDups [BEq κ] [LawfulBEq κ] (keys : List κ) : keys.eraseDups.Nodup := by
  have listed := keys_collect (fun key : κ => key) (fun _ => ()) (fun held _ => held) keys
  rw [List.map_id'] at listed
  exact listed ▸ OrderedTable.distinct _

theorem length_filter_key (key : α → κ) (items : List α) (probe : κ) :
    (items.filter fun item => key item = probe).length = (items.map key).count probe := by
  rw [List.count, List.countP_map, List.countP_eq_length_filter]
  rfl

/-- Every item is counted under one key. -/
theorem sum_lengths [BEq κ] [LawfulBEq κ] (key : α → κ) (items : List α) :
    ((items.map key).eraseDups.map fun probe =>
      (items.filter fun item => key item = probe).length).sum = items.length := by
  have same : (items.map key).eraseDups.Perm (items.map key).dedup := by
    rw [List.perm_ext_iff_of_nodup (nodup_eraseDups _) (List.nodup_dedup _)]
    intro probe
    rw [List.mem_eraseDups, List.mem_dedup]
  simp only [length_filter_key]
  rw [(same.map _).sum_eq, List.sum_map_count_dedup_eq_length, List.length_map]

/-- What a collected table holds under a key depends only on that key's items. -/
theorem find?_collect (key : α → κ) (fresh : α → ν) (change : ν → α → ν) (items : List α)
    (probe : κ) :
    (collect key fresh change empty items).find? probe =
      gathered fresh change (items.filter fun item => key item = probe) := by
  induction items using List.reverseRecOn with
  | nil => rfl
  | append_singleton items item ih =>
    rw [collect_concat, find?_accumulate, List.filter_append]
    by_cases same : probe = key item
    · subst same
      rw [if_pos rfl, ih]
      simp [gathered_concat]
    · simp [same, Ne.symm same, ih]

/-! ## Sums over a table -/

variable {M : Type w} [AddCommGroup M]

omit [DecidableEq κ] in
/-- The sum of what each entry weighs. -/
def sumOf (weigh : κ → ν → M) (table : OrderedTable κ ν) : M :=
  (table.entries.map fun entry => weigh entry.1 entry.2).sum

private theorem sum_modified (weigh : κ → ν → M) (change : ν → ν) {entries : List (κ × ν)}
    (distinct : (entries.map Prod.fst).Nodup) {key : κ} {held : ν}
    (found : entries.lookup key = some held) :
    ((entries.map fun entry => if entry.1 = key then (entry.1, change entry.2) else entry).map
        fun entry => weigh entry.1 entry.2).sum =
      (entries.map fun entry => weigh entry.1 entry.2).sum - weigh key held +
        weigh key (change held) := by
  induction entries with
  | nil => simp at found
  | cons entry rest ih =>
    obtain ⟨head, value⟩ := entry
    simp only [List.map_cons, List.nodup_cons] at distinct
    rw [lookup_cons_if] at found
    by_cases hit : key = head
    · subst hit
      simp only [↓reduceIte, Option.some.injEq] at found
      subst found
      -- the key occurs nowhere else, so the rest of the entries stay as they are
      have others :
          rest.map (fun entry => if entry.1 = key then (entry.1, change entry.2) else entry) =
            rest := by
        refine (List.map_congr_left fun entry member => ?_).trans (List.map_id rest)
        have other : entry.1 ≠ key := fun same =>
          distinct.1 (List.mem_map.mpr ⟨entry, member, same⟩)
        simp [other]
      simp only [List.map_cons, ↓reduceIte, others, List.sum_cons]
      abel
    · simp only [hit, ↓reduceIte] at found
      simp only [List.map_cons, Ne.symm hit, ↓reduceIte, List.sum_cons, ih distinct.2 found]
      abel

/-- Accumulating under a key exchanges what that key weighed for its new weight. -/
theorem sumOf_accumulate (weigh : κ → ν → M) (table : OrderedTable κ ν) (key : κ) (fresh : ν)
    (change : ν → ν) :
    sumOf weigh (table.accumulate key fresh change) =
      sumOf weigh table - (table.find? key).elim 0 (weigh key) +
        weigh key (change ((table.find? key).getD fresh)) := by
  by_cases present : key ∈ table.keys
  · obtain ⟨held, found⟩ := table.mem_keys_iff.mp present
    rw [accumulate, add_of_mem table present, found]
    exact sum_modified weigh change table.distinct found
  · have missing := table.find?_eq_none_iff.mpr present
    have started : (table.add key fresh).find? key = some fresh := by simp [find?_add, missing]
    rw [accumulate, missing]
    refine (sum_modified weigh change (table.add key fresh).distinct started).trans ?_
    simp only [entries_add table present, List.map_append, List.map_cons, List.map_nil,
      List.sum_append, List.sum_singleton, sumOf, Option.elim_none, Option.getD_none]
    abel

theorem sumOf_update (weigh : κ → ν → M) (table : OrderedTable κ ν) (key : κ) (value : ν) :
    sumOf weigh (table.update key value) =
      sumOf weigh table - (table.find? key).elim 0 (weigh key) + weigh key value :=
  sumOf_accumulate weigh table key value _

end OrderedTable

end PhpProf
