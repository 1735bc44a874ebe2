import PhpProf.Heap
import PhpProf.OrderedTable

/-! Tables of pointers. A bucket holds a reference to its key and a pointer to a
block; what the table stores is what its pointers lead to. -/
namespace PhpProf

universe u v w

structure Bucket where
  key : Nat
  ptr : Nat
  deriving DecidableEq

namespace PointerTable
open OrderedTable

variable {κ : Type u} {ν : Type v} {β : Type w}

/-- The references to keys, one for each bucket. -/
def keyReferences (table : OrderedTable κ Bucket) : List Nat :=
  table.entries.map fun entry => entry.2.key

def pointers (table : OrderedTable κ Bucket) : List Nat :=
  table.entries.map fun entry => entry.2.ptr

@[simp] theorem keyReferences_empty :
    keyReferences (.empty : OrderedTable κ Bucket) = [] := rfl

@[simp] theorem pointers_empty : pointers (.empty : OrderedTable κ Bucket) = [] := rfl

/-- Read through its pointers, the table holds these values. -/
def Stores (cells : Nat → Option β) (wrap : ν → β) (table : OrderedTable κ Bucket)
    (values : OrderedTable κ ν) : Prop :=
  (table.mapValues fun bucket => cells bucket.ptr) = values.mapValues fun value => some (wrap value)

variable {cells after : Nat → Option β} {wrap : ν → β} {table : OrderedTable κ Bucket}
  {values : OrderedTable κ ν}

theorem stores_empty (cells : Nat → Option β) (wrap : ν → β) :
    Stores cells wrap (.empty : OrderedTable κ Bucket) .empty := rfl

/-- Only what the pointers of the table lead to matters. -/
theorem Stores.frame (stores : Stores cells wrap table values)
    (same : ∀ ptr ∈ pointers table, after ptr = cells ptr) : Stores after wrap table values := by
  rw [Stores, ← stores]
  refine mapValues_congr table fun entry member => same _ ?_
  exact List.mem_map.mpr ⟨entry, member, rfl⟩

/-- Every pointer of the table can be followed. -/
theorem Stores.follow (stores : Stores cells wrap table values) {ptr : Nat}
    (member : ptr ∈ pointers table) : ∃ value, cells ptr = some (wrap value) := by
  have listed : cells ptr ∈ values.entries.map fun entry => some (wrap entry.2) := by
    have same := congrArg (fun table => table.entries.map Prod.snd) stores
    simp only [mapValues, List.map_map, Function.comp_def] at same
    rw [← same]
    obtain ⟨entry, stored, rfl⟩ := List.mem_map.mp member
    exact List.mem_map.mpr ⟨entry, stored, rfl⟩
  obtain ⟨entry, -, held⟩ := List.mem_map.mp listed
  exact ⟨entry.2, held.symm⟩

variable [DecidableEq κ]

theorem pointers_add {key : κ} (missing : table.find? key = none) (bucket : Bucket) :
    pointers (table.add key bucket) = pointers table ++ [bucket.ptr] := by
  rw [pointers, entries_add table ((find?_eq_none_iff table).mp missing), List.map_append]
  rfl

theorem keyReferences_add {key : κ} (missing : table.find? key = none) (bucket : Bucket) :
    keyReferences (table.add key bucket) = keyReferences table ++ [bucket.key] := by
  rw [keyReferences, entries_add table ((find?_eq_none_iff table).mp missing), List.map_append]
  rfl

theorem mem_pointers {key : κ} {bucket : Bucket} (found : table.find? key = some bucket) :
    bucket.ptr ∈ pointers table :=
  List.mem_map.mpr ⟨(key, bucket), (find?_eq_some_iff table).mp found, rfl⟩

theorem Stores.find? (stores : Stores cells wrap table values) (key : κ) :
    (table.find? key).map (fun bucket => cells bucket.ptr) =
      (values.find? key).map fun value => some (wrap value) := by
  rw [← find?_mapValues, stores, find?_mapValues]

theorem Stores.missing (stores : Stores cells wrap table values) {key : κ}
    (missing : table.find? key = none) : values.find? key = none := by
  have same := stores.find? key
  rw [missing, Option.map_none, eq_comm, Option.map_eq_none_iff] at same
  exact same

/-- A pointer in the table leads to the value. -/
theorem Stores.read (stores : Stores cells wrap table values) {key : κ} {bucket : Bucket}
    (found : table.find? key = some bucket) :
    ∃ value, values.find? key = some value ∧ cells bucket.ptr = some (wrap value) := by
  have same := stores.find? key
  rw [found, Option.map_some, eq_comm, Option.map_eq_some_iff] at same
  obtain ⟨value, held, stored⟩ := same
  exact ⟨value, held, stored.symm⟩

/-- A pointer to the new value stands for it. -/
theorem Stores.add (stores : Stores cells wrap table values) (key : κ) {bucket : Bucket}
    {value : ν} (held : cells bucket.ptr = some (wrap value)) :
    Stores cells wrap (table.add key bucket) (values.add key value) := by
  rw [Stores, mapValues_add, mapValues_add, stores, held]

/-- A change through one pointer changes the value under its key and no other. -/
theorem Stores.modify (stores : Stores cells wrap table values)
    (single : (pointers table).Nodup) {key : κ} {bucket : Bucket}
    (found : table.find? key = some bucket) {change : β → β} {step : ν → ν}
    (does : ∀ value, change (wrap value) = wrap (step value)) :
    Stores (Function.update cells bucket.ptr ((cells bucket.ptr).map change)) wrap table
      (values.modify key step) := by
  have commutes : ∀ value, some (wrap (step value)) = (some (wrap value)).map change := by
    intro value
    rw [Option.map_some, does]
  rw [Stores, mapValues_modify values commutes, ← stores]
  ext1
  simp only [mapValues, OrderedTable.modify, List.map_map]
  refine List.map_congr_left fun entry member => ?_
  by_cases hit : entry.1 = key
  · have held : table.find? key = some entry.2 := by
      rw [find?_eq_some_iff, ← hit]
      exact member
    rw [found, Option.some.injEq] at held
    simp [hit, ← held]
  · have other : entry.2.ptr ≠ bucket.ptr := by
      intro same
      have both := List.inj_on_of_nodup_map single member ((find?_eq_some_iff table).mp found) same
      exact hit (congrArg Prod.fst both)
    simp [hit, other]

end PointerTable

end PhpProf
