import Mathlib.Data.Multiset.AddSub
import Mathlib.Data.Multiset.MapFold
import PhpProf.Heap

/-! What a heap holds, as a sum of parts. A part lists the cells it owns, or the
references it has to shared cells, with their values; what is done to one part
leaves the others as they are. -/
namespace PhpProf

universe u

namespace Heap

variable {ν : Type u}

/-! ## Cells with one owner -/

/-- These cells are the live ones, and each holds its value. All others have been
freed once. -/
structure Holds (heap : Heap ν) (cells : Multiset (Nat × ν)) : Prop where
  owns : ∃ owned : List Nat, ↑owned = cells.map Prod.fst ∧ heap.Owns owned
  stored : ∀ cell ∈ cells, heap.cells cell.1 = some cell.2

variable {heap : Heap ν} {addr : Nat} {value : ν} {rest : Multiset (Nat × ν)}

theorem Holds.read {cells : Multiset (Nat × ν)} (holds : heap.Holds cells)
    (member : (addr, value) ∈ cells) : heap.cells addr = some value :=
  holds.stored _ member

theorem Holds.owns_first (holds : heap.Holds ({(addr, value)} + rest)) :
    ∃ owned : List Nat, ↑owned = rest.map Prod.fst ∧ heap.Owns (addr :: owned) := by
  obtain ⟨owned, same, owns⟩ := holds.owns
  obtain ⟨others, listed⟩ := Quot.exists_rep (rest.map Prod.fst)
  refine ⟨others, listed, owns.perm ?_⟩
  rw [← Multiset.coe_eq_coe, same, Multiset.map_add, Multiset.map_singleton, ← listed]
  rfl

theorem holds_empty : (empty : Heap ν).Holds 0 where
  owns := ⟨[], rfl, Released.owns fun addr below => absurd below (Nat.not_lt_zero addr)⟩
  stored := by simp

theorem Holds.alloc (holds : heap.Holds rest) (value : ν) :
    (heap.alloc value).Holds ({(heap.next, value)} + rest) := by
  obtain ⟨owned, same, owns⟩ := holds.owns
  refine ⟨⟨heap.next :: owned, ?_, owns.alloc_first value⟩, ?_⟩
  · rw [Multiset.map_add, ← same]
    rfl
  · intro cell member
    rcases Multiset.mem_add.mp member with new | old
    · rw [Multiset.mem_singleton.mp new]
      exact Function.update_self _ _ _
    · have listed : cell.1 ∈ owned := by
        rw [← Multiset.mem_coe, same]
        exact Multiset.mem_map_of_mem _ old
      rw [owns.cells_alloc value _ listed]
      exact holds.stored cell old

theorem Holds.modify (holds : heap.Holds ({(addr, value)} + rest)) (change : ν → ν) :
    (heap.modify addr change).Holds ({(addr, change value)} + rest) := by
  obtain ⟨owned, same, owns⟩ := holds.owns_first
  refine ⟨⟨addr :: owned, ?_, owns.modify addr change⟩, ?_⟩
  · rw [Multiset.map_add, ← same]
    rfl
  · intro cell member
    rcases Multiset.mem_add.mp member with changed | old
    · have before := holds.read (Multiset.mem_add.mpr (.inl (Multiset.mem_singleton_self _)))
      rw [Multiset.mem_singleton.mp changed]
      simp [Heap.modify, before]
    · have listed : cell.1 ∈ owned := by
        rw [← Multiset.mem_coe, same]
        exact Multiset.mem_map_of_mem _ old
      rw [owns.cells_modify change _ listed]
      exact holds.stored cell (Multiset.mem_add.mpr (.inr old))

theorem Holds.free (holds : heap.Holds ({(addr, value)} + rest)) :
    (heap.free addr).Holds rest := by
  obtain ⟨owned, same, owns⟩ := holds.owns_first
  refine ⟨⟨owned, same, owns.free⟩, fun cell member => ?_⟩
  have listed : cell.1 ∈ owned := by
    rw [← Multiset.mem_coe, same]
    exact Multiset.mem_map_of_mem _ member
  rw [owns.cells_free _ listed]
  exact holds.stored cell (Multiset.mem_add.mpr (.inr member))

end Heap

/-! ## Cells with counted references -/

/-- A value with the number of references to it. -/
structure Shared (ν : Type u) where
  count : Nat
  value : ν

namespace Heap

variable {ν : Type u}

/-- A new value with one reference to it. -/
def share (heap : Heap (Shared ν)) (value : ν) : Heap (Shared ν) := heap.alloc ⟨1, value⟩

/-- Take one more reference. -/
def take (heap : Heap (Shared ν)) (addr : Nat) : Heap (Shared ν) :=
  heap.modify addr fun shared => { shared with count := shared.count + 1 }

/-- Give a reference back. The last one frees the cell. -/
def release (heap : Heap (Shared ν)) (addr : Nat) : Heap (Shared ν) :=
  match heap.cells addr with
  | some ⟨_ + 2, _⟩ =>
    heap.modify addr fun shared => { shared with count := shared.count - 1 }
  | _ => heap.free addr

/-- How many of the references lead to an address. -/
def countAt (references : Multiset (Nat × ν)) (addr : Nat) : Nat :=
  (references.map Prod.fst).count addr

/-- Each live cell counts the references that are listed, and these see its value.
Cells without a reference have been freed once. -/
structure Shares (heap : Heap (Shared ν)) (references : Multiset (Nat × ν)) : Prop where
  allocated : ∀ reference ∈ references, reference.1 < heap.next
  counted : ∀ addr < heap.next, (heap.cells addr).map Shared.count =
    if countAt references addr = 0 then none else some (countAt references addr)
  freed : ∀ addr < heap.next, heap.frees addr = if countAt references addr = 0 then 1 else 0
  seen : ∀ reference ∈ references,
    (heap.cells reference.1).map Shared.value = some reference.2

variable {heap : Heap (Shared ν)} {addr : Nat} {value : ν} {rest : Multiset (Nat × ν)}

theorem countAt_first :
    countAt ({(addr, value)} + rest) addr = countAt rest addr + 1 := by
  simp [countAt]

theorem countAt_other {other : Nat} (apart : other ≠ addr) :
    countAt ({(addr, value)} + rest) other = countAt rest other := by
  rw [countAt, Multiset.map_add, Multiset.count_add, Multiset.map_singleton,
    Multiset.count_singleton, if_neg apart, Nat.zero_add]
  rfl

theorem countAt_pos (member : (addr, value) ∈ rest) : 0 < countAt rest addr :=
  Multiset.count_pos.mpr (Multiset.mem_map_of_mem Prod.fst member)

theorem mem_first {reference : Nat × ν} (member : reference ∈ {(addr, value)} + rest) :
    reference = (addr, value) ∨ reference ∈ rest :=
  (Multiset.mem_add.mp member).imp_left Multiset.mem_singleton.mp

theorem shares_empty : (empty : Heap (Shared ν)).Shares 0 where
  allocated := by simp
  counted := fun addr below => absurd below (Nat.not_lt_zero addr)
  freed := fun addr below => absurd below (Nat.not_lt_zero addr)
  seen := by simp

/-- A reference leads to a live cell with its value. -/
theorem Shares.read {references : Multiset (Nat × ν)} (shares : heap.Shares references)
    (member : (addr, value) ∈ references) :
    heap.cells addr = some ⟨countAt references addr, value⟩ := by
  have some_listed := countAt_pos member
  have counted := shares.counted addr (shares.allocated _ member)
  rw [if_neg (by omega), Option.map_eq_some_iff] at counted
  obtain ⟨⟨count, held⟩, found, counts⟩ := counted
  have seen := shares.seen _ member
  simp only [found, Option.map_some, Option.some.injEq] at seen counts
  rw [found, seen, counts]

theorem Shares.share (shares : heap.Shares rest) (value : ν) :
    (heap.share value).Shares ({(heap.next, value)} + rest) := by
  have old : ∀ reference ∈ rest, reference.1 ≠ heap.next := fun reference member same =>
    absurd (shares.allocated _ member) (by omega)
  have fresh : countAt rest heap.next = 0 := by
    apply Multiset.count_eq_zero.mpr
    intro member
    obtain ⟨reference, listed, same⟩ := Multiset.mem_map.mp member
    exact old reference listed same
  refine ⟨?_, ?_, ?_, ?_⟩
  · intro reference member
    show reference.1 < heap.next + 1
    rcases mem_first member with rfl | before
    · exact Nat.lt_succ_self _
    · have below := shares.allocated _ before
      omega
  · intro other below
    by_cases new : other = heap.next
    · rw [new, countAt_first, fresh]
      simp [Heap.share, Heap.alloc]
    · have bound : other < heap.next + 1 := below
      rw [countAt_other new, ← shares.counted other (by omega)]
      simp [Heap.share, Heap.alloc, new]
  · intro other below
    by_cases new : other = heap.next
    · rw [new, countAt_first, fresh]
      simp [Heap.share, Heap.alloc]
    · have bound : other < heap.next + 1 := below
      rw [countAt_other new, ← shares.freed other (by omega)]
      simp [Heap.share, Heap.alloc, new]
  · intro reference member
    rcases mem_first member with rfl | before
    · simp [Heap.share, Heap.alloc]
    · rw [← shares.seen _ before]
      simp [Heap.share, Heap.alloc, old _ before]

/-- What has a reference may be given another. -/
theorem Shares.take (shares : heap.Shares rest) (member : (addr, value) ∈ rest) :
    (heap.take addr).Shares ({(addr, value)} + rest) := by
  have found := shares.read member
  have some_listed := countAt_pos member
  refine ⟨?_, ?_, ?_, ?_⟩
  · intro reference added
    rcases mem_first added with rfl | before
    · exact shares.allocated _ member
    · exact shares.allocated _ before
  · intro other below
    by_cases same : other = addr
    · rw [same, countAt_first]
      simp [Heap.take, Heap.modify, found]
    · rw [countAt_other same, ← shares.counted other below]
      simp [Heap.take, Heap.modify, same]
  · intro other below
    have before := shares.freed other below
    by_cases same : other = addr
    · subst same
      rw [countAt_first, if_neg (by omega)]
      rw [if_neg (by omega)] at before
      exact before
    · rw [countAt_other same, ← before]
      rfl
  · intro reference added
    by_cases same : reference.1 = addr
    · rcases mem_first added with rfl | before
      · simp [Heap.take, Heap.modify, found]
      · rw [← shares.seen _ before, same]
        simp [Heap.take, Heap.modify, found]
    · rcases mem_first added with rfl | before
      · exact absurd rfl same
      · rw [← shares.seen _ before]
        simp [Heap.take, Heap.modify, same]

/-- The last reference goes, and the cell with it. -/
theorem Shares.release_last (shares : heap.Shares ({(addr, value)} + rest))
    (last : countAt rest addr = 0) : (heap.free addr).Shares rest := by
  have others : ∀ reference ∈ rest, reference ∈ {(addr, value)} + rest := fun _ member =>
    Multiset.mem_add.mpr (.inr member)
  refine ⟨fun reference member => shares.allocated _ (others _ member), ?_, ?_, ?_⟩
  · intro other below
    by_cases same : other = addr
    · subst same
      simp [Heap.free, last]
    · have counted := shares.counted other below
      rw [countAt_other same] at counted
      rw [← counted]
      simp [Heap.free, same]
  · intro other below
    have before := shares.freed other below
    by_cases same : other = addr
    · subst same
      rw [countAt_first, if_neg (by omega)] at before
      simp [Heap.free, last, before]
    · rw [countAt_other same] at before
      rw [← before]
      simp [Heap.free, same]
  · intro reference member
    have apart : reference.1 ≠ addr := by
      have some_left := countAt_pos (show (reference.1, reference.2) ∈ rest from member)
      intro same
      rw [same, last] at some_left
      omega
    rw [← shares.seen _ (others _ member)]
    simp [Heap.free, apart]

/-- One reference of several goes. -/
theorem Shares.release_one (shares : heap.Shares ({(addr, value)} + rest)) {count : Nat}
    (left : countAt rest addr = count + 1) :
    (heap.modify addr fun shared => { shared with count := shared.count - 1 }).Shares rest := by
  have found := shares.read (Multiset.mem_add.mpr (.inl (Multiset.mem_singleton_self _)))
  rw [countAt_first, left] at found
  have others : ∀ reference ∈ rest, reference ∈ {(addr, value)} + rest := fun _ member =>
    Multiset.mem_add.mpr (.inr member)
  refine ⟨fun reference member => shares.allocated _ (others _ member), ?_, ?_, ?_⟩
  · intro other below
    by_cases same : other = addr
    · subst same
      simp [Heap.modify, found, left]
    · have counted := shares.counted other below
      rw [countAt_other same] at counted
      rw [← counted]
      simp [Heap.modify, same]
  · intro other below
    have before := shares.freed other below
    by_cases same : other = addr
    · subst same
      rw [countAt_first, if_neg (by omega)] at before
      simp [Heap.modify, left, before]
    · rw [countAt_other same] at before
      rw [← before]
      rfl
  · intro reference member
    rw [← shares.seen _ (others _ member)]
    by_cases same : reference.1 = addr
    · simp [Heap.modify, same, found]
    · simp [Heap.modify, same]

/-- Whoever gives a reference back leaves those of the others as they are. -/
theorem Shares.release (shares : heap.Shares ({(addr, value)} + rest)) :
    (heap.release addr).Shares rest := by
  have found := shares.read (Multiset.mem_add.mpr (.inl (Multiset.mem_singleton_self _)))
  rw [countAt_first] at found
  cases left : countAt rest addr with
  | zero =>
    have freed : heap.release addr = heap.free addr := by
      simp only [Heap.release, found, left]
    rw [freed]
    exact shares.release_last left
  | succ count =>
    have counts : heap.release addr = heap.modify addr fun shared =>
        { shared with count := shared.count - 1 } := by
      simp only [Heap.release, found, left]
    rw [counts]
    exact shares.release_one left

end Heap

end PhpProf
