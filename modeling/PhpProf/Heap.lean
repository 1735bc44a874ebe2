import Mathlib.Data.List.Nodup
import Mathlib.Logic.Function.Basic

/-! Cells that are allocated and freed, and counted references. The owners of the
live cells are listed: a cell is freed exactly once when it is on the list until
it is freed, and what is still listed at the end has leaked. -/
namespace PhpProf

universe u v

/-! ## Cells -/

/-- The cells allocated so far stand below `next`. A live one holds a value, and
every one knows how often it has been freed. -/
structure Heap (ν : Type u) where
  next : Nat
  cells : Nat → Option ν
  frees : Nat → Nat

namespace Heap

variable {ν : Type u}

def empty : Heap ν := ⟨0, fun _ => none, fun _ => 0⟩

/-- Allocate a cell, at the address `next`. -/
def alloc (heap : Heap ν) (value : ν) : Heap ν where
  next := heap.next + 1
  cells := Function.update heap.cells heap.next (some value)
  frees := Function.update heap.frees heap.next 0

/-- Change a live cell in place. -/
def modify (heap : Heap ν) (addr : Nat) (change : ν → ν) : Heap ν :=
  { heap with cells := Function.update heap.cells addr ((heap.cells addr).map change) }

/-- Free a cell, whether or not it is live. -/
def free (heap : Heap ν) (addr : Nat) : Heap ν :=
  { heap with
    cells := Function.update heap.cells addr none
    frees := Function.update heap.frees addr (heap.frees addr + 1) }

/-- Nothing is live, and everything has been freed exactly once. -/
def Released (heap : Heap ν) : Prop :=
  ∀ addr < heap.next, heap.cells addr = none ∧ heap.frees addr = 1

/-- The owned cells are the live ones, and the others have been freed once. -/
structure Owns (heap : Heap ν) (owned : List Nat) : Prop where
  once : owned.Nodup
  allocated : ∀ addr ∈ owned, addr < heap.next
  live : ∀ addr < heap.next, (heap.cells addr).isSome ↔ addr ∈ owned
  freed : ∀ addr < heap.next, heap.frees addr = if addr ∈ owned then 0 else 1

variable {heap : Heap ν} {owned : List Nat}

theorem Owns.perm (owns : heap.Owns owned) {other : List Nat} (same : owned.Perm other) :
    heap.Owns other where
  once := same.nodup_iff.mp owns.once
  allocated := fun addr member => owns.allocated addr (same.mem_iff.mpr member)
  live := fun addr below => (owns.live addr below).trans same.mem_iff
  freed := by
    intro addr below
    rw [owns.freed addr below]
    simp only [same.mem_iff]

theorem Owns.read (owns : heap.Owns owned) {addr : Nat} (member : addr ∈ owned) :
    ∃ value, heap.cells addr = some value :=
  Option.isSome_iff_exists.mp ((owns.live addr (owns.allocated addr member)).mpr member)

theorem Owns.alloc (owns : heap.Owns owned) (value : ν) :
    (heap.alloc value).Owns (owned ++ [heap.next]) where
  once := by
    have fresh : heap.next ∉ owned := fun member =>
      absurd (owns.allocated heap.next member) (Nat.lt_irrefl _)
    rw [List.nodup_append]
    refine ⟨owns.once, List.nodup_singleton _, ?_⟩
    rintro old held new added rfl
    exact fresh (List.mem_singleton.mp added ▸ held)
  allocated := by
    intro addr member
    show addr < heap.next + 1
    rcases List.mem_append.mp member with old | new
    · have below := owns.allocated addr old
      omega
    · rw [List.mem_singleton.mp new]
      omega
  live := by
    intro addr below
    by_cases new : addr = heap.next
    · simp [Heap.alloc, new]
    · have old : addr < heap.next := by
        have bound : addr < heap.next + 1 := below
        omega
      simp [Heap.alloc, new, owns.live addr old]
  freed := by
    intro addr below
    by_cases new : addr = heap.next
    · simp [Heap.alloc, new]
    · have old : addr < heap.next := by
        have bound : addr < heap.next + 1 := below
        omega
      simp [Heap.alloc, new, owns.freed addr old]

theorem Owns.modify (owns : heap.Owns owned) (addr : Nat) (change : ν → ν) :
    (heap.modify addr change).Owns owned where
  once := owns.once
  allocated := owns.allocated
  live := by
    intro other below
    rw [← owns.live other below]
    by_cases same : other = addr
    · subst same
      simp [Heap.modify]
    · simp [Heap.modify, same]
  freed := owns.freed

/-- An owner that frees its cell is no longer listed. -/
theorem Owns.free {addr : Nat} (owns : heap.Owns (addr :: owned)) :
    (heap.free addr).Owns owned := by
  obtain ⟨gone, once⟩ := List.nodup_cons.mp owns.once
  refine ⟨once, ?_, ?_, ?_⟩
  · exact fun other member => owns.allocated other (List.mem_cons_of_mem _ member)
  · intro other below
    by_cases same : other = addr
    · subst same
      simp [Heap.free, gone]
    · have kept := owns.live other below
      simpa [Heap.free, same] using kept
  · intro other below
    by_cases same : other = addr
    · subst same
      simp [Heap.free, gone, owns.freed other below]
    · have kept := owns.freed other below
      simpa [Heap.free, same] using kept

theorem Owns.fresh (owns : heap.Owns owned) : heap.next ∉ owned := fun member =>
  absurd (owns.allocated heap.next member) (Nat.lt_irrefl _)

/-- A new cell comes first, as the next to be freed. -/
theorem Owns.alloc_first (owns : heap.Owns owned) (value : ν) :
    (heap.alloc value).Owns (heap.next :: owned) :=
  (owns.alloc value).perm (List.perm_append_singleton heap.next owned)

theorem Owns.cells_alloc (owns : heap.Owns owned) (value : ν) :
    ∀ addr ∈ owned, (heap.alloc value).cells addr = heap.cells addr := by
  intro addr member
  have old : addr ≠ heap.next := fun same => owns.fresh (same ▸ member)
  exact Function.update_of_ne old _ _

/-- What happens to a cell by itself leaves the other owners' cells alone. -/
theorem Owns.cells_modify {addr : Nat} (owns : heap.Owns (addr :: owned)) (change : ν → ν) :
    ∀ other ∈ owned, (heap.modify addr change).cells other = heap.cells other := by
  intro other member
  have apart : other ≠ addr := fun same => (List.nodup_cons.mp owns.once).1 (same ▸ member)
  exact Function.update_of_ne apart _ _

theorem Owns.cells_free {addr : Nat} (owns : heap.Owns (addr :: owned)) :
    ∀ other ∈ owned, (heap.free addr).cells other = heap.cells other := by
  intro other member
  have apart : other ≠ addr := fun same => (List.nodup_cons.mp owns.once).1 (same ▸ member)
  exact Function.update_of_ne apart _ _

/-- Everything listed is freed, one cell after another. -/
theorem Owns.free_all {released : List Nat} (owns : heap.Owns (released ++ owned)) :
    (released.foldl Heap.free heap).Owns owned := by
  induction released generalizing heap with
  | nil => exact owns
  | cons addr rest ih => exact ih owns.free

theorem Owns.released_iff (owns : heap.Owns owned) : heap.Released ↔ owned = [] := by
  constructor
  · intro released
    refine List.eq_nil_iff_forall_not_mem.mpr fun addr member => ?_
    obtain ⟨value, found⟩ := owns.read member
    rw [(released addr (owns.allocated addr member)).1] at found
    cases found
  · rintro rfl addr below
    have dead := owns.live addr below
    have once := owns.freed addr below
    simpa using And.intro dead once

theorem Released.owns (released : heap.Released) : heap.Owns [] where
  once := List.nodup_nil
  allocated := by simp
  live := by
    intro addr below
    simp [(released addr below).1]
  freed := by
    intro addr below
    simp [(released addr below).2]

end Heap

/-! ## References -/

/-- How many references to each key have been taken and released. -/
structure References (κ : Type v) where
  taken : κ → Nat
  released : κ → Nat

namespace References

variable {κ : Type v} [DecidableEq κ]

def empty : References κ := ⟨fun _ => 0, fun _ => 0⟩

def take (references : References κ) (key : κ) : References κ :=
  { references with taken := Function.update references.taken key (references.taken key + 1) }

def release (references : References κ) (key : κ) : References κ :=
  { references with
    released := Function.update references.released key (references.released key + 1) }

/-- As many references have been released as have been taken. -/
def Balanced (references : References κ) : Prop :=
  ∀ key, references.taken key = references.released key

/-- The references that have been taken and not released, one for each entry. -/
def Held (references : References κ) (held : List κ) : Prop :=
  ∀ key, references.taken key = references.released key + held.count key

variable {references : References κ} {held : List κ}

omit [DecidableEq κ] in
theorem balanced_empty : (empty : References κ).Balanced := fun _ => rfl

theorem Held.perm (holds : references.Held held) {other : List κ} (same : held.Perm other) :
    references.Held other := by
  intro key
  rw [holds key, same.count_eq]

theorem Held.take (holds : references.Held held) (key : κ) :
    (references.take key).Held (held ++ [key]) := by
  intro probe
  have before := holds probe
  by_cases same : probe = key
  · subst same
    simp [References.take, before]
    omega
  · simp [References.take, same, before, Ne.symm same]

theorem Held.release {key : κ} (holds : references.Held (key :: held)) :
    (references.release key).Held held := by
  intro probe
  have before := holds probe
  by_cases same : probe = key
  · subst same
    simp only [List.count_cons_self] at before
    simp [References.release, before]
    omega
  · simpa [References.release, same, Ne.symm same] using before

/-- A reference that is held has not been released yet. -/
theorem Held.outstanding {key : κ} (holds : references.Held (key :: held)) :
    references.released key < references.taken key := by
  have counted := holds key
  rw [List.count_cons_self] at counted
  omega

/-- A new reference comes first, as the next to be released. -/
theorem Held.take_first (holds : references.Held held) (key : κ) :
    (references.take key).Held (key :: held) :=
  (holds.take key).perm (List.perm_append_singleton key held)

theorem Held.take_all (holds : references.Held held) (keys : List κ) :
    (keys.foldl References.take references).Held (keys ++ held) := by
  induction keys generalizing references held with
  | nil => exact holds
  | cons key rest ih => exact (ih (holds.take_first key)).perm List.perm_middle

/-- Everything listed is released, one reference after another. -/
theorem Held.release_all {keys : List κ} (holds : references.Held (keys ++ held)) :
    (keys.foldl References.release references).Held held := by
  induction keys generalizing references with
  | nil => exact holds
  | cons key rest ih => exact ih holds.release

theorem balanced_iff_held : references.Balanced ↔ references.Held [] := by
  simp [Balanced, Held]

end References

end PhpProf
