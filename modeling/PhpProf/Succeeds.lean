/-! Computations that can fail: what holds of the result when none of their steps
does, and the rules that go through a computation step by step. -/
namespace PhpProf

universe u v

/-- The attempt gives a result, of which `holds` is true. -/
def Succeeds {α : Type u} (attempt : Option α) (holds : α → Prop) : Prop :=
  ∃ result, attempt = some result ∧ holds result

namespace Succeeds

variable {α β σ : Type u} {attempt : Option α} {holds : α → Prop}

theorem intro {result : α} (fulfilled : holds result) : Succeeds (some result) holds :=
  ⟨result, rfl, fulfilled⟩

/-- One step after another. -/
theorem bind (first : Succeeds attempt holds) {next : α → Option β} {final : β → Prop}
    (second : ∀ result, holds result → Succeeds (next result) final) :
    Succeeds (attempt >>= next) final := by
  obtain ⟨result, found, fulfilled⟩ := first
  obtain ⟨last, reached, ends⟩ := second result fulfilled
  exact ⟨last, by rw [found]; exact reached, ends⟩

/-- A loop keeps what each of its rounds keeps. The invariant is about the items that
have been passed. -/
theorem foldlM {ι : Type v} {step : σ → ι → Option σ} {items : List ι}
    (invariant : List ι → σ → Prop)
    (kept : ∀ passed item rest, items = passed ++ item :: rest → ∀ state, invariant passed state →
      Succeeds (step state item) (invariant (passed ++ [item])))
    {start : σ} (begins : invariant [] start) :
    Succeeds (items.foldlM step start) (invariant items) := by
  have continues : ∀ rest passed state, items = passed ++ rest → invariant passed state →
      Succeeds (rest.foldlM step state) (invariant items) := by
    intro rest
    induction rest with
    | nil =>
      intro passed state split reached
      rw [List.append_nil] at split
      exact intro (split ▸ reached)
    | cons item rest ih =>
      intro passed state split reached
      rw [List.foldlM_cons]
      apply bind (kept passed item rest split state reached)
      intro next stepped
      exact ih (passed ++ [item]) next (by simp [split]) stepped
  exact continues items [] start rfl begins

/-- A loop that counts up. -/
theorem foldlM_range {step : σ → Nat → Option σ} {count : Nat} (invariant : Nat → σ → Prop)
    (kept : ∀ i < count, ∀ state, invariant i state →
      Succeeds (step state i) (invariant (i + 1)))
    {start : σ} (begins : invariant 0 start) :
    Succeeds ((List.range count).foldlM step start) (invariant count) := by
  have looped : Succeeds ((List.range count).foldlM step start)
      (invariant (List.range count).length) := by
    refine foldlM (fun passed => invariant passed.length) ?_ begins
    intro passed i rest split state reached
    have here : (List.range count)[passed.length]? = some i := by simp [split]
    obtain ⟨within, same⟩ := List.getElem?_eq_some_iff.mp here
    rw [List.getElem_range] at same
    rw [List.length_range] at within
    subst same
    rw [List.length_append]
    exact kept passed.length within state reached
  rw [List.length_range] at looped
  exact looped

end Succeeds

/-! ## Reading a list -/

theorem mapM_of_map {α β : Type} {read : α → Option β} {items : List α} {values : List β}
    (each : items.map read = values.map some) : items.mapM read = some values := by
  induction items generalizing values with
  | nil =>
    obtain rfl : values = [] := by simpa using each.symm
    rfl
  | cons item rest ih =>
    cases values with
    | nil => cases each
    | cons value others =>
      simp only [List.map_cons, List.cons.injEq] at each
      simp [each.1, ih each.2]

/-- Reading succeeds where every item can be read. -/
theorem mapM_of_forall {α β : Type} {read : α → Option β} {items : List α}
    (each : ∀ item ∈ items, ∃ value, read item = some value) :
    ∃ values, items.mapM read = some values := by
  induction items with
  | nil => exact ⟨[], rfl⟩
  | cons item rest ih =>
    obtain ⟨value, first⟩ := each item (List.mem_cons_self ..)
    obtain ⟨others, later⟩ := ih fun other member => each other (List.mem_cons_of_mem _ member)
    exact ⟨value :: others, by simp [first, later]⟩

/-- Elements that each read back do so one after another. -/
theorem mapM_written {α β : Type} {write : α → β} {read : β → Option α}
    (back : ∀ value, read (write value) = some value) (values : List α) :
    (values.map write).mapM read = some values := by
  apply mapM_of_map
  simp [Function.comp_def, back]

/-- A list read through what each of its items is written as. -/
theorem mapM_map {ι α β : Type} {read : α → Option β} {write : ι → α} {value : ι → β}
    {items : List ι} (each : ∀ item ∈ items, read (write item) = some (value item)) :
    (items.map write).mapM read = some (items.map value) := by
  apply mapM_of_map
  rw [List.map_map, List.map_map]
  exact List.map_congr_left each

/-- What is read at every index is the list. -/
theorem mapM_range {α : Type} {read : Nat → Option α} {values : List α}
    (each : ∀ i (within : i < values.length), read i = some values[i]) :
    (List.range values.length).mapM read = some values := by
  apply mapM_of_map
  apply List.ext_getElem (by simp)
  intro i _ within
  simpa using each i (by simpa using within)

end PhpProf
