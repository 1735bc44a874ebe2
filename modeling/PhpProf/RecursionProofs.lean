import PhpProf.CallTime
import PhpProf.FuncProofs

/-! The wall time accounted to a function against the time of the run. Every
activation is charged for itself, so the account of a recursive function may
exceed the run as often as its activations overlap. -/
namespace PhpProf.RecursionProofs
open CallNesting CallTime FuncProofs

/-- The wall clock's reading at an activation, in seconds. -/
def wallSeconds (activation : Activation) : ℚ := ((reading activation).wall.toNat : ℚ) / 1000000

/-- An activation of the function of this name. -/
def Named (engine : Engine) (name : Bytes) (activation : Activation) : Prop :=
  functionName engine activation.func = name

instance : DecidablePred (Named engine name) := fun _ => inferInstanceAs (Decidable (_ = _))

/-- The greatest number of activations of a function that are on the stack at
once. -/
def simultaneous (engine : Engine) (name : Bytes) (events : List (CallEvent Activation)) : Nat :=
  deepest (Named engine name) [] events

/-- No account exceeds the time from the first begin to the last end. -/
def ChargedOnce (engine : Engine) (globals : ProfGlobals) (events : List (CallEvent Activation)) :
    Prop :=
  ∀ name unit, (observeAll engine (profFuncSetup globals).1 events).funcUnits.find? name =
      some unit →
    ∀ first last, events.head? = some (.enter first) → (stops events).getLast? = some last →
      unit.wallTime ≤ elapsed (reading first).wall (reading last).wall

theorem elapsed_eq (start stop : Activation) :
    elapsed (reading start).wall (reading stop).wall = wallSeconds stop - wallSeconds start :=
  sub_div ..

theorem account_wallTime (engine : Engine) (name : Bytes)
    (calls : List (Activation × Activation)) :
    (accountOf elapsed (callsNamed engine name calls)).wallTime =
      durations wallSeconds (Named engine name) calls := by
  simp only [accountOf, elapsed_eq]
  rfl

theorem ordered_from {events : List (CallEvent Activation)} (advance : ClocksAdvance events)
    {first : Activation} (begins : events.head? = some (.enter first)) :
    Ordered wallSeconds (wallSeconds first) events := by
  have times : (events.map fun event => wallSeconds (payload event)).Pairwise (· ≤ ·) := by
    have later : ∀ {earlier later : Activation}, NeverBack earlier later →
        wallSeconds earlier ≤ wallSeconds later := by
      intro earlier later forward
      have wall := UInt64.le_iff_toNat_le.mp forward.1
      unfold wallSeconds
      gcongr
    have mapped := List.Pairwise.map wallSeconds (fun _ _ => later) advance
    rwa [List.map_map] at mapped
  cases events with
  | nil => cases begins
  | cons event rest =>
    cases begins
    refine List.pairwise_cons.mpr ⟨?_, times⟩
    intro time listed
    rcases List.mem_cons.mp listed with rfl | later
    · exact le_refl _
    · exact (List.pairwise_cons.mp times).1 time later

/-- A run with a completed call starts with a begin and has a last end. -/
theorem nested_ends {pairs : Activation → Activation → Prop}
    {events : List (CallEvent Activation)} {calls : List (Activation × Activation)}
    (nested : Nested pairs [] events calls) (completed : calls ≠ []) :
    ∃ first last, events.head? = some (.enter first) ∧ (stops events).getLast? = some last := by
  have ended : stops events ≠ [] := by
    rw [← nested_stops nested]
    simpa using completed
  obtain ⟨last, ends⟩ := Option.isSome_iff_exists.mp (List.getLast?_isSome.mpr ended)
  cases nested with
  | done => exact absurd rfl completed
  | enter below => exact ⟨_, last, rfl, ends⟩

/-- A unit in the table holds the durations of the completed calls of its name. -/
theorem unit_wallTime {engine : Engine} {pairs : Activation → Activation → Prop}
    {events : List (CallEvent Activation)} {calls : List (Activation × Activation)}
    (nested : Nested pairs [] events calls) (readable : AllReadable events)
    (advance : ClocksAdvance events) {globals : ProfGlobals} {name : Bytes} {unit : ProfFuncUnit}
    (found : (observeAll engine (profFuncSetup globals).1 events).funcUnits.find? name =
      some unit) :
    calls ≠ [] ∧ unit.wallTime = durations wallSeconds (Named engine name) calls := by
  have account := (observed_units engine nested readable globals).2 name
  rw [found, unitOf_exact nested advance, unitOf] at account
  split at account
  · cases account
  · next completed =>
    cases account
    refine ⟨?_, account_wallTime engine name calls⟩
    rintro rfl
    exact completed rfl

/-- The wall time of a function is at most the time of the run for each of its
activations that are on the stack at once; when every call has ended, it is the
time of the run counted once for each activation. -/
theorem wall_time_counts_activations (engine : Engine) {events : List (CallEvent Activation)}
    {calls : List (Activation × Activation)} (nested : Nested SameFunction [] events calls)
    (readable : AllReadable events) (advance : ClocksAdvance events) (globals : ProfGlobals)
    {name : Bytes} {unit : ProfFuncUnit}
    (found : (observeAll engine (profFuncSetup globals).1 events).funcUnits.find? name =
      some unit) :
    ∃ first last, events.head? = some (.enter first) ∧ (stops events).getLast? = some last ∧
      unit.wallTime ≤ simultaneous engine name events *
        elapsed (reading first).wall (reading last).wall ∧
      (simultaneous engine name events ≤ 1 →
        unit.wallTime ≤ elapsed (reading first).wall (reading last).wall) ∧
      (runningAfter [] events = [] → unit.wallTime =
        occupied wallSeconds (Named engine name) (wallSeconds first) [] events) := by
  obtain ⟨completed, charged⟩ := unit_wallTime nested readable advance found
  obtain ⟨first, last, begins, ends⟩ := nested_ends nested completed
  have sameName : ∀ start stop, SameFunction start stop →
      (Named engine name start ↔ Named engine name stop) := by
    intro start stop same
    rw [Named, Named, same]
  have ordered := ordered_from advance begins
  have bound := durations_le nested sameName ordered ends
  rw [← charged, ← elapsed_eq] at bound
  have forward : 0 ≤ elapsed (reading first).wall (reading last).wall := by
    have delivered : .leave last ∈ events := by
      obtain ⟨front, tail, rfl, -⟩ := split_last_leave ends
      simp
    have later := (List.pairwise_cons.mp ordered).1 (wallSeconds last)
      (List.mem_map.mpr ⟨.leave last, delivered, rfl⟩)
    rw [elapsed_eq]
    exact sub_nonneg.mpr later
  refine ⟨first, last, begins, ends, bound, ?_, ?_⟩
  · intro alone
    have once : (simultaneous engine name events : ℚ) ≤ 1 := by exact_mod_cast alone
    exact le_trans bound (mul_le_of_le_one_left forward once)
  · intro allEnded
    have counted := durations_eq_occupied wallSeconds nested sameName (wallSeconds first)
    have before : ages wallSeconds (Named engine name) (wallSeconds first) [] = 0 := rfl
    have after : ages wallSeconds (Named engine name)
        (lastTime wallSeconds (wallSeconds first) events) [] = 0 := rfl
    rw [allEnded, before, after, add_zero, zero_add] at counted
    rw [charged, counted]

theorem recursion_calls : Nested SameFunction [] recursion
    [(calledAt "f" (clocksAt 20 2 300), calledAt "f" (clocksAt 50 3 900)),
      (calledAt "f" (clocksAt 10 1 100), calledAt "f" (clocksAt 60 4 50))] :=
  .enter (.enter (.leave rfl (.leave rfl .done)))

theorem recursion_unit :
    (observeAll php (profFuncSetup funcGlobals).1 recursion).funcUnits.find? (Text.ascii "f") =
      some ⟨80 / 1000000, 4 / 1000000, 550, 2⟩ := by
  decide +kernel

/-- Both activations are on the stack for 30 of the 50 µs. -/
theorem recursion_counts_activations :
    ∃ first last, recursion.head? = some (.enter first) ∧
      (stops recursion).getLast? = some last ∧ simultaneous php (Text.ascii "f") recursion = 2 ∧
      80 / 1000000 ≤ 2 * elapsed (reading first).wall (reading last).wall := by
  obtain ⟨first, last, begins, ends, bound, -⟩ := wall_time_counts_activations php recursion_calls
    (by decide) (by decide) funcGlobals recursion_unit
  have twice : simultaneous php (Text.ascii "f") recursion = 2 := by decide
  rw [twice] at bound
  exact ⟨first, last, begins, ends, twice, bound⟩

theorem recursion_is_charged_twice :
    ¬ ∀ (events : List (CallEvent Activation)) (calls : List (Activation × Activation)),
      Nested SameFunction [] events calls → AllReadable events → ClocksAdvance events →
        ChargedOnce php funcGlobals events := by
  intro always
  have once := always recursion _ recursion_calls (by decide) (by decide)
  have bound := once (Text.ascii "f") _ recursion_unit _ _ rfl rfl
  exact absurd bound (by decide +kernel)

end PhpProf.RecursionProofs
