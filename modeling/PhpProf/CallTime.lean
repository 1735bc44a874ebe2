import Mathlib.Algebra.Order.BigOperators.Group.List
import Mathlib.Algebra.Order.Ring.Defs
import Mathlib.Data.Nat.Cast.Order.Ring
import Mathlib.Tactic.Ring
import PhpProf.CallNesting

/-! Time spent in calls of one kind. Adding up the durations of completed calls
counts every moment once for each call of the kind that runs at it, so nested
calls of one kind count it more than once. -/
namespace PhpProf

universe u v

namespace CallTime
open CallNesting

variable {α : Type u} {R : Type v}

/-! ## Runs -/

/-- The calls that run once the events have been delivered. -/
def runningAfter (active : List α) : List (CallEvent α) → List α
  | [] => active
  | .enter start :: rest => runningAfter (start :: active) rest
  | .leave _ :: rest => runningAfter active.tail rest

/-- The time of the last event, or the present without one. -/
def lastTime (time : α → R) (now : R) : List (CallEvent α) → R
  | [] => now
  | event :: rest => lastTime time (time (payload event)) rest

/-- What still runs has begun before or during the events. -/
theorem runningAfter_mem {active : List α} {events : List (CallEvent α)} {start : α}
    (running : start ∈ runningAfter active events) :
    start ∈ active ∨ start ∈ events.map payload := by
  induction events generalizing active with
  | nil => exact Or.inl running
  | cons event rest ih =>
    cases event with
    | enter begun =>
      rcases ih running with earlier | later
      · rcases List.mem_cons.mp earlier with rfl | before
        · exact Or.inr List.mem_cons_self
        · exact Or.inl before
      · exact Or.inr (List.mem_cons_of_mem _ later)
    | leave stop =>
      rcases ih running with earlier | later
      · exact Or.inl (List.mem_of_mem_tail earlier)
      · exact Or.inr (List.mem_cons_of_mem _ later)

/-- The present and the times of the events to come stand in order. -/
def Ordered [LE R] (time : α → R) (now : R) (events : List (CallEvent α)) : Prop :=
  (now :: events.map fun event => time (payload event)).Pairwise (· ≤ ·)

theorem Ordered.now_le [Preorder R] {time : α → R} {now : R} {events : List (CallEvent α)}
    (ordered : Ordered time now events) : now ≤ lastTime time now events := by
  induction events generalizing now with
  | nil => exact le_refl now
  | cons event rest ih =>
    obtain ⟨later, tail⟩ := List.pairwise_cons.mp ordered
    exact le_trans (later _ List.mem_cons_self) (ih tail)

theorem Ordered.le_last [Preorder R] {time : α → R} {now : R} {events : List (CallEvent α)}
    (ordered : Ordered time now events) {item : α} (listed : item ∈ events.map payload) :
    time item ≤ lastTime time now events := by
  induction events generalizing now with
  | nil => cases listed
  | cons event rest ih =>
    have tail : Ordered time (time (payload event)) rest := (List.pairwise_cons.mp ordered).2
    rcases List.mem_cons.mp listed with rfl | later
    · exact tail.now_le
    · exact ih tail later

theorem lastTime_concat (time : α → R) (now : R) (events : List (CallEvent α))
    (event : CallEvent α) : lastTime time now (events ++ [event]) = time (payload event) := by
  induction events generalizing now with
  | nil => rfl
  | cons first rest ih => exact ih (time (payload first))

/-- Nothing completes after the last leave event. -/
theorem nested_front {pairs : α → α → Prop} {active : List α} {front tail : List (CallEvent α)}
    {calls : List (α × α)} (nested : Nested pairs active (front ++ tail) calls)
    (none : stops tail = []) : Nested pairs active front calls := by
  induction front generalizing active calls with
  | nil =>
    have empty := nested_stops nested
    rw [List.nil_append, none, List.map_eq_nil_iff] at empty
    rw [empty]
    exact .done
  | cons event rest ih =>
    cases nested with
    | enter below => exact .enter (ih below)
    | leave own after => exact .leave own (ih after)

theorem split_last_leave {events : List (CallEvent α)} {last : α}
    (ends : (stops events).getLast? = some last) :
    ∃ front tail, events = front ++ .leave last :: tail ∧ stops tail = [] := by
  induction events using List.reverseRecOn with
  | nil => cases ends
  | append_singleton events event ih =>
    have shape : stops (events ++ [event]) = stops events ++ stops [event] :=
      List.filterMap_append
    cases event with
    | enter start =>
      rw [shape] at ends
      obtain ⟨front, tail, rfl, none⟩ := ih (by simpa [stops] using ends)
      refine ⟨front, tail ++ [.enter start], by simp, ?_⟩
      have kept : stops (tail ++ [.enter start]) = stops tail ++ stops [.enter start] :=
        List.filterMap_append
      rw [kept, none]
      rfl
    | leave stop =>
      rw [shape] at ends
      obtain rfl : stop = last := by simpa [stops] using ends
      exact ⟨events, [], rfl, rfl⟩

/-! ## Time in calls of a kind -/

variable [CommRing R] (time : α → R) (mine : α → Prop) [DecidablePred mine]

/-- The durations of the completed calls of the kind. -/
def durations (calls : List (α × α)) : R :=
  ((calls.filter fun call => mine call.2).map fun call => time call.2 - time call.1).sum

/-- How long the running calls of the kind have taken so far. -/
def ages (now : R) (active : List α) : R :=
  ((active.filter fun start => mine start).map fun start => now - time start).sum

/-- The time between the events, counted once for each running call of the kind. -/
def occupied (now : R) (active : List α) : List (CallEvent α) → R
  | [] => 0
  | event :: rest =>
    (active.countP fun start => mine start) * (time (payload event) - now) +
      occupied (time (payload event)) (runningAfter active [event]) rest

/-- The greatest number of calls of the kind that run at once. -/
def deepest (active : List α) : List (CallEvent α) → Nat
  | [] => active.countP fun start => mine start
  | event :: rest =>
    max (active.countP fun start => mine start) (deepest (runningAfter active [event]) rest)

variable {time mine}

theorem ages_cons (now : R) (start : α) (active : List α) :
    ages time mine now (start :: active) =
      (if mine start then now - time start else 0) + ages time mine now active := by
  by_cases own : mine start <;> simp [ages, own]

/-- Every running call of the kind ages with the clock. -/
theorem ages_later (now later : R) (active : List α) :
    ages time mine later active =
      ages time mine now active + (active.countP fun start => mine start) * (later - now) := by
  induction active with
  | nil => simp [ages]
  | cons start rest ih =>
    rw [ages_cons, ages_cons, ih, List.countP_cons]
    by_cases own : mine start
    · simp only [own, decide_true, ↓reduceIte]
      push_cast
      ring
    · simp only [own, decide_false, Bool.false_eq_true, ↓reduceIte]
      push_cast
      ring

theorem durations_cons (start stop : α) (calls : List (α × α)) :
    durations time mine ((start, stop) :: calls) =
      (if mine stop then time stop - time start else 0) + durations time mine calls := by
  by_cases own : mine stop <;> simp [durations, own]

/-- What completed calls of the kind have taken, with what the running ones have
taken so far, is the time counted once for each of them. -/
theorem durations_eq_occupied (time : α → R) {pairs : α → α → Prop} {active : List α}
    {events : List (CallEvent α)} {calls : List (α × α)}
    (nested : Nested pairs active events calls)
    (sameKind : ∀ start stop, pairs start stop → (mine start ↔ mine stop)) (now : R) :
    durations time mine calls +
        ages time mine (lastTime time now events) (runningAfter active events) =
      ages time mine now active + occupied time mine now active events := by
  induction nested generalizing now with
  | done => simp [durations, lastTime, runningAfter, occupied]
  | @enter start active rest calls below ih =>
    have begun : ages time mine (time start) (start :: active) =
        ages time mine (time start) active := by
      rw [ages_cons, sub_self, ite_self, zero_add]
    calc durations time mine calls + ages time mine (lastTime time (time start) rest)
          (runningAfter (start :: active) rest)
        = ages time mine (time start) (start :: active) +
            occupied time mine (time start) (start :: active) rest := ih (time start)
      _ = ages time mine now active + ((active.countP fun start => mine start) *
            (time start - now) + occupied time mine (time start) (start :: active) rest) := by
          rw [begun, ages_later now (time start)]
          ring
  | @leave start stop active rest calls own after ih =>
    have ended : ages time mine (time stop) (start :: active) =
        (if mine stop then time stop - time start else 0) + ages time mine (time stop) active := by
      rw [ages_cons, if_congr (sameKind start stop own) rfl rfl]
    calc durations time mine ((start, stop) :: calls) +
          ages time mine (lastTime time (time stop) rest) (runningAfter active rest)
        = (if mine stop then time stop - time start else 0) + (durations time mine calls +
            ages time mine (lastTime time (time stop) rest) (runningAfter active rest)) := by
          rw [durations_cons, add_assoc]
      _ = ages time mine (time stop) (start :: active) +
            occupied time mine (time stop) active rest := by
          rw [ih, ended, add_assoc]
      _ = ages time mine now (start :: active) + (((start :: active).countP fun start =>
            mine start) * (time stop - now) + occupied time mine (time stop) active rest) := by
          rw [ages_later now (time stop), add_assoc]

/-! ## Bounds -/

theorem deepest_front (active : List α) (front tail : List (CallEvent α)) :
    deepest mine active front ≤ deepest mine active (front ++ tail) := by
  induction front generalizing active with
  | nil =>
    cases tail with
    | nil => exact le_refl _
    | cons => exact Nat.le_max_left ..
  | cons event rest ih => exact max_le_max (le_refl _) (ih _)

variable [PartialOrder R] [IsOrderedRing R]

theorem ages_nonneg {now : R} {active : List α} (begun : ∀ start ∈ active, time start ≤ now) :
    0 ≤ ages time mine now active := by
  apply List.sum_nonneg
  intro age member
  obtain ⟨start, held, rfl⟩ := List.mem_map.mp member
  exact sub_nonneg.mpr (begun start (List.mem_of_mem_filter held))

/-- While at most so many calls of the kind run at once, no moment counts more
often. -/
theorem occupied_le_deepest (mine : α → Prop) [DecidablePred mine] {now : R} (active : List α)
    {events : List (CallEvent α)} (ordered : Ordered time now events) :
    occupied time mine now active events ≤
      deepest mine active events * (lastTime time now events - now) := by
  induction events generalizing now active with
  | nil => simp [occupied, lastTime]
  | cons event rest ih =>
    obtain ⟨later, tail⟩ := List.pairwise_cons.mp ordered
    have first : now ≤ time (payload event) := later _ List.mem_cons_self
    have last := Ordered.now_le tail
    have begun : ((active.countP fun start => mine start : Nat) : R) *
          (time (payload event) - now) ≤
        deepest mine active (event :: rest) * (time (payload event) - now) := by
      apply mul_le_mul_of_nonneg_right
      · exact Nat.mono_cast (Nat.le_max_left ..)
      · exact sub_nonneg.mpr first
    have rested : occupied time mine (time (payload event)) (runningAfter active [event]) rest ≤
        deepest mine active (event :: rest) *
          (lastTime time (time (payload event)) rest - time (payload event)) := by
      refine le_trans (ih _ tail) ?_
      apply mul_le_mul_of_nonneg_right
      · exact Nat.mono_cast (Nat.le_max_right ..)
      · exact sub_nonneg.mpr last
    calc occupied time mine now active (event :: rest)
        ≤ deepest mine active (event :: rest) * (time (payload event) - now) +
            deepest mine active (event :: rest) *
              (lastTime time (time (payload event)) rest - time (payload event)) :=
          add_le_add begun rested
      _ = deepest mine active (event :: rest) *
            (lastTime time (time (payload event)) rest - now) := by ring

/-- The calls of a kind take at most the time to the last end, once for each that
may run at the same time. -/
theorem durations_le {pairs : α → α → Prop} {events : List (CallEvent α)}
    {calls : List (α × α)} (nested : Nested pairs [] events calls)
    (sameKind : ∀ start stop, pairs start stop → (mine start ↔ mine stop)) {now : R}
    (ordered : Ordered time now events) {last : α} (ends : (stops events).getLast? = some last) :
    durations time mine calls ≤ deepest mine [] events * (time last - now) := by
  obtain ⟨front, tail, rfl, none⟩ := split_last_leave ends
  have cut : front ++ .leave last :: tail = (front ++ [.leave last]) ++ tail := by simp
  rw [cut] at nested ordered ⊢
  have completed := nested_front nested none
  have frontOrdered : Ordered time now (front ++ [.leave last]) := by
    refine List.Pairwise.sublist ?_ ordered
    exact ((List.sublist_append_left _ tail).map _).cons_cons now
  have ended : lastTime time now (front ++ [.leave last]) = time last := lastTime_concat ..
  have counted := durations_eq_occupied time completed sameKind now
  rw [ended] at counted
  have running : 0 ≤ ages time mine (time last) (runningAfter [] (front ++ [.leave last])) := by
    apply ages_nonneg
    intro start running
    rcases runningAfter_mem running with nothing | begun
    · cases nothing
    · exact ended ▸ frontOrdered.le_last begun
  have fresh : ages time mine now ([] : List α) = 0 := rfl
  have within := occupied_le_deepest mine [] frontOrdered
  rw [ended] at within
  have elapsed : 0 ≤ time last - now := sub_nonneg.mpr (ended ▸ frontOrdered.now_le)
  calc durations time mine calls
      ≤ durations time mine calls +
          ages time mine (time last) (runningAfter [] (front ++ [.leave last])) :=
        le_add_of_nonneg_right running
    _ = occupied time mine now [] (front ++ [.leave last]) := by rw [counted, fresh, zero_add]
    _ ≤ deepest mine [] (front ++ [.leave last]) * (time last - now) := within
    _ ≤ deepest mine [] (front ++ [.leave last] ++ tail) * (time last - now) :=
        mul_le_mul_of_nonneg_right (Nat.mono_cast (deepest_front ..)) elapsed

end CallTime

end PhpProf
