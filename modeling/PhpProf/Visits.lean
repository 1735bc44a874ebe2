import Mathlib.Algebra.BigOperators.Group.List.Basic
import Mathlib.Data.List.Induction
import Mathlib.Tactic.Abel

/-! Sequences that move from place to place. A visit is a maximal run of events
at one place together with the event that ends it; a walk over the sequence that
remembers only the event it entered the present place with finds every visit. -/
namespace PhpProf

universe u v w

namespace Visits

variable {α : Type u} {κ : Type v} [DecidableEq κ] (place : α → κ)

/-- The entry and the exit of every visit, while the present place was entered
with a given event. -/
def visits : α → List α → List (α × α)
  | _, [] => []
  | entry, event :: rest =>
    if place event = place entry then visits entry rest
    else (entry, event) :: visits event rest

/-- The event the present place was entered with. -/
def latestEntry : α → List α → α
  | entry, [] => entry
  | entry, event :: rest =>
    if place event = place entry then latestEntry entry rest else latestEntry event rest

def visitsOf : List α → List (α × α)
  | [] => []
  | first :: rest => visits place first rest

/-- A maximal run of events at one place, and the event that leaves it. -/
def IsVisit (events : List α) (entry exit : α) : Prop :=
  ∃ before run after, events = before ++ entry :: (run ++ exit :: after) ∧
    (∀ event ∈ run, place event = place entry) ∧ place exit ≠ place entry ∧
    ∀ last, before.getLast? = some last → place entry ≠ place last

variable {place}

theorem latestEntry_place (place : α → κ) (entry : α) (events : List α) :
    ∀ last, (entry :: events).getLast? = some last →
      place (latestEntry place entry events) = place last := by
  induction events generalizing entry with
  | nil => simp [latestEntry]
  | cons event rest ih =>
    intro last ends
    rw [List.getLast?_cons_cons] at ends
    unfold latestEntry
    split
    · next stays =>
      cases rest with
      | nil =>
        simp only [List.getLast?_singleton, Option.some.injEq] at ends
        simp [latestEntry, ← ends, stays]
      | cons next rest => exact ih entry last (by simpa using ends)
    · exact ih event last ends

theorem visits_append (entry : α) (first second : List α) :
    visits place entry (first ++ second) =
      visits place entry first ++ visits place (latestEntry place entry first) second := by
  induction first generalizing entry with
  | nil => rfl
  | cons event rest ih =>
    simp only [List.cons_append, visits, latestEntry]
    split
    · exact ih entry
    · rw [ih event, List.cons_append]

theorem visits_of_stay {entry : α} {run : List α}
    (stays : ∀ event ∈ run, place event = place entry) :
    visits place entry run = [] ∧ latestEntry place entry run = entry := by
  induction run with
  | nil => exact ⟨rfl, rfl⟩
  | cons event rest ih =>
    have here := stays event (by simp)
    simp only [visits, latestEntry, if_pos here]
    exact ih fun other member => stays other (List.mem_cons_of_mem _ member)

omit [DecidableEq κ] in
private theorem isVisit_after {events : List α} {entry exit first : α} {passed : List α}
    (visit : IsVisit place (first :: events) entry exit)
    (moved : ∀ last, passed.getLast? = some last → place first ≠ place last) :
    IsVisit place (passed ++ first :: events) entry exit := by
  obtain ⟨before, run, after, shape, stays, left, entered⟩ := visit
  refine ⟨passed ++ before, run, after, by rw [shape, List.append_assoc], stays, left, ?_⟩
  intro last ends
  cases before with
  | nil =>
    simp only [List.nil_append, List.cons.injEq] at shape
    rw [List.append_nil] at ends
    exact shape.1 ▸ moved last ends
  | cons head before =>
    refine entered last ?_
    rwa [List.getLast?_append_of_ne_nil _ (List.cons_ne_nil head before)] at ends

private theorem isVisit_of_mem {entry exit : α} {events : List α} {start : α} {run : List α}
    (stays : ∀ event ∈ run, place event = place start)
    (member : (entry, exit) ∈ visits place start events) :
    IsVisit place (start :: (run ++ events)) entry exit := by
  induction events generalizing start run with
  | nil => cases member
  | cons event rest ih =>
    unfold visits at member
    split at member
    · next here =>
      have longer : ∀ other ∈ run ++ [event], place other = place start := by
        intro other held
        cases List.mem_append.mp held with
        | inl earlier => exact stays other earlier
        | inr last => rw [List.mem_singleton.mp last, here]
      simpa using ih longer member
    · next moved =>
      cases List.mem_cons.mp member with
      | inl same =>
        obtain ⟨rfl, rfl⟩ := Prod.mk.inj same
        exact ⟨[], run, rest, rfl, stays, moved, by simp⟩
      | inr later =>
        have visit : IsVisit place (event :: rest) entry exit :=
          ih (fun _ none => absurd none List.not_mem_nil) later
        refine isVisit_after visit fun last (ends : (start :: run).getLast? = some last) => ?_
        have atStart : place last = place start := by
          cases List.mem_cons.mp (List.mem_of_getLast? ends) with
          | inl same => rw [same]
          | inr held => exact stays last held
        rw [atStart]
        exact moved

/-- Leaving a place adds one visit after those found before. -/
theorem visitsOf_leave {before run after : List α} {entry exit : α}
    (stays : ∀ event ∈ run, place event = place entry) (left : place exit ≠ place entry)
    (entered : ∀ last, before.getLast? = some last → place entry ≠ place last) :
    visitsOf place (before ++ entry :: (run ++ exit :: after)) =
      visitsOf place (before ++ entry :: run) ++ (entry, exit) :: visits place exit after := by
  obtain ⟨silent, same⟩ := visits_of_stay stays
  have found : visits place entry (run ++ exit :: after) =
      (entry, exit) :: visits place exit after := by
    rw [visits_append, silent, same]
    simp [visits, left]
  cases before with
  | nil =>
    show visits place entry (run ++ exit :: after) = visits place entry run ++ _
    rw [found, silent, List.nil_append]
  | cons first passed =>
    obtain ⟨last, ends⟩ : ∃ last, (first :: passed).getLast? = some last :=
      ⟨_, List.getLast?_eq_getLast_of_ne_nil (List.cons_ne_nil first passed)⟩
    have moved : place entry ≠ place (latestEntry place first passed) := by
      rw [latestEntry_place place first passed last ends]
      exact entered last ends
    show visits place first (passed ++ entry :: (run ++ exit :: after)) =
      visits place first (passed ++ entry :: run) ++ _
    rw [visits_append, visits_append]
    simp only [visits, if_neg moved, found, silent, List.append_assoc, List.cons_append,
      List.nil_append]

/-- The walk finds exactly the visits of a sequence. -/
theorem mem_visitsOf {events : List α} {entry exit : α} :
    (entry, exit) ∈ visitsOf place events ↔ IsVisit place events entry exit := by
  constructor
  · intro member
    cases events with
    | nil => cases member
    | cons first rest =>
      exact isVisit_of_mem (fun _ none => absurd none List.not_mem_nil) member
  · rintro ⟨before, run, after, rfl, stays, left, entered⟩
    rw [visitsOf_leave stays left entered]
    exact List.mem_append_right _ (List.mem_cons_self ..)

theorem visitsOf_reached {reached events : List α} (begun : reached <+: events) :
    visitsOf place reached <+: visitsOf place events := by
  obtain ⟨rest, rfl⟩ := begun
  cases reached with
  | nil => exact List.nil_prefix
  | cons first reached =>
    show visits place first reached <+: visits place first (reached ++ rest)
    rw [visits_append]
    exact List.prefix_append ..

theorem visitsOf_mem {events : List α} {entry exit : α}
    (member : (entry, exit) ∈ visitsOf place events) : entry ∈ events ∧ exit ∈ events := by
  obtain ⟨before, run, after, rfl, -, -, -⟩ := mem_visitsOf.mp member
  exact ⟨by simp, by simp⟩

/-- A visit ends after the event the first place was entered with. -/
theorem exit_mem {entry : α} {events : List α} {visit : α × α}
    (member : visit ∈ visits place entry events) : visit.2 ∈ events := by
  induction events generalizing entry with
  | nil => cases member
  | cons event rest ih =>
    unfold visits at member
    split at member
    · exact List.mem_cons_of_mem _ (ih member)
    · rcases List.mem_cons.mp member with rfl | later
      · exact List.mem_cons_self
      · exact List.mem_cons_of_mem _ (ih later)

/-- A relation that holds between every event and the later ones holds between
the entry and the exit of every visit. -/
theorem visits_ordered {before : α → α → Prop} {events : List α}
    (ordered : events.Pairwise before) :
    ∀ visit ∈ visitsOf place events, before visit.1 visit.2 := by
  rintro ⟨entry, exit⟩ member
  obtain ⟨earlier, run, after, rfl, -, -, -⟩ := mem_visitsOf.mp member
  have tail := (List.pairwise_append.mp ordered).2.1
  exact (List.pairwise_cons.mp tail).1 exit (by simp)

/-- The differences over all visits telescope. -/
theorem sum_visits {M : Type w} [AddCommGroup M] (mark : α → M) (entry : α) (events : List α) :
    ((visits place entry events).map fun visit => mark visit.2 - mark visit.1).sum =
      mark (latestEntry place entry events) - mark entry := by
  induction events generalizing entry with
  | nil => simp [visits, latestEntry]
  | cons event rest ih =>
    unfold visits latestEntry
    split
    · exact ih entry
    · rw [List.map_cons, List.sum_cons, ih event]
      abel

end Visits

end PhpProf
