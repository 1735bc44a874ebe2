import Mathlib.Algebra.BigOperators.Group.Finset.Basic
import Mathlib.Data.Fintype.BigOperators

/-! Well-nested call sequences: every leave event ends the latest call still
running. One strand has its own nesting; several strands may be interleaved in
any order, and together they are nested only if no strand is left while a call
of it is running and another strand then returns. -/
namespace PhpProf

universe u v

inductive CallEvent (α : Type u) where
  | enter (start : α)
  | leave (stop : α)
  deriving DecidableEq

def CallEvent.map {β : Type v} (f : α → β) : CallEvent α → CallEvent β
  | .enter start => .enter (f start)
  | .leave stop => .leave (f stop)

namespace CallNesting

variable {α : Type u} {σ : Type v}

/-- Delivered while the calls of `active` run, innermost first, the events end
only the innermost call, and complete `calls` in this order. Calls may stay
active at the end. -/
inductive Nested (pairs : α → α → Prop) :
    List α → List (CallEvent α) → List (α × α) → Prop where
  | done : Nested pairs active [] []
  | enter (below : Nested pairs (start :: active) rest calls) :
      Nested pairs active (.enter start :: rest) calls
  | leave (own : pairs start stop) (after : Nested pairs active rest calls) :
      Nested pairs (start :: active) (.leave stop :: rest) ((start, stop) :: calls)

/-- The payload of an event, of either kind. -/
def payload : CallEvent α → α
  | .enter start => start
  | .leave stop => stop

/-- The payloads of the leave events, in order. -/
def stops (events : List (CallEvent α)) : List α :=
  events.filterMap fun
    | .enter _ => none
    | .leave stop => some stop

/-- The completed calls are determined by the events alone. -/
theorem nested_unique {first second : α → α → Prop} {active : List α}
    {events : List (CallEvent α)} {calls others : List (α × α)}
    (left : Nested first active events calls) (right : Nested second active events others) :
    calls = others := by
  induction left generalizing others with
  | done => cases right; rfl
  | enter below ih => cases right with | enter other => exact ih other
  | leave own after ih => cases right with | leave _ other => rw [ih other]

/-- Forgetting part of the payloads keeps the nesting. -/
theorem nested_map {β : Type v} (f : α → β) {pairs : α → α → Prop} {active : List α}
    {events : List (CallEvent α)} {calls : List (α × α)}
    (nested : Nested pairs active events calls) :
    Nested (fun _ _ => True) (active.map f) (events.map (CallEvent.map f))
      (calls.map (Prod.map f f)) := by
  induction nested with
  | done => exact .done
  | enter below ih => exact .enter ih
  | leave own after ih => exact .leave trivial ih

/-- One call is completed at each leave event. -/
theorem nested_stops {pairs : α → α → Prop} {active : List α} {events : List (CallEvent α)}
    {calls : List (α × α)} (nested : Nested pairs active events calls) :
    calls.map Prod.snd = stops events := by
  induction nested with
  | done => rfl
  | enter below ih => exact ih
  | leave own after ih => exact congrArg (_ :: ·) ih

/-- Calls that never overlap are nested. -/
theorem nested_sequence {pairs : α → α → Prop} {calls : List (α × α)}
    (paired : ∀ call ∈ calls, pairs call.1 call.2) :
    Nested pairs [] (calls.flatMap fun call => [.enter call.1, .leave call.2]) calls := by
  induction calls with
  | nil => exact .done
  | cons call rest ih =>
    have later := ih fun other member => paired other (List.mem_cons_of_mem _ member)
    exact .enter (.leave (paired call List.mem_cons_self) later)

/-- A relation that holds between every event and the later ones holds between
the start and the stop of every completed call. -/
theorem nested_ordered {pairs before : α → α → Prop} {active : List α}
    {events : List (CallEvent α)} {calls : List (α × α)}
    (nested : Nested pairs active events calls)
    (ordered : (active.reverse ++ events.map payload).Pairwise before) :
    ∀ call ∈ calls, before call.1 call.2 := by
  induction nested with
  | done => simp
  | enter below ih => exact ih (by simpa [payload] using ordered)
  | @leave start stop active rest calls own after ih =>
    simp only [List.reverse_cons, List.map_cons, payload, List.append_assoc,
      List.singleton_append] at ordered
    intro call member
    rcases List.mem_cons.mp member with rfl | later
    · have tail := (List.pairwise_append.mp ordered).2.1
      exact (List.pairwise_cons.mp tail).1 stop (by simp)
    · refine ih (ordered.sublist ?_) call later
      exact ((List.sublist_cons_self _ _).trans (List.sublist_cons_self _ _)).append_left _

/-! ## Interleaved strands -/

/-- The events of all strands as one sequence; each payload names its strand. -/
def merged : List (σ × CallEvent α) → List (CallEvent (σ × α)) :=
  List.map fun
    | (strand, .enter start) => .enter (strand, start)
    | (strand, .leave stop) => .leave (strand, stop)

theorem merged_map_snd (events : List (σ × CallEvent α)) :
    (merged events).map (CallEvent.map Prod.snd) = events.map Prod.snd := by
  rw [merged, List.map_map]
  apply List.map_congr_left
  rintro ⟨strand, event⟩ _
  cases event <;> rfl

variable [DecidableEq σ]

/-- What one strand contributes to an interleaving, in its own order. -/
def eventsOf (strand : σ) (events : List (σ × CallEvent α)) : List (CallEvent α) :=
  (events.filter fun event => event.1 = strand).map Prod.snd

def activeOf (strand : σ) (active : List (σ × α)) : List α :=
  (active.filter fun call => call.1 = strand).map Prod.snd

def callsOf (strand : σ) (calls : List ((σ × α) × (σ × α))) : List (α × α) :=
  (calls.filter fun call => call.2.1 = strand).map fun call => (call.1.2, call.2.2)

theorem stops_merged (strand : σ) (events : List (σ × CallEvent α)) :
    ((stops (merged events)).filter fun stop => stop.1 = strand).map Prod.snd =
      stops (eventsOf strand events) := by
  induction events with
  | nil => rfl
  | cons event rest ih =>
    obtain ⟨owner, kind⟩ := event
    cases kind with
    | enter start => by_cases own : owner = strand <;> simpa [stops, merged, eventsOf, own] using ih
    | leave stop => by_cases own : owner = strand <;> simpa [stops, merged, eventsOf, own] using ih

/-- However the starts are paired, the calls that end in a strand end where the
strand's own calls do. -/
theorem callsOf_stops {pairs : σ × α → σ × α → Prop} {active : List (σ × α)}
    {events : List (σ × CallEvent α)} {calls : List ((σ × α) × (σ × α))}
    (nested : Nested pairs active (merged events) calls) (strand : σ) :
    (callsOf strand calls).map Prod.snd = stops (eventsOf strand events) := by
  rw [← stops_merged, ← nested_stops nested, List.filter_map, List.map_map, callsOf, List.map_map]
  rfl

/-- Every leave event ends a call of its own strand. -/
def SameStrand (start stop : σ × α) : Prop := start.1 = stop.1

/-- When the strands together are nested, what they complete in one strand is
what that strand completes on its own. -/
theorem nested_strand {active : List (σ × α)} {events : List (σ × CallEvent α)}
    {calls : List ((σ × α) × (σ × α))} (nested : Nested SameStrand active (merged events) calls)
    (strand : σ) :
    Nested (fun _ _ => True) (activeOf strand active) (eventsOf strand events)
      (callsOf strand calls) := by
  induction events generalizing active calls with
  | nil => cases nested; exact .done
  | cons event rest ih =>
    obtain ⟨owner, kind⟩ := event
    cases kind with
    | enter start =>
      cases nested with
      | enter below =>
        have rested := ih below
        by_cases own : owner = strand
        · subst own
          simpa [eventsOf, activeOf] using
            Nested.enter (by simpa [eventsOf, activeOf] using rested)
        · simpa [eventsOf, activeOf, own] using rested
    | leave stop =>
      cases nested with
      | @leave start _ active _ calls same after =>
        obtain ⟨starter, begun⟩ := start
        obtain rfl : starter = owner := same
        have rested := ih after
        by_cases own : starter = strand
        · subst own
          have ended : Nested (fun _ _ => True) (begun :: activeOf starter active)
              (.leave stop :: eventsOf starter rest) ((begun, stop) :: callsOf starter calls) :=
            .leave trivial rested
          simpa [eventsOf, activeOf, callsOf] using ended
        · simpa [eventsOf, activeOf, callsOf, own] using rested

/-- A sum over all items is the sum over the strands of what each contributes. -/
theorem sum_by_strand {ι : Type*} {M : Type*} [Fintype σ] [AddCommMonoid M] (strandOf : ι → σ)
    (weigh : ι → M) (items : List ι) :
    (items.map weigh).sum =
      ∑ strand, ((items.filter fun item => strandOf item = strand).map weigh).sum := by
  induction items with
  | nil => simp
  | cons item rest ih =>
    have split : ∀ strand,
        (((item :: rest).filter fun item => strandOf item = strand).map weigh).sum =
          (if strandOf item = strand then weigh item else 0) +
            ((rest.filter fun item => strandOf item = strand).map weigh).sum := by
      intro strand
      by_cases own : strandOf item = strand <;> simp [own]
    simp only [split, Finset.sum_add_distrib, Finset.sum_ite_eq, Finset.mem_univ, ↓reduceIte,
      List.map_cons, List.sum_cons, ih]

private theorem length_update [Fintype σ] (running : σ → List α) (owner : σ) (calls : List α) :
    (∑ strand, (Function.update running owner calls strand).length) + (running owner).length =
      (∑ strand, (running strand).length) + calls.length := by
  have changed : (fun strand => (Function.update running owner calls strand).length) =
      Function.update (fun strand => (running strand).length) owner calls.length := by
    funext strand
    by_cases same : strand = owner
    · subst same; simp
    · simp [same]
  rw [changed, Finset.sum_update_of_mem (Finset.mem_univ owner),
    ← Finset.add_sum_erase Finset.univ _ (Finset.mem_univ owner), Finset.sdiff_singleton_eq_erase]
  omega

/-- Interleaved strands never return with no call running: some pairing of
starts and stops exists, though not each strand's own. -/
theorem nested_interleaved [Fintype σ] {pairs : α → α → Prop} {running : σ → List α}
    {active : List (σ × α)} {events : List (σ × CallEvent α)}
    (strands : ∀ strand, ∃ own, Nested pairs (running strand) (eventsOf strand events) own)
    (enough : ∑ strand, (running strand).length ≤ active.length) :
    ∃ calls, Nested (fun _ _ => True) active (merged events) calls := by
  induction events generalizing running active with
  | nil => exact ⟨[], .done⟩
  | cons event rest ih =>
    obtain ⟨owner, kind⟩ := event
    -- only the owner's nesting moves; every other strand keeps its events
    have moved : ∀ below, (∃ own, Nested pairs below (eventsOf owner rest) own) → ∀ strand,
        ∃ own, Nested pairs (Function.update running owner below strand)
          (eventsOf strand rest) own := by
      intro below continued strand
      by_cases same : strand = owner
      · subst same
        simpa using continued
      · simpa [eventsOf, same, Ne.symm same] using strands strand
    obtain ⟨own, mine⟩ := strands owner
    have first : eventsOf owner ((owner, kind) :: rest) = kind :: eventsOf owner rest := by
      simp [eventsOf]
    rw [first] at mine
    generalize before : running owner = calls at mine
    cases mine with
    | @enter start _ _ _ below =>
      have total := length_update running owner (start :: calls)
      simp only [before, List.length_cons] at total
      have room : ∑ strand, (Function.update running owner (start :: calls) strand).length ≤
          ((owner, start) :: active).length := by
        simp only [List.length_cons]
        omega
      obtain ⟨completed, nested⟩ := ih (moved _ ⟨own, below⟩) room
      exact ⟨completed, .enter nested⟩
    | @leave start stop calls _ own paired after =>
      have total := length_update running owner calls
      simp only [before, List.length_cons] at total
      cases active with
      | nil =>
        simp only [List.length_nil] at enough
        omega
      | cons latest active =>
        have room : ∑ strand, (Function.update running owner calls strand).length ≤
            active.length := by
          simp only [List.length_cons] at enough
          omega
        obtain ⟨completed, nested⟩ := ih (moved _ ⟨own, after⟩) room
        exact ⟨(latest, (owner, stop)) :: completed, .leave trivial nested⟩

end CallNesting

end PhpProf
