import Mathlib.Data.Fin.VecNotation
import Mathlib.Tactic.FinCases
import PhpProf.FuncProofs

/-! The call observer under fibers. All strands share one stack of start
readings, so a strand's end may take the start of another strand. The number of
calls never suffers; the sums are each call's own when the strands together are
nested. -/
namespace PhpProf.StrandProofs
open CallNesting FuncProofs OrderedTable

variable {engine : Engine} {σ : Type} [DecidableEq σ]

/-- What reaches the observer: the events of all strands, in real time. -/
def delivered (events : List (σ × CallEvent Activation)) : List (CallEvent Activation) :=
  events.map Prod.snd

/-- A call without the name of its strand. -/
def untag (call : (σ × Activation) × (σ × Activation)) : Activation × Activation :=
  (call.1.2, call.2.2)

/-- Each strand on its own is nested and completes these calls. -/
def StrandsComplete (events : List (σ × CallEvent Activation))
    (own : σ → List (Activation × Activation)) : Prop :=
  ∀ strand, Nested SameFunction [] (eventsOf strand events) (own strand)

/-- Every end finds a begin of its own strand as the latest one still open. -/
def OwnBeginOnTop (events : List (σ × CallEvent Activation)) : Prop :=
  ∃ calls, Nested SameStrand [] (merged events) calls

theorem callsNamed_untag (name : Bytes) (calls : List ((σ × Activation) × (σ × Activation)))
    (strand : σ) :
    ((calls.filter fun call => functionName engine call.2.2.func = name).filter fun call =>
        call.2.1 = strand).map untag =
      callsNamed engine name (callsOf strand calls) := by
  rw [callsNamed, callsOf, List.filter_map, List.filter_filter, List.filter_filter]
  refine congrArg (List.map untag) (List.filter_congr fun call _ => ?_)
  exact Bool.and_comm ..

/-- A sum over the calls of one function is the sum over the strands. -/
theorem sum_named_by_strand [Fintype σ] (engine : Engine) {M : Type} [AddCommMonoid M]
    (weigh : Activation × Activation → M) (name : Bytes)
    (calls : List ((σ × Activation) × (σ × Activation))) :
    ((callsNamed engine name (calls.map untag)).map weigh).sum =
      ∑ strand, ((callsNamed engine name (callsOf strand calls)).map weigh).sum := by
  have named : callsNamed engine name (calls.map untag) =
      (calls.filter fun call => functionName engine call.2.2.func = name).map untag := by
    rw [callsNamed, List.filter_map]
    rfl
  rw [named, List.map_map, sum_by_strand fun call => call.2.1]
  simp only [← callsNamed_untag, List.map_map]

/-! ## What all strands together are owed -/

/-- The account of a function over all strands, each call with its own begin. -/
def strandsAccount [Fintype σ] (engine : Engine) (difference : UInt64 → UInt64 → ℚ)
    (own : σ → List (Activation × Activation)) (name : Bytes) : ProfFuncUnit where
  wallTime := ∑ strand, (accountOf difference (callsNamed engine name (own strand))).wallTime
  cpuTime := ∑ strand, (accountOf difference (callsNamed engine name (own strand))).cpuTime
  memory := Int64.ofInt (∑ strand, ((callsNamed engine name (own strand)).map grown).sum)
  calls := UInt32.ofNat (∑ strand, (callsNamed engine name (own strand)).length)

/-- The unit owed to a function: none until a call of it has completed. -/
def strandsUnit [Fintype σ] (engine : Engine) (difference : UInt64 → UInt64 → ℚ)
    (own : σ → List (Activation × Activation)) (name : Bytes) : Option ProfFuncUnit :=
  if ∑ strand, (callsNamed engine name (own strand)).length = 0 then none
  else some (strandsAccount engine difference own name)

theorem length_by_strand [Fintype σ] (name : Bytes)
    (calls : List ((σ × Activation) × (σ × Activation))) :
    (callsNamed engine name (calls.map untag)).length =
      ∑ strand, (callsNamed engine name (callsOf strand calls)).length := by
  have ones : ∀ calls : List (Activation × Activation),
      (calls.map fun _ => (1 : Nat)).sum = calls.length := by
    intro calls
    rw [List.map_const', List.sum_replicate_nat, Nat.mul_one]
  have total := sum_named_by_strand engine (fun _ => (1 : Nat)) name calls
  simpa only [ones] using total

/-- Whatever the pairing, the charged calls add up over the strands they end in. -/
theorem unitOf_by_strand [Fintype σ] (difference : UInt64 → UInt64 → ℚ) (name : Bytes)
    (calls : List ((σ × Activation) × (σ × Activation))) :
    unitOf difference (callsNamed engine name (calls.map untag)) =
      strandsUnit engine difference (fun strand => callsOf strand calls) name := by
  have account : accountOf difference (callsNamed engine name (calls.map untag)) =
      strandsAccount engine difference (fun strand => callsOf strand calls) name := by
    simp only [accountOf, strandsAccount, sum_named_by_strand, length_by_strand]
  rw [unitOf, strandsUnit, account, ← length_by_strand]
  simp only [List.length_eq_zero_iff]

/-- The number of calls depends only on where the calls end. -/
theorem callsNamed_length {name : Bytes} {calls others : List (Activation × Activation)}
    (stops : calls.map Prod.snd = others.map Prod.snd) :
    (callsNamed engine name calls).length = (callsNamed engine name others).length := by
  have count : ∀ calls : List (Activation × Activation), (callsNamed engine name calls).length =
      ((calls.map Prod.snd).filter fun stop => functionName engine stop.func = name).length := by
    intro calls
    rw [List.filter_map, List.length_map]
    rfl
  rw [count, count, stops]

omit [DecidableEq σ] in
theorem delivered_nested {pairs : σ × Activation → σ × Activation → Prop}
    {events : List (σ × CallEvent Activation)}
    {calls : List ((σ × Activation) × (σ × Activation))}
    (nested : Nested pairs [] (merged events) calls) :
    Nested (fun _ _ => True) [] (delivered events) (calls.map untag) := by
  have forgotten := nested_map Prod.snd nested
  rw [merged_map_snd] at forgotten
  exact forgotten

omit [DecidableEq σ] in
theorem strandsUnit_calls [Fintype σ] {difference : UInt64 → UInt64 → ℚ}
    {own others : σ → List (Activation × Activation)} {name : Bytes}
    (lengths : ∀ strand, (callsNamed engine name (own strand)).length =
      (callsNamed engine name (others strand)).length) :
    (strandsUnit engine difference own name).map ProfFuncUnit.calls =
      (strandsUnit engine difference others name).map ProfFuncUnit.calls := by
  have total := Finset.sum_congr (rfl : Finset.univ = Finset.univ) fun strand _ => lengths strand
  unfold strandsUnit
  by_cases none : ∑ strand, (callsNamed engine name (own strand)).length = 0
  · rw [if_pos none, if_pos (total ▸ none)]
  · rw [if_neg none, if_neg (total ▸ none)]
    simp only [Option.map_some, strandsAccount, total]

/-- For any interleaving of nested strands that reads every clock, nothing is
recorded, each function's calls are counted once, and each end is charged from the
latest begin still open, of whichever strand. When every end finds a begin of its
own strand on top, the sums are those of the calls' own readings. -/
theorem strands_are_accounted [Fintype σ] (engine : Engine) (globals : ProfGlobals)
    {events : List (σ × CallEvent Activation)} {own : σ → List (Activation × Activation)}
    (strands : StrandsComplete events own) (readable : AllReadable (delivered events)) :
    let after := observeAll engine (profFuncSetup globals).1 (delivered events)
    after.errors = globals.errors ∧
      (∀ name, (after.funcUnits.find? name).map ProfFuncUnit.calls =
        (strandsUnit engine seconds own name).map ProfFuncUnit.calls) ∧
      (∃ charged, Nested (fun _ _ => True) [] (delivered events) charged ∧
        ∀ name, after.funcUnits.find? name =
          unitOf seconds (callsNamed engine name charged)) ∧
      (OwnBeginOnTop events →
        (∀ name, after.funcUnits.find? name = strandsUnit engine seconds own name) ∧
        (ClocksAdvance (delivered events) →
          ∀ name, after.funcUnits.find? name = strandsUnit engine elapsed own name)) := by
  intro after
  have idle : ∑ _strand : σ, ([] : List Activation).length ≤ ([] : List (σ × Activation)).length :=
    by simp
  obtain ⟨calls, interleaved⟩ :=
    nested_interleaved (fun strand => ⟨own strand, strands strand⟩) idle
  have nested := delivered_nested interleaved
  have units : ∀ name, after.funcUnits.find? name =
      unitOf seconds (callsNamed engine name (calls.map untag)) :=
    (observed_units engine nested readable globals).2
  refine ⟨(observeAll_nested nested _ rfl readable).2, fun name => ?_,
    ⟨_, nested, units⟩, ?_⟩
  · rw [units, unitOf_by_strand]
    refine strandsUnit_calls fun strand => callsNamed_length ?_
    rw [callsOf_stops interleaved, nested_stops (strands strand)]
  · rintro ⟨paired, together⟩
    have same : (fun strand => callsOf strand paired) = own := by
      funext strand
      exact nested_unique (nested_strand together strand) (strands strand)
    have settled := delivered_nested together
    have found : ∀ name, after.funcUnits.find? name =
        unitOf seconds (callsNamed engine name (paired.map untag)) :=
      (observed_units engine settled readable globals).2
    refine ⟨fun name => ?_, fun advance name => ?_⟩
    · rw [← same, ← unitOf_by_strand]
      exact found name
    · rw [← same, ← unitOf_by_strand, ← unitOf_exact settled advance]
      exact found name

/-- A fiber runs `g` to its end while `f` of the other one is suspended. -/
def enclosedFiber : List (Fin 2 × CallEvent Activation) :=
  [(0, .enter (calledAt "f" (clocksAt 0 0 0))), (1, .enter (calledAt "g" (clocksAt 10 1 0))),
    (1, .leave (calledAt "g" (clocksAt 30 2 64))), (0, .leave (calledAt "f" (clocksAt 100 5 64)))]

/-- Two fibers take turns: `f` ends while `g` of the other one is suspended. -/
def alternatingFibers : List (Fin 2 × CallEvent Activation) :=
  [(0, .enter (calledAt "f" (clocksAt 0 0 0))), (1, .enter (calledAt "g" (clocksAt 10 1 0))),
    (0, .leave (calledAt "f" (clocksAt 100 5 64))), (1, .leave (calledAt "g" (clocksAt 200 6 64)))]

def enclosedCalls : Fin 2 → List (Activation × Activation) :=
  ![[(calledAt "f" (clocksAt 0 0 0), calledAt "f" (clocksAt 100 5 64))],
    [(calledAt "g" (clocksAt 10 1 0), calledAt "g" (clocksAt 30 2 64))]]

def alternatingCalls : Fin 2 → List (Activation × Activation) :=
  ![[(calledAt "f" (clocksAt 0 0 0), calledAt "f" (clocksAt 100 5 64))],
    [(calledAt "g" (clocksAt 10 1 0), calledAt "g" (clocksAt 200 6 64))]]

theorem enclosed_fiber_is_accounted :
    (observeAll php (profFuncSetup funcGlobals).1 (delivered enclosedFiber)).funcUnits.find?
      (Text.ascii "f") = some ⟨100 / 1000000, 5 / 1000000, 64, 1⟩ := by
  have strands : StrandsComplete enclosedFiber enclosedCalls := by
    intro strand
    fin_cases strand
    · exact .enter (.leave rfl .done)
    · exact .enter (.leave rfl .done)
  have onTop : OwnBeginOnTop enclosedFiber :=
    ⟨_, .enter (.enter (.leave rfl (.leave rfl .done)))⟩
  have accounted := strands_are_accounted php funcGlobals strands (by decide)
  rw [(accounted.2.2.2 onTop).2 (by decide)]
  decide +kernel

/-- The alternating fibers exchange their begins: `f` lasts 100 microseconds and
is charged 90. -/
theorem alternating_fibers_exchange_begins :
    ¬ ∀ (globals : ProfGlobals) (events : List (Fin 2 × CallEvent Activation))
      (own : Fin 2 → List (Activation × Activation)), StrandsComplete events own →
      AllReadable (delivered events) → ClocksAdvance (delivered events) →
      ∀ name, (observeAll php (profFuncSetup globals).1 (delivered events)).funcUnits.find? name =
        strandsUnit php elapsed own name := by
  intro always
  have strands : StrandsComplete alternatingFibers alternatingCalls := by
    intro strand
    fin_cases strand
    · exact .enter (.leave rfl .done)
    · exact .enter (.leave rfl .done)
  have claimed := always funcGlobals alternatingFibers alternatingCalls strands (by decide)
    (by decide) (Text.ascii "f")
  exact absurd claimed (by decide +kernel)

end PhpProf.StrandProofs
