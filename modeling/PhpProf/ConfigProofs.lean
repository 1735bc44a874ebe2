import PhpProf.Config
import PhpProf.Sampling

/-! What the settings accept: the integers `parse_uint` takes, and the sampling
intervals that reach the timer. -/
namespace PhpProf.ConfigProofs
open Text IntegerText

/-! ## Integers -/

/-- Exactly the literals between zero and `LONG_MAX` are accepted, each with its
value, and nothing is written otherwise. -/
structure ParsesExactly (value : Bytes) : Prop where
  accepted : ∀ number, IntegerLiteral value number → 0 ≤ number → number < 2 ^ 63 → ∀ res,
    (parseUint value res).1 = true ∧ ((parseUint value res).2.toNat : Int) = number
  refused : (∀ number, IntegerLiteral value number → number < 0 ∨ 2 ^ 63 ≤ number) → ∀ res,
    parseUint value res = (false, res)

theorem parseUint_nil (res : UInt64) : parseUint [] res = (true, 0) := rfl

theorem parseUint_not_literal {value : Bytes} (nonempty : value ≠ [])
    (other : ∀ number, ¬ IntegerLiteral value number) (res : UInt64) :
    parseUint value res = (false, res) := by
  unfold parseUint
  simp only
  rw [if_pos (strtol_not_literal nonempty other)]

theorem parseUint_negative {value : Bytes} {number : Int} (literal : IntegerLiteral value number)
    (negative : number < 0) (res : UInt64) : parseUint value res = (false, res) := by
  have converted : (Int64.ofInt (max longMin (min longMax number))).toInt =
      max longMin (min longMax number) := by
    apply Int64.toInt_ofInt_of_le
    · exact le_max_left ..
    · simp only [longMin, longMax]
      omega
  have below : Int64.ofInt (max longMin (min longMax number)) < 0 := by
    rw [Int64.lt_iff_toInt_lt, converted, Int64.toInt_zero]
    simp only [longMin, longMax]
    omega
  simp only [parseUint, strtol_literal literal, ne_eq, not_true_eq_false, ↓reduceIte, if_pos below]

/-- A literal that is not negative is accepted; one that is too large counts as
`LONG_MAX`. -/
theorem parseUint_saturates {value : Bytes} {number : Int} (literal : IntegerLiteral value number)
    (nonnegative : 0 ≤ number) (res : UInt64) :
    (parseUint value res).1 = true ∧
      ((parseUint value res).2.toNat : Int) = min (2 ^ 63 - 1) number := by
  have range : max longMin (min longMax number) = min (2 ^ 63 - 1) number := by
    simp only [longMin, longMax]
    omega
  have converted : (Int64.ofInt (min (2 ^ 63 - 1) number)).toInt = min (2 ^ 63 - 1) number := by
    apply Int64.toInt_ofInt_of_le
    · omega
    · omega
  have above : 0 ≤ Int64.ofInt (min (2 ^ 63 - 1) number) := by
    rw [Int64.le_iff_toInt_le, converted, Int64.toInt_zero]
    omega
  have kept : ¬ Int64.ofInt (min (2 ^ 63 - 1) number) < 0 := Int64.not_lt.mpr above
  simp only [parseUint, strtol_literal literal, range, ne_eq, not_true_eq_false, ↓reduceIte,
    if_neg kept, true_and]
  rw [Int64.toNat_toUInt64_of_le above, Int64.toNatClampNeg, converted]
  omega

/-- `parse_uint` keeps its promise for every text but the empty one and the
numbers beyond the type. -/
theorem parse_uint_exact_iff (value : Bytes) :
    ParsesExactly value ↔
      value ≠ [] ∧ ∀ number, IntegerLiteral value number → number < 2 ^ 63 := by
  constructor
  · intro exact
    constructor
    · rintro rfl
      have refused := exact.refused (fun number literal => absurd literal not_literal_nil) 0
      cases refused
    · intro number literal
      apply Classical.byContradiction
      intro large
      have only : ∀ other, IntegerLiteral value other → other < 0 ∨ 2 ^ 63 ≤ other := by
        intro other spelled
        rw [spelled.unique literal]
        omega
      have refused := exact.refused only 0
      have accepted := (parseUint_saturates literal (by omega) 0).1
      rw [refused] at accepted
      cases accepted
  · rintro ⟨nonempty, fits⟩
    constructor
    · intro number literal nonnegative small res
      have parsed := parseUint_saturates literal nonnegative res
      rwa [min_eq_right (by omega)] at parsed
    · intro only res
      by_cases spelled : ∃ number, IntegerLiteral value number
      · obtain ⟨number, literal⟩ := spelled
        have small := fits number literal
        exact parseUint_negative literal ((only number literal).resolve_right (by omega)) res
      · exact parseUint_not_literal nonempty (not_exists.mp spelled) res

/-- One more than `LONG_MAX` is accepted as `LONG_MAX`. -/
theorem overflow_is_accepted :
    parseUint (ascii "9223372036854775808") 1000 = (true, 9223372036854775807) ∧
      ¬ ParsesExactly (ascii "9223372036854775808") := by
  have literal : IntegerLiteral (ascii "9223372036854775808") 9223372036854775808 :=
    scan_whole_iff.mp rfl
  refine ⟨rfl, fun exact => ?_⟩
  have refused := exact.refused (fun number spelled => Or.inr (spelled.unique literal).ge) 1000
  cases refused

/-! ## The sampling interval -/

/-- What `parse_uint` accepts is a `long`. -/
theorem parseUint_long {value : Bytes} {res : UInt64} (accepted : (parseUint value res).1 = true) :
    (parseUint value res).2.toNat < 2 ^ 63 := by
  by_cases nonempty : value = []
  · subst nonempty
    rw [parseUint_nil]
    decide
  · by_cases spelled : ∃ number, IntegerLiteral value number
    · obtain ⟨number, literal⟩ := spelled
      by_cases negative : number < 0
      · rw [parseUint_negative literal negative] at accepted
        cases accepted
      · have parsed := (parseUint_saturates literal (by omega) res).2
        omega
    · rw [parseUint_not_literal nonempty (not_exists.mp spelled)] at accepted
      cases accepted

theorem takeUint_range {least res : UInt64} {value : Bytes}
    (accepted : (takeUint least value res).1 = true) :
    least.toNat ≤ (takeUint least value res).2.toNat ∧
      (takeUint least value res).2.toNat < 2 ^ 63 := by
  simp only [takeUint, Bool.and_eq_true, Bool.not_eq_true', decide_eq_false_iff_not,
    UInt64.not_lt] at accepted ⊢
  exact ⟨UInt64.le_iff_toNat_le.mp accepted.2, parseUint_long accepted.1⟩

/-- A setting with a lower bound keeps it, and fits a `long`. -/
theorem read_range {setting : Setting UInt64} {least : UInt64} {env : ConfigEnv}
    (bounded : setting.take = takeUint least)
    (default : least.toNat ≤ setting.default.toNat ∧ setting.default.toNat < 2 ^ 63)
    (valid : (setting.read env).1 = true) :
    least.toNat ≤ (setting.read env).2.toNat ∧ (setting.read env).2.toNat < 2 ^ 63 := by
  unfold Setting.read at valid ⊢
  split at valid
  · exact default
  · rw [bounded] at valid ⊢
    exact takeUint_range valid

/-- An accepted interval is at least 100 µs and fits a `long`. -/
theorem sampling_config {env : ConfigEnv} {config built : ProfConfig}
    (accepted : buildConfig env config = .ok built) (sampling : built.mode = .sampling) :
    100 ≤ built.samplingInterval.toNat ∧ built.samplingInterval.toNat < 2 ^ 63 := by
  by_cases commandLine : env.commandLine
  · obtain ⟨valid, rfl⟩ := (buildConfig_ok_iff commandLine).mp accepted
    exact read_range rfl (by decide) valid.samplingInterval
  · rw [buildConfig_elsewhere commandLine] at accepted
    cases accepted
    cases sampling

/-- What `setitimer` takes: no part is negative, and the microseconds are less
than a second. -/
structure Acceptable (time : Timeval) : Prop where
  seconds : 0 ≤ time.tvSec.toInt
  microseconds : 0 ≤ time.tvUsec.toInt ∧ time.tvUsec.toInt ≤ 999999

def microseconds (time : Timeval) : Int := time.tvSec.toInt * 1000000 + time.tvUsec.toInt

/-- The timer asked for is the interval, both at first and later, and
`setitimer` has no reason to refuse it. -/
structure Arms (samplingInterval : UInt64) (timeout : Itimerval) : Prop where
  first : microseconds timeout.itValue = samplingInterval.toNat
  later : microseconds timeout.itInterval = samplingInterval.toNat
  acceptable : Acceptable timeout.itValue ∧ Acceptable timeout.itInterval

/-- `setitimer` as documented refuses nothing but unacceptable times. -/
def Documented (setitimer : Itimerval → Bool) : Prop :=
  ∀ timeout, setitimer timeout = true ↔
    Acceptable timeout.itValue ∧ Acceptable timeout.itInterval

/-- Setup arms the timer with its interval, and does not fail because of it. -/
structure IntervalUsable (globals : ProfGlobals) : Prop where
  arms : ∃ timeout, Arms globals.config.samplingInterval timeout ∧ ∀ setitimer,
    (profSamplingSetup setitimer globals).2 = if setitimer timeout then .success else .failure
  succeeds : ∀ setitimer, Documented setitimer →
    (profSamplingSetup setitimer globals).2 = .success

/-- The timer setup asks for: all of the interval is in the microseconds. -/
def timeoutOf (samplingInterval : UInt64) : Itimerval :=
  ⟨⟨0, samplingInterval.toInt64⟩, ⟨0, samplingInterval.toInt64⟩⟩

theorem profSamplingSetup_timeout (setitimer : Itimerval → Bool) (globals : ProfGlobals) :
    (profSamplingSetup setitimer globals).2 =
      if setitimer (timeoutOf globals.config.samplingInterval) then .success else .failure := rfl

theorem timeout_exact {samplingInterval : UInt64} (small : samplingInterval.toNat < 2 ^ 63) :
    microseconds ⟨0, samplingInterval.toInt64⟩ = samplingInterval.toNat := by
  simp [microseconds, toInt_of_small small]

theorem timeout_acceptable_iff {samplingInterval : UInt64}
    (small : samplingInterval.toNat < 2 ^ 63) :
    Acceptable ⟨0, samplingInterval.toInt64⟩ ↔ samplingInterval < 1000000 := by
  have million : samplingInterval < 1000000 ↔ samplingInterval.toNat < 1000000 :=
    UInt64.lt_iff_toNat_lt
  rw [million]
  constructor
  · intro acceptable
    have most := acceptable.microseconds.2
    rw [toInt_of_small small] at most
    omega
  · intro less
    constructor
    · rfl
    · rw [toInt_of_small small]
      omega

/-- The timer that decides whether setup succeeds is the one it asks for. -/
theorem IntervalUsable.acceptable {globals : ProfGlobals} (usable : IntervalUsable globals) :
    Acceptable ⟨0, globals.config.samplingInterval.toInt64⟩ := by
  obtain ⟨timeout, arms, decides⟩ := usable.arms
  have only := decides fun other => other = timeout
  rw [profSamplingSetup_timeout, if_pos (decide_eq_true rfl)] at only
  split at only
  · next same =>
    rw [← of_decide_eq_true same] at arms
    exact arms.acceptable.1
  · cases only

/-- Of the intervals `build_config` accepts, exactly those below a second can be
used: a longer one is not carried into the seconds. -/
theorem accepted_interval_usable_iff {env : ConfigEnv} {previous : ProfConfig}
    {globals : ProfGlobals} (accepted : buildConfig env previous = .ok globals.config)
    (sampling : globals.config.mode = .sampling) :
    IntervalUsable globals ↔ globals.config.samplingInterval < 1000000 := by
  obtain ⟨-, small⟩ := sampling_config accepted sampling
  constructor
  · exact fun usable => (timeout_acceptable_iff small).mp usable.acceptable
  · intro less
    have acceptable := (timeout_acceptable_iff small).mpr less
    refine ⟨⟨timeoutOf globals.config.samplingInterval, ?_, ?_⟩, ?_⟩
    · exact ⟨timeout_exact small, timeout_exact small, acceptable, acceptable⟩
    · exact fun setitimer => profSamplingSetup_timeout setitimer globals
    · intro setitimer documented
      rw [profSamplingSetup_timeout, if_pos ((documented _).mpr ⟨acceptable, acceptable⟩)]

/-- A command line with sampling and an interval in its environment. -/
def samplingEnv (interval : String) : ConfigEnv where
  sapiName := some (ascii "cli")
  iniValue := fun _ => some []
  getenv := fun name =>
    if name = "PROF_MODE" then some (ascii "sampling")
    else if name = "PROF_SAMPLING_INTERVAL" then some (ascii interval)
    else none
  zendStrtod := fun _ => (0, 0)

/-- The configuration that environment asks for. -/
def samplingConfig (samplingInterval : UInt64) : ProfConfig where
  mode := .sampling
  outputMode := .console
  samplingInterval := samplingInterval
  samplingLimit := 20
  samplingThreshold := 1
  funcLimit := 50
  funcThreshold := 1 / 1000000
  opcodeThreshold := 0

theorem just_below_a_second_is_usable :
    IntervalUsable (.fresh (samplingConfig 999999)) := by
  have accepted : buildConfig (samplingEnv "999999") (samplingConfig 0) =
      .ok (samplingConfig 999999) := rfl
  have usable := @accepted_interval_usable_iff _ _ (.fresh (samplingConfig 999999)) accepted rfl
  exact usable.mpr (by decide)

/-- A whole second is accepted and cannot be armed. -/
theorem whole_second_is_refused :
    buildConfig (samplingEnv "1000000") (samplingConfig 0) = .ok (samplingConfig 1000000) ∧
      ¬ IntervalUsable (.fresh (samplingConfig 1000000)) := by
  refine ⟨rfl, fun usable => ?_⟩
  exact absurd usable.acceptable.microseconds.2 (by decide)

end PhpProf.ConfigProofs
