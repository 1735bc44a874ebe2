import PhpProf.ConfigProofs

/-! The configuration as one table of rules. A rule says where a setting is read,
what its texts mean and what it is without one; `build_config` accepts exactly
the environments the table accepts, and every field follows its own rule. -/
namespace PhpProf.ConfigTableProofs
open Text

/-! ## The table -/

inductive SettingName where
  | mode
  | outputMode
  | samplingInterval
  | samplingLimit
  | samplingThreshold
  | funcLimit
  | funcThreshold
  | opcodeThreshold
  deriving DecidableEq

/-- What a field of the configuration holds. -/
def SettingName.Value : SettingName → Type
  | .mode => ProfMode
  | .outputMode => ProfOutputMode
  | .samplingInterval | .samplingLimit | .samplingThreshold | .funcLimit => UInt64
  | .funcThreshold | .opcodeThreshold => ℚ

def field (config : ProfConfig) : (name : SettingName) → name.Value
  | .mode => config.mode
  | .outputMode => config.outputMode
  | .samplingInterval => config.samplingInterval
  | .samplingLimit => config.samplingLimit
  | .samplingThreshold => config.samplingThreshold
  | .funcLimit => config.funcLimit
  | .funcThreshold => config.funcThreshold
  | .opcodeThreshold => config.opcodeThreshold

/-- A row of the table; a text that is not valid has no meaning. -/
structure Rule (α : Type) where
  iniName : String
  envName : String
  default : α
  meaning : Bytes → Option α

def wordMeaning {α : Type} (words : List (String × α)) (text : Bytes) : Option α :=
  (words.find? fun word => text = ascii word.1).map Prod.snd

/-- What `parse_uint` makes of the text, if that is not too small. -/
def uintMeaning (least : UInt64) (text : Bytes) : Option UInt64 :=
  match parseUint text 0 with
  | (true, number) => if least ≤ number then some number else none
  | (false, _) => none

/-- What `parse_double` makes of the text. -/
def doubleMeaning (zendStrtod : Bytes → ℚ × Nat) (text : Bytes) : Option ℚ :=
  match parseDouble zendStrtod text 0 with
  | (true, number) => some number
  | (false, _) => none

def rule (zendStrtod : Bytes → ℚ × Nat) : (name : SettingName) → Rule name.Value
  | .mode => ⟨"prof.mode", "PROF_MODE", ProfMode.none,
      wordMeaning [("sampling", .sampling), ("func", .func), ("opcode", .opcode)]⟩
  | .outputMode => ⟨"prof.output_mode", "PROF_OUTPUT_MODE", ProfOutputMode.console,
      wordMeaning [("console", .console), ("callgrind", .callgrind), ("pprof", .pprof)]⟩
  | .samplingInterval =>
    ⟨"prof.sampling_interval", "PROF_SAMPLING_INTERVAL", (1000 : UInt64), uintMeaning 100⟩
  | .samplingLimit => ⟨"prof.sampling_limit", "PROF_SAMPLING_LIMIT", (20 : UInt64), uintMeaning 1⟩
  | .samplingThreshold =>
    ⟨"prof.sampling_threshold", "PROF_SAMPLING_THRESHOLD", (1 : UInt64), uintMeaning 0⟩
  | .funcLimit => ⟨"prof.func_limit", "PROF_FUNC_LIMIT", (50 : UInt64), uintMeaning 1⟩
  | .funcThreshold =>
    ⟨"prof.func_threshold", "PROF_FUNC_THRESHOLD", (1 / 1000000 : ℚ), doubleMeaning zendStrtod⟩
  | .opcodeThreshold =>
    ⟨"prof.opcode_threshold", "PROF_OPCODE_THRESHOLD", (0 : ℚ), doubleMeaning zendStrtod⟩

/-- The text a setting has: that of the ini file, else that of the environment;
an empty text counts as none. -/
def effective (env : ConfigEnv) (iniName envName : String) : Option Bytes :=
  match env.iniValue iniName, (env.getenv envName).map cString with
  | some (first :: rest), _ => some (first :: rest)
  | _, some (first :: rest) => some (first :: rest)
  | _, _ => none

namespace Rule

variable {α : Type}

/-- A rule is kept by no text and by a valid one. -/
def KeptBy (rule : Rule α) (env : ConfigEnv) : Prop :=
  ∀ text, effective env rule.iniName rule.envName = some text → (rule.meaning text).isSome

/-- The value of a rule that is kept. -/
def value (rule : Rule α) (env : ConfigEnv) : α :=
  match effective env rule.iniName rule.envName with
  | none => rule.default
  | some text => (rule.meaning text).getD rule.default

end Rule

/-! ## A block and its rule -/

theorem getConfigVar_eq_effective (env : ConfigEnv) (iniName envName : String) :
    getConfigVar env iniName envName = effective env iniName envName := by
  unfold getConfigVar effective
  cases env.iniValue iniName with
  | none =>
    cases (env.getenv envName).map cString with
    | none => rfl
    | some text => cases text <;> rfl
  | some text =>
    cases text with
    | cons first rest => rfl
    | nil =>
      cases (env.getenv envName).map cString with
      | none => rfl
      | some text => cases text <;> rfl

/-- A block reads and takes what the rule says. What it leaves behind for a
refused text does not matter. -/
structure Follows {α : Type} (setting : Setting α) (rule : Rule α) : Prop where
  iniName : setting.iniName = rule.iniName
  envName : setting.envName = rule.envName
  default : setting.default = rule.default
  accepts : ∀ text, (setting.take text setting.default).1 = (rule.meaning text).isSome
  takes : ∀ text value, rule.meaning text = some value →
    (setting.take text setting.default).2 = value

theorem Follows.kept_iff {α : Type} {setting : Setting α} {rule : Rule α}
    (follows : Follows setting rule) (env : ConfigEnv) :
    (setting.read env).1 = true ↔ rule.KeptBy env := by
  unfold Setting.read Rule.KeptBy
  rw [getConfigVar_eq_effective, follows.iniName, follows.envName]
  cases effective env rule.iniName rule.envName with
  | none => simp
  | some text => simp [follows.accepts]

theorem Follows.value_eq {α : Type} {setting : Setting α} {rule : Rule α}
    (follows : Follows setting rule) {env : ConfigEnv} (kept : rule.KeptBy env) :
    (setting.read env).2 = rule.value env := by
  unfold Setting.read Rule.value
  unfold Rule.KeptBy at kept
  rw [getConfigVar_eq_effective, follows.iniName, follows.envName]
  cases found : effective env rule.iniName rule.envName with
  | none => exact follows.default
  | some text =>
    obtain ⟨value, meant⟩ := Option.isSome_iff_exists.mp (kept text found)
    simp only [meant, Option.getD_some]
    exact follows.takes text value meant

theorem takeWord_follows {α : Type} (iniName envName warning : String) (default : α)
    (words : List (String × α)) :
    Follows ⟨iniName, envName, default, takeWord words, warning⟩
      ⟨iniName, envName, default, wordMeaning words⟩ := by
  refine ⟨rfl, rfl, rfl, fun text => ?_, fun text value meant => ?_⟩
  · simp only [takeWord, wordMeaning]
    cases words.find? fun word => text = ascii word.1 with
    | none => rfl
    | some word => rfl
  · obtain ⟨word, found, rfl⟩ := Option.map_eq_some_iff.mp meant
    simp only [takeWord, found]

/-- Whether a text is an integer, and which, does not depend on what `*res` held. -/
theorem parseUint_cases (text : Bytes) :
    (∀ res, parseUint text res = (false, res)) ∨ ∃ number, ∀ res,
      parseUint text res = (true, number) := by
  simp only [parseUint]
  split
  · exact .inl fun _ => rfl
  · split
    · exact .inl fun _ => rfl
    · exact .inr ⟨_, fun _ => rfl⟩

theorem parseDouble_cases (zendStrtod : Bytes → ℚ × Nat) (text : Bytes) :
    (∀ res, parseDouble zendStrtod text res = (false, res)) ∨ ∃ number, 0 ≤ number ∧ ∀ res,
      parseDouble zendStrtod text res = (true, number) := by
  simp only [parseDouble]
  split
  · exact .inl fun _ => rfl
  · split
    · exact .inl fun _ => rfl
    · next nonnegative => exact .inr ⟨_, not_lt.mp nonnegative, fun _ => rfl⟩

theorem takeUint_follows (iniName envName warning : String) (default least : UInt64) :
    Follows ⟨iniName, envName, default, takeUint least, warning⟩
      ⟨iniName, envName, default, uintMeaning least⟩ := by
  refine ⟨rfl, rfl, rfl, fun text => ?_, fun text value meant => ?_⟩
  · rcases parseUint_cases text with refused | ⟨number, accepted⟩
    · simp [takeUint, uintMeaning, refused]
    · by_cases small : number < least
      · simp [takeUint, uintMeaning, accepted, small, UInt64.not_le.mpr small]
      · simp [takeUint, uintMeaning, accepted, small, UInt64.not_lt.mp small]
  · rcases parseUint_cases text with refused | ⟨number, accepted⟩
    · simp [uintMeaning, refused] at meant
    · simp only [uintMeaning, accepted, Option.ite_none_right_eq_some, Option.some.injEq] at meant
      simp [takeUint, accepted, meant.2]

/-- Zero is no bound. -/
theorem takeUint_zero : takeUint 0 = parseUint := by
  funext value res
  simp [takeUint]

theorem parseUint_follows (iniName envName warning : String) (default : UInt64) :
    Follows ⟨iniName, envName, default, parseUint, warning⟩
      ⟨iniName, envName, default, uintMeaning 0⟩ := by
  rw [← takeUint_zero]
  exact takeUint_follows ..

theorem parseDouble_follows (zendStrtod : Bytes → ℚ × Nat) (iniName envName warning : String)
    (default : ℚ) :
    Follows ⟨iniName, envName, default, parseDouble zendStrtod, warning⟩
      ⟨iniName, envName, default, doubleMeaning zendStrtod⟩ := by
  refine ⟨rfl, rfl, rfl, fun text => ?_, fun text value meant => ?_⟩
  · rcases parseDouble_cases zendStrtod text with refused | ⟨number, -, accepted⟩
    · simp [doubleMeaning, refused]
    · simp [doubleMeaning, accepted]
  · rcases parseDouble_cases zendStrtod text with refused | ⟨number, -, accepted⟩
    · simp [doubleMeaning, refused] at meant
    · simpa [doubleMeaning, accepted] using meant

/-! ## `build_config` and the table -/

/-- The block of `build_config` for a field. -/
def settingOf (zendStrtod : Bytes → ℚ × Nat) : (name : SettingName) → Setting name.Value
  | .mode => modeSetting
  | .outputMode => outputModeSetting
  | .samplingInterval => samplingIntervalSetting
  | .samplingLimit => samplingLimitSetting
  | .samplingThreshold => samplingThresholdSetting
  | .funcLimit => funcLimitSetting
  | .funcThreshold => funcThresholdSetting zendStrtod
  | .opcodeThreshold => opcodeThresholdSetting zendStrtod

/-- Every block follows the rule of its own field. -/
theorem settingOf_follows (zendStrtod : Bytes → ℚ × Nat) (name : SettingName) :
    Follows (settingOf zendStrtod name) (rule zendStrtod name) := by
  cases name with
  | mode => exact takeWord_follows ..
  | outputMode => exact takeWord_follows ..
  | samplingInterval => exact takeUint_follows ..
  | samplingLimit => exact takeUint_follows ..
  | samplingThreshold => exact parseUint_follows ..
  | funcLimit => exact takeUint_follows ..
  | funcThreshold => exact parseDouble_follows ..
  | opcodeThreshold => exact parseDouble_follows ..

theorem valid_iff_settings (env : ConfigEnv) :
    env.Valid ↔ ∀ name, ((settingOf env.zendStrtod name).read env).1 = true := by
  constructor
  · intro valid name
    cases name with
    | mode => exact valid.mode
    | outputMode => exact valid.outputMode
    | samplingInterval => exact valid.samplingInterval
    | samplingLimit => exact valid.samplingLimit
    | samplingThreshold => exact valid.samplingThreshold
    | funcLimit => exact valid.funcLimit
    | funcThreshold => exact valid.funcThreshold
    | opcodeThreshold => exact valid.opcodeThreshold
  · intro read
    exact ⟨read .mode, read .outputMode, read .samplingInterval, read .samplingLimit,
      read .samplingThreshold, read .funcLimit, read .funcThreshold, read .opcodeThreshold⟩

theorem field_values (env : ConfigEnv) (name : SettingName) :
    field env.values name = ((settingOf env.zendStrtod name).read env).2 := by
  cases name <;> rfl

/-- The configuration is built exactly when every rule is kept, and then every
field has the value of its rule. -/
theorem built_iff_kept {env : ConfigEnv} (commandLine : env.commandLine)
    (config : ProfConfig) :
    (∃ built, buildConfig env config = .ok built) ↔
      ∀ name, (rule env.zendStrtod name).KeptBy env := by
  simp only [buildConfig_ok_iff commandLine, exists_and_left, exists_eq, and_true,
    valid_iff_settings, (settingOf_follows env.zendStrtod _).kept_iff]

theorem built_field {env : ConfigEnv} (commandLine : env.commandLine) {config built : ProfConfig}
    (accepted : buildConfig env config = .ok built) (name : SettingName) :
    field built name = (rule env.zendStrtod name).value env := by
  have kept := (built_iff_kept commandLine config).mp ⟨built, accepted⟩ name
  obtain ⟨-, rfl⟩ := (buildConfig_ok_iff commandLine).mp accepted
  rw [field_values]
  exact (settingOf_follows env.zendStrtod name).value_eq kept

/-! ## What follows -/

/-- Two environments hold the same for a setting: the same ini value, and the
same environment value unless the ini value hides it. -/
def SameSource (name : SettingName) (env other : ConfigEnv) : Prop :=
  let own := rule env.zendStrtod name
  env.iniValue own.iniName = other.iniValue own.iniName ∧
    (env.getenv own.envName = other.getenv own.envName ∨
      ∃ text, env.iniValue own.iniName = some text ∧ text ≠ [])

theorem effective_same {name : SettingName} {env other : ConfigEnv}
    (same : SameSource name env other) :
    effective env (rule env.zendStrtod name).iniName (rule env.zendStrtod name).envName =
      effective other (rule env.zendStrtod name).iniName (rule env.zendStrtod name).envName := by
  obtain ⟨ini, environment⟩ := same
  unfold effective
  rw [← ini]
  rcases environment with environment | ⟨text, found, nonempty⟩
  · rw [environment]
  · obtain ⟨first, rest, rfl⟩ := List.exists_cons_of_ne_nil nonempty
    rw [found]

/-- What every accepted configuration keeps to. -/
structure InRange (config : ProfConfig) : Prop where
  samplingInterval : 100 ≤ config.samplingInterval
  samplingLimit : 1 ≤ config.samplingLimit
  funcLimit : 1 ≤ config.funcLimit
  funcThreshold : 0 ≤ config.funcThreshold
  opcodeThreshold : 0 ≤ config.opcodeThreshold

/-- A value is the default or what some text means. -/
theorem Rule.value_cases {α : Type} (rule : Rule α) (env : ConfigEnv) :
    rule.value env = rule.default ∨ ∃ text, rule.meaning text = some (rule.value env) := by
  unfold Rule.value
  split
  · exact .inl rfl
  · next text _ =>
    cases meaning : rule.meaning text with
    | none => exact .inl rfl
    | some value => exact .inr ⟨text, meaning⟩

theorem uintMeaning_least {least value : UInt64} {text : Bytes}
    (meant : uintMeaning least text = some value) : least ≤ value := by
  unfold uintMeaning at meant
  split at meant
  · split at meant
    · next large =>
      cases meant
      exact large
    · cases meant
  · cases meant

theorem doubleMeaning_nonnegative {zendStrtod : Bytes → ℚ × Nat} {value : ℚ} {text : Bytes}
    (meant : doubleMeaning zendStrtod text = some value) : 0 ≤ value := by
  rcases parseDouble_cases zendStrtod text with refused | ⟨number, nonnegative, accepted⟩
  · simp [doubleMeaning, refused] at meant
  · rw [doubleMeaning, accepted] at meant
    cases meant
    exact nonnegative

theorem uint_value_least {rule : Rule UInt64} {least : UInt64}
    (bounded : rule.meaning = uintMeaning least) (default : least ≤ rule.default)
    (env : ConfigEnv) : least ≤ rule.value env := by
  rcases rule.value_cases env with same | ⟨text, meant⟩
  · rw [same]
    exact default
  · rw [bounded] at meant
    exact uintMeaning_least meant

theorem double_value_nonnegative {rule : Rule ℚ} {zendStrtod : Bytes → ℚ × Nat}
    (bounded : rule.meaning = doubleMeaning zendStrtod) (default : 0 ≤ rule.default)
    (env : ConfigEnv) : 0 ≤ rule.value env := by
  rcases rule.value_cases env with same | ⟨text, meant⟩
  · rw [same]
    exact default
  · rw [bounded] at meant
    exact doubleMeaning_nonnegative meant

theorem built_in_range {env : ConfigEnv} (commandLine : env.commandLine)
    {config built : ProfConfig} (accepted : buildConfig env config = .ok built) :
    InRange built := by
  have value := built_field commandLine accepted
  have small : (0 : ℚ) ≤ 1 / 1000000 := by positivity
  constructor
  · rw [show built.samplingInterval = _ from value .samplingInterval]
    apply uint_value_least
    · rfl
    · exact (by decide : (100 : UInt64) ≤ 1000)
  · rw [show built.samplingLimit = _ from value .samplingLimit]
    apply uint_value_least
    · rfl
    · exact (by decide : (1 : UInt64) ≤ 20)
  · rw [show built.funcLimit = _ from value .funcLimit]
    apply uint_value_least
    · rfl
    · exact (by decide : (1 : UInt64) ≤ 50)
  · rw [show built.funcThreshold = _ from value .funcThreshold]
    apply double_value_nonnegative
    · rfl
    · exact small
  · rw [show built.opcodeThreshold = _ from value .opcodeThreshold]
    apply double_value_nonnegative
    · rfl
    · exact le_refl (0 : ℚ)

/-- `build_config` is the table: it succeeds exactly when every rule is kept, and
then every field has the value of its own rule, is in range, and depends on
nothing but its own two sources. -/
theorem build_config_follows_table {env : ConfigEnv} (commandLine : env.commandLine)
    (config : ProfConfig) :
    ((∃ built, buildConfig env config = .ok built) ↔
        ∀ name, (rule env.zendStrtod name).KeptBy env) ∧
      ∀ built, buildConfig env config = .ok built →
        (∀ name, field built name = (rule env.zendStrtod name).value env) ∧
        InRange built ∧
        ∀ other : ConfigEnv, other.commandLine → other.zendStrtod = env.zendStrtod →
          ∀ previous changed, buildConfig other previous = .ok changed →
            ∀ name, SameSource name env other → field changed name = field built name := by
  refine ⟨built_iff_kept commandLine config, fun built accepted => ⟨?_, ?_, ?_⟩⟩
  · exact built_field commandLine accepted
  · exact built_in_range commandLine accepted
  · intro other otherCommandLine sameStrtod previous changed otherAccepted name same
    rw [built_field otherCommandLine otherAccepted, built_field commandLine accepted, sameStrtod,
      Rule.value, Rule.value, effective_same same]

/-- Two seconds of interval from the environment, everything else by default. -/
theorem interval_from_environment :
    ∃ built, buildConfig (ConfigProofs.samplingEnv "2000") (ConfigProofs.samplingConfig 0) =
        .ok built ∧
      field built .samplingInterval = (2000 : UInt64) ∧ InRange built := by
  have accepted : buildConfig (ConfigProofs.samplingEnv "2000") (ConfigProofs.samplingConfig 0) =
      .ok (ConfigProofs.samplingConfig 2000) := rfl
  have commandLine : (ConfigProofs.samplingEnv "2000").commandLine := rfl
  have follows := build_config_follows_table commandLine (ConfigProofs.samplingConfig 0)
  exact ⟨ConfigProofs.samplingConfig 2000, accepted, rfl, (follows.2 _ accepted).2.1⟩

end PhpProf.ConfigTableProofs
