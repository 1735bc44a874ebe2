import PhpProf.Globals
import PhpProf.IntegerText

/-! `prof_config.c`: the settings, from the ini file or the environment. A setting
is written while it is checked, so a refused one leaves the configuration half
built. -/
namespace PhpProf
open Text

/-- What the settings are read from. `zend_strtod` gives a value and the offset of
its end. -/
structure ConfigEnv where
  sapiName : Option Bytes
  iniValue : String → Option Bytes
  getenv : String → Option Bytes
  zendStrtod : Bytes → ℚ × Nat

/-- `parse_uint`: whether the value was accepted, and what `*res` holds then. -/
def parseUint (value : Bytes) (res : UInt64) : Bool × UInt64 :=
  let (number, last) := IntegerText.strtol value
  let longVal := Int64.ofInt number
  if last ≠ value.length then (false, res)
  else if longVal < 0 then (false, res)
  else (true, longVal.toUInt64)

/-- `parse_double`. -/
def parseDouble (zendStrtod : Bytes → ℚ × Nat) (value : Bytes) (res : ℚ) : Bool × ℚ :=
  let (doubleVal, last) := zendStrtod value
  if last ≠ value.length then (false, res)
  else if doubleVal < 0 then (false, res)
  else (true, doubleVal)

/-- `get_config_var`: the ini value unless it is empty, then the environment's. -/
def getConfigVar (env : ConfigEnv) (iniName envName : String) : Option Bytes :=
  match (env.iniValue iniName).filter (· ≠ []) with
  | some iniValue => some iniValue
  | none => ((env.getenv envName).map cString).filter (· ≠ [])

/-! ## The settings -/

/-- One setting: where it is read, its default, and how a value is taken; a value
may be written before it is refused. -/
structure Setting (α : Type) where
  iniName : String
  envName : String
  default : α
  take : Bytes → α → Bool × α
  warning : String

/-- Whether the setting is in order, and what is written for it. -/
def Setting.read {α : Type} (setting : Setting α) (env : ConfigEnv) : Bool × α :=
  match getConfigVar env setting.iniName setting.envName with
  | none => (true, setting.default)
  | some value => setting.take value setting.default

/-- One of some words. -/
def takeWord {α : Type} (words : List (String × α)) (value : Bytes) (res : α) : Bool × α :=
  match words.find? fun word => value = ascii word.1 with
  | some word => (true, word.2)
  | none => (false, res)

/-- An integer that is not below a bound. The check comes after `*res` has been
written. -/
def takeUint (least : UInt64) (value : Bytes) (res : UInt64) : Bool × UInt64 :=
  let (parsed, res) := parseUint value res
  (parsed && !(res < least), res)

def modeSetting : Setting ProfMode where
  iniName := "prof.mode"
  envName := "PROF_MODE"
  default := .none
  take := takeWord [("sampling", .sampling), ("func", .func), ("opcode", .opcode)]
  warning := "invalid prof mode"

def outputModeSetting : Setting ProfOutputMode where
  iniName := "prof.output_mode"
  envName := "PROF_OUTPUT_MODE"
  default := .console
  take := takeWord [("console", .console), ("callgrind", .callgrind), ("pprof", .pprof)]
  warning := "invalid prof output mode"

def samplingIntervalSetting : Setting UInt64 where
  iniName := "prof.sampling_interval"
  envName := "PROF_SAMPLING_INTERVAL"
  default := 1000
  take := takeUint 100
  warning := "invalid prof sampling interval"

def samplingLimitSetting : Setting UInt64 where
  iniName := "prof.sampling_limit"
  envName := "PROF_SAMPLING_LIMIT"
  default := 20
  take := takeUint 1
  warning := "invalid prof sampling limit"

def samplingThresholdSetting : Setting UInt64 where
  iniName := "prof.sampling_threshold"
  envName := "PROF_SAMPLING_THRESHOLD"
  default := 1
  take := parseUint
  warning := "invalid prof sampling threshold"

def funcLimitSetting : Setting UInt64 where
  iniName := "prof.func_limit"
  envName := "PROF_FUNC_LIMIT"
  default := 50
  take := takeUint 1
  warning := "invalid prof func limit"

def funcThresholdSetting (zendStrtod : Bytes → ℚ × Nat) : Setting ℚ where
  iniName := "prof.func_threshold"
  envName := "PROF_FUNC_THRESHOLD"
  default := 1 / 1000000
  take := parseDouble zendStrtod
  warning := "invalid prof func threshold"

def opcodeThresholdSetting (zendStrtod : Bytes → ℚ × Nat) : Setting ℚ where
  iniName := "prof.opcode_threshold"
  envName := "PROF_OPCODE_THRESHOLD"
  default := 0
  take := parseDouble zendStrtod
  warning := "invalid prof opcode threshold"

/-! ## Building the configuration -/

/-- What is left when a setting is refused, and the warning that is raised. -/
structure ConfigFailure where
  config : ProfConfig
  warning : String
  deriving DecidableEq

/-- Write a setting, and give up when it is not in order. -/
def Setting.store {α : Type} (setting : Setting α) (env : ConfigEnv) (write : α → ProfConfig) :
    Except ConfigFailure ProfConfig :=
  let (valid, value) := setting.read env
  if valid then .ok (write value) else .error ⟨write value, setting.warning⟩

/-- `build_config`; an error is `FAILURE`. -/
def buildConfig (env : ConfigEnv) (config : ProfConfig) : Except ConfigFailure ProfConfig := do
  let config := { config with mode := .none }
  -- a SAPI without a name counts as the command line
  if env.sapiName.any fun name => cString name ≠ ascii "cli" then return config
  let config ← modeSetting.store env fun mode => { config with mode }
  let config ← outputModeSetting.store env fun outputMode => { config with outputMode }
  let config ← samplingIntervalSetting.store env fun samplingInterval =>
    { config with samplingInterval }
  let config ← samplingLimitSetting.store env fun samplingLimit => { config with samplingLimit }
  let config ← samplingThresholdSetting.store env fun samplingThreshold =>
    { config with samplingThreshold }
  let config ← funcLimitSetting.store env fun funcLimit => { config with funcLimit }
  let config ← (funcThresholdSetting env.zendStrtod).store env fun funcThreshold =>
    { config with funcThreshold }
  (opcodeThresholdSetting env.zendStrtod).store env fun opcodeThreshold =>
    { config with opcodeThreshold }

theorem Setting.store_eq_ok {α : Type} {setting : Setting α} {env : ConfigEnv}
    {write : α → ProfConfig} {built : ProfConfig} :
    setting.store env write = .ok built ↔
      (setting.read env).1 = true ∧ built = write (setting.read env).2 := by
  unfold Setting.store
  obtain ⟨valid, value⟩ := setting.read env
  cases valid with
  | true => simp [eq_comm]
  | false => simp

/-- What follows a setting goes on from what was written, unless it was refused. -/
theorem Setting.store_bind_eq_ok {α : Type} {setting : Setting α} {env : ConfigEnv}
    {write : α → ProfConfig} {next : ProfConfig → Except ConfigFailure ProfConfig}
    {built : ProfConfig} :
    (setting.store env write >>= next) = .ok built ↔
      (setting.read env).1 = true ∧ next (write (setting.read env).2) = .ok built := by
  unfold Setting.store
  obtain ⟨valid, value⟩ := setting.read env
  cases valid with
  | true => simp [bind, Except.bind]
  | false => simp [bind, Except.bind]

/-- Every setting is in order. -/
structure ConfigEnv.Valid (env : ConfigEnv) : Prop where
  mode : (modeSetting.read env).1 = true
  outputMode : (outputModeSetting.read env).1 = true
  samplingInterval : (samplingIntervalSetting.read env).1 = true
  samplingLimit : (samplingLimitSetting.read env).1 = true
  samplingThreshold : (samplingThresholdSetting.read env).1 = true
  funcLimit : (funcLimitSetting.read env).1 = true
  funcThreshold : ((funcThresholdSetting env.zendStrtod).read env).1 = true
  opcodeThreshold : ((opcodeThresholdSetting env.zendStrtod).read env).1 = true

/-- The configuration the settings come to. -/
def ConfigEnv.values (env : ConfigEnv) : ProfConfig where
  mode := (modeSetting.read env).2
  outputMode := (outputModeSetting.read env).2
  samplingInterval := (samplingIntervalSetting.read env).2
  samplingLimit := (samplingLimitSetting.read env).2
  samplingThreshold := (samplingThresholdSetting.read env).2
  funcLimit := (funcLimitSetting.read env).2
  funcThreshold := ((funcThresholdSetting env.zendStrtod).read env).2
  opcodeThreshold := ((opcodeThresholdSetting env.zendStrtod).read env).2

/-- `strcmp(sapi_module.name, "cli") == 0`, or no name at all. -/
def ConfigEnv.commandLine (env : ConfigEnv) : Prop :=
  (env.sapiName.any fun name => cString name ≠ ascii "cli") = false

theorem buildConfig_elsewhere {env : ConfigEnv} (elsewhere : ¬ env.commandLine)
    (config : ProfConfig) : buildConfig env config = .ok { config with mode := .none } := by
  unfold ConfigEnv.commandLine at elsewhere
  rw [Bool.not_eq_false] at elsewhere
  unfold buildConfig
  rw [if_pos elsewhere]
  rfl

/-- A configuration is accepted when every setting is in order, and nothing of
the previous one is left in it. -/
theorem buildConfig_ok_iff {env : ConfigEnv} (commandLine : env.commandLine)
    {config built : ProfConfig} :
    buildConfig env config = .ok built ↔ env.Valid ∧ built = env.values := by
  unfold buildConfig
  rw [if_neg (by rw [show _ = false from commandLine]; exact Bool.false_ne_true)]
  simp only [Setting.store_bind_eq_ok, Setting.store_eq_ok]
  constructor
  · rintro ⟨mode, outputMode, samplingInterval, samplingLimit, samplingThreshold, funcLimit,
      funcThreshold, opcodeThreshold, rfl⟩
    exact ⟨⟨mode, outputMode, samplingInterval, samplingLimit, samplingThreshold, funcLimit,
      funcThreshold, opcodeThreshold⟩, rfl⟩
  · rintro ⟨valid, rfl⟩
    exact ⟨valid.mode, valid.outputMode, valid.samplingInterval, valid.samplingLimit,
      valid.samplingThreshold, valid.funcLimit, valid.funcThreshold, valid.opcodeThreshold, rfl⟩

end PhpProf
