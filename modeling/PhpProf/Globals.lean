import PhpProf.Engine

/-! The module globals of the extension and the records they hold. Doubles are
taken as exact rationals. -/
namespace PhpProf

inductive ProfMode where
  | none
  | sampling
  | func
  | opcode
  deriving DecidableEq

inductive ProfOutputMode where
  | console
  | callgrind
  | pprof
  deriving DecidableEq

structure ProfConfig where
  mode : ProfMode
  outputMode : ProfOutputMode
  samplingInterval : UInt64
  samplingLimit : UInt64
  samplingThreshold : UInt64
  funcLimit : UInt64
  funcThreshold : ℚ
  opcodeThreshold : ℚ
  deriving DecidableEq

inductive ProfErrorLevel where
  | warning
  | error
  deriving DecidableEq

structure ProfError where
  level : ProfErrorLevel
  message : String
  deriving DecidableEq

/-- One reading of the two clocks, in microseconds, and of the memory in use. -/
structure ProfUnit where
  wall : UInt64
  cpu : UInt64
  memory : UInt64
  deriving DecidableEq

structure ProfSamplingUnit where
  hits : UInt64
  filename : ZendString
  lineno : UInt32
  deriving DecidableEq

/-- The seconds are exact; the source adds doubles. -/
structure ProfFuncUnit where
  wallTime : ℚ
  cpuTime : ℚ
  memory : Int64
  calls : UInt32
  deriving DecidableEq

/-- `opcode_timings`: for each file name, the seconds stored for each line. -/
abbrev OpcodeTimings := OrderedTable Bytes (OrderedTable UInt32 ℚ)

/-- `ZEND_BEGIN_MODULE_GLOBALS(prof)`. The last opcode's file is only ever
compared, so its address is all that is kept of it. -/
structure ProfGlobals where
  config : ProfConfig
  errors : List ProfError
  startTime : UInt64
  samplingEnabled : Bool
  samplingUnits : OrderedTable Bytes ProfSamplingUnit
  funcStartUnits : List ProfUnit
  funcUnits : OrderedTable Bytes ProfFuncUnit
  opcodeLastFile : Option Nat
  opcodeLastLineno : UInt32
  opcodeLastTime : UInt64
  opcodeTimings : OpcodeTimings
  deriving DecidableEq

/-- The globals of a fresh process: everything but the configuration is zero. -/
def ProfGlobals.fresh (config : ProfConfig) : ProfGlobals where
  config := config
  errors := []
  startTime := 0
  samplingEnabled := false
  samplingUnits := .empty
  funcStartUnits := []
  funcUnits := .empty
  opcodeLastFile := none
  opcodeLastLineno := 0
  opcodeLastTime := 0
  opcodeTimings := .empty

/-! ## The error list -/

def profInitErrors (globals : ProfGlobals) : ProfGlobals :=
  { globals with errors := [] }

/-- `prof_shutdown_errors`. The destroyed table is not usable until the next
`prof_init_errors`, so its old contents are simply left behind. -/
def profShutdownErrors (globals : ProfGlobals) : ProfGlobals := globals

def profAddErrorMessage (globals : ProfGlobals) (level : ProfErrorLevel) (message : String) :
    ProfGlobals :=
  { globals with errors := globals.errors ++ [⟨level, message⟩] }

def profAddWarning (globals : ProfGlobals) (message : String) : ProfGlobals :=
  profAddErrorMessage globals .warning message

def profAddError (globals : ProfGlobals) (message : String) : ProfGlobals :=
  profAddErrorMessage globals .error message

def profHasErrors (globals : ProfGlobals) : Bool := !globals.errors.isEmpty

/-- The lines `prof_print_errors` prints: every error above a warning, or one
general line when there are only warnings. -/
def profPrintErrors (globals : ProfGlobals) : List String :=
  if profHasErrors globals then
    let printed := globals.errors.filter fun error => error.level ≠ .warning
    if printed.isEmpty then ["There was error during profiling"]
    else printed.map fun error => "Profile error: " ++ error.message
  else []

/-- The line an error comes to when it is the only one. -/
def ProfError.line (error : ProfError) : String :=
  if error.level = .warning then "There was error during profiling"
  else "Profile error: " ++ error.message

theorem profPrintErrors_single {globals : ProfGlobals} {error : ProfError}
    (single : globals.errors = [error]) : profPrintErrors globals = [error.line] := by
  obtain ⟨level, message⟩ := error
  cases level <;> simp [profPrintErrors, profHasErrors, single, ProfError.line]

/-! ## Handlers and the error list -/

/-- The handler never takes an error off the list. -/
def OnlyAddsErrors {ε : Type} (handle : ProfGlobals → ε → ProfGlobals) : Prop :=
  ∀ globals event, globals.errors <+: (handle globals event).errors

theorem OnlyAddsErrors.run {ε : Type} {handle : ProfGlobals → ε → ProfGlobals}
    (adds : OnlyAddsErrors handle) (globals : ProfGlobals) (events : List ε) :
    globals.errors <+: (events.foldl handle globals).errors := by
  induction events generalizing globals with
  | nil => exact List.prefix_rfl
  | cons event rest ih => exact (adds globals event).trans (ih _)

/-- A run that ends without errors has had none from the start. -/
theorem OnlyAddsErrors.silent {ε : Type} {handle : ProfGlobals → ε → ProfGlobals}
    (adds : OnlyAddsErrors handle) {globals : ProfGlobals} {events : List ε}
    (silent : (events.foldl handle globals).errors = []) : globals.errors = [] := by
  have kept := adds.run globals events
  rwa [silent, List.prefix_nil] at kept

/-- Nothing worse than a warning has been recorded. -/
def OnlyWarnings (globals : ProfGlobals) : Prop :=
  ∀ error ∈ globals.errors, error.level = .warning

theorem addWarning_only {globals : ProfGlobals} (only : OnlyWarnings globals) (message : String) :
    OnlyWarnings (profAddWarning globals message) := by
  intro error member
  rcases List.mem_append.mp member with old | new
  · exact only error old
  · rw [List.mem_singleton.mp new]

/-- Warnings alone are not spelled out. -/
theorem printed_warnings {globals : ProfGlobals} (only : OnlyWarnings globals)
    (recorded : globals.errors ≠ []) :
    profPrintErrors globals = ["There was error during profiling"] := by
  have spelled : globals.errors.filter (fun error => error.level ≠ .warning) = [] := by
    rw [List.filter_eq_nil_iff]
    intro error member
    simp [only error member]
  have held : profHasErrors globals = true := by simpa [profHasErrors] using recorded
  simp only [profPrintErrors, held, ↓reduceIte, spelled, List.isEmpty_nil]

end PhpProf
