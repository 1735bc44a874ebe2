import PhpProf.Helpers

/-! `func.c`: the call observer with its stack of start readings, and its
report. -/
namespace PhpProf
open Text

def profFuncSetup (globals : ProfGlobals) : ProfGlobals × ZendResult :=
  ({ globals with funcUnits := .empty, funcStartUnits := [] }, .success)

/-- `prof_func_teardown`. The units are freed and the table and the stack
destroyed; their stale contents stay in the model. -/
def profFuncTeardown (globals : ProfGlobals) : ProfGlobals × ZendResult := (globals, .success)

/-- `prof_observer`: whether begin and end are observed for this frame. -/
def profObserver (executeData : ExecuteData) : Bool :=
  match executeData.func with
  | none => false
  | some func => func.functionName.isSome

def profObserverBegin (globals : ProfGlobals) (clocks : UnitClocks) : ProfGlobals :=
  match getProfUnit clocks with
  | none => profAddWarning globals "get prof unit"
  | some unit => { globals with funcStartUnits := unit :: globals.funcStartUnits }

/-- The four updates of a unit at the end of a call. -/
def ProfFuncUnit.charge (funcUnit : ProfFuncUnit) (start stop : ProfUnit) : ProfFuncUnit where
  wallTime := funcUnit.wallTime + seconds start.wall stop.wall
  cpuTime := funcUnit.cpuTime + seconds start.cpu stop.cpu
  memory := funcUnit.memory + (stop.memory - start.memory).toInt64
  calls := funcUnit.calls + 1

def profObserverEnd (engine : Engine) (globals : ProfGlobals) (func : ZendFunction)
    (clocks : UnitClocks) : ProfGlobals :=
  match getProfUnit clocks with
  | none => profAddWarning globals "get prof unit"
  | some endUnit =>
    match getFunctionName engine func with
    | none => profAddWarning globals "get function name"
    | some functionName =>
      match globals.funcStartUnits with
      | [] => profAddWarning globals "get func start unit"
      | unit :: funcStartUnits =>
        let funcUnits :=
          match globals.funcUnits.find? functionName with
          | some _ => globals.funcUnits
          | none => globals.funcUnits.add functionName ⟨0, 0, 0, 0⟩
        { globals with
          funcStartUnits := funcStartUnits
          funcUnits := funcUnits.modify functionName fun funcUnit => funcUnit.charge unit endUnit }

/-! ## The report -/

/-- `ZEND_NORMALIZE_BOOL`: the sign of a number. -/
def zendNormalizeBool (n : ℚ) : Int := if n > 0 then 1 else if n < 0 then -1 else 0

def profCompareFuncUnits : Compare ProfFuncUnit := fun first second =>
  -zendNormalizeBool (first.2.wallTime - second.2.wallTime)

/-- A row of the table, before its numbers are rendered as text. `%d` reads the
unsigned number of calls as a signed one. -/
structure FuncRow where
  function : Bytes
  wall : ℚ
  cpu : ℚ
  memory : Int64
  calls : Int32
  deriving DecidableEq

/-- `prof_func_print_result`; no result when `ht_slice` does not return. The
table of units is left sorted. -/
def profFuncPrintResult (engine : Engine) (globals : ProfGlobals) :
    Option (ProfGlobals × List FuncRow) :=
  let sorted := engine.zendHashSort profCompareFuncUnits globals.funcUnits
  let globals := { globals with funcUnits := sorted }
  (htSlice (sorted.entries.map some) globals.config.funcLimit).map fun funcUnits =>
    (globals, funcUnits.entries.filterMap fun (functionName, funcUnit) =>
      if funcUnit.wallTime ≤ globals.config.funcThreshold then none
      else some
        { function := cString functionName
          wall := funcUnit.wallTime
          cpu := funcUnit.cpuTime
          memory := funcUnit.memory
          calls := funcUnit.calls.toInt32 })

end PhpProf
