import PhpProf.Request
import PhpProf.Runs

/-! A process in sampling mode, statement by statement. Setup and teardown change
the flag, the table, the handler and the timer one after another, and from the
moment the handler is installed a SIGPROF may be delivered between any two
statements. -/
namespace PhpProf

/-- Where `sampling_units` is in its life. -/
inductive TableState where
  | uninitialised
  | initialised
  | destroyed
  deriving DecidableEq

/-- The statement that runs next: RINIT up to its call of `prof_sampling_setup`,
one of setup, the script and the report, or one of `prof_sampling_teardown`. -/
inductive Position where
  | rinit
  | setupEnable
  | setupInit
  | setupSignal
  | setupTimer
  | serving
  | teardownDisable
  | teardownTimer
  | teardownUnits
  | teardownDestroy
  deriving DecidableEq

structure SamplingProcess where
  globals : ProfGlobals
  samplingUnits : TableState
  handlerInstalled : Bool
  next : Position

namespace SamplingProcess

/-- A process before its first request. -/
def fresh (config : ProfConfig) : SamplingProcess where
  globals := .fresh config
  samplingUnits := .uninitialised
  handlerInstalled := false
  next := .rinit

/-- Run the next statement. The clock and the timer answer; the loop that frees
the units is one statement, and so is leaving the script and the report. A failed
RINIT, setup or teardown ends the request. -/
def statement (process : SamplingProcess) (answers : RinitEnv) : SamplingProcess :=
  let globals := process.globals
  match process.next with
  | .rinit =>
    let globals := { profInitErrors globals with startTime := getWallTime answers.realtime }
    { process with
      globals := globals
      next := if globals.startTime = 0 then .rinit else .setupEnable }
  | .setupEnable =>
    { process with globals := { globals with samplingEnabled := true }, next := .setupInit }
  | .setupInit =>
    { process with
      globals := { globals with samplingUnits := .empty }
      samplingUnits := .initialised
      next := .setupSignal }
  | .setupSignal => { process with handlerInstalled := true, next := .setupTimer }
  | .setupTimer =>
    let usec := globals.config.samplingInterval.toInt64
    let timeout : Itimerval := ⟨⟨0, usec⟩, ⟨0, usec⟩⟩
    { process with next := if answers.setitimer timeout then .serving else .rinit }
  | .serving => { process with next := .teardownDisable }
  | .teardownDisable =>
    { process with globals := { globals with samplingEnabled := false }, next := .teardownTimer }
  | .teardownTimer =>
    let noTimeout : Itimerval := ⟨⟨0, 0⟩, ⟨0, 0⟩⟩
    { process with next := if answers.setitimer noTimeout then .teardownUnits else .rinit }
  | .teardownUnits => { process with next := .teardownDestroy }
  | .teardownDestroy => { process with samplingUnits := .destroyed, next := .rinit }

/-- What can happen next. A delivery that makes the handler use a destroyed table can
happen too; C leaves open what follows, and the model goes on with the old contents.
A statement of the report leaves whatever units and errors it likes, and changes
nothing else. -/
inductive Action where
  | statement (answers : RinitEnv)
  | report (samplingUnits : OrderedTable Bytes ProfSamplingUnit) (errors : List ProfError)
  | deliver (executeData : List ExecuteData)

def perform (engine : Engine) (process : SamplingProcess) : Action → Option SamplingProcess
  | .statement answers => some (process.statement answers)
  | .report samplingUnits errors =>
    if process.next = .serving then
      some { process with globals := { process.globals with samplingUnits, errors } }
    else none
  | .deliver executeData =>
    if process.handlerInstalled then
      some { process with globals := profSigprofHandler engine process.globals executeData }
    else none

end SamplingProcess

end PhpProf
