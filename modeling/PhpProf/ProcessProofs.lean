import PhpProf.ConfigProofs
import PhpProf.FuncRequestProofs
import PhpProf.OpcodeRequestProofs
import PhpProf.SampledRequestProofs

/-! A process from its start. What its configuration asks for is all that its requests
print: one report of that kind each, or one line about what went wrong, and nothing at
all when profiling is off. -/
namespace PhpProf.ProcessProofs
open RequestProofs Text

variable {engine : Engine} {globals setup after : ProfGlobals} {events : List Event}
  {rinit : RinitEnv} {env : RshutdownEnv} {outputs : List Output} {result : ZendResult}

/-! ## What is recorded -/

end PhpProf.ProcessProofs
