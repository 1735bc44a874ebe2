import PhpProf.CallCountProofs
import PhpProf.ConfigTableProofs
import PhpProf.FuncRequestProofs
import PhpProf.GzencodeProofs
import PhpProf.NameProofs
import PhpProf.OpcodeReportProofs
import PhpProf.OpcodeRequestProofs
import PhpProf.PprofHeaderProofs
import PhpProf.PprofProcessProofs
import PhpProf.ProcessProofs
import PhpProf.RecursionProofs
import PhpProf.RequestMemoryProofs
import PhpProf.SampledRequestProofs
import PhpProf.SamplingHistoryProofs
import PhpProf.SamplingMemoryProofs
import PhpProf.SamplingProcessProofs
import PhpProf.StrandProofs
