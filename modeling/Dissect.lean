import Dissect.ImageFile
import Dissect.Instruction.History
import Dissect.Listing
import Dissect.Registry
import Dissect.Segment.Json
import Dissect.Sweep
import Dissect.Symbol.Json
import Dissect.Proofs.Pe.Bounded.Load
import Dissect.Proofs.Pe.Conservation
import Dissect.Proofs.Pe.Grammar
import Dissect.Proofs.Pe.Invariant
import Dissect.Proofs.Pe.Priority
import Dissect.Proofs.Pe.Resolution
import Dissect.Proofs.Pe.ThunkWidth
import Dissect.Proofs.Listing
import Dissect.Proofs.Pe.Ordinal
import Dissect.Proofs.Pe.Nameless
import Dissect.Proofs.Sweep
import Dissect.Proofs.Pe.History
import Dissect.Proofs.Registry
import Dissect.Proofs.Pe.ExportLimit
import Dissect.Proofs.Pe.ImportWalk
import Dissect.Proofs.Pe.ImportTermination
import Dissect.Proofs.Pe.ExportDirectory
import Dissect.Proofs.Pe.ImportHistory
import Dissect.Proofs.Listing.Reference
import Dissect.Proofs.Listing.Line
import Dissect.Proofs.Pe.OptionalHeader
import Dissect.Proofs.Pe.ExportHeader
import Dissect.Proofs.Pe.OrdinalText
import Dissect.Proofs.Pe.Truncation
import Dissect.Proofs.Pe.OrdinalWrites
import Dissect.Proofs.Symbol.History
import Dissect.Proofs.Instruction.History
import Dissect.Proofs.Segment.Json
import Dissect.Proofs.Symbol.Restore
import Dissect.Proofs.Pe.Terminator
import Dissect.Proofs.Options
import Dissect.Proofs.Pe.Disassembly
import Dissect.Proofs.X86.Displacement
import Dissect.Proofs.X86.Stability
