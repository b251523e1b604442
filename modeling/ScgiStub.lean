import ScgiStub.Main
import ScgiStub.Traffic
import ScgiStub.Proofs.Chunking
import ScgiStub.Proofs.Numerals
import ScgiStub.Proofs.Fields
import ScgiStub.Proofs.Grammar
import ScgiStub.Proofs.Driving
import ScgiStub.Proofs.RoundTrip
import ScgiStub.Proofs.Gate
import ScgiStub.Proofs.Delimiting
import ScgiStub.Proofs.Decoding
import ScgiStub.Proofs.OneLine
import ScgiStub.Proofs.Conservation
import ScgiStub.Proofs.Probing
import ScgiStub.Proofs.Timing
import ScgiStub.Proofs.Memory
import ScgiStub.Proofs.Regrouping
import ScgiStub.Proofs.Leftovers
import ScgiStub.Proofs.AfterFault
import ScgiStub.Proofs.Verdicts
import ScgiStub.Proofs.Visibility
import ScgiStub.Proofs.Words
import ScgiStub.Proofs.DeclaredSize
import ScgiStub.Proofs.Echo
import ScgiStub.Proofs.Insertion
import ScgiStub.Proofs.Histories
import ScgiStub.Proofs.Overrides
import ScgiStub.Proofs.Reporting
import ScgiStub.Proofs.Sleeping
