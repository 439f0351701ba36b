import Bytecode.Assembler
import Bytecode.Code.Lemmas
import Bytecode.Main
import Bytecode.Proofs.Atomicity
import Bytecode.Proofs.Codec
import Bytecode.Proofs.Draft
import Bytecode.Proofs.Prediction
import Bytecode.Proofs.Representation
import Bytecode.Proofs.Rerun
import Bytecode.Proofs.Simulation
import Bytecode.Proofs.Tiling
import Bytecode.Proofs.Lockstep
import Bytecode.Proofs.Widening
import Bytecode.Proofs.Calls
import Bytecode.Proofs.Twins
import Bytecode.Proofs.Testimony
import Bytecode.Text.Numeral.Lemmas
import Bytecode.Proofs.Printing
import Bytecode.Proofs.Reports
import Bytecode.Proofs.Isolation
import Bytecode.Proofs.Legibility
import Bytecode.Proofs.Listings
import Bytecode.Proofs.Messages
import Bytecode.Text.Unsigned.Lemmas
import Bytecode.Proofs.Items
import Bytecode.Proofs.Grammar
import Bytecode.Proofs.Overrun
import Bytecode.Proofs.Shortage
import Bytecode.Proofs.Logging
import Bytecode.Proofs.Footprint
import Bytecode.Proofs.Leftovers
import Bytecode.Proofs.Locality
import Bytecode.Proofs.Patching
import Bytecode.Proofs.Resolving
import Bytecode.Proofs.Progress
import Bytecode.Proofs.Drift
import Bytecode.Proofs.Tapes
import Bytecode.Proofs.Underlay
import Bytecode.Proofs.Statuses
import Bytecode.Proofs.Deposits
import Bytecode.Proofs.Traces
import Bytecode.Proofs.Pairs
import Bytecode.Proofs.Remainder
import Bytecode.Proofs.Reading
