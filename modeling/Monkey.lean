import Monkey.Log
import Monkey.Lexer.Stepper
import Monkey.Proofs.Moves
import Monkey.Proofs.Derivation
import Monkey.Proofs.Outcome
import Monkey.Proofs.Completeness
import Monkey.Proofs.Quiet
import Monkey.Proofs.Recognition
import Monkey.Proofs.Canonical
import Monkey.Proofs.CanonicalText
import Monkey.Proofs.RoundTrip
import Monkey.Proofs.Braces
import Monkey.Proofs.Recovery
import Monkey.Proofs.BlockEnd
import Monkey.Proofs.Height
import Monkey.Proofs.Flaws
import Monkey.Proofs.Continuation
import Monkey.Proofs.EarliestError
import Monkey.Proofs.Segmentation
import Monkey.Proofs.Separation
import Monkey.Proofs.Precedence
import Monkey.Proofs.Position
import Monkey.Proofs.Operations
import Monkey.Proofs.Demand
import Monkey.Proofs.Interleaving
import Monkey.Proofs.Economy
import Monkey.Proofs.Limit
import Monkey.Proofs.Provenance
import Monkey.Proofs.Depth
import Monkey.Proofs.Stepping
import Monkey.Proofs.Readability
import Monkey.Proofs.Logging
import Monkey.Proofs.Rewording
import Monkey.Proofs.Nesting
