import Forth.Engine.Allowance
import Forth.Main
import Forth.Session.Transcript
import Forth.Proofs.Congruence
import Forth.Proofs.Growth
import Forth.Proofs.Moves
import Forth.Proofs.Returns
import Forth.Proofs.Alike
import Forth.Proofs.Nested
import Forth.Proofs.Calls
import Forth.Proofs.Seated
import Forth.Proofs.Stocked
import Forth.Proofs.Threaded
import Forth.Proofs.Recompile
import Forth.Proofs.Computing
import Forth.Proofs.Integrity
import Forth.Proofs.Keeping
import Forth.Proofs.Moments
import Forth.Proofs.Recovery
import Forth.Proofs.Redefinition
import Forth.Proofs.Compiled
import Forth.Proofs.MaximalRuns
import Forth.Proofs.LineReader
import Forth.Proofs.Lockstep
import Forth.Proofs.Settings
import Forth.Proofs.Beneath
import Forth.Proofs.Layout
import Forth.Proofs.Arithmetic
import Forth.Proofs.Literals
import Forth.Proofs.Reports
import Forth.Proofs.Attempts
import Forth.Proofs.Stopping
import Forth.Proofs.Ordering
