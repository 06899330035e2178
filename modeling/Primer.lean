import Primer.Tree.Sketch
import Primer.Main
import Primer.Proofs.Run.Fatal
import Primer.Proofs.Run.Argument
import Primer.Proofs.Run.Isolation
import Primer.Proofs.Run.Depth
import Primer.Proofs.Run.Storage
import Primer.Proofs.Run.Constant
import Primer.Proofs.Run.Terminal
import Primer.Proofs.Run.HostStop
import Primer.Proofs.Run.Callee
import Primer.Proofs.Run.Limits
import Primer.Proofs.Account.Silence
import Primer.Proofs.Nesting.Program
import Primer.Proofs.Spelling.Program
import Primer.Proofs.Value.Index
import Primer.Proofs.Token.Mending
import Primer.Proofs.Run.Frames
import Primer.Proofs.Run.Naming
import Primer.Proofs.Run.Scalar
import Primer.Proofs.Run.Literal
