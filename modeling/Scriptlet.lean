import Scriptlet.Table
import Scriptlet.Text.CharClass
import Scriptlet.Scanner
import Scriptlet.Value.Binary
import Scriptlet.Log
import Scriptlet.Tree.Parse
import Scriptlet.Tree.Render
import Scriptlet.Frame.Tree
import Scriptlet.Session
import Scriptlet.Main
import Scriptlet.Proofs.Grammar
import Scriptlet.Proofs.Precedence
import Scriptlet.Proofs.Stream
import Scriptlet.Proofs.Agreement
import Scriptlet.Proofs.Recognition
import Scriptlet.Proofs.Congruence
import Scriptlet.Proofs.Lockstep
import Scriptlet.Proofs.Invariant
import Scriptlet.Proofs.ActiveCalls
import Scriptlet.Proofs.Scopes
import Scriptlet.Proofs.Definitions
import Scriptlet.Proofs.Limit
import Scriptlet.Proofs.Linking
import Scriptlet.Proofs.Merging
import Scriptlet.Proofs.Shadowing
import Scriptlet.Proofs.Verdict
import Scriptlet.Proofs.CorrectPrefix
import Scriptlet.Proofs.Delivery
import Scriptlet.Proofs.Shielding
import Scriptlet.Proofs.Relocation
import Scriptlet.Proofs.Unlined
import Scriptlet.Proofs.Concatenation
import Scriptlet.Proofs.Formatting
import Scriptlet.Proofs.Stepwise
import Scriptlet.Proofs.Lifecycle
import Scriptlet.Proofs.Provenance
import Scriptlet.Proofs.WrittenForms
import Scriptlet.Proofs.Legibility
import Scriptlet.Proofs.DeadCode
import Scriptlet.Proofs.SharedFrames
import Scriptlet.Proofs.LineOrder
import Scriptlet.Proofs.Transcript
import Scriptlet.Proofs.OutsideCalls
import Scriptlet.Proofs.ExactArithmetic
import Scriptlet.Proofs.TotalOrder
import Scriptlet.Proofs.Dialogue
import Scriptlet.Proofs.Progress
