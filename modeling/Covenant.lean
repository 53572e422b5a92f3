import Covenant.Assembly.Clause
import Covenant.Assembly.Contract
import Covenant.Assembly.Routes
import Covenant.Compile
import Covenant.Condition
import Covenant.Contract
import Covenant.Contract.Json
import Covenant.Digest.Sha256
import Covenant.Document
import Covenant.Document.ParseError
import Covenant.Grammar.Pattern
import Covenant.Grammar.Productions
import Covenant.Grammar.Terminal
import Covenant.Inputs
import Covenant.Json
import Covenant.Kind
import Covenant.Name
import Covenant.Order
import Covenant.Proofs.Assembly.Blocks
import Covenant.Proofs.Assembly.Canonical
import Covenant.Proofs.Assembly.Clause
import Covenant.Proofs.Assembly.Collisions
import Covenant.Proofs.Assembly.Contract
import Covenant.Proofs.Assembly.Events
import Covenant.Proofs.Assembly.Headings
import Covenant.Proofs.Assembly.Inputs
import Covenant.Proofs.Assembly.Sites
import Covenant.Proofs.Assembly.Skipping
import Covenant.Proofs.Assembly.Terms
import Covenant.Proofs.Assembly.Violations
import Covenant.Proofs.Compile
import Covenant.Proofs.Connectives
import Covenant.Proofs.Contract.Json
import Covenant.Proofs.Coverage
import Covenant.Proofs.Digits
import Covenant.Proofs.Document
import Covenant.Proofs.Grammar.Completion
import Covenant.Proofs.Grammar.Derivation
import Covenant.Proofs.Grammar.Descent
import Covenant.Proofs.Grammar.Prediction
import Covenant.Proofs.Grammar.Resumption
import Covenant.Proofs.Grammar.Shape
import Covenant.Proofs.Grammar.Terminal
import Covenant.Proofs.Json.Canonical
import Covenant.Proofs.Json.Reader
import Covenant.Proofs.Json.RoundTrip
import Covenant.Proofs.Layout
import Covenant.Proofs.Leaves
import Covenant.Proofs.Lexeme.Classes
import Covenant.Proofs.Lexeme.Numerals
import Covenant.Proofs.Name
import Covenant.Proofs.ParseError
import Covenant.Proofs.Summary
import Covenant.Proofs.Symbols
import Covenant.Proofs.TermNames
import Covenant.Proofs.Vocabulary.Alternatives
import Covenant.Routing
import Covenant.Trace
import Covenant.Tree
import Covenant.Tree.Fault
import Covenant.Tree.Slots
import Covenant.Vocabulary
import Covenant.Vocabulary.Alternatives
