import Covenant.Assembly.Contract
import Covenant.Contract.Json
import Covenant.Digest.Sha256
import Covenant.Document

/-!
# Compiling contracts

The way from a document to its canonical contract: the text is read into a tree, and the
contract is assembled from the tree. What a caller hands over as a document may be no text at
all, and is then refused by the name of its type.
-/

set_option autoImplicit false

namespace Covenant

/-- The type of a value that is no text. -/
inductive ValueType where
  | null
  | boolean
  | integer
  | float
  | list
  | object
  deriving DecidableEq, Repr

/-- The name of the type in a report. -/
def ValueType.name : ValueType → String
  | null => "NoneType"
  | boolean => "bool"
  | integer => "int"
  | float => "float"
  | list => "list"
  | object => "dict"

/-- What a caller hands over as a document. -/
inductive Source where
  | text (text : String)
  | other (type : ValueType)
  deriving DecidableEq, Repr

/-- Why a document could not be read. -/
inductive SourceError where
  | notText (found : ValueType)
  | unreadable (error : ParseError)
  deriving DecidableEq, Repr

/-- The report on a document that could not be read. -/
def SourceError.message : SourceError → String
  | notText found => "Contract source must be str, got " ++ found.name
  | unreadable error => error.message

/-- The tree of a document. -/
def Source.tree : Source → Except SourceError Tree
  | .text document => (Document.parse document).mapError .unreadable
  | .other type => .error (.notText type)

/-- The length of a document. -/
def Source.length : Source → Nat
  | .text document => document.length
  | .other _ => 0

/-- Why a document could not be compiled. -/
inductive CompileError where
  | source (error : SourceError)
  | tree (fault : Fault)
  deriving DecidableEq, Repr

/-- The contract of a document. -/
def compile (source : Source) : Except CompileError Contract := do
  let tree ← source.tree.mapError .source
  (Contract.ofTree tree).mapError .tree

/-- The contract of a document, with the events of a run that makes the grammar ready first. -/
def compileTraced (source : Source) : Traced CompileError Contract := do
  Traced.note (.grammarReady Grammar.version)
  let tree ← Traced.ofExcept (source.tree.mapError .source)
  Traced.note (.documentRead source.length)
  (Assembly.contract tree).mapError .tree

/-- The digest of a contract: SHA-256 of its canonical JSON text. -/
def Contract.digest (contract : Contract) : String :=
  Sha256.digest contract.canonicalText

end Covenant
