import Covenant.Compile
import Covenant.Proofs.Assembly.WellFormed
import Covenant.Proofs.Document

/-!
# Compiling what was read

A document that is read gives a well-formed contract, and a well-formed contract is always
assembled (`exists_contract_of_wellFormed`). Hence a document that is read is compiled
(`compile_text_total`), and the contract does not depend on how the document is laid out
(`compile_layout`). It depends on the summary of the document alone, and on all of it
(`compile_eq_iff_summary_eq`).
-/

set_option autoImplicit false

namespace Covenant

/-- A well-formed contract is assembled. -/
theorem Tree.exists_contract_of_wellFormed {tree : Tree} (h : tree.WellFormed)
    (kind : tree.kind = .contract) : ∃ contract, Contract.ofTree tree = .ok contract :=
  ⟨_, h.ofTree_contract kind⟩

theorem compile_of_parse {source : String} {tree : Tree} (h : Document.parse source = .ok tree) :
    compile (.text source) = (Contract.ofTree tree).mapError .tree := by
  rw [compile, Source.tree, h]
  rfl

theorem compile_of_parse_error {source : String} {error : ParseError}
    (h : Document.parse source = .error error) :
    compile (.text source) = .error (.source (.unreadable error)) := by
  rw [compile, Source.tree, h]
  rfl

/-- The contract of a document that was read is that of its tree. -/
theorem exists_compile_of_parse {source : String} {tree : Tree}
    (h : Document.parse source = .ok tree) :
    ∃ contract, Contract.ofTree tree = .ok contract ∧ compile (.text source) = .ok contract := by
  obtain ⟨kind, formed⟩ := Pattern.derives_contract_iff.mp (Document.derives_of_parse h)
  obtain ⟨contract, assembled⟩ := Tree.exists_contract_of_wellFormed formed kind
  refine ⟨contract, assembled, ?_⟩
  rw [compile_of_parse h, assembled]
  rfl

/-- A text is compiled, or it is reported that it could not be read; the tree that was read is
never at fault. -/
theorem compile_text_total (source : String) :
    (∃ tree contract, Document.parse source = .ok tree ∧ Contract.ofTree tree = .ok contract ∧
      compile (.text source) = .ok contract) ∨
    (∃ error, Document.parse source = .error error ∧
      compile (.text source) = .error (.source (.unreadable error))) := by
  cases read : Document.parse source with
  | ok tree =>
      obtain ⟨contract, assembled, compiled⟩ := exists_compile_of_parse read
      exact Or.inl ⟨tree, contract, rfl, assembled, compiled⟩
  | error error => exact Or.inr ⟨error, rfl, compile_of_parse_error read⟩

/-- A contract is read back from every layout in which no two words grow together, and all these
documents compile to one contract. -/
theorem compile_layout {tree : Tree} (kind : tree.kind = .contract) (formed : tree.WellFormed) :
    ∃ contract, Contract.ofTree tree = .ok contract ∧
      ∀ layout : tree.Layout, layout.Apart →
        Document.parse layout.text = .ok tree ∧ compile (.text layout.text) = .ok contract := by
  obtain ⟨contract, assembled⟩ := Tree.exists_contract_of_wellFormed formed kind
  refine ⟨contract, assembled, fun layout apart => ?_⟩
  have read := Document.parse_text (Pattern.derives_contract_iff.mpr ⟨kind, formed⟩) layout apart
  refine ⟨read, ?_⟩
  rw [compile_of_parse read, assembled]
  rfl

/-- A comment that holds a brace stands before every leaf and at the end. -/
theorem compile_layout_commented :
    ∃ contract, Contract.ofTree Document.presenceTree = .ok contract ∧
      ∃ layout : Document.presenceTree.Layout, layout.Apart ∧
        layout.closing = ['/', '/', '\x7d', '\n'] ∧
          Document.parse layout.text = .ok Document.presenceTree ∧
            compile (.text layout.text) = .ok contract := by
  have gap : Lexeme.Gap false ('/' :: '/' :: (['\x7d'] ++ '\n' :: [])) :=
    .comment (by decide) .nil
  have formed :=
    (Pattern.derives_contract_iff.mp (Document.derives_of_parse Document.parse_presenceTree)).2
  obtain ⟨contract, assembled, compiled⟩ := compile_layout rfl formed
  have apart : (Tree.Layout.uniform Document.presenceTree _ gap).Apart :=
    Tree.Layout.apart_uniform gap (by decide)
  exact ⟨contract, assembled, _, apart, rfl, compiled _ apart⟩

/-! ## What a contract depends on -/

/-- A document that is read compiles to the contract of its summary. -/
theorem compile_eq_summary {source : String} {tree : Tree}
    (read : Document.parse source = .ok tree) :
    compile (.text source) = .ok tree.summary.contract := by
  obtain ⟨kind, formed⟩ := Pattern.derives_contract_iff.mp (Document.derives_of_parse read)
  rw [compile_of_parse read, formed.ofTree_contract kind]
  rfl

/-- Documents that are read compile to the same contract exactly if their summaries are the
same. -/
theorem compile_eq_iff_summary_eq {source other : String} {tree tree' : Tree}
    (read : Document.parse source = .ok tree) (read' : Document.parse other = .ok tree') :
    ∃ contract contract', compile (.text source) = .ok contract ∧
      compile (.text other) = .ok contract' ∧
        (contract = contract' ↔ tree.summary = tree'.summary) := by
  refine ⟨_, _, compile_eq_summary read, compile_eq_summary read', ?_⟩
  exact Summary.contract_injective.eq_iff

/-- A clause with a presence check and a quoted operand. -/
def plainSource : String :=
  "contract c\x7bclauses\x7bright r\x7brolePlayer=process terms\x7b" ++
    "MessageContent()MessageContent(\"a\"==b)\x7d\x7d\x7d\x7d"

/-- The same with a block of variables, an operation, a timeout under a name, an argument of the
presence check, a connective, another quoted text, and one more block of clauses. -/
def busySource : String :=
  "contract c\x7bvariables\x7b\x7dclauses\x7bright r\x7brolePlayer=process operation=o terms\x7b" ++
    "Timeout(s)MessageContent(d)or MessageContent('z'==b)\x7d\x7d\x7dclauses\x7b\x7d\x7d"

/-- What both documents say. -/
def sharedSummary : Summary where
  name := "c"
  beginDate := ""
  dueDate := ""
  application := ""
  process := ""
  clauses :=
    [{ category := "right", title := "r", role := "process", breach := ""
       terms := [.presence, .comparison .quoted "==" (.name "b")] }]

/-- A document is read if something is known of its tree. -/
theorem exists_parse_of_view {α : Type} {source : String} {view : Tree → α} {seen : α}
    (h : (Document.parse source).toOption.map view = some seen) :
    ∃ tree, Document.parse source = .ok tree ∧ view tree = seen := by
  obtain ⟨tree, found, said⟩ := Option.map_eq_some_iff.mp h
  cases read : Document.parse source with
  | error error =>
      rw [read] at found
      cases found
  | ok tree' =>
      rw [read] at found
      cases found
      exact ⟨tree, rfl, said⟩

theorem exists_parse_plainSource :
    ∃ tree, Document.parse plainSource = .ok tree ∧ tree.summary = sharedSummary :=
  exists_parse_of_view (by decide +kernel)

/-- Nothing that the second document adds is in the contract. -/
theorem compile_eq_iff_summary_eq_busy :
    ∃ tree tree' contract, Document.parse plainSource = .ok tree ∧
      Document.parse busySource = .ok tree' ∧ tree.summary = tree'.summary ∧
        compile (.text plainSource) = .ok contract ∧
          compile (.text busySource) = .ok contract := by
  obtain ⟨tree, read, said⟩ := exists_parse_plainSource
  obtain ⟨tree', read', said'⟩ :=
    exists_parse_of_view (show (Document.parse busySource).toOption.map Tree.summary
      = some sharedSummary by decide +kernel)
  obtain ⟨contract, contract', compiled, compiled', same⟩ := compile_eq_iff_summary_eq read read'
  have summaries : tree.summary = tree'.summary := said.trans said'.symm
  rw [← same.mpr summaries] at compiled'
  exact ⟨tree, tree', contract, read, read', summaries, compiled, compiled'⟩

end Covenant
