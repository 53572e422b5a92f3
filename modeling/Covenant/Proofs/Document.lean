import Covenant.Document
import Covenant.Proofs.Grammar.Prediction
import Covenant.Proofs.Grammar.Shape

/-!
# Reading and writing documents

A layout of a tree gives each leaf the gap before it and the document a closing gap
(`Tree.Layout`); its text is a way to write the tree. A tree that was read comes from the grammar
(`derives_of_parse`), and the document is one of its layouts (`exists_layout_of_parse`): between
the texts of the leaves nothing is left out but blanks and comments. Conversely, every layout in
which no two words grow together is read as the tree that it was made from (`parse_text`).

Both directions treat the end of the document apart. Up to there a contract is a pattern whose
terminals are solid, that is closed, and that predicts; `Grammar.body` is this part.
-/

set_option autoImplicit false

namespace Covenant

open Lexeme (Gap opensGap skipLayout)
open Text (opensWith)

/-! ## Layouts of a tree -/

/-- A way to write a tree: a gap before each leaf, and one at the end of the document. -/
structure Tree.Layout (tree : Tree) where
  pieces : List Piece
  closing : List Char
  /-- The lexemes are the texts of the leaves, in document order. -/
  spelled : pieces.map Piece.lexeme = tree.lexemes
  /-- Between lexemes stand blanks and comments that end with their line. -/
  gaps : ∀ piece ∈ pieces, Gap false piece.gap
  /-- The document may end in a comment. -/
  closed : Gap true closing

namespace Tree.Layout

variable {tree : Tree}

/-- The document that a layout makes of a tree. -/
def text (layout : tree.Layout) : String :=
  String.ofList (laidOut layout.pieces layout.closing)

/-- No two lexemes that follow each other grow together into one word. -/
def Apart (layout : tree.Layout) : Prop :=
  layout.pieces.IsChain Piece.Apart

/-- The layout with the same gap everywhere. -/
def uniform (tree : Tree) (gap : List Char) (h : Gap false gap) : tree.Layout where
  pieces := tree.lexemes.map fun lexeme => ⟨gap, lexeme⟩
  closing := gap
  spelled := by simp [Function.comp_def]
  gaps := by
    intro piece member
    obtain ⟨lexeme, -, rfl⟩ := List.mem_map.mp member
    exact h
  closed := h.toEnd

theorem apart_uniform {gap : List Char} (h : Gap false gap) (nonempty : gap ≠ []) :
    (uniform tree gap h).Apart := by
  apply List.Pairwise.isChain
  rw [uniform, List.pairwise_map]
  exact List.pairwise_of_forall fun _ _ none => absurd none nonempty

end Tree.Layout

/-! ## The grammar up to the end of the document -/

/-- A contract without the end of the document. -/
def Grammar.body : Pattern :=
  literal "contract" ++ identifier ++ literal "\x7b" ++ Pattern.many block ++ literal "\x7d"

namespace Pattern

variable {pattern : Pattern} {nodes : List Tree}

theorem contract_eq_body :
    Grammar.contract = node .contract (sequence Grammar.body (terminal .endOfDocument)) :=
  rfl

theorem isSolid_body : Grammar.body.isSolid = true := by
  decide

theorem isClosed_body : Grammar.body.isClosed = true := by
  decide

theorem endsInName_body : Grammar.body.endsInName = false := by
  decide

theorem predicts_body : Grammar.body.predicts [] = true := by
  decide

/-- The end of the document is read where nothing but a gap is left. -/
theorem reads_endOfDocument_iff {text rest : List Char} :
    (terminal .endOfDocument).Reads text nodes rest ↔
      skipLayout text = [] ∧ nodes = [] ∧ rest = [] := by
  rw [reads_terminal_iff]
  constructor
  · rintro ⟨lexeme, read, rfl⟩
    rw [Terminal.read] at read
    split at read
    · next none =>
        cases read
        exact ⟨List.isEmpty_iff.mp none, rfl, rfl⟩
    · cases read
  · rintro ⟨none, rfl, rfl⟩
    exact ⟨[], by rw [none]; rfl, rfl⟩

/-- A contract reads a whole document: its body, and a gap after it. -/
theorem reads_contract_iff {text rest : List Char} :
    Grammar.contract.Reads text nodes rest ↔
      ∃ children closing, Grammar.body.Reads text children closing ∧ skipLayout closing = [] ∧
        nodes = [Tree.inner .contract children] ∧ rest = [] := by
  rw [contract_eq_body, reads_node_iff]
  constructor
  · rintro ⟨children, read, rfl⟩
    obtain ⟨front, closing, back, readBody, readEnd, rfl⟩ := reads_sequence_iff.mp read
    obtain ⟨none, rfl, rfl⟩ := reads_endOfDocument_iff.mp readEnd
    exact ⟨front, closing, readBody, none, by rw [List.append_nil], rfl⟩
  · rintro ⟨children, closing, readBody, none, rfl, rfl⟩
    refine ⟨children, reads_sequence_iff.mpr ?_, rfl⟩
    exact ⟨children, closing, [], readBody, reads_endOfDocument_iff.mpr ⟨none, rfl, rfl⟩,
      (List.append_nil children).symm⟩

/-- The grammar derives a contract exactly if its body derives the children. -/
theorem derives_contract_iff_body {tree : Tree} :
    Grammar.contract.Derives [tree] ↔
      ∃ children, Grammar.body.Derives children ∧ tree = Tree.inner .contract children := by
  rw [contract_eq_body]
  constructor
  · intro h
    cases h with
    | node derived =>
        cases derived with
        | sequence derivedBody derivedEnd =>
            cases derivedEnd with
            | terminal => exact ⟨_, derivedBody, congrArg _ (List.append_nil _)⟩
  · rintro ⟨children, derived, rfl⟩
    have ended : (terminal .endOfDocument).Derives [] :=
      .terminal (show Terminal.endOfDocument.Accepts [] from rfl)
    have whole := Derives.sequence derived ended
    rw [List.append_nil] at whole
    exact .node whole

/-- The leaves of a derivation are lexemes of solid terminals. -/
theorem exists_accepts_of_derives (solid : pattern.isSolid = true) (h : pattern.Derives nodes) :
    ∀ lexeme ∈ nodes.flatMap Tree.lexemes,
      ∃ t : Terminal, t.isSolid = true ∧ t.Accepts lexeme := by
  induction h with
  | @terminal t lexeme accepted =>
      intro other member
      rw [Terminal.lexemes_leaves solid, List.mem_singleton] at member
      rw [member]
      exact ⟨t, solid, accepted⟩
  | sequence _ _ ihFront ihBack =>
      rw [isSolid, Bool.and_eq_true] at solid
      rw [List.flatMap_append]
      exact List.forall_mem_append.mpr ⟨ihFront solid.1, ihBack solid.2⟩
  | first _ ih =>
      rw [isSolid, Bool.and_eq_true] at solid
      exact ih solid.1
  | second _ ih =>
      rw [isSolid, Bool.and_eq_true] at solid
      exact ih solid.2
  | skip => simp
  | take _ ih => exact ih solid
  | stop => simp
  | round _ _ ihFront ihBack =>
      rw [List.flatMap_append]
      exact List.forall_mem_append.mpr ⟨ihFront solid, ihBack solid⟩
  | node _ ih =>
      rw [List.flatMap_singleton, Tree.lexemes_inner]
      exact ih solid

end Pattern

namespace Document

variable {source : String} {tree : Tree}

/-! ## From documents to trees -/

theorem parse_eq_ok_iff :
    parse source = .ok tree ↔ Grammar.contract.Reads source.toList [tree] [] := by
  have single : ∀ {nodes rest}, Grammar.contract.Reads source.toList nodes rest →
      ∃ root, nodes = [root] ∧ rest = [] := by
    intro nodes rest h
    obtain ⟨children, closing, -, -, rfl, rfl⟩ := Pattern.reads_contract_iff.mp h
    exact ⟨_, rfl, rfl⟩
  unfold parse
  extract_lets text scan
  change ∀ {nodes rest}, scan.outcome = some (nodes, rest) → _ at single
  change _ ↔ scan.outcome = some ([tree], [])
  -- nothing more is needed of the grammar, so the run is made a variable
  clear_value scan
  cases found : scan.outcome with
  | none => simp
  | some result =>
      obtain ⟨nodes, rest⟩ := result
      obtain ⟨root, rfl, rfl⟩ := single found
      simp

/-- A tree that was read is derived by the grammar. -/
theorem derives_of_parse (h : parse source = .ok tree) : Grammar.contract.Derives [tree] := by
  obtain ⟨children, closing, readBody, -, same, -⟩ :=
    Pattern.reads_contract_iff.mp (parse_eq_ok_iff.mp h)
  obtain rfl := List.singleton_inj.mp same
  have derived : Grammar.body.Derives children :=
    Pattern.derives_of_reads Pattern.isSolid_body Pattern.isClosed_body readBody fun name =>
      absurd name (by rw [Pattern.endsInName_body]; decide)
  exact Pattern.derives_contract_iff_body.mpr ⟨children, derived, rfl⟩

/-- A document that was read is a layout of its tree. -/
theorem exists_layout_of_parse (h : parse source = .ok tree) :
    ∃ layout : tree.Layout, layout.text = source := by
  obtain ⟨children, closing, readBody, none, same, -⟩ :=
    Pattern.reads_contract_iff.mp (parse_eq_ok_iff.mp h)
  obtain rfl := List.singleton_inj.mp same
  obtain ⟨pieces, whole, spelled, gaps⟩ := Pattern.spelled_of_reads Pattern.isSolid_body readBody
  -- after the body the end of the document was read, so only a gap is left
  obtain ⟨gap, split, closed⟩ := Lexeme.exists_gap_append_skipLayout closing
  rw [none, List.append_nil] at split
  rw [none, ← split] at closed
  refine ⟨⟨pieces, closing, ?_, gaps, closed⟩, ?_⟩
  · rw [spelled, Tree.lexemes_inner]
  · rw [Tree.Layout.text, ← whole, String.ofList_toList]

/-! ## From trees to documents -/

/-- The pieces of a layout are spaced if no two words grow together. -/
theorem spaced_of_apart {pattern : Pattern} {nodes : List Tree} {pieces : List Piece}
    (solid : pattern.isSolid = true) (derived : pattern.Derives nodes)
    (spelled : pieces.map Piece.lexeme = nodes.flatMap Tree.lexemes)
    (gaps : ∀ piece ∈ pieces, Gap false piece.gap) (apart : pieces.IsChain Piece.Apart) :
    Spaced pieces := by
  have opens : ∀ piece ∈ pieces, ∃ t : Terminal, t.isSolid = true ∧
      opensWith t.opens piece.lexeme = true := by
    intro piece member
    have listed : piece.lexeme ∈ nodes.flatMap Tree.lexemes :=
      spelled ▸ List.mem_map_of_mem member
    obtain ⟨t, solidTerminal, accepted⟩ :=
      Pattern.exists_accepts_of_derives solid derived piece.lexeme listed
    exact ⟨t, solidTerminal, Terminal.opensWith_opens solidTerminal accepted⟩
  refine ⟨gaps, ?_, ?_, apart⟩
  · intro piece member none
    obtain ⟨t, -, opens⟩ := opens piece member
    rw [none] at opens
    cases opens
  · intro piece member
    obtain ⟨t, solidTerminal, opens⟩ := opens piece member
    exact Terminal.opensWith_opensGap_of_opens solidTerminal opens

/-- A layout in which no two words grow together is read as its tree. -/
theorem parse_text (derived : Grammar.contract.Derives [tree]) (layout : tree.Layout)
    (apart : layout.Apart) : parse layout.text = .ok tree := by
  obtain ⟨children, derivedBody, rfl⟩ := Pattern.derives_contract_iff_body.mp derived
  have spelled := layout.spelled
  rw [Tree.lexemes_inner] at spelled
  have spaced := spaced_of_apart Pattern.isSolid_body derivedBody spelled layout.gaps apart
  have read : Grammar.body.Reads (laidOut layout.pieces layout.closing) children
      layout.closing := by
    have predictive : Grammar.body.Predictive [] :=
      Pattern.predictive_of_predicts Pattern.isSolid_body Pattern.predicts_body
    have nothing : Pattern.Follows [] [] := by
      intro c next
      cases next
    rw [← List.append_nil layout.pieces] at spaced ⊢
    exact predictive derivedBody spelled spaced layout.closed nothing
  rw [parse_eq_ok_iff, Tree.Layout.text, String.toList_ofList]
  exact Pattern.reads_contract_iff.mpr
    ⟨children, layout.closing, read, Lexeme.skipLayout_closing layout.closed, rfl, rfl⟩

/-! ## Nothing but layout is lost -/

/-- What is read is a well-formed contract, and the document is a layout of it. -/
theorem lossless_of_parse (h : parse source = .ok tree) :
    (∃ layout : tree.Layout, layout.text = source) ∧ tree.kind = .contract ∧ tree.WellFormed :=
  ⟨exists_layout_of_parse h, Pattern.derives_contract_iff.mp (derives_of_parse h)⟩

/-- The tree of a contract with one named term, which asks for the presence of a message. -/
def presenceTree : Tree :=
  .inner .contract
    [.token "contract", .leaf .identifier "C", .token "\x7b",
      .inner .variableBlock
        [.token "variables", .token "\x7b",
          .inner .variableStatement
            [.leaf .identifier "a", .token "=",
              .inner .term
                [.inner .messageContent
                  [.token "MessageContent", .token "(", .leaf .identifier "b", .token ")"]]],
          .token "\x7d"],
      .token "\x7d"]

theorem parse_presenceTree :
    parse "contract C\x7bvariables\x7ba=MessageContent(b)//p\n\x7d\x7d//" = .ok presenceTree := by
  rfl

/-- The comparison that was tried before the presence check leaves nothing in the tree. -/
theorem lossless_presence :
    (∃ layout : presenceTree.Layout,
      layout.text = "contract C\x7bvariables\x7ba=MessageContent(b)//p\n\x7d\x7d//") ∧
      presenceTree.kind = .contract ∧ presenceTree.WellFormed :=
  lossless_of_parse parse_presenceTree

end Document

end Covenant
