import Covenant.Proofs.Compile
import Covenant.Proofs.Grammar.Completion
import Mathlib.Data.List.Infix

/-!
# Digits of numbers and dates

Numbers and dates go from the document to the contract as they are written. Their form is fixed
(`Lexeme.IsNumeral`, `Lexeme.IsDate`, `Lexeme.IsDatetime`), but a digit in them is a decimal digit
of any script. So they need not be ASCII texts, as what reads the contract may expect.

Every other character of a number or a date is an ASCII character (`Lexeme.IsDigital`). Main
statement: the numbers and dates of a compiled contract stand in its document, they have the form
above, and one of them is an ASCII text exactly if its digits are `0` to `9`; this is so for all of
them if the document has no other digits. All texts of the form occur (`digits_of_parse`).
-/

set_option autoImplicit false

namespace Covenant

/-! ## Characters of numbers and dates -/

namespace Lexeme

variable {text front back : List Char}

/-- All characters are ASCII characters. -/
def IsAscii (text : List Char) : Prop :=
  ∀ c ∈ text, c.toNat < 0x80

/-- The decimal digits in the text are `0` to `9`. -/
def HasPlainDigits (text : List Char) : Prop :=
  ∀ c ∈ text, Text.isDecimalDigit c = true → c.isDigit = true

/-- All characters but the decimal digits are ASCII characters. -/
def IsDigital (text : List Char) : Prop :=
  ∀ c ∈ text, Text.isDecimalDigit c = true ∨ c.toNat < 0x80

-- character by character; a search through all characters would be an instance as well
instance : DecidablePred IsAscii := fun text =>
  List.decidableBAll (fun c : Char => c.toNat < 0x80) text

instance : DecidablePred HasPlainDigits := fun text =>
  List.decidableBAll (fun c : Char => Text.isDecimalDigit c = true → c.isDigit = true) text

theorem IsDigital.isAscii_iff (h : IsDigital text) : IsAscii text ↔ HasPlainDigits text := by
  constructor
  · intro ascii c member digit
    rwa [Text.isDecimalDigit_of_ascii (ascii c member)] at digit
  · intro plain c member
    rcases h c member with digit | ascii
    · have alphanumeric : c.isAlphanum = true := by
        rw [Char.isAlphanum, plain c member digit, Bool.or_true]
      exact Text.toNat_lt_of_isAlphanum alphanumeric
    · exact ascii

theorem isDigital_nil : IsDigital [] := by
  intro c member
  cases member

theorem IsDigital.append (h : IsDigital front) (h' : IsDigital back) :
    IsDigital (front ++ back) :=
  List.forall_mem_append.mpr ⟨h, h'⟩

theorem IsDigital.cons {c : Char} (ascii : c.toNat < 0x80) (h : IsDigital text) :
    IsDigital (c :: text) :=
  List.forall_mem_cons.mpr ⟨Or.inr ascii, h⟩

theorem isDigital_of_digits (h : ∀ c ∈ text, Text.isDecimalDigit c = true) : IsDigital text :=
  fun c member => Or.inl (h c member)

theorem IsSignPart.isDigital (h : IsSignPart text) : IsDigital text := by
  rcases h with rfl | ⟨c, signed, rfl⟩
  · exact isDigital_nil
  · simp only [isSign, Bool.or_eq_true, beq_iff_eq] at signed
    rcases signed with rfl | rfl
    · exact isDigital_nil.cons (by decide)
    · exact isDigital_nil.cons (by decide)

theorem IsFraction.isDigital (h : IsFraction text) : IsDigital text := by
  rcases h with rfl | ⟨places, digits, rfl⟩
  · exact isDigital_nil
  · exact (isDigital_of_digits digits.2).cons (by decide)

theorem IsExponent.isDigital (h : IsExponent text) : IsDigital text := by
  rcases h with rfl | ⟨mark, signPart, places, marked, signed, digits, rfl⟩
  · exact isDigital_nil
  · have ascii : mark.toNat < 0x80 := by
      simp only [isExponentMark, Bool.or_eq_true, beq_iff_eq] at marked
      rcases marked with rfl | rfl
      · decide
      · decide
    exact (signed.isDigital.append (isDigital_of_digits digits.2)).cons ascii

theorem IsNumeral.isDigital (h : IsNumeral text) : IsDigital text := by
  obtain ⟨signPart, whole, part, scale, signed, digits, fractional, exponential, rfl⟩ := h
  exact signed.isDigital.append ((isDigital_of_digits digits.2).append
    (fractional.isDigital.append exponential.isDigital))

theorem IsTriple.isDigital {count : Nat} {divider : Char} (h : IsTriple count divider text)
    (ascii : divider.toNat < 0x80) : IsDigital text := by
  obtain ⟨first, second, third, firsts, seconds, thirds, rfl⟩ := h
  have tail := (isDigital_of_digits thirds.2).cons ascii
  have middle := ((isDigital_of_digits seconds.2).append tail).cons ascii
  exact (isDigital_of_digits firsts.2).append middle

/-- A date, with or without a time. -/
def IsMoment (text : List Char) : Prop :=
  IsDate text ∨ IsDatetime text

theorem IsMoment.isDigital (h : IsMoment text) : IsDigital text := by
  rcases h with dated | ⟨day, divider, time, dated, divided, timed, rfl⟩
  · exact IsTriple.isDigital dated (by decide)
  · have ascii : divider.toNat < 0x80 := by
      rcases divided with rfl | rfl
      · decide
      · decide
    exact (IsTriple.isDigital dated (by decide)).append
      ((IsTriple.isDigital timed (by decide)).cons ascii)

end Lexeme

open Lexeme (IsNumeral IsMoment IsAscii HasPlainDigits IsDigital)

/-! ## Numbers and dates of a contract -/

/-- The number that an operand is, if it is one. -/
def Operand.literal? : Operand → Option String
  | literal text => some text
  | reference _ => none

/-- The numbers in a term: the duration of a timeout, or the literals among the operands. -/
def Term.numbers : Term → List String
  | timeout _ value => [value]
  | messageContent _ _ _ operands => operands.filterMap Operand.literal?

/-- The numbers in the terms of a contract. -/
def Contract.numbers (contract : Contract) : List String :=
  contract.clauses.flatMap fun clause => clause.terms.flatMap Term.numbers

/-- The days on which a contract begins and ends. -/
def Contract.dates (contract : Contract) : List String :=
  [contract.beginDate, contract.dueDate]

/-- The number that is kept of an operand. -/
def OperandSummary.number? : OperandSummary → Option String
  | number text => some text
  | _ => none

/-- The numbers that are kept of a term. -/
def TermSummary.numbers : TermSummary → List String
  | timeout duration => [duration]
  | presence => []
  | comparison left _ right => left.number?.toList ++ right.number?.toList

theorem TermSummary.numbers_term (name : Name) (index : Nat) (summary : TermSummary) :
    (summary.term name index).numbers = summary.numbers := by
  cases summary with
  | timeout duration => rfl
  | presence => rfl
  | comparison left comparator right => cases left <;> cases right <;> rfl

theorem ClauseSummary.numbers_clause (summary : ClauseSummary) :
    summary.clause.terms.flatMap Term.numbers = summary.terms.flatMap TermSummary.numbers := by
  rw [List.flatMap, List.flatMap, clause, map_mapIdx (TermSummary.numbers_term _)]

theorem Summary.numbers_contract (summary : Summary) :
    summary.contract.numbers
      = summary.clauses.flatMap fun clause => clause.terms.flatMap TermSummary.numbers := by
  rw [Contract.numbers, contract, List.flatMap_map]
  exact List.flatMap_congr fun clause _ => clause.numbers_clause

/-! ## Where they stand -/

namespace Tree

variable {tree node leaf : Tree} {lexeme : List Char}

theorem mem_lexemes_of_mem_children {child : Tree} (member : child ∈ tree.children)
    (found : lexeme ∈ child.lexemes) : lexeme ∈ tree.lexemes := by
  obtain ⟨node, below, carries⟩ := List.mem_filterMap.mp found
  refine List.mem_filterMap.mpr ⟨node, List.mem_cons_of_mem _ ?_, carries⟩
  rw [beneath_eq_flatMap]
  exact List.mem_flatMap.mpr ⟨child, member, below⟩

theorem mem_lexemes_of_mem_reach {levels : List (List Kind)} (member : node ∈ tree.reach levels)
    (found : lexeme ∈ node.lexemes) : lexeme ∈ tree.lexemes := by
  induction levels generalizing tree with
  | nil =>
      rw [reach_nil, List.mem_singleton] at member
      rwa [← member]
  | cons kinds levels ih =>
      obtain ⟨child, picked, member⟩ := List.mem_flatMap.mp member
      exact mem_lexemes_of_mem_children (List.mem_filter.mp picked).1 (ih member)

/-- The leaf of a terminal among the children of a node is spelled in it. -/
theorem mem_lexemes_of_makes {terminal : Terminal} (made : terminal.Makes leaf)
    (member : leaf ∈ node.children) : leaf.text.toList ∈ node.lexemes := by
  refine mem_lexemes_of_mem_children member ?_
  obtain ⟨kind, text, -, rfl⟩ := made.exists_leaf
  simp

/-- What is kept of an operand as a number is the text of a number leaf. -/
theorem makes_of_number? {text : String} (h : Shape.IsValue leaf)
    (found : leaf.operandSummary.number? = some text) :
    Terminal.number.Makes leaf ∧ text = leaf.text := by
  rcases h with made | made | made
  · have kind : leaf.kind = .number := made.kind_eq rfl
    rw [operandSummary, kind] at found
    exact ⟨made, (Option.some.inj found).symm⟩
  · have kind : leaf.kind = .string := made.kind_eq rfl
    rw [operandSummary, kind] at found
    cases found
  · have kind : leaf.kind = .identifier := made.kind_eq rfl
    rw [operandSummary, kind] at found
    cases found

/-- The numbers that are kept of an operation are leaves of it. -/
theorem WellFormed.exists_number (h : node.WellFormed)
    (kind : node.kind = .timeout ∨ node.kind = .messageContent)
    (becomes : node.namesDuration = false) {text : String}
    (member : text ∈ node.termSummary.numbers) :
    ∃ leaf ∈ node.children, Terminal.number.Makes leaf ∧ text = leaf.text := by
  rcases kind with kind | kind
  · obtain ⟨operand, isDuration, children⟩ := h.production kind rfl
    rw [termSummary, kind] at member
    rcases isDuration with made | made
    · refine ⟨operand, by simp [children], made, ?_⟩
      simpa [TermSummary.numbers, textAt, children] using member
    · -- a name is no duration
      have operandKind : operand.kind = .identifier := made.kind_eq rfl
      simp [namesDuration, kind, children, operandKind] at becomes
  · rcases h.production kind rfl with children | ⟨value, -, children⟩ |
      ⟨left, sign, right, isLeft, -, isRight, children⟩
    · rw [termSummary, kind, children] at member
      cases member
    · rw [termSummary, kind, children] at member
      cases member
    · rw [termSummary, kind, children, TermSummary.numbers, List.mem_append, Option.mem_toList,
        Option.mem_toList] at member
      rcases member with found | found
      · exact ⟨left, by simp [children], makes_of_number? isLeft found⟩
      · exact ⟨right, by simp [children], makes_of_number? isRight found⟩

/-- The numbers of the contract of a tree are numerals that are spelled in the tree. -/
theorem WellFormed.numbers_summary (h : tree.WellFormed) {text : String}
    (member : text ∈ tree.summary.contract.numbers) :
    IsNumeral text.toList ∧ text.toList ∈ tree.lexemes := by
  rw [Summary.numbers_contract, summary, List.flatMap_map] at member
  obtain ⟨clause, inTree, member⟩ := List.mem_flatMap.mp member
  rw [clauseSummary, List.flatMap_map] at member
  obtain ⟨node, listed, member⟩ := List.mem_flatMap.mp member
  obtain ⟨inClause, becomes⟩ := List.mem_filter.mp listed
  have kind := kind_of_mem_reach [[.terms], [.termOrWhen], [.term]] _ inClause
  have formed := (h.of_mem_reach inTree).of_mem_reach inClause
  obtain ⟨leaf, child, made, rfl⟩ :=
    formed.exists_number (by simpa using kind) (by simpa using becomes) member
  refine ⟨made.accepts, ?_⟩
  exact mem_lexemes_of_mem_reach inTree
    (mem_lexemes_of_mem_reach inClause (mem_lexemes_of_makes made child))

/-- The operand of a date statement is a date that is spelled in it. -/
theorem WellFormed.moment_of_date (h : node.WellFormed)
    (kind : node.kind = .beginDate ∨ node.kind = .dueDate) :
    IsMoment (node.textAt 2).toList ∧ (node.textAt 2).toList ∈ node.lexemes := by
  have stated : ∃ word moment, Shape.IsMoment moment ∧
      node.children = [token word, token "=", moment] := by
    rcases kind with kind | kind
    · exact ⟨_, h.production kind rfl⟩
    · exact ⟨_, h.production kind rfl⟩
  obtain ⟨word, moment, isMoment, children⟩ := stated
  have operand : node.textAt 2 = moment.text := by simp [textAt, children]
  have child : moment ∈ node.children := by simp [children]
  rw [operand]
  rcases isMoment with made | made
  · exact ⟨Or.inr made.accepts, mem_lexemes_of_makes made child⟩
  · exact ⟨Or.inl made.accepts, mem_lexemes_of_makes made child⟩

theorem lastOf_eq_or (read : Tree → String) (known : String) (nodes : List Tree) :
    lastOf read known nodes = known ∨ ∃ node ∈ nodes, lastOf read known nodes = read node := by
  unfold lastOf
  cases found : nodes.getLast? with
  | none => exact Or.inl rfl
  | some node => exact Or.inr ⟨node, List.mem_of_getLast? found, rfl⟩

/-- The dates of the contract of a tree are left out, or are dates that are spelled in the tree. -/
theorem WellFormed.dates_summary (h : tree.WellFormed) {text : String}
    (member : text ∈ tree.summary.contract.dates) :
    text = "" ∨ IsMoment text.toList ∧ text.toList ∈ tree.lexemes := by
  -- of several statements the last one counts, and each of them holds a date
  have stated (kind : Kind) (isDate : kind = .beginDate ∨ kind = .dueDate)
      (same : text = lastOf (textAt 2) "" (tree.reach [[.dates], [kind]])) :
      text = "" ∨ IsMoment text.toList ∧ text.toList ∈ tree.lexemes := by
    rcases lastOf_eq_or (textAt 2) "" (tree.reach [[.dates], [kind]]) with none | found
    · exact Or.inl (same.trans none)
    · obtain ⟨node, inTree, given⟩ := found
      obtain rfl : text = node.textAt 2 := same.trans given
      have nodeKind := kind_of_mem_reach [[.dates]] _ inTree
      obtain rfl : node.kind = kind := by simpa using nodeKind
      obtain ⟨isMoment, spelled⟩ := (h.of_mem_reach inTree).moment_of_date isDate
      exact Or.inr ⟨isMoment, mem_lexemes_of_mem_reach inTree spelled⟩
  rcases List.mem_pair.mp member with same | same
  · exact stated .beginDate (Or.inl rfl) same
  · exact stated .dueDate (Or.inr rfl) same

end Tree

/-- What is spelled in a tree stands in its document. -/
theorem Document.infix_of_parse {source : String} {tree : Tree} {lexeme : List Char}
    (read : Document.parse source = .ok tree) (member : lexeme ∈ tree.lexemes) :
    lexeme <:+: source.toList := by
  obtain ⟨layout, rfl⟩ := exists_layout_of_parse read
  rw [← layout.spelled] at member
  obtain ⟨piece, listed, rfl⟩ := List.mem_map.mp member
  have inPiece : piece.lexeme <:+: piece.text := (List.suffix_append piece.gap _).isInfix
  have inPieces : piece.text <:+: layout.pieces.flatMap Piece.text :=
    List.infix_of_mem_flatten (List.mem_map_of_mem listed)
  rw [Tree.Layout.text, String.toList_ofList, laidOut]
  exact (inPiece.trans inPieces).trans (List.prefix_append _ _).isInfix

/-! ## All numbers and dates occur -/

namespace Tree

variable {number moment operation : Tree}

/-- A leaf with a lexeme of the terminal. -/
def sampleLeaf (terminal : Terminal) (kind : Kind) : Tree :=
  leaf kind (String.ofList terminal.sample)

/-- The timeout that waits for the number. -/
def waiting (number : Tree) : Tree :=
  inner .timeout [token "Timeout", token "(", number, token ")"]

/-- The message condition that compares the number with itself. -/
def comparing (number : Tree) : Tree :=
  inner .messageContent
    [token "MessageContent", token "(", number, sampleLeaf .comparator .comparator, number,
      token ")"]

/-- The entry of an operation, without a connective. -/
def entryOf (operation : Tree) : Tree :=
  inner .termOrWhen [inner .term [operation]]

/-- A clause that waits for the number and compares it. -/
def statingClause (number : Tree) : Tree :=
  inner .clause
    [sampleLeaf .clauseType .clauseType, sampleLeaf .identifier .identifier, token "\x7b",
      inner .rolePlayer [token "rolePlayer", token "=", sampleLeaf .partyRole .identifier],
      inner .terms
        [token "terms", token "\x7b", entryOf (waiting number), entryOf (comparing number),
          token "\x7d"],
      token "\x7d"]

/-- A contract with this clause that begins and ends at the same moment. -/
def stating (number moment : Tree) : Tree :=
  inner .contract
    [token "contract", sampleLeaf .identifier .identifier, token "\x7b",
      inner .dates
        [token "dates", token "\x7b", inner .beginDate [token "beginDate", token "=", moment],
          inner .dueDate [token "dueDate", token "=", moment], token "\x7d"],
      inner .clauses [token "clauses", token "\x7b", statingClause number, token "\x7d"],
      token "\x7d"]

theorem makes_sampleLeaf {terminal : Terminal} {kind : Kind}
    (found : terminal.leafKind? = some kind) : terminal.Makes (sampleLeaf terminal kind) :=
  Terminal.makes_leaf found (by rw [String.toList_ofList]; exact terminal.accepts_sample)

theorem wellFormed_waiting (isNumber : Terminal.number.Makes number) :
    (waiting number).WellFormed :=
  wellFormed_inner ⟨number, Or.inl isNumber, rfl⟩
    (by simp [wellFormed_token, isNumber.wellFormed])

theorem wellFormed_comparing (isNumber : Terminal.number.Makes number) :
    (comparing number).WellFormed := by
  have sign : Terminal.comparator.Makes (sampleLeaf .comparator .comparator) :=
    makes_sampleLeaf rfl
  refine wellFormed_inner
    (Or.inr (Or.inr ⟨number, _, number, Or.inl isNumber, sign, Or.inl isNumber, rfl⟩)) ?_
  simp [wellFormed_token, isNumber.wellFormed, sign.wellFormed]

theorem wellFormed_entryOf (kind : operation.kind = .timeout ∨ operation.kind = .messageContent)
    (formed : operation.WellFormed) : (entryOf operation).WellFormed := by
  have term : (inner .term [operation]).WellFormed :=
    wellFormed_inner ⟨operation, kind, rfl⟩ (by simpa using formed)
  exact wellFormed_inner ⟨none, _, by simp, rfl, rfl⟩ (by simpa using term)

theorem wellFormed_statingClause (isNumber : Terminal.number.Makes number) :
    (statingClause number).WellFormed := by
  have category : Terminal.clauseType.Makes (sampleLeaf .clauseType .clauseType) :=
    makes_sampleLeaf rfl
  have title : Terminal.identifier.Makes (sampleLeaf .identifier .identifier) :=
    makes_sampleLeaf rfl
  have role : Terminal.partyRole.Makes (sampleLeaf .partyRole .identifier) :=
    makes_sampleLeaf rfl
  have first := wellFormed_entryOf (Or.inl rfl) (wellFormed_waiting isNumber)
  have second := wellFormed_entryOf (Or.inr rfl) (wellFormed_comparing isNumber)
  refine wellFormed_inner
    ⟨_, _, _, none, _, none, category, title, rfl, by simp, rfl, by simp, rfl⟩ ?_
  simp only [List.forall_mem_cons, List.not_mem_nil, false_implies, implies_true, and_true,
    wellFormed_token, category.wellFormed, title.wellFormed, true_and]
  constructor
  · exact wellFormed_inner ⟨_, role, rfl⟩ (by simp [wellFormed_token, role.wellFormed])
  · exact wellFormed_inner ⟨entryOf (waiting number), [entryOf (comparing number)], rfl,
      by simp [entryOf], rfl⟩ (by simp [wellFormed_token, first, second])

theorem wellFormed_stating (isNumber : Terminal.number.Makes number)
    (isMoment : Shape.IsMoment moment) : (stating number moment).WellFormed := by
  have name : Terminal.identifier.Makes (sampleLeaf .identifier .identifier) :=
    makes_sampleLeaf rfl
  have momentFormed : moment.WellFormed := by
    rcases isMoment with made | made
    · exact made.wellFormed
    · exact made.wellFormed
  have beginning : (inner .beginDate [token "beginDate", token "=", moment]).WellFormed :=
    wellFormed_inner ⟨moment, isMoment, rfl⟩ (by simp [wellFormed_token, momentFormed])
  have due : (inner .dueDate [token "dueDate", token "=", moment]).WellFormed :=
    wellFormed_inner ⟨moment, isMoment, rfl⟩ (by simp [wellFormed_token, momentFormed])
  refine wellFormed_inner ⟨_, [_, _], name, ?_, rfl⟩ ?_
  · simp [Shape.IsBlock]
  simp only [List.forall_mem_cons, List.not_mem_nil, false_implies, implies_true, and_true,
    wellFormed_token, name.wellFormed, true_and]
  constructor
  · exact wellFormed_inner ⟨_, _, rfl, rfl, rfl⟩ (by simp [wellFormed_token, beginning, due])
  · exact wellFormed_inner ⟨[statingClause number], by simp [statingClause], rfl⟩
      (by simp [wellFormed_token, wellFormed_statingClause isNumber])

end Tree

/-- Every number and every date is that of some document. -/
theorem exists_stating {number moment : String} (isNumeral : IsNumeral number.toList)
    (isMoment : IsMoment moment.toList) :
    ∃ source contract, compile (.text source) = .ok contract ∧
      contract.numbers = [number, number, number] ∧ contract.dates = [moment, moment] := by
  have made : Terminal.number.Makes (.leaf .number number) := Terminal.makes_leaf rfl isNumeral
  have dated : ∃ kind, Shape.IsMoment (.leaf kind moment) := by
    rcases isMoment with isDate | isDatetime
    · exact ⟨.date, Or.inr (Terminal.makes_leaf rfl isDate)⟩
    · exact ⟨.datetime, Or.inl (Terminal.makes_leaf rfl isDatetime)⟩
  obtain ⟨kind, isMoment⟩ := dated
  -- the tree is derived, and one blank between all leaves is a document of it
  have derived := Pattern.derives_contract_iff.mpr ⟨rfl, Tree.wellFormed_stating made isMoment⟩
  have gap : Lexeme.Gap false [' '] := .blank (by decide) .nil
  have read := Document.parse_text derived _ (Tree.Layout.apart_uniform gap (by decide))
  refine ⟨_, _, compile_eq_summary read, ?_, ?_⟩
  · simp [Summary.numbers_contract, Tree.summary, Tree.clauseNodes, Tree.clauseSummary,
      Tree.operationNodes, Tree.namesDuration, Tree.termSummary, Tree.operandSummary,
      TermSummary.numbers, OperandSummary.number?, Tree.stating, Tree.statingClause, Tree.entryOf,
      Tree.waiting, Tree.comparing, Tree.reach, Tree.pick, Tree.textAt, Tree.token,
      Tree.sampleLeaf]
  · simp [Contract.dates, Summary.contract, Tree.summary, Tree.stating, Tree.reach, Tree.pick,
      Tree.textAt, Tree.token, Tree.sampleLeaf, Tree.lastOf]

/-! ## Digits of contracts -/

/-- The numbers and dates of a document that is read go into its contract as they stand in it. They
have the form of numbers and dates, with decimal digits of any script, and one of them is an ASCII
text exactly if its digits are `0` to `9`. All are if the document has no other digits. But every
text of these forms is a number or a date of some contract. -/
theorem digits_of_parse {source : String} {tree : Tree}
    (read : Document.parse source = .ok tree) :
    (∃ contract, compile (.text source) = .ok contract ∧
      (∀ text ∈ contract.numbers, IsNumeral text.toList) ∧
      (∀ text ∈ contract.dates, text = "" ∨ IsMoment text.toList) ∧
      (∀ text ∈ contract.numbers ++ contract.dates, text.toList <:+: source.toList ∧
        (IsAscii text.toList ↔ HasPlainDigits text.toList)) ∧
      (HasPlainDigits source.toList →
        ∀ text ∈ contract.numbers ++ contract.dates, IsAscii text.toList)) ∧
    ∀ number moment : String, IsNumeral number.toList → IsMoment moment.toList →
      ∃ other contract, compile (.text other) = .ok contract ∧
        contract.numbers = [number, number, number] ∧ contract.dates = [moment, moment] := by
  refine ⟨⟨_, compile_eq_summary read, ?_⟩, fun _ _ => exists_stating⟩
  obtain ⟨-, formed⟩ := Pattern.derives_contract_iff.mp (Document.derives_of_parse read)
  have facts : ∀ text ∈ tree.summary.contract.numbers ++ tree.summary.contract.dates,
      text.toList <:+: source.toList ∧ (IsAscii text.toList ↔ HasPlainDigits text.toList) := by
    intro text member
    rcases List.mem_append.mp member with listed | listed
    · obtain ⟨isNumeral, spelled⟩ := formed.numbers_summary listed
      exact ⟨Document.infix_of_parse read spelled, isNumeral.isDigital.isAscii_iff⟩
    · rcases formed.dates_summary listed with rfl | ⟨isMoment, spelled⟩
      · exact ⟨List.nil_infix, Lexeme.isDigital_nil.isAscii_iff⟩
      · exact ⟨Document.infix_of_parse read spelled, isMoment.isDigital.isAscii_iff⟩
  refine ⟨fun text listed => (formed.numbers_summary listed).1, ?_, facts, ?_⟩
  · intro text listed
    exact (formed.dates_summary listed).imp_right And.left
  · intro plain text member
    obtain ⟨stands, ascii⟩ := facts text member
    exact ascii.mpr fun c inText => plain c (stands.subset inText)

/-- A timeout whose duration is written with the Arabic-Indic digit three. -/
def indicSource : String :=
  "contract c\x7bclauses\x7bright r\x7brolePlayer=process terms\x7bTimeout(\u0663)" ++
    "\x7d\x7d\x7d\x7d"

theorem exists_parse_indicSource :
    ∃ tree, Document.parse indicSource = .ok tree ∧
      tree.summary.contract.numbers = ["\u0663"] :=
  exists_parse_of_view (show (Document.parse indicSource).toOption.map
    (fun tree => tree.summary.contract.numbers) = some ["\u0663"] by decide +kernel)

/-- The digit is in the contract as it is in the document. -/
theorem digits_of_parse_indic :
    ∃ contract, compile (.text indicSource) = .ok contract ∧ contract.numbers = ["\u0663"] ∧
      ¬ HasPlainDigits "\u0663".toList ∧ ¬ IsAscii "\u0663".toList := by
  obtain ⟨tree, read, counted⟩ := exists_parse_indicSource
  obtain ⟨⟨contract, compiled, -, -, facts, -⟩, -⟩ := digits_of_parse read
  have same : contract = tree.summary.contract :=
    Except.ok.inj (compiled.symm.trans (compile_eq_summary read))
  have numbers : contract.numbers = ["\u0663"] := by rw [same, counted]
  have foreign : ¬ HasPlainDigits "\u0663".toList := by decide
  refine ⟨contract, compiled, numbers, foreign, ?_⟩
  exact mt (facts "\u0663" (by simp [numbers])).2.mp foreign

/-- Numbers of compiled contracts are not always ASCII texts. -/
theorem not_isAscii_of_compile :
    ¬ ∀ source contract, compile (.text source) = .ok contract →
      (∀ text ∈ contract.numbers, IsNumeral text.toList ∧ IsAscii text.toList) ∧
      ∀ text ∈ contract.dates, text = "" ∨ IsMoment text.toList ∧ IsAscii text.toList := by
  intro ascii
  obtain ⟨tree, read, counted⟩ := exists_parse_indicSource
  obtain ⟨numbers, -⟩ := ascii indicSource _ (compile_eq_summary read)
  exact absurd (numbers "\u0663" (by simp [counted])).2 (by decide)

end Covenant
