import Covenant.Proofs.Inputs
import Covenant.Proofs.TermNames

/-!
# Symbols of a contract

A contract is full of names that were put together from what the document says, and each of them
comes in three renderings. Generators use all three, so each has to be an identifier, and they have
to be recognizable as one symbol. `Name.Coherent` says this. A name of one word is coherent if the
word is an identifier (`coherent_ofWord`), and a coherent name stays so if parts are added that hold
nothing but letters, digits and underscores (`Coherent.extend`). All names are made in these two
ways: also the name of a clause is its category with the declared name added (`ofClause_eq`).

Main statement: in a document that is read, no other text than that of identifiers gets into a name,
so all names of its contract are coherent (`names_coherent_of_parse`).
-/

set_option autoImplicit false

namespace Covenant

/-! ## Plain texts and their casing -/

namespace Text

theorem toNat_lt_of_isIdentifierChar {c : Char} (h : isIdentifierChar c = true) :
    c.toNat < 0x80 := by
  rw [isIdentifierChar, Bool.or_eq_true, beq_iff_eq] at h
  rcases h with rfl | h
  · decide
  · exact toNat_lt_of_isAlphanum h

/-- Casing turns identifier characters into such, keeps them able or unable to open an identifier,
and makes no underscores. -/
structure KeepsSort (c d : Char) : Prop where
  inside : isIdentifierChar d = isIdentifierChar c
  start : isIdentifierStart d = isIdentifierStart c
  underscore : (d != '_') = (c != '_')

theorem keepsSort_toUpper {c : Char} (ascii : c.toNat < 0x80) : KeepsSort c c.toUpper where
  inside := of_ascii (fun c => isIdentifierChar c.toUpper = isIdentifierChar c)
    (by decide +kernel) ascii
  start := of_ascii (fun c => isIdentifierStart c.toUpper = isIdentifierStart c)
    (by decide +kernel) ascii
  underscore := of_ascii (fun c => (c.toUpper != '_') = (c != '_')) (by decide +kernel) ascii

theorem keepsSort_toLower {c : Char} (ascii : c.toNat < 0x80) : KeepsSort c c.toLower where
  inside := of_ascii (fun c => isIdentifierChar c.toLower = isIdentifierChar c)
    (by decide +kernel) ascii
  start := of_ascii (fun c => isIdentifierStart c.toLower = isIdentifierStart c)
    (by decide +kernel) ascii
  underscore := of_ascii (fun c => (c.toLower != '_') = (c != '_')) (by decide +kernel) ascii

/-- The text holds nothing but letters, digits and underscores of ASCII. -/
def IsPlain (text : String) : Prop :=
  ∀ c ∈ text.toList, isIdentifierChar c = true

/-- The text in lower case after its underscores were deleted. -/
def folded (text : String) : String :=
  lowerAll (String.ofList (text.toList.filter (· != '_')))

/-- The letters and digits of a plain text, in lower case. -/
def skeleton (text : List Char) : List Char :=
  (text.filter (· != '_')).map Char.toLower

@[simp] theorem skeleton_append (front back : List Char) :
    skeleton (front ++ back) = skeleton front ++ skeleton back := by
  simp [skeleton]

theorem lowerAfter_of_ascii {text : List Char} (ascii : ∀ c ∈ text, c.toNat < 0x80)
    (before : List Char) : lowerAfter before text = text.map Char.toLower := by
  induction text generalizing before with
  | nil => rfl
  | cons c text ih =>
      rw [List.forall_mem_cons] at ascii
      -- the one letter whose lower case depends on its place is not in ASCII
      have other : (c == 'Σ') = false := by
        rw [beq_eq_false_iff_ne]
        rintro rfl
        exact absurd ascii.1 (by decide)
      rw [lowerAfter, lowerBetween, other, ih ascii.2]
      simp [lower_of_ascii ascii.1]

/-- On plain texts folding is a matter of single characters. -/
theorem toList_folded {text : String} (plain : IsPlain text) :
    (folded text).toList = skeleton text.toList := by
  rw [folded, lowerAll, String.toList_ofList, String.toList_ofList]
  apply lowerAfter_of_ascii
  intro c member
  exact toNat_lt_of_isIdentifierChar (plain c (List.mem_filter.mp member).1)

theorem folded_eq_iff {text other : String} (plain : IsPlain text) (plain' : IsPlain other) :
    folded text = folded other ↔ skeleton text.toList = skeleton other.toList := by
  rw [← String.toList_inj, toList_folded plain, toList_folded plain']

/-- Only the first character of a plain text is changed, and by case only. -/
theorem toList_upperFirst {text : String} {c : Char} {rest : List Char} (plain : IsPlain text)
    (written : text.toList = c :: rest) : (upperFirst text).toList = c.toUpper :: rest := by
  have inside := plain c (by rw [written]; exact List.mem_cons_self)
  rw [upperFirst, written]
  simp [upper_of_ascii (toNat_lt_of_isIdentifierChar inside)]

theorem toList_lowerFirst {text : String} {c : Char} {rest : List Char} (plain : IsPlain text)
    (written : text.toList = c :: rest) : (lowerFirst text).toList = c.toLower :: rest := by
  have inside := plain c (by rw [written]; exact List.mem_cons_self)
  rw [lowerFirst, written]
  simp [lower_of_ascii (toNat_lt_of_isIdentifierChar inside)]

/-- A text whose first character is exchanged for one of the same sort, and of the same letter. -/
theorem skeleton_cons_eq {c d : Char} (sort : KeepsSort c d) (lower : d.toLower = c.toLower)
    (rest : List Char) : skeleton (d :: rest) = skeleton (c :: rest) := by
  rw [skeleton, skeleton, List.filter_cons, List.filter_cons, sort.underscore]
  split
  · rw [List.map_cons, List.map_cons, lower]
  · rfl

theorem isPlain_upperFirst {text : String} (plain : IsPlain text) : IsPlain (upperFirst text) := by
  cases written : text.toList with
  | nil =>
      intro c member
      rw [upperFirst, written] at member
      cases member
  | cons first rest =>
      rw [IsPlain, written, List.forall_mem_cons] at plain
      rw [IsPlain, toList_upperFirst (by rwa [IsPlain, written, List.forall_mem_cons]) written,
        List.forall_mem_cons]
      have sort := keepsSort_toUpper (toNat_lt_of_isIdentifierChar plain.1)
      exact ⟨sort.inside.trans plain.1, plain.2⟩

theorem skeleton_upperFirst {text : String} (plain : IsPlain text) :
    skeleton (upperFirst text).toList = skeleton text.toList := by
  cases written : text.toList with
  | nil => rw [upperFirst, written]; rfl
  | cons first rest =>
      have inside := plain first (by rw [written]; exact List.mem_cons_self)
      have ascii := toNat_lt_of_isIdentifierChar inside
      rw [toList_upperFirst plain written]
      exact skeleton_cons_eq (keepsSort_toUpper ascii) (toLower_toUpper ascii) rest

theorem SameButFirstCase.append {text other : String} (h : SameButFirstCase text other)
    (rest : String) : SameButFirstCase (text ++ rest) (other ++ rest) := by
  obtain ⟨c, d, tail, written, written', same⟩ := h
  refine ⟨c, d, tail ++ rest.toList, ?_, ?_, same⟩
  · rw [String.toList_append, written, List.cons_append]
  · rw [String.toList_append, written', List.cons_append]

theorem SameButFirstCase.length_eq {text other : String} (h : SameButFirstCase text other) :
    text.length = other.length := by
  obtain ⟨c, d, tail, written, written', -⟩ := h
  rw [← String.length_toList, ← String.length_toList, written, written', List.length_cons,
    List.length_cons]

end Text

open Text

theorem Lexeme.IsIdentifier.append {front back : List Char} (h : IsIdentifier front)
    (plain : ∀ c ∈ back, Text.isIdentifierChar c = true) : IsIdentifier (front ++ back) := by
  obtain ⟨c, tail, start, inside, rfl⟩ := h
  exact ⟨c, tail ++ back, start, List.forall_mem_append.mpr ⟨inside, plain⟩, rfl⟩

/-! ## Coherent names -/

namespace Name

/-- The three renderings of a name are identifiers. The cased ones have the same length and differ
in the ASCII case of their first character at most. All three are the same if underscores and case
are left out of account. -/
structure Coherent (name : Name) : Prop where
  pascal : Lexeme.IsIdentifier name.pascal.toList
  camel : Lexeme.IsIdentifier name.camel.toList
  snake : Lexeme.IsIdentifier name.snake.toList
  length : name.pascal.length = name.camel.length
  first : SameButFirstCase name.pascal name.camel
  folded_camel : folded name.camel = folded name.pascal
  folded_snake : folded name.snake = folded name.pascal

variable {base : String} {parts : List Part}

/-- The parts of a name are plain texts. -/
def PlainParts (parts : List Part) : Prop :=
  ∀ part ∈ parts, IsPlain part.text

theorem toList_cased_cons (part : Part) (parts : List Part) :
    (cased (part :: parts)).toList = (upperFirst part.text).toList ++ (cased parts).toList := by
  simp [cased]

theorem isPlain_cased (plain : PlainParts parts) : IsPlain (cased parts) := by
  induction parts with
  | nil =>
      intro c member
      cases member
  | cons part parts ih =>
      rw [PlainParts, List.forall_mem_cons] at plain
      rw [IsPlain, toList_cased_cons, List.forall_mem_append]
      exact ⟨isPlain_upperFirst plain.1, ih plain.2⟩

theorem skeleton_cased (plain : PlainParts parts) :
    skeleton (cased parts).toList = parts.flatMap fun part => skeleton part.text.toList := by
  induction parts with
  | nil => rfl
  | cons part parts ih =>
      rw [PlainParts, List.forall_mem_cons] at plain
      rw [toList_cased_cons, skeleton_append, skeleton_upperFirst plain.1, ih plain.2,
        List.flatMap_cons]

/-- What underscores add to a base is plain, and has the skeleton of the parts. -/
theorem exists_underscored (base : String) (plain : PlainParts parts) :
    ∃ added, underscored base parts = base ++ added ∧ IsPlain added ∧
      skeleton added.toList = parts.flatMap fun part => skeleton part.text.toList := by
  induction parts generalizing base with
  | nil => exact ⟨"", by simp, by simp [IsPlain], rfl⟩
  | cons part parts ih =>
      rw [PlainParts, List.forall_mem_cons] at plain
      obtain ⟨added, split, plainAdded, same⟩ := ih part.text plain.2
      refine ⟨"_" ++ (part.text ++ added), ?_, ?_, ?_⟩
      · rw [underscored_cons, split]
      · have underscore : IsPlain "_" := by
          intro c member
          rw [List.mem_singleton.mp member]
          decide
        rw [IsPlain, String.toList_append, String.toList_append]
        refine List.forall_mem_append.mpr ⟨underscore, ?_⟩
        exact List.forall_mem_append.mpr ⟨plain.1, plainAdded⟩
      · rw [String.toList_append, String.toList_append, skeleton_append, skeleton_append, same,
          List.flatMap_cons]
        rfl

/-- A name of one word is coherent if the word is an identifier. -/
theorem coherent_ofWord (h : Lexeme.IsIdentifier base.toList) : (ofParts base []).Coherent := by
  have plain : IsPlain base := h.isIdentifierChar
  obtain ⟨c, tail, start, inside, written⟩ := h
  have ascii := toNat_lt_of_isIdentifierStart start
  have pascal : (ofParts base []).pascal.toList = c.toUpper :: tail := by
    rw [ofParts, String.toList_append, toList_upperFirst plain written]
    exact List.append_nil _
  have camel : (ofParts base []).camel.toList = c.toLower :: tail := by
    rw [ofParts, String.toList_append, toList_lowerFirst plain written]
    exact List.append_nil _
  have snake : (ofParts base []).snake.toList = c :: tail := by
    rw [ofParts, underscored_nil, written]
  have upper := keepsSort_toUpper ascii
  have lower := keepsSort_toLower ascii
  have lowered : c.toLower.toLower = c.toLower :=
    of_ascii (fun c => c.toLower.toLower = c.toLower) (by decide +kernel) ascii
  have pascalNamed : Lexeme.IsIdentifier (ofParts base []).pascal.toList :=
    ⟨_, tail, upper.start.trans start, inside, pascal⟩
  have camelNamed : Lexeme.IsIdentifier (ofParts base []).camel.toList :=
    ⟨_, tail, lower.start.trans start, inside, camel⟩
  have snakeNamed : Lexeme.IsIdentifier (ofParts base []).snake.toList :=
    ⟨_, tail, start, inside, snake⟩
  have first : SameButFirstCase (ofParts base []).pascal (ofParts base []).camel :=
    ⟨_, _, tail, pascal, camel, (toLower_toUpper ascii).trans lowered.symm⟩
  refine ⟨pascalNamed, camelNamed, snakeNamed, first.length_eq, first, ?_, ?_⟩
  · rw [folded_eq_iff camelNamed.isIdentifierChar pascalNamed.isIdentifierChar, camel, pascal,
      skeleton_cons_eq lower lowered, skeleton_cons_eq upper (toLower_toUpper ascii)]
  · rw [folded_eq_iff snakeNamed.isIdentifierChar pascalNamed.isIdentifierChar, snake, pascal,
      skeleton_cons_eq upper (toLower_toUpper ascii)]

/-- A coherent name stays coherent if plain parts are added. -/
theorem Coherent.extend {name : Name} (h : name.Coherent) (plain : PlainParts parts) :
    (name.extend parts).Coherent := by
  obtain ⟨added, split, plainAdded, same⟩ := exists_underscored name.snake plain
  have plainCased := isPlain_cased plain
  have pascal : (name.extend parts).pascal.toList = name.pascal.toList ++ (cased parts).toList :=
    String.toList_append
  have camel : (name.extend parts).camel.toList = name.camel.toList ++ (cased parts).toList :=
    String.toList_append
  have snake : (name.extend parts).snake.toList = name.snake.toList ++ added.toList := by
    rw [Name.extend, split, String.toList_append]
  have pascalNamed : Lexeme.IsIdentifier (name.extend parts).pascal.toList := by
    rw [pascal]
    exact h.pascal.append plainCased
  have camelNamed : Lexeme.IsIdentifier (name.extend parts).camel.toList := by
    rw [camel]
    exact h.camel.append plainCased
  have snakeNamed : Lexeme.IsIdentifier (name.extend parts).snake.toList := by
    rw [snake]
    exact h.snake.append plainAdded
  have first : SameButFirstCase (name.extend parts).pascal (name.extend parts).camel :=
    h.first.append (cased parts)
  -- folding is the same for both ways of joining: it drops underscores and the case of letters
  have camelFolded := (folded_eq_iff h.camel.isIdentifierChar h.pascal.isIdentifierChar).mp
    h.folded_camel
  have snakeFolded := (folded_eq_iff h.snake.isIdentifierChar h.pascal.isIdentifierChar).mp
    h.folded_snake
  refine ⟨pascalNamed, camelNamed, snakeNamed, first.length_eq, first, ?_, ?_⟩
  · rw [folded_eq_iff camelNamed.isIdentifierChar pascalNamed.isIdentifierChar, camel, pascal,
      skeleton_append, skeleton_append, camelFolded]
  · rw [folded_eq_iff snakeNamed.isIdentifierChar pascalNamed.isIdentifierChar, snake, pascal,
      skeleton_append, skeleton_append, snakeFolded, same, skeleton_cased plain]

/-- Parts may be added to a word one after the other. -/
theorem ofParts_eq_extend (base : String) (parts : List Part) :
    ofParts base parts = (ofParts base []).extend parts := by
  have none : cased [] = "" := rfl
  rw [extend, ofParts, ofParts, underscored_nil, none, String.append_empty, String.append_empty]

theorem coherent_ofParts (h : Lexeme.IsIdentifier base.toList) (plain : PlainParts parts) :
    (ofParts base parts).Coherent := by
  rw [ofParts_eq_extend]
  exact (coherent_ofWord h).extend plain

/-- The categories are words in lower case, so the name of a clause is its category with the
declared name added. -/
theorem ofClause_eq {category : String} (listed : category ∈ Vocabulary.categories)
    (title : String) : ofClause category title = ofParts category [.word title] := by
  have words : ∀ word ∈ Vocabulary.categories,
      capitalize word = upperFirst word ∧ lowerAll word = lowerFirst word := by
    decide
  obtain ⟨upper, lower⟩ := words category listed
  have single : cased [.word title] = upperFirst title := by
    simp [cased, Part.text]
  rw [ofClause, ofParts, upper, lower, single, underscored_cons, underscored_nil,
    String.append_assoc]
  rfl

end Name

/-! ## Names of a contract -/

/-- The operands of a term. -/
def Term.operands : Term → List Operand
  | timeout _ _ => []
  | messageContent _ _ _ operands => operands

/-- The names in a term: its own, and those of its variables and of the variables in its
operands. -/
def Term.names (term : Term) : List Name :=
  term.name :: (term.inputs ++ term.operands.filterMap Operand.reference?).map Variable.name

/-- The names in a clause: its own, and those of its variables and terms. -/
def Clause.names (clause : Clause) : List Name :=
  clause.name :: (clause.inputs.map Variable.name ++ clause.terms.flatMap Term.names)

/-- The names in a contract. -/
def Contract.names (contract : Contract) : List Name :=
  contract.inputs.map Variable.name ++ contract.clauses.flatMap Clause.names

/-! ## What gets into names -/

/-- An operand that is kept as a name is an identifier. -/
def OperandSummary.IsNamed : OperandSummary → Prop
  | name text => Lexeme.IsIdentifier text.toList
  | number _ => True
  | quoted => True

/-- The operands that a term keeps as names are identifiers. -/
def TermSummary.IsNamed : TermSummary → Prop
  | comparison left _ right => left.IsNamed ∧ right.IsNamed
  | timeout _ => True
  | presence => True

/-- A clause is of one of the categories, and all that gets into its names is an identifier. -/
structure ClauseSummary.IsNamed (summary : ClauseSummary) : Prop where
  category : summary.category ∈ Vocabulary.categories
  title : Lexeme.IsIdentifier summary.title.toList
  terms : ∀ term ∈ summary.terms, term.IsNamed

namespace Tree

variable {tree : Tree}

theorem isNamed_operandSummary (h : Shape.IsValue tree) : tree.operandSummary.IsNamed := by
  rcases h with made | made | made
  · have kind : tree.kind = .number := made.kind_eq rfl
    rw [operandSummary, kind]
    trivial
  · have kind : tree.kind = .string := made.kind_eq rfl
    rw [operandSummary, kind]
    trivial
  · have kind : tree.kind = .identifier := made.kind_eq rfl
    obtain ⟨named, -⟩ : Lexeme.IsFreeIdentifier tree.text.toList := made.accepts
    rw [operandSummary, kind]
    exact named

theorem WellFormed.isNamed_termSummary (h : tree.WellFormed)
    (kind : tree.kind = .timeout ∨ tree.kind = .messageContent) : tree.termSummary.IsNamed := by
  rcases kind with kind | kind
  · rw [termSummary, kind]
    trivial
  · rcases h.production kind rfl with children | ⟨value, -, children⟩ |
      ⟨left, sign, right, isLeft, -, isRight, children⟩
    · rw [termSummary, kind, children]
      trivial
    · rw [termSummary, kind, children]
      trivial
    · rw [termSummary, kind, children]
      exact ⟨isNamed_operandSummary isLeft, isNamed_operandSummary isRight⟩

theorem WellFormed.isNamed_clauseSummary (h : tree.WellFormed) (kind : tree.kind = .clause) :
    tree.clauseSummary.IsNamed := by
  obtain ⟨category, title, -⟩ := h.clause_words kind
  refine ⟨category, title, ?_⟩
  intro term member
  obtain ⟨node, kept, rfl⟩ := List.mem_map.mp member
  have inside := List.mem_of_mem_filter kept
  have nodeKind := kind_of_mem_reach [[.terms], [.termOrWhen], [.term]] _ inside
  exact (h.of_mem_reach inside).isNamed_termSummary (by simpa using nodeKind)

end Tree

/-! ## All names are coherent -/

theorem Text.isPlain_toString (n : Nat) : IsPlain (toString n) := by
  intro c member
  rw [Nat.toString_eq_ofList_toDigits, String.toList_ofList] at member
  have digit := Nat.isDigit_of_mem_toDigits (by decide) (by decide) member
  simp [isIdentifierChar, Char.isAlphanum, digit]

theorem Vocabulary.isIdentifier_of_mem_tags {tag : String} (listed : tag ∈ tags) :
    Lexeme.IsIdentifier tag.toList :=
  Lexeme.isIdentifier_of_mem_words (by decide) listed

namespace Name

theorem plainParts_numbers (values : List Nat) : PlainParts (numbers values) := by
  intro part member
  obtain ⟨value, -, rfl⟩ := List.mem_map.mp member
  exact isPlain_toString value

/-- The names that places give to operands are coherent. -/
theorem coherent_numbers (values : List Nat) :
    (ofParts Vocabulary.messageContentTag (numbers values)).Coherent :=
  coherent_ofParts (Vocabulary.isIdentifier_of_mem_tags (by decide)) (plainParts_numbers values)

theorem coherent_ofClause {category title : String} (listed : category ∈ Vocabulary.categories)
    (named : Lexeme.IsIdentifier title.toList) : (ofClause category title).Coherent := by
  rw [ofClause_eq listed]
  refine coherent_ofParts (Lexeme.isIdentifier_of_mem_words (by decide) listed) ?_
  intro part member
  rw [List.mem_singleton.mp member]
  exact named.isIdentifierChar

end Name

/-- The variable of an operand has a coherent name. -/
theorem OperandSummary.coherent {summary : OperandSummary} (named : summary.IsNamed)
    {index side : Nat} {type : String} {v : Variable}
    (h : (summary.operand index side type).reference? = some v) : v.name.Coherent := by
  cases summary with
  | number text => cases h
  | name text =>
      cases h
      exact Name.coherent_ofWord named
  | quoted =>
      cases h
      exact Name.coherent_numbers [index, side]

/-- The name of a term, and those of the variables in it, are coherent if that of its clause is. -/
theorem TermSummary.coherent_names {summary : TermSummary} (named : summary.IsNamed)
    {clause : Name} (coherent : clause.Coherent) {index : Nat} :
    ∀ name ∈ (summary.term clause index).names, name.Coherent := by
  have own : (summary.term clause index).name.Coherent := by
    rw [summary.name_term]
    apply coherent.extend
    intro part member
    rcases List.mem_pair.mp member with rfl | rfl
    · exact (Vocabulary.isIdentifier_of_mem_tags (Term.tag_mem _)).isIdentifierChar
    · exact isPlain_toString index
  have ofOperands : ∀ operand ∈ (summary.term clause index).operands, ∀ v,
      operand.reference? = some v → v.name.Coherent := by
    intro operand member v found
    cases summary with
    | timeout duration => cases member
    | presence => cases member
    | comparison left comparator right =>
        rcases List.mem_pair.mp member with rfl | rfl
        · exact OperandSummary.coherent named.1 found
        · exact OperandSummary.coherent named.2 found
  -- the variables of a comparison are those of its operands
  have ofInputs : ∀ v ∈ (summary.term clause index).inputs, v.name.Coherent := by
    intro v member
    cases summary with
    | timeout duration => cases member
    | presence =>
        rw [List.mem_singleton.mp member]
        exact Name.coherent_numbers [index]
    | comparison left comparator right =>
        obtain ⟨operand, listed, found⟩ := List.mem_filterMap.mp member
        exact ofOperands operand listed v found
  rw [Term.names, List.forall_mem_cons]
  refine ⟨own, ?_⟩
  intro name member
  obtain ⟨v, inside, rfl⟩ := List.mem_map.mp member
  rcases List.mem_append.mp inside with inside | inside
  · exact ofInputs v inside
  · obtain ⟨operand, listed, found⟩ := List.mem_filterMap.mp inside
    exact ofOperands operand listed v found

/-- All names of a clause are coherent. -/
theorem ClauseSummary.coherent_names {summary : ClauseSummary} (named : summary.IsNamed) :
    ∀ name ∈ summary.clause.names, name.Coherent := by
  have own : (Name.ofClause summary.category summary.title).Coherent :=
    Name.coherent_ofClause named.category named.title
  have ofTerms : ∀ name ∈ summary.clause.terms.flatMap Term.names, name.Coherent := by
    intro name member
    obtain ⟨term, listed, inside⟩ := List.mem_flatMap.mp member
    obtain ⟨index, bound, rfl⟩ := List.mem_mapIdx.mp listed
    exact TermSummary.coherent_names (named.terms _ (List.getElem_mem bound)) own name inside
  rw [Clause.names, List.forall_mem_cons, List.forall_mem_append]
  refine ⟨own, ?_, ofTerms⟩
  -- the variables of a clause are some of those of its terms
  intro name member
  obtain ⟨v, stored, rfl⟩ := List.mem_map.mp member
  have given := (Inputs.mem_insertAll_empty.mp stored).mem
  obtain ⟨term, listed, inside⟩ := List.mem_flatMap.mp given
  refine ofTerms v.name (List.mem_flatMap.mpr ⟨term, listed, ?_⟩)
  refine List.mem_cons_of_mem _ (List.mem_map_of_mem ?_)
  exact List.mem_append_left _ inside

/-- A document that is read gives a contract all of whose names are coherent. -/
theorem names_coherent_of_parse {source : String} {tree : Tree}
    (h : Document.parse source = .ok tree) :
    ∃ contract, compile (.text source) = .ok contract ∧
      ∀ name ∈ contract.names, name.Coherent := by
  obtain ⟨-, formed⟩ := Pattern.derives_contract_iff.mp (Document.derives_of_parse h)
  refine ⟨tree.summary.contract, compile_eq_summary h, ?_⟩
  intro name member
  obtain ⟨clause, listed, inside⟩ := List.mem_flatMap.mp member
  obtain ⟨summary, said, rfl⟩ := List.mem_map.mp listed
  obtain ⟨node, found, rfl⟩ := List.mem_map.mp said
  have kind := Tree.kind_of_mem_reach [[.clauses]] _ found
  have named := (formed.of_mem_reach found).isNamed_clauseSummary (by simpa using kind)
  exact ClauseSummary.coherent_names named name inside

/-- A clause with a presence check and a comparison of a string with a name has eleven names: its
own, those of its three variables, and those in its two terms. Among them are the name of the second
term, the name that is made up for the string, and the name that the document gives. -/
theorem names_coherent_of_parse_plain :
    ∃ contract, compile (.text plainSource) = .ok contract ∧ contract.names.length = 11 ∧
      (∀ name ∈ [Name.mk "RightRMessageContent1" "rightRMessageContent1" "right_r_messageContent_1",
          Name.mk "MessageContent11" "messageContent11" "messageContent_1_1", Name.mk "B" "b" "b"],
        name ∈ contract.names) ∧
      ∀ name ∈ contract.names, name.Coherent := by
  obtain ⟨tree, read, said⟩ := exists_parse_plainSource
  obtain ⟨contract, compiled, coherent⟩ := names_coherent_of_parse read
  obtain rfl : sharedSummary.contract = contract := by
    rw [compile_eq_summary read, said] at compiled
    exact Except.ok.inj compiled
  exact ⟨_, compiled, by decide +kernel, by decide +kernel, coherent⟩

end Covenant
