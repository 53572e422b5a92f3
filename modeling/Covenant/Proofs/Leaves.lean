import Covenant.Proofs.Compile
import Covenant.Proofs.Grammar.Descent

/-!
# Leaves and what they are taken for

The grammar sorts the leaves of a document by their terminals, and the assembly looks at the texts
of leaves only. The two agree. The text of a leaf is of the class that the kind of the leaf says
(`Tree.LeafAgrees`), and so an operand becomes what its kind says (`Operand.Agrees`) and a timeout
becomes a term exactly if a number stands in it. Main statement: all of this holds in every document
that is read (`Document.leaves_agree_of_parse`).

Names and roles are both leaves of the kind `identifier`. They are told apart by the node above
them: `Grammar.lexicon` lists the terminals whose leaves stand right below a node of a kind.
-/

set_option autoImplicit false

namespace Covenant

/-! ## Terminals below a node -/

/-- The terminals whose leaves are among the nodes that the pattern itself adds. -/
def Pattern.lexicon : Pattern → List Terminal
  | terminal t => [t]
  | sequence first second => first.lexicon ++ second.lexicon
  | choice first second => first.lexicon ++ second.lexicon
  | maybe pattern => pattern.lexicon
  | many pattern => pattern.lexicon
  | node _ _ => []

/-- The terminals whose leaves stand right below a node of the kind. -/
def Grammar.lexicon (kind : Kind) : List Terminal :=
  match production kind with
  | some (.node _ pattern) => pattern.lexicon
  | _ => []

namespace Pattern

variable {pattern : Pattern} {nodes : List Tree} {child : Tree}

/-- A node that a pattern allows is a leaf of one of its terminals or is made by a production. -/
theorem makes_or_production_of_allows (governed : pattern.isGoverned = true)
    (h : pattern.Allows nodes) (member : child ∈ nodes) :
    (∃ t ∈ pattern.lexicon, t.Makes child) ∨ (Grammar.production child.kind).isSome = true := by
  -- what is listed for one part of a pattern is listed for the whole
  have left {front back : List Terminal} (h : ∃ t ∈ front, t.Makes child) :
      ∃ t ∈ front ++ back, t.Makes child := by
    obtain ⟨t, listed, made⟩ := h
    exact ⟨t, List.mem_append_left back listed, made⟩
  have right {front back : List Terminal} (h : ∃ t ∈ back, t.Makes child) :
      ∃ t ∈ front ++ back, t.Makes child := by
    obtain ⟨t, listed, made⟩ := h
    exact ⟨t, List.mem_append_right front listed, made⟩
  induction pattern generalizing nodes with
  | terminal t =>
      obtain ⟨lexeme, accepted, rfl⟩ := h
      exact Or.inl ⟨t, List.mem_singleton_self t, Terminal.makes_of_mem_leaves accepted member⟩
  | sequence first second ihFirst ihSecond =>
      rw [isGoverned, Bool.and_eq_true] at governed
      obtain ⟨front, back, allowedFront, allowedBack, rfl⟩ := h
      rcases List.mem_append.mp member with member | member
      · exact (ihFirst governed.1 allowedFront member).imp_left left
      · exact (ihSecond governed.2 allowedBack member).imp_left right
  | choice first second ihFirst ihSecond =>
      rw [isGoverned, Bool.and_eq_true] at governed
      rcases h with allowed | allowed
      · exact (ihFirst governed.1 allowed member).imp_left left
      · exact (ihSecond governed.2 allowed member).imp_left right
  | maybe pattern ih =>
      rcases h with rfl | allowed
      · cases member
      · exact ih governed allowed member
  | many pattern ih =>
      obtain ⟨rounds, allowed, rfl⟩ := h
      obtain ⟨round, listed, member⟩ := List.mem_flatten.mp member
      exact ih governed (allowed round listed) member
  | node kind pattern =>
      rw [isGoverned, Bool.and_eq_true, decide_eq_true_eq] at governed
      obtain ⟨tree, sameKind, rfl⟩ := h
      rw [List.mem_singleton.mp member, sameKind, governed.1]
      exact Or.inr rfl

end Pattern

namespace Terminal

variable {t : Terminal}

theorem eq_number_of_leafKind? (h : t.leafKind? = some .number) : t = number := by
  cases t <;> cases h
  rfl

theorem eq_string_of_leafKind? (h : t.leafKind? = some .string) : t = string := by
  cases t <;> cases h
  rfl

/-- Of the terminals that make names, only the party role stands in a role player statement, and
it stands nowhere else. -/
theorem eq_of_mem_lexicon (kind : Kind) : ∀ t ∈ Grammar.lexicon kind,
    t.leafKind? = some .identifier → t = if kind = .rolePlayer then partyRole else identifier := by
  cases kind <;> decide

end Terminal

namespace Tree

variable {tree parent leaf node : Tree}

/-- A child of a kind that no production makes is a leaf of a terminal that stands there. -/
theorem Conforms.exists_makes (h : parent.Conforms) (member : leaf ∈ parent.children)
    (outer : Grammar.production leaf.kind = none) :
    ∃ t ∈ Grammar.lexicon parent.kind, t.Makes leaf := by
  obtain ⟨pattern, rule, governed, allowed⟩ := h.exists_allows member
  rw [Grammar.lexicon, rule]
  rcases Pattern.makes_or_production_of_allows governed allowed member with made | made
  · exact made
  · rw [outer] at made
    cases made

/-! ## Texts of leaves -/

/-- The text of a leaf below a node is of the class that its kind says: a number, a string between
two quotes of one sort, or a word. The word is a role in a role player statement, and is not
reserved elsewhere. -/
structure LeafAgrees (parent leaf : Tree) : Prop where
  number : leaf.kind = .number → Lexeme.isNumber leaf.text = true
  string : leaf.kind = .string → Lexeme.IsQuotation leaf.text.toList
  identifier : leaf.kind = .identifier → Lexeme.IsIdentifier leaf.text.toList
  role : leaf.kind = .identifier → parent.kind = .rolePlayer → leaf.text ∈ Vocabulary.roles
  free : leaf.kind = .identifier → parent.kind ≠ .rolePlayer → leaf.text ∉ Vocabulary.reserved

/-- The leaf of a name, by the node above it. -/
theorem Conforms.makes_identifier (h : parent.Conforms) (member : leaf ∈ parent.children)
    (kind : leaf.kind = .identifier) :
    (if parent.kind = .rolePlayer then Terminal.partyRole else .identifier).Makes leaf := by
  obtain ⟨t, listed, made⟩ := h.exists_makes member (by rw [kind]; rfl)
  have same := Terminal.eq_of_mem_lexicon parent.kind t listed (made.leafKind?_eq.trans
    (congrArg some kind))
  rw [← same]
  exact made

/-- The leaves below a node that conforms agree with their kinds. -/
theorem Conforms.leafAgrees (h : parent.Conforms) (member : leaf ∈ parent.children) :
    LeafAgrees parent leaf := by
  have role (kind : leaf.kind = .identifier) (above : parent.kind = .rolePlayer) :
      leaf.text ∈ Vocabulary.roles := by
    have made := h.makes_identifier member kind
    rw [if_pos above] at made
    have listed : String.ofList leaf.text.toList ∈ Vocabulary.roles := made.accepts
    rwa [String.ofList_toList] at listed
  have free (kind : leaf.kind = .identifier) (above : parent.kind ≠ .rolePlayer) :
      Lexeme.IsFreeIdentifier leaf.text.toList := by
    have made := h.makes_identifier member kind
    rw [if_neg above] at made
    exact made.accepts
  constructor
  · intro kind
    obtain ⟨t, -, made⟩ := h.exists_makes member (by rw [kind]; rfl)
    obtain rfl := Terminal.eq_number_of_leafKind? (kind ▸ made.leafKind?_eq)
    exact Lexeme.isNumber_of_isNumeral made.accepts
  · intro kind
    obtain ⟨t, -, made⟩ := h.exists_makes member (by rw [kind]; rfl)
    obtain rfl := Terminal.eq_string_of_leafKind? (kind ▸ made.leafKind?_eq)
    exact made.accepts
  · intro kind
    by_cases above : parent.kind = .rolePlayer
    · exact Lexeme.isIdentifier_of_mem_words (by decide) (role kind above)
    · exact (free kind above).1
  · exact role
  · intro kind above
    have outside := (free kind above).2
    rwa [String.ofList_toList] at outside

end Tree

/-! ## Operands of comparisons -/

/-- An operand on a side of a comparison is what its leaf says: a number stays as it is written, a
string becomes the variable named after its place, and a name becomes the variable of this name. -/
structure Operand.Agrees (operand : Operand) (leaf : Tree) (index side : Int) (type : String) :
    Prop where
  sort : leaf.kind = .number ∨ leaf.kind = .string ∨ leaf.kind = .identifier
  literal_iff : ∀ text, operand = .literal text ↔ leaf.kind = .number ∧ text = leaf.text
  anonymous_iff :
    operand = .reference
        ⟨Name.ofParts Vocabulary.messageContentTag [.index index, .index side], type⟩ ↔
      leaf.kind = .string
  named_iff : operand = .reference ⟨Name.ofParts leaf.text [], type⟩ ↔ leaf.kind = .identifier

theorem Operand.agrees_ofText {leaf : Tree} (h : Shape.IsValue leaf) (index side : Int)
    (type : String) : (Operand.ofText leaf.text index side type).Agrees leaf index side type := by
  -- a name is never the one that a place gives
  have apart : Name.ofParts leaf.text []
      ≠ Name.ofParts Vocabulary.messageContentTag [.index index, .index side] :=
    Name.ofParts_nil_ne_index (by decide) leaf.text index [.index side]
  rcases h with made | made | made
  · have kind : leaf.kind = .number := made.kind_eq rfl
    rw [Operand.ofText_of_number made]
    constructor <;> simp [kind, eq_comm]
  · have kind : leaf.kind = .string := made.kind_eq rfl
    rw [Operand.ofText_of_string made]
    constructor <;> simp [kind, apart.symm]
  · have kind : leaf.kind = .identifier := made.kind_eq rfl
    rw [Operand.ofText_of_identifier made]
    constructor <;> simp [kind, apart]

/-- A comparison is read at whatever index, and its operands agree with their leaves. -/
def Tree.ComparisonAgrees (node : Tree) : Prop :=
  ∀ index : Int, ∃ left sign right leftOperand rightOperand,
    node.children[2]? = some left ∧ node.children[3]? = some sign ∧
      node.children[4]? = some right ∧
        Condition.ofTree node index = .ok (.comparison leftOperand sign.text rightOperand) ∧
          leftOperand.Agrees left index 1 (comparedType sign.text) ∧
            rightOperand.Agrees right index 2 (comparedType sign.text)

theorem Tree.Conforms.comparisonAgrees {node : Tree} (h : node.Conforms)
    (kind : node.kind = .messageContent) (binary : node.children.length = 6) :
    node.ComparisonAgrees := by
  intro index
  have produced := h.production (by rw [kind]; rfl)
  rw [kind] at produced
  rcases produced with children | ⟨value, -, children⟩ |
    ⟨left, sign, right, isLeft, -, isRight, children⟩
  · rw [children] at binary
    cases binary
  · rw [children] at binary
    cases binary
  · refine ⟨left, sign, right, _, _, ?_, ?_, ?_,
      condition_of_comparison kind children index, Operand.agrees_ofText isLeft index 1 _,
      Operand.agrees_ofText isRight index 2 _⟩
    all_goals
      rw [children]
      rfl

/-! ## Timeouts -/

/-- The assembly of a timeout adds a term to what was assembled before exactly if the operand is a
number, and else adds nothing. -/
def Tree.TimeoutAgrees (node : Tree) : Prop :=
  ∃ operand, node.children[2]? = some operand ∧
    ∀ (name : Name) (progress : Assembly.Progress) (v : Verbosity),
      (Assembly.timeout name progress node).result v = .ok
        (if operand.kind = .number then
          progress.push (.timeout
            (name.extend [.word Vocabulary.timeoutTag, .index progress.index]) operand.text)
        else progress)

theorem Tree.Conforms.timeoutAgrees {node : Tree} (h : node.Conforms)
    (kind : node.kind = .timeout) : node.TimeoutAgrees := by
  have produced := h.production (by rw [kind]; rfl)
  rw [kind] at produced
  obtain ⟨operand, isDuration, children⟩ := produced
  have read : node.duration = .ok operand := by simp [duration, expect, nth, kind, children]
  have agrees : Lexeme.isNumber operand.text = decide (operand.kind = .number) := by
    rcases isDuration with made | made
    · have sort : operand.kind = .number := made.kind_eq rfl
      rw [Lexeme.isNumber_of_isNumeral made.accepts, sort]
      rfl
    · have sort : operand.kind = .identifier := made.kind_eq rfl
      obtain ⟨named, -⟩ : Lexeme.IsFreeIdentifier operand.text.toList := made.accepts
      rw [Lexeme.not_isNumber_of_isIdentifier named, sort]
      rfl
  refine ⟨operand, by rw [children]; rfl, fun name progress v => ?_⟩
  rw [Assembly.timeout, Traced.result_bind, Traced.result_ofExcept, read, ok_bind, agrees]
  by_cases sort : operand.kind = .number
  · simp [sort]
  · simp [sort]

/-- The duration of a timeout. -/
def Term.duration? : Term → Option String
  | timeout _ value => some value
  | messageContent _ _ _ _ => none

/-- The durations of the timeouts of a clause, in order. -/
def Clause.durations (clause : Clause) : List String :=
  clause.terms.filterMap Term.duration?

/-- The duration of what was kept of a timeout. -/
def TermSummary.duration? : TermSummary → Option String
  | timeout duration => some duration
  | presence => none
  | comparison _ _ _ => none

theorem filterMap_mapIdx {α β γ : Type} {render : Nat → α → β} {view : β → Option γ}
    {direct : α → Option γ} (h : ∀ index item, view (render index item) = direct item)
    (items : List α) : (items.mapIdx render).filterMap view = items.filterMap direct := by
  have views := congrArg (List.filterMap id) (map_mapIdx h items)
  rwa [List.filterMap_map, List.filterMap_map] at views

/-- The index of a term does not matter for its duration. -/
theorem TermSummary.duration?_term (name : Name) (index : Nat) (summary : TermSummary) :
    (summary.term name index).duration? = summary.duration? := by
  cases summary <;> rfl

namespace Tree

variable {tree node : Tree}

/-- Whether an operation is a timeout whose operand is a number. -/
def statesDuration (node : Tree) : Bool :=
  node.kind == .timeout && node.children[2]?.any fun operand => operand.kind == .number

/-- What is kept of an operation has the duration that it states. -/
theorem WellFormed.duration?_eq (h : node.WellFormed)
    (kind : node.kind = .timeout ∨ node.kind = .messageContent) :
    (if node.namesDuration then none else node.termSummary.duration?)
      = if node.statesDuration then some (node.textAt 2) else none := by
  rcases kind with kind | kind
  · obtain ⟨operand, isDuration, children⟩ := h.production kind rfl
    have summed : node.termSummary = .timeout (node.textAt 2) := by rw [termSummary, kind]
    rcases isDuration with made | made
    · have sort : operand.kind = .number := made.kind_eq rfl
      simp [namesDuration, statesDuration, kind, children, sort, summed, TermSummary.duration?]
    · have sort : operand.kind = .identifier := made.kind_eq rfl
      simp [namesDuration, statesDuration, kind, children, sort]
  · have untimed : node.termSummary.duration? = none := by
      rcases h.production kind rfl with children | ⟨value, -, children⟩ |
        ⟨left, sign, right, -, -, -, children⟩
      all_goals
        rw [termSummary, kind, children]
        rfl
    simp [namesDuration, statesDuration, kind, untimed]

/-- The timeouts of a clause are those of its operations that state a duration. -/
theorem WellFormed.durations_eq (h : tree.WellFormed) :
    tree.clauseSummary.clause.durations
      = (tree.operationNodes.filter statesDuration).map (textAt 2) := by
  have formed : ∀ node ∈ tree.operationNodes,
      (if node.namesDuration then none else node.termSummary.duration?)
        = if node.statesDuration then some (node.textAt 2) else none := by
    intro node member
    have kind := kind_of_mem_reach [[.terms], [.termOrWhen], [.term]] _ member
    exact (h.of_mem_reach member).duration?_eq (by simpa using kind)
  rw [Clause.durations, ClauseSummary.clause, clauseSummary,
    filterMap_mapIdx (TermSummary.duration?_term _)]
  generalize tree.operationNodes = nodes at formed
  induction nodes with
  | nil => rfl
  | cons node nodes ih =>
      rw [List.forall_mem_cons] at formed
      have later := ih formed.2
      have here := formed.1
      rw [List.filter_cons, List.filter_cons]
      cases named : node.namesDuration with
      | true =>
          cases stated : node.statesDuration with
          | true => simp [named, stated] at here
          | false => exact later
      | false =>
          cases stated : node.statesDuration with
          | true =>
              have timed : node.termSummary.duration? = some (node.textAt 2) := by
                simpa [named, stated] using here
              simp [timed, later]
          | false =>
              have untimed : node.termSummary.duration? = none := by
                simpa [named, stated] using here
              simp [untimed, later]

end Tree

/-! ## Documents -/

/-- In a document that is read, the leaves agree with what is made of them. -/
theorem Document.leaves_agree_of_parse {source : String} {tree : Tree}
    (h : Document.parse source = .ok tree) :
    (∀ parent ∈ tree :: tree.beneath, ∀ leaf ∈ parent.children, Tree.LeafAgrees parent leaf) ∧
      (∀ node ∈ tree :: tree.beneath, node.kind = .messageContent → node.children.length = 6 →
        node.ComparisonAgrees) ∧
      (∀ node ∈ tree :: tree.beneath, node.kind = .timeout → node.TimeoutAgrees) ∧
      ∃ contract, compile (.text source) = .ok contract ∧
        contract.clauses.map Clause.durations
          = tree.clauseNodes.map fun clause =>
              (clause.operationNodes.filter Tree.statesDuration).map (Tree.textAt 2) := by
  obtain ⟨-, formed⟩ := Pattern.derives_contract_iff.mp (derives_of_parse h)
  refine ⟨?_, ?_, ?_, tree.summary.contract, compile_eq_summary h, ?_⟩
  · intro parent inside leaf member
    exact (formed parent inside).leafAgrees member
  · intro node inside kind binary
    exact (formed node inside).comparisonAgrees kind binary
  · intro node inside kind
    exact (formed node inside).timeoutAgrees kind
  · rw [Summary.contract, Tree.summary, List.map_map, List.map_map]
    exact List.map_congr_left fun clause member => (formed.of_mem_reach member).durations_eq

/-- A clause with a timeout in seconds, one under a name, and a comparison of a name with a
string. -/
def timedSource : String :=
  "contract c\x7bclauses\x7bright r\x7brolePlayer=process terms\x7b" ++
    "Timeout(5)Timeout(s)MessageContent(a<'q')\x7d\x7d\x7d\x7d"

/-- Of the two timeouts one is kept, and the comparison is read. -/
theorem Document.leaves_agree_of_parse_timed :
    ∃ tree contract, Document.parse timedSource = .ok tree ∧
      compile (.text timedSource) = .ok contract ∧
        contract.clauses.map Clause.durations = [["5"]] ∧
          ∃ node ∈ tree :: tree.beneath, node.ComparisonAgrees := by
  have facts : ((Document.parse timedSource).toOption.map fun tree =>
      (tree.clauseNodes.map fun clause =>
        (clause.operationNodes.filter Tree.statesDuration).map (Tree.textAt 2),
      (tree :: tree.beneath).any fun node =>
        node.kind == .messageContent && node.children.length == 6)) = some ([["5"]], true) := by
    decide +kernel
  cases read : Document.parse timedSource with
  | error error =>
      rw [read] at facts
      cases facts
  | ok tree =>
      rw [read] at facts
      obtain ⟨timeouts, compared⟩ := Prod.mk.inj (Option.some.inj facts)
      obtain ⟨node, inside, shape⟩ := List.any_eq_true.mp compared
      rw [Bool.and_eq_true, beq_iff_eq, beq_iff_eq] at shape
      obtain ⟨-, comparisons, -, contract, compiled, durations⟩ :=
        Document.leaves_agree_of_parse read
      rw [timeouts] at durations
      exact ⟨tree, contract, rfl, compiled, durations, node, inside,
        comparisons node inside shape.1 shape.2⟩

end Covenant
