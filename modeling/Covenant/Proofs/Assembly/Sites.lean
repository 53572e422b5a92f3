import Covenant.Proofs.Assembly.Clause
import Covenant.Proofs.Condition
import Covenant.Proofs.Inputs
import Covenant.Proofs.Name

/-!
# Variables without a name of their own

A presence check and a quoted operand introduce variables that are named after their place: the
index of the term, and for an operand its side. In camel case index and side run together, so two
places can end up with one name. `camel_eq_iff_collides` says exactly when: a presence check at
index `j` and an operand at side `s` of the term with index `i` share a name if `i` is not zero and
`j = 10 * i + s`, and no other two places do. The inputs of the clause then hold one variable for
both places. The smallest clause in which this happens has twelve terms (`collidingClause`).
-/

set_option autoImplicit false

namespace Covenant

/-! ## Sites -/

/-- A side of a comparison. -/
inductive Side where
  | left
  | right
  deriving DecidableEq, Repr

/-- The number of a side. -/
def Side.number : Side → Nat
  | left => 1
  | right => 2

/-- The one of two things that stands on a side. -/
def Side.pick {α : Type} (side : Side) (leftOne rightOne : α) : α :=
  match side with
  | left => leftOne
  | right => rightOne

/-- A place in a clause whose variable has no name of its own. -/
inductive Site where
  | presence (index : Nat)
  | quoted (index : Nat) (side : Side)
  deriving DecidableEq, Repr

namespace Site

/-- The numbers after which the variable is named. -/
def numbers : Site → List Nat
  | presence index => [index]
  | quoted index side => [index, side.number]

/-- The place is one of the clause: a presence check among its terms, or a quoted side of a
comparison. -/
def Stands (tree : Tree) : Site → Prop
  | presence index => ∃ node, (Assembly.kept tree)[index]? = some (.messageContent, node) ∧
      node.testsPresence = .ok true
  | quoted index side => ∃ node operand,
      (Assembly.kept tree)[index]? = some (.messageContent, node) ∧
        node.testsPresence = .ok false ∧ node.sideAt side.number = .ok operand ∧
          Lexeme.opensQuotation operand.text = true

/-- One place is a presence check and the other an operand, and their numbers run together into
the same digits. -/
def Collides : Site → Site → Prop
  | presence j, quoted i side => 0 < i ∧ j = 10 * i + side.number
  | quoted i side, presence j => 0 < i ∧ j = 10 * i + side.number
  | _, _ => False

end Site

/-- The variable that a clause has at a place. -/
def Clause.variableAt? (clause : Clause) : Site → Option Variable
  | .presence index =>
      match clause.terms[index]? with
      | some (.messageContent _ [flag] none []) => some flag
      | _ => none
  | .quoted index side =>
      match clause.terms[index]? with
      | some (.messageContent _ _ (some _) [left, right]) => (side.pick left right).reference?
      | _ => none

/-! ## Numbers of sites -/

theorem Side.number_lt (side : Side) : side.number < 10 := by
  cases side <;> decide

theorem Side.number_inj {side other : Side} : side.number = other.number ↔ side = other := by
  cases side <;> cases other <;> decide

/-- Different places share a name in camel case exactly if they collide. -/
theorem Site.camel_eq_iff (base : String) {a b : Site} (different : a ≠ b) :
    (Name.ofParts base (Name.numbers a.numbers)).camel
      = (Name.ofParts base (Name.numbers b.numbers)).camel ↔ a.Collides b := by
  rw [Name.camel_ofParts_inj]
  cases a with
  | presence j =>
      cases b with
      | presence k =>
          simp only [numbers, List.flatMap_cons, List.flatMap_nil, List.append_nil, toDigits_inj,
            Collides, iff_false]
          exact fun same => different (congrArg presence same)
      | quoted i side =>
          simp only [numbers, List.flatMap_cons, List.flatMap_nil, List.append_nil, Collides]
          exact toDigits_eq_append_iff side.number_lt
  | quoted i side =>
      cases b with
      | presence j =>
          simp only [numbers, List.flatMap_cons, List.flatMap_nil, List.append_nil, Collides]
          rw [eq_comm]
          exact toDigits_eq_append_iff side.number_lt
      | quoted k other =>
          simp only [numbers, List.flatMap_cons, List.flatMap_nil, List.append_nil, Collides,
            iff_false, toDigits_append_inj side.number_lt other.number_lt]
          rintro ⟨rfl, sameSide⟩
          exact different (congrArg (quoted i) (Side.number_inj.mp sameSide))

/-! ## The variable at a site -/

namespace Condition

variable {node : Tree} {index : Int}

theorem exists_comparison (h : node.testsPresence = .ok false) {condition : Condition}
    (made : ofTree node index = .ok condition) :
    ∃ sign left right, (∀ side : Side, node.sideAt side.number = .ok (side.pick left right)) ∧
      condition = .comparison (.ofText left.text index 1 (comparedType sign)) sign
        (.ofText right.text index 2 (comparedType sign)) := by
  rw [ofTree, h, ok_bind, if_neg Bool.false_ne_true] at made
  obtain ⟨sign, -, made⟩ := bind_eq_ok_iff.mp made
  obtain ⟨left, leftRead, made⟩ := bind_eq_ok_iff.mp made
  obtain ⟨right, rightRead, made⟩ := bind_eq_ok_iff.mp made
  cases made
  refine ⟨sign, left, right, fun side => ?_, rfl⟩
  cases side with
  | left => exact leftRead
  | right => exact rightRead

end Condition

/-- The variable at a place of a clause is named after the place and is one of the variables of
its term. -/
theorem exists_variable_of_stands {tree : Tree} {clause : Clause}
    (h : Clause.ofTree tree = .ok clause) {site : Site} (stands : site.Stands tree) :
    ∃ v, clause.variableAt? site = some v ∧
      v.name = Name.ofParts Vocabulary.messageContentTag (Name.numbers site.numbers) ∧
        v ∈ clause.terms.flatMap Term.inputs := by
  obtain ⟨head, terms, -, assembled, rfl⟩ := Assembly.assembled_of_ofTree h
  cases site with
  | presence index =>
      obtain ⟨node, kept, tests⟩ := stands
      obtain ⟨term, listed, made⟩ := assembled.exists_term kept
      rw [Nat.zero_add, Assembly.termOf, Condition.ofTree_of_presence tests] at made
      cases made
      refine ⟨⟨Name.ofParts Vocabulary.messageContentTag [.index index], Vocabulary.booleanType⟩,
        ?_, rfl, ?_⟩
      · simp [Clause.variableAt?, Assembly.clauseWith, listed, Condition.inputs,
          Condition.comparator?, Condition.operands]
      · exact List.mem_flatMap.mpr
          ⟨_, List.mem_of_getElem? listed, List.mem_singleton_self _⟩
  | quoted index side =>
      obtain ⟨node, operand, kept, tests, read, quoted⟩ := stands
      obtain ⟨term, listed, made⟩ := assembled.exists_term kept
      rw [Nat.zero_add, Assembly.termOf] at made
      obtain ⟨condition, found, made⟩ := bind_eq_ok_iff.mp made
      cases made
      obtain ⟨sign, left, right, sides, rfl⟩ := Condition.exists_comparison tests found
      obtain rfl : side.pick left right = operand := Except.ok.inj ((sides side).symm.trans read)
      -- both sides are read alike, each with its own number
      have chosen : side.pick (Operand.ofText left.text index 1 (comparedType sign))
          (Operand.ofText right.text index 2 (comparedType sign)) = .reference
            ⟨Name.ofParts Vocabulary.messageContentTag [.index index, .index side.number],
              comparedType sign⟩ := by
        rw [← Operand.ofText_of_opensQuotation quoted]
        cases side <;> rfl
      refine ⟨⟨Name.ofParts Vocabulary.messageContentTag [.index index, .index side.number],
        comparedType sign⟩, ?_, rfl, ?_⟩
      · simp [Clause.variableAt?, Assembly.clauseWith, listed, Condition.comparator?,
          Condition.operands, chosen, Operand.reference?]
      · refine List.mem_flatMap.mpr ⟨_, List.mem_of_getElem? listed, ?_⟩
        refine List.mem_filterMap.mpr ⟨_, ?_, congrArg Operand.reference? chosen⟩
        cases side <;> simp [Side.pick]

/-! ## Inputs -/

/-- A clause has exactly one input under the camel-case name of each variable of its terms. -/
theorem count_key_inputs {tree : Tree} {clause : Clause} (h : Clause.ofTree tree = .ok clause)
    {v : Variable} (member : v ∈ clause.terms.flatMap Term.inputs) :
    (clause.inputs.map Variable.key).count v.key = 1 := by
  obtain ⟨head, terms, -, -, rfl⟩ := Assembly.assembled_of_ofTree h
  apply List.count_eq_one_of_mem
  · exact Inputs.distinct _
  · exact (Inputs.mem_keys_insertAll _ _).mpr (Or.inr (List.mem_map_of_mem member))

/-! ## Collisions -/

/-- Two different places of a clause have variables of one camel-case name exactly if they
collide. The clause has one input under each name, hence one for both places if they collide and
two if they do not. -/
theorem camel_eq_iff_collides {tree : Tree} {clause : Clause}
    (h : Clause.ofTree tree = .ok clause) {a b : Site} (standsA : a.Stands tree)
    (standsB : b.Stands tree) (different : a ≠ b) :
    ∃ v w, clause.variableAt? a = some v ∧ clause.variableAt? b = some w ∧
      (v.key = w.key ↔ a.Collides b) ∧
        (clause.inputs.map Variable.key).count v.key = 1 ∧
          (clause.inputs.map Variable.key).count w.key = 1 := by
  obtain ⟨v, atA, nameA, memberA⟩ := exists_variable_of_stands h standsA
  obtain ⟨w, atB, nameB, memberB⟩ := exists_variable_of_stands h standsB
  refine ⟨v, w, atA, atB, ?_, count_key_inputs h memberA, count_key_inputs h memberB⟩
  rw [Variable.key, Variable.key, nameA, nameB]
  exact Site.camel_eq_iff _ different

/-- A clause of twelve terms. The second compares a quoted text with a number, the last tests for
presence, and the others are timeouts. -/
def collidingClause : Tree :=
  let word := Tree.leaf .token
  let entry := fun operation => Tree.inner .termOrWhen [.inner .term [operation]]
  let timeout :=
    entry (.inner .timeout [word "Timeout", word "(", .leaf .number "1", word ")"])
  let comparison :=
    entry (.inner .messageContent
      [word "MessageContent", word "(", .leaf .string "\"a\"", .leaf .comparator "==",
        .leaf .number "1", word ")"])
  let presence := entry (.inner .messageContent [word "MessageContent", word "(", word ")"])
  .inner .clause
    [.leaf .clauseType "right", .leaf .identifier "r", word "\x7b",
      .inner .rolePlayer [word "rolePlayer", word "=", .leaf .identifier "process"],
      .inner .terms ([word "terms", word "\x7b", timeout, comparison] ++ List.replicate 9 timeout
        ++ [presence, word "\x7d"]),
      word "\x7d"]

/-- Places of one clause can share a name: the left operand of the second term and the presence
check of the twelfth are both called `messageContent11`. -/
theorem not_camel_distinct :
    ¬ ∀ (tree : Tree) (clause : Clause) (a b : Site) (v w : Variable),
      Clause.ofTree tree = .ok clause → a.Stands tree → b.Stands tree → a ≠ b →
        clause.variableAt? a = some v → clause.variableAt? b = some w → v.key ≠ w.key := by
  intro distinct
  exact distinct collidingClause _ (.quoted 1 .left) (.presence 11) _ _ rfl
    ⟨_, _, rfl, rfl, rfl, rfl⟩ ⟨_, rfl, rfl⟩ (by decide) rfl rfl rfl

/-- The two places collide, and the clause has one input for both. -/
theorem camel_eq_iff_collides_twelve :
    ∃ clause v w, Clause.ofTree collidingClause = .ok clause ∧
      clause.variableAt? (.quoted 1 .left) = some v ∧ clause.variableAt? (.presence 11) = some w ∧
        (v.key = w.key ↔ (Site.quoted 1 .left).Collides (.presence 11)) ∧
          (Site.quoted 1 .left).Collides (.presence 11) ∧ clause.inputs = [w] := by
  have quoted : (Site.quoted 1 .left).Stands collidingClause := ⟨_, _, rfl, rfl, rfl, rfl⟩
  have presence : (Site.presence 11).Stands collidingClause := ⟨_, rfl, rfl⟩
  obtain ⟨v, w, atLeft, atPresence, shared, -⟩ :=
    camel_eq_iff_collides (show Clause.ofTree collidingClause = .ok _ from rfl) quoted presence
      (by decide)
  refine ⟨_, v, w, rfl, atLeft, atPresence, shared, ⟨by decide, rfl⟩, ?_⟩
  cases atPresence
  rfl

end Covenant
