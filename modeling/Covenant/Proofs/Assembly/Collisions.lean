import Covenant.Proofs.Assembly.Sites
import Covenant.Proofs.Assembly.Terms

/-!
# When generated names collide

A variable without a name of its own is called after the index of its term and, if it is an operand,
after its side. `CollisionLaw` says for a rendering of names which of these numbers give the same
name. In camel case and in pascal case the digits stand side by side, so an index `j` reads like an
index `i` and a side `s` exactly if `j = 10 * i + s`, with one exception: nothing is written like an
index zero and a side, since no number opens with a zero. In the third rendering an underscore
stands before each number, and different numbers never give the same name
(`Name.snake_ofParts_inj`).

Main statement: this law, and that the variables of two places of a clause with at most eleven terms
have different names in every rendering (`anonymous_collisions`). With twelve terms they may not
(`collidingClause`).
-/

set_option autoImplicit false

namespace Covenant

/-! ## Numbers behind underscores -/

namespace Name

theorem toList_underscored_numbers (base : String) (values : List Nat) :
    (underscored base (numbers values)).toList
      = base.toList ++ values.flatMap fun value => '_' :: Nat.toDigits 10 value := by
  induction values generalizing base with
  | nil => simp [numbers]
  | cons value values ih =>
      have written : (Part.index value).text.toList = Nat.toDigits 10 value :=
        toList_toString_ofNat value
      rw [numbers, List.map_cons, underscored_cons, ← numbers, String.toList_append,
        String.toList_append, ih, written, List.flatMap_cons]
      rfl

/-- What follows the digits of a number opens with an underscore, or is nothing. -/
theorem not_opensWith_isDigit_numbers (values : List Nat) :
    Text.opensWith Char.isDigit (values.flatMap fun value => '_' :: Nat.toDigits 10 value)
      = false := by
  cases values with
  | nil => rfl
  | cons value values => rfl

/-- Numbers that each follow an underscore are told apart. -/
theorem flatMap_underscore_inj {values others : List Nat} :
    (values.flatMap fun value => '_' :: Nat.toDigits 10 value)
      = (others.flatMap fun value => '_' :: Nat.toDigits 10 value) ↔ values = others := by
  constructor
  · intro same
    induction values generalizing others with
    | nil =>
        cases others with
        | nil => rfl
        | cons other others => cases same
    | cons value values ih =>
        cases others with
        | nil => cases same
        | cons other others =>
            rw [List.flatMap_cons, List.flatMap_cons, List.cons_append, List.cons_append] at same
            have tails := (List.cons.inj same).2
            have inside (n : Nat) : ∀ c ∈ Nat.toDigits 10 n, c.isDigit = true := fun c =>
              Nat.isDigit_of_mem_toDigits (by decide) (by decide)
            -- the digits before the next underscore are the longest run of digits
            have digits := congrArg (List.takeWhile Char.isDigit) tails
            rw [Text.takeWhile_append_of_stop (inside value) (not_opensWith_isDigit_numbers values),
              Text.takeWhile_append_of_stop (inside other) (not_opensWith_isDigit_numbers others)]
              at digits
            obtain rfl : value = other := toDigits_inj.mp digits
            rw [ih (List.append_cancel_left tails)]
  · rintro rfl
    rfl

/-- In the third rendering names with one base are told apart by their numbers. -/
theorem snake_ofParts_inj (base : String) (values others : List Nat) :
    (ofParts base (numbers values)).snake = (ofParts base (numbers others)).snake ↔
      values = others := by
  rw [ofParts, ofParts, ← String.toList_inj, toList_underscored_numbers,
    toList_underscored_numbers, List.append_cancel_left_eq, flatMap_underscore_inj]

end Name

/-! ## The law -/

/-- The name of a variable that is called after numbers only. -/
def anonymous (numbers : List Nat) : Name :=
  Name.ofParts Vocabulary.messageContentTag (Name.numbers numbers)

/-- Which names of variables without a name of their own look the same. The sides of a comparison
are 1 and 2. -/
structure CollisionLaw (rendering : Name → String) : Prop where
  /-- Two presence checks. -/
  presence : ∀ j j', rendering (anonymous [j]) = rendering (anonymous [j']) ↔ j = j'
  /-- Two operands. -/
  operand : ∀ i i' s s', s ∈ [1, 2] → s' ∈ [1, 2] →
    (rendering (anonymous [i, s]) = rendering (anonymous [i', s']) ↔ i = i' ∧ s = s')
  /-- A presence check and an operand. -/
  mixed : ∀ i j s, s ∈ [1, 2] →
    (rendering (anonymous [j]) = rendering (anonymous [i, s]) ↔ 1 ≤ i ∧ j = 10 * i + s)

theorem lt_ten_of_mem_sides {s : Nat} (h : s ∈ [1, 2]) : s < 10 := by
  simp only [List.mem_cons, List.not_mem_nil, or_false] at h
  omega

/-- The law holds where numbers run together. -/
theorem collisionLaw_of_digits {rendering : Name → String}
    (h : ∀ values others : List Nat, rendering (anonymous values) = rendering (anonymous others) ↔
      values.flatMap (Nat.toDigits 10) = others.flatMap (Nat.toDigits 10)) :
    CollisionLaw rendering := by
  constructor
  · intro j j'
    rw [h]
    simp only [List.flatMap_cons, List.flatMap_nil, List.append_nil]
    exact toDigits_inj
  · intro i i' s s' side side'
    rw [h]
    simp only [List.flatMap_cons, List.flatMap_nil, List.append_nil]
    exact toDigits_append_inj (lt_ten_of_mem_sides side) (lt_ten_of_mem_sides side')
  · intro i j s side
    rw [h]
    simp only [List.flatMap_cons, List.flatMap_nil, List.append_nil]
    exact toDigits_eq_append_iff (lt_ten_of_mem_sides side)

/-! ## Small clauses -/

namespace Site

theorem numbers_inj {a b : Site} : a.numbers = b.numbers ↔ a = b := by
  cases a <;> cases b <;> simp [numbers, Side.number_inj]

/-- The index of the term in which a place is. -/
def index : Site → Nat
  | presence index => index
  | quoted index _ => index

theorem index_lt_of_stands {tree : Tree} {clause : Clause} (h : Clause.ofTree tree = .ok clause)
    {site : Site} (stands : site.Stands tree) : site.index < clause.terms.length := by
  obtain ⟨head, terms, -, assembled, rfl⟩ := Assembly.assembled_of_ofTree h
  have listed : ∃ item, (Assembly.kept tree)[site.index]? = some item := by
    cases site with
    | presence index =>
        obtain ⟨node, kept, -⟩ := stands
        exact ⟨_, kept⟩
    | quoted index side =>
        obtain ⟨node, operand, kept, -⟩ := stands
        exact ⟨_, kept⟩
  obtain ⟨item, kept⟩ := listed
  rw [Assembly.clauseWith, Assembly.length_of_assembled assembled]
  exact (List.getElem?_eq_some_iff.mp kept).1

end Site

theorem Side.number_mem (side : Side) : side.number ∈ [1, 2] := by
  cases side <;> decide

namespace CollisionLaw

variable {rendering : Name → String} (law : CollisionLaw rendering)

include law

/-- A presence check among the first eleven terms is called like no operand: it would need an index
of at least `10 * 1 + 1`. -/
theorem ne_of_lt {i j s : Nat} (side : s ∈ [1, 2]) (small : j < 11) :
    rendering (anonymous [j]) ≠ rendering (anonymous [i, s]) := by
  intro same
  obtain ⟨proper, shared⟩ := (law.mixed i j s side).mp same
  simp only [List.mem_cons, List.not_mem_nil, or_false] at side
  omega

/-- Places in the first eleven terms have names of their own. -/
theorem ne_of_index_lt {a b : Site} (different : a ≠ b) (smallA : a.index < 11)
    (smallB : b.index < 11) :
    rendering (anonymous a.numbers) ≠ rendering (anonymous b.numbers) := by
  cases a with
  | presence j =>
      cases b with
      | presence j' =>
          intro same
          exact different (congrArg Site.presence ((law.presence j j').mp same))
      | quoted i side => exact law.ne_of_lt side.number_mem smallA
  | quoted i side =>
      cases b with
      | presence j => exact (law.ne_of_lt side.number_mem smallB).symm
      | quoted i' side' =>
          intro same
          obtain ⟨rfl, sides⟩ := (law.operand i i' _ _ side.number_mem side'.number_mem).mp same
          exact different (congrArg (Site.quoted i) (Side.number_inj.mp sides))

end CollisionLaw

/-- The names of variables without a name of their own obey one law in camel case and in pascal
case, and are all different in the third rendering. Two places of a clause with at most eleven terms
have variables whose names differ in every rendering. -/
theorem anonymous_collisions :
    CollisionLaw Name.camel ∧ CollisionLaw Name.pascal ∧
    (∀ values others : List Nat,
      (anonymous values).snake = (anonymous others).snake ↔ values = others) ∧
    ∀ (tree : Tree) (clause : Clause), Clause.ofTree tree = .ok clause → clause.terms.length ≤ 11 →
      ∀ a b : Site, a.Stands tree → b.Stands tree → a ≠ b →
        ∃ v w, clause.variableAt? a = some v ∧ clause.variableAt? b = some w ∧
          v.name.camel ≠ w.name.camel ∧ v.name.pascal ≠ w.name.pascal ∧
            v.name.snake ≠ w.name.snake := by
  have camel : CollisionLaw Name.camel := collisionLaw_of_digits (Name.camel_ofParts_inj _)
  have pascal : CollisionLaw Name.pascal := collisionLaw_of_digits (Name.pascal_ofParts_inj _)
  refine ⟨camel, pascal, Name.snake_ofParts_inj _, ?_⟩
  intro tree clause made small a b standsA standsB different
  obtain ⟨v, atA, nameA, -⟩ := exists_variable_of_stands made standsA
  obtain ⟨w, atB, nameB, -⟩ := exists_variable_of_stands made standsB
  have smallA : a.index < 11 := (Site.index_lt_of_stands made standsA).trans_le small
  have smallB : b.index < 11 := (Site.index_lt_of_stands made standsB).trans_le small
  refine ⟨v, w, atA, atB, ?_, ?_, ?_⟩
  · rw [nameA, nameB]
    exact camel.ne_of_index_lt different smallA smallB
  · rw [nameA, nameB]
    exact pascal.ne_of_index_lt different smallA smallB
  · rw [nameA, nameB]
    intro same
    apply different
    exact Site.numbers_inj.mp ((Name.snake_ofParts_inj _ _ _).mp same)

/-- A clause of eleven terms. The second compares two quoted texts, the last tests for presence, and
the others are timeouts. -/
def crowdedClause : Tree :=
  let word := Tree.leaf .token
  let entry := fun operation => Tree.inner .termOrWhen [.inner .term [operation]]
  let timeout := entry (.inner .timeout [word "Timeout", word "(", .leaf .number "1", word ")"])
  let message := fun operands =>
    entry (.inner .messageContent ([word "MessageContent", word "("] ++ operands ++ [word ")"]))
  framedClause
    [.inner .terms
      ([timeout, message [.leaf .string "'a'", .leaf .comparator "==", .leaf .string "'b'"]]
        ++ List.replicate 8 timeout ++ [message []])]

/-- One more term and the presence check of this clause would be called like the left operand of the
second term. Index and side 0 and 1 are written as no index is. -/
theorem anonymous_collisions_crowded :
    ((anonymous [11]).camel = (anonymous [1, 1]).camel ∧
      (anonymous [11]).pascal = (anonymous [1, 1]).pascal ∧
      (anonymous [1]).camel ≠ (anonymous [0, 1]).camel ∧
      (anonymous [1, 2]).camel ≠ (anonymous [1, 1]).camel) ∧
    ∃ clause v w, Clause.ofTree crowdedClause = .ok clause ∧ clause.terms.length = 11 ∧
      clause.variableAt? (.quoted 1 .left) = some v ∧ clause.variableAt? (.presence 10) = some w ∧
        v.name.camel = "messageContent11" ∧ w.name.camel = "messageContent10" ∧
          v.name.camel ≠ w.name.camel := by
  obtain ⟨camel, pascal, -, small⟩ := anonymous_collisions
  constructor
  · refine ⟨(camel.mixed 1 11 1 (by decide)).mpr ⟨by decide, rfl⟩,
      (pascal.mixed 1 11 1 (by decide)).mpr ⟨by decide, rfl⟩, ?_, ?_⟩
    · intro same
      exact absurd ((camel.mixed 0 1 1 (by decide)).mp same).1 (by decide)
    · intro same
      exact absurd ((camel.operand 1 1 2 1 (by decide) (by decide)).mp same).2 (by decide)
  · have made : Clause.ofTree crowdedClause = .ok _ := rfl
    obtain ⟨v, w, atLeft, atPresence, apart, -⟩ := small _ _ made (by decide) (.quoted 1 .left)
      (.presence 10) ⟨_, _, rfl, rfl, rfl, rfl⟩ ⟨_, rfl, rfl⟩ (by decide)
    refine ⟨_, v, w, made, rfl, atLeft, atPresence, ?_, ?_, apart⟩
    · cases atLeft
      rfl
    · cases atPresence
      rfl

end Covenant
