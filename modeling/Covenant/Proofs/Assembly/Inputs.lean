import Covenant.Proofs.Assembly.Canonical
import Mathlib.Data.Finset.Card

/-!
# Inputs and the history of their additions

Variables come to the inputs one at a time or several at once (`Inputs.Call`), and a name may come
up more than once, each time with another variable. `Inputs.Records` says what a history of
additions leaves behind: the names stand in the order in which they came up first, and under each
name stands the variable that came last. This determines the inputs (`Inputs.Records.unique`).

One addition keeps the relation between inputs and history (`Inputs.Records.insert`), hence so does
every sequence of calls (`Inputs.Records.run`). A history that is repeated leaves what it left
before (`Inputs.Records.of_repeated`). Main statement: whatever calls were made, the inputs record
their history, and the inputs of a clause record the variables of its terms, term by term
(`Inputs.records_of_run`).
-/

set_option autoImplicit false

namespace Covenant

namespace Variable

variable {v w : Variable} {history : List Variable}

/-- There is one last variable of a name. -/
theorem IsLast.unique (h : IsLast history v) (h' : IsLast history w) (same : v.key = w.key) :
    v = w := by
  induction history with
  | nil => exact absurd h not_isLast_nil
  | cons first rest ih =>
      rw [isLast_cons] at h h'
      rcases h with later | ⟨rfl, none⟩
      · rcases h' with later' | ⟨rfl, none'⟩
        · exact ih later later'
        · exact absurd same (none' v later.mem)
      · rcases h' with later' | ⟨rfl, -⟩
        · exact absurd same.symm (none w later'.mem)
        · rfl

end Variable

/-- Lists that agree in a view, and that have no two members with one view, are the same. -/
theorem eq_of_map_eq {α β : Type} {view : α → β} {items others : List α}
    (views : items.map view = others.map view)
    (told : ∀ a ∈ items, ∀ b ∈ others, view a = view b → a = b) : items = others := by
  induction items generalizing others with
  | nil => exact (List.map_eq_nil_iff.mp views.symm).symm
  | cons a items ih =>
      cases others with
      | nil => cases views
      | cons b others =>
          obtain ⟨first, later⟩ := List.cons.inj views
          have same : a = b := told a List.mem_cons_self b List.mem_cons_self first
          rw [same, ih later]
          intro c member d member'
          exact told c (List.mem_cons_of_mem a member) d (List.mem_cons_of_mem b member')

namespace Inputs

/-! ## Calls -/

/-- A call that brings variables: one, or several from left to right. -/
inductive Call where
  | add (v : Variable)
  | merge (vars : List Variable)
  deriving DecidableEq, Repr

/-- The variables that a call brings, in order. -/
def Call.added : Call → List Variable
  | add v => [v]
  | merge vars => vars

/-- The inputs after a call. -/
def serve (inputs : Inputs) : Call → Inputs
  | .add v => inputs.insert v
  | .merge vars => inputs.insertAll vars

/-- The inputs after several calls. -/
def run (inputs : Inputs) (calls : List Call) : Inputs :=
  calls.foldl serve inputs

/-- The inputs are what a history of additions leaves behind. -/
structure Records (inputs : Inputs) (history : List Variable) : Prop where
  /-- Each name stands where it came up first. -/
  keys : inputs.toList.map Variable.key = (history.map Variable.key).eraseDups
  /-- Under each name stands the variable that came last. -/
  last : ∀ v ∈ inputs.toList, Variable.IsLast history v

variable {inputs other : Inputs} {history : List Variable}

/-- A call stores what it brings. -/
theorem serve_eq (inputs : Inputs) (call : Call) :
    inputs.serve call = inputs.insertAll call.added := by
  cases call <;> rfl

theorem run_eq (inputs : Inputs) (calls : List Call) :
    inputs.run calls = inputs.insertAll (calls.flatMap Call.added) := by
  induction calls generalizing inputs with
  | nil => rfl
  | cons call calls ih =>
      rw [run, List.foldl_cons, ← run, ih, serve_eq, List.flatMap_cons, insertAll, insertAll,
        insertAll, List.foldl_append]

/-! ## What is recorded -/

theorem records_empty : empty.Records [] := by
  refine ⟨rfl, ?_⟩
  intro v stored
  cases stored

theorem Records.mem_keys_iff (h : inputs.Records history) {camel : String} :
    camel ∈ inputs.toList.map Variable.key ↔ camel ∈ history.map Variable.key := by
  rw [h.keys, List.mem_eraseDups]

/-- A name that is new goes to the end, and a name that is known keeps its place. -/
theorem eraseDups_concat (names : List String) (name : String) :
    (names ++ [name]).eraseDups
      = if name ∈ names then names.eraseDups else names.eraseDups ++ [name] := by
  rw [List.eraseDups_append]
  by_cases known : name ∈ names
  · simp [List.removeAll, known]
  · simp [List.removeAll, known, List.eraseDups_cons]

/-- One more addition. -/
theorem Records.insert (h : inputs.Records history) (v : Variable) :
    (inputs.insert v).Records (history ++ [v]) := by
  constructor
  · rw [map_key_insert, List.map_append, List.map_singleton, eraseDups_concat, h.keys]
    simp only [List.mem_eraseDups]
  · intro w stored
    rw [Variable.isLast_append]
    rcases mem_insert.mp stored with rfl | ⟨before, other⟩
    · exact Or.inl ⟨[], [], rfl, by simp⟩
    · refine Or.inr ⟨h.last w before, ?_⟩
      intro u single
      rw [List.mem_singleton.mp single]
      exact other.symm

/-- Several more additions. -/
theorem Records.insertAll (h : inputs.Records history) (vars : List Variable) :
    (inputs.insertAll vars).Records (history ++ vars) := by
  induction vars generalizing inputs history with
  | nil =>
      rw [List.append_nil]
      exact h
  | cons v vars ih =>
      rw [List.append_cons]
      exact ih (h.insert v)

theorem Records.run (h : inputs.Records history) (calls : List Call) :
    (inputs.run calls).Records (history ++ calls.flatMap Call.added) := by
  rw [run_eq]
  exact h.insertAll _

theorem Records.size_eq (h : inputs.Records history) :
    inputs.size = (history.map Variable.key).toFinset.card := by
  have names : (inputs.toList.map Variable.key).toFinset
      = (history.map Variable.key).toFinset := by
    ext camel
    rw [List.mem_toFinset, List.mem_toFinset, h.mem_keys_iff]
  rw [← names, List.toFinset_card_of_nodup inputs.distinct, List.length_map, size]

theorem Records.contains_iff (h : inputs.Records history) (camel : String) :
    inputs.contains camel = true ↔ camel ∈ history.map Variable.key := by
  rw [Inputs.contains_iff, h.mem_keys_iff]

/-- A history leaves nothing open. -/
theorem Records.unique (h : inputs.Records history) (h' : other.Records history) :
    inputs = other := by
  have same : inputs.toList = other.toList := by
    apply eq_of_map_eq (h.keys.trans h'.keys.symm)
    intro v stored w stored' named
    exact (h.last v stored).unique (h'.last w stored') named
  cases inputs
  cases other
  cases same
  rfl

/-- What is left by a history and once more the same is left by the history. -/
theorem Records.of_repeated (h : inputs.Records (history ++ history)) :
    inputs.Records history := by
  constructor
  · have none : (history.map Variable.key).removeAll (history.map Variable.key) = [] := by
      simp [List.removeAll]
    rw [h.keys, List.map_append, List.eraseDups_append, none, List.eraseDups_nil, List.append_nil]
  · intro v stored
    rcases Variable.isLast_append.mp (h.last v stored) with second | ⟨first, -⟩
    · exact second
    · exact first

theorem Records.run_eq_self {calls : List Call}
    (h : inputs.Records (calls.flatMap Call.added)) : inputs.run calls = inputs :=
  (h.run calls).of_repeated.unique h

/-! ## Inputs of a clause -/

/-- Adding the variables of terms one by one is storing them all. -/
theorem flatMap_added_add (terms : List Term) :
    (terms.flatMap fun term => term.inputs.map Call.add).flatMap Call.added
      = terms.flatMap Term.inputs := by
  simp [List.flatMap_assoc, List.flatMap_map, Call.added]

/-- After any calls there is one variable for each name that came up, in the order in which the
names came up first, and it is the last one of the name; the calls made once more change nothing.
The inputs of a clause are what its terms leave, added term by term and from left to right. -/
theorem records_of_run :
    (∀ calls : List Call,
      (empty.run calls).Records (calls.flatMap Call.added) ∧
        (empty.run calls).size = ((calls.flatMap Call.added).map Variable.key).toFinset.card ∧
        (∀ camel, (empty.run calls).contains camel = true ↔
          camel ∈ (calls.flatMap Call.added).map Variable.key) ∧
        (empty.run calls).run calls = empty.run calls) ∧
    ∀ (tree : Tree) (clause : Clause), Clause.ofTree tree = .ok clause →
      clause.inputs
          = (empty.run (clause.terms.flatMap fun term => term.inputs.map Call.add)).toList ∧
        (∀ camel, camel ∈ clause.inputs.map Variable.key ↔
          ∃ term ∈ clause.terms, term.Mentions camel) ∧
        (clause.inputs.map Variable.key).Nodup := by
  constructor
  · intro calls
    have recorded : (empty.run calls).Records (calls.flatMap Call.added) := records_empty.run calls
    exact ⟨recorded, recorded.size_eq, recorded.contains_iff, recorded.run_eq_self⟩
  · intro tree clause made
    obtain ⟨head, terms, -, -, rfl⟩ := Assembly.assembled_of_ofTree made
    refine ⟨?_, ?_, Inputs.distinct _⟩
    · rw [run_eq, flatMap_added_add]
      rfl
    · exact (Clause.isCanonical made).mentioned

/-- Calls that bring `a` as a number, `b`, and then `A`, which is `a` in camel case, as a text. -/
def retypingCalls : List Call :=
  [.add ⟨Name.ofParts "a" [], "NUMBER"⟩,
    .merge [⟨Name.ofParts "b" [], "TEXT"⟩, ⟨Name.ofParts "A" [], "TEXT"⟩]]

/-- A clause whose terms use the name `a` twice, with another variable between. -/
def retypingClause : Tree :=
  let word := Tree.leaf .token
  let message := fun operands => Tree.inner .termOrWhen
    [.inner .term
      [.inner .messageContent ([word "MessageContent", word "("] ++ operands ++ [word ")"])]]
  framedClause
    [.inner .terms
      [message [.leaf .identifier "a", .leaf .comparator "<", .leaf .identifier "b"],
        message [.leaf .identifier "A", .leaf .comparator "==", .leaf .string "'x'"]]]

/-- The second variable of the name takes the place of the first, after calls as in a clause. -/
theorem records_of_run_retyping :
    ((empty.run retypingCalls).run retypingCalls = empty.run retypingCalls ∧
      (empty.run retypingCalls).size = 2 ∧
      ((empty.run retypingCalls).toList.map fun v => (v.name.snake, v.type))
        = [("A", "TEXT"), ("b", "TEXT")]) ∧
    ∃ clause, Clause.ofTree retypingClause = .ok clause ∧
      clause.inputs
        = (empty.run (clause.terms.flatMap fun term => term.inputs.map Call.add)).toList ∧
      (clause.inputs.map fun v => (v.name.snake, v.type))
        = [("A", "TEXT"), ("b", "NUMBER"), ("messageContent_1_2", "TEXT")] := by
  obtain ⟨calls, clauses⟩ := records_of_run
  have made : Clause.ofTree retypingClause = .ok _ := rfl
  exact ⟨⟨(calls retypingCalls).2.2.2, rfl, rfl⟩, _, made, (clauses _ _ made).1, rfl⟩

end Inputs

end Covenant
