import Covenant.Assembly.Clause
import Mathlib.Data.List.Forall2

/-!
# What a clause is assembled from

A clause is assembled in a loop over its operations that carries the terms and variables so far.
Here the loop is taken apart: `termOf` says what one operation adds at a given index, without the
loop, and `operation` is `termOf` followed by `Progress.addAll` (`result_operation`). Over a whole
clause the terms are those of the kept operations, each at its own position (`assembled_of_ofTree`),
and the variables are those of the terms, stored one after the other. The loop fails only where an
operation cannot be read (`exists_ofTree_eq_ok`).
-/

set_option autoImplicit false

namespace Covenant

/-! ## Runs that may fail -/

section Runs

variable {ε α β : Type}

@[simp] theorem ok_bind (value : α) (next : α → Except ε β) :
    (Except.ok value >>= next) = next value :=
  rfl

theorem bind_eq_ok_iff {first : Except ε α} {next : α → Except ε β} {value : β} :
    first >>= next = .ok value ↔ ∃ middle, first = .ok middle ∧ next middle = .ok value := by
  cases first with
  | error fault =>
      constructor
      · intro h
        cases h
      · rintro ⟨middle, h, -⟩
        cases h
  | ok middle =>
      constructor
      · exact fun h => ⟨middle, rfl, h⟩
      · rintro ⟨other, h, done⟩
        cases h
        exact done

/-- A loop succeeds if each of its steps does, whatever the state before it. -/
theorem exists_foldlM_eq_ok {step : β → α → Except ε β} {items : List α}
    (h : ∀ item ∈ items, ∀ state, ∃ next, step state item = .ok next) (start : β) :
    ∃ done, items.foldlM step start = .ok done := by
  induction items generalizing start with
  | nil => exact ⟨start, rfl⟩
  | cons item items ih =>
      rw [List.forall_mem_cons] at h
      obtain ⟨next, stepped⟩ := h.1 start
      obtain ⟨done, finished⟩ := ih h.2 next
      exact ⟨done, by rw [List.foldlM_cons]; exact bind_eq_ok_iff.mpr ⟨next, stepped, finished⟩⟩

theorem mapM_eq_ok_map {visit : α → Except ε β} {value : α → β} {items : List α}
    (h : ∀ item ∈ items, visit item = .ok (value item)) :
    items.mapM visit = .ok (items.map value) := by
  induction items with
  | nil => rfl
  | cons item items ih =>
      rw [List.forall_mem_cons] at h
      rw [List.mapM_cons, h.1, ok_bind, ih h.2]
      rfl

/-- Item by item, a visit that succeeds gives what the item gives. -/
theorem forall₂_of_mapM {visit : α → Except ε β} {items : List α} {values : List β}
    (h : items.mapM visit = .ok values) :
    List.Forall₂ (fun item value => visit item = .ok value) items values := by
  induction items generalizing values with
  | nil =>
      cases h
      exact .nil
  | cons item items ih =>
      rw [List.mapM_cons] at h
      obtain ⟨first, visited, h⟩ := bind_eq_ok_iff.mp h
      obtain ⟨others, finished, h⟩ := bind_eq_ok_iff.mp h
      cases h
      exact .cons visited (ih finished)

theorem exists_of_mem_mapM {visit : α → Except ε β} {items : List α} {values : List β}
    (h : items.mapM visit = .ok values) {value : β} (member : value ∈ values) :
    ∃ item ∈ items, visit item = .ok value := by
  have each := forall₂_of_mapM h
  clear h
  induction each with
  | nil => cases member
  | cons visited _ ih =>
      rcases List.mem_cons.mp member with rfl | member
      · exact ⟨_, List.mem_cons_self, visited⟩
      · obtain ⟨item, listed, found⟩ := ih member
        exact ⟨item, List.mem_cons_of_mem _ listed, found⟩

end Runs

namespace Assembly

variable {name : Name} {progress done : Progress} {tree : Tree} {v : Verbosity}

/-! ## One operation -/

/-- What an operation adds to a clause as the term with the given index: a term, or nothing. -/
def termOf (name : Name) (index : Nat) : Operation × Tree → Except Fault (Option Term)
  | (.timeout, node) => do
      let operand ← node.duration
      return if Lexeme.isNumber operand.text then
        some (.timeout (name.extend [.word Vocabulary.timeoutTag, .index index]) operand.text)
      else none
  | (.messageContent, node) => do
      let condition ← Condition.ofTree node index
      return some <| .messageContent
        (name.extend [.word Vocabulary.messageContentTag, .index index])
        condition.inputs condition.comparator? condition.operands

/-- Adds terms at the end, with their variables. -/
def Progress.addAll (progress : Progress) (terms : List Term) : Progress where
  terms := progress.terms ++ terms
  inputs := progress.inputs.insertAll (terms.flatMap Term.inputs)

@[simp] theorem Progress.addAll_nil (progress : Progress) : progress.addAll [] = progress := by
  simp [addAll, Inputs.insertAll]

theorem Progress.addAll_append (progress : Progress) (terms more : List Term) :
    (progress.addAll terms).addAll more = progress.addAll (terms ++ more) := by
  simp [addAll, Inputs.insertAll]

theorem Progress.index_addAll (progress : Progress) (terms : List Term) :
    (progress.addAll terms).index = progress.index + terms.length := by
  simp [index, addAll]

theorem result_store (inputs : Inputs) (input : Variable) :
    (store inputs input).result v = .ok (inputs.insert input) := by
  unfold store
  split
  · split <;> simp
  · simp

theorem result_foldlM_store (inputs : Inputs) (vars : List Variable) :
    (vars.foldlM store inputs).result v = .ok (inputs.insertAll vars) := by
  rw [Traced.result_foldlM]
  induction vars generalizing inputs with
  | nil => rfl
  | cons first rest ih =>
      rw [List.foldlM_cons, result_store]
      exact ih (inputs.insert first)

/-- An operation adds what it stands for at the next index, and fails if that cannot be read. -/
theorem result_operation (name : Name) (progress : Progress) (item : Operation × Tree) :
    (operation name progress item).result v
      = (termOf name progress.index item).map fun term => progress.addAll term.toList := by
  obtain ⟨kind, node⟩ := item
  cases kind with
  | timeout =>
      rw [operation, timeout, termOf, Traced.result_bind, Traced.result_ofExcept]
      cases node.duration with
      | error fault => rfl
      | ok operand =>
          simp only [ok_bind]
          by_cases numeric : Lexeme.isNumber operand.text = true
          · rw [if_pos numeric, if_pos numeric]
            rfl
          · rw [if_neg numeric, if_neg numeric, Traced.result_bind, Traced.result_note, ok_bind]
            show Except.ok progress = Except.ok (progress.addAll [])
            rw [Progress.addAll_nil]
  | messageContent =>
      rw [operation, messageContent, termOf, Traced.result_bind, Traced.result_ofExcept]
      cases Condition.ofTree node progress.index with
      | error fault => rfl
      | ok condition =>
          simp only [ok_bind, Traced.result_bind, result_foldlM_store]
          show Except.ok _ = Except.ok (progress.addAll [_])
          simp [Progress.addAll, Progress.push, Term.inputs]

/-- Whether an operation becomes a term. A timeout does if its operand is a number. -/
def keeps : Operation × Tree → Bool
  | (.timeout, node) =>
      match node.duration with
      | .ok operand => Lexeme.isNumber operand.text
      | .error _ => false
  | (.messageContent, _) => true

theorem keeps_of_termOf {index : Nat} {item : Operation × Tree} {term : Option Term}
    (h : termOf name index item = .ok term) : keeps item = term.isSome := by
  obtain ⟨kind, node⟩ := item
  cases kind with
  | timeout =>
      rw [termOf] at h
      obtain ⟨operand, read, made⟩ := bind_eq_ok_iff.mp h
      cases made
      simp only [keeps, read]
      split <;> simp_all
  | messageContent =>
      rw [termOf] at h
      obtain ⟨condition, read, made⟩ := bind_eq_ok_iff.mp h
      cases made
      rfl

/-! ## All operations -/

/-- The kind of node of an operation. -/
def Operation.kind : Operation → Kind
  | timeout => .timeout
  | messageContent => .messageContent

theorem handler?_termRouting_iff {kind : Kind} {sort : Operation} :
    termRouting.handler? kind = some sort ↔ kind = sort.kind := by
  cases sort <;> cases kind <;> decide

theorem mem_select_termRouting {item : Operation × Tree} {nodes : List Tree} :
    item ∈ termRouting.select nodes ↔ item.2 ∈ nodes ∧ item.2.kind = item.1.kind := by
  obtain ⟨sort, node⟩ := item
  rw [Routing.select, List.mem_filterMap]
  constructor
  · rintro ⟨other, member, found⟩
    obtain ⟨handler, handled, same⟩ := Option.map_eq_some_iff.mp found
    cases same
    exact ⟨member, handler?_termRouting_iff.mp handled⟩
  · rintro ⟨member, same⟩
    exact ⟨node, member, Option.map_eq_some_iff.mpr ⟨sort, handler?_termRouting_iff.mpr same, rfl⟩⟩

/-- The operations of a clause stand in its terms blocks, three levels below these. -/
theorem mem_operations {item : Operation × Tree} (h : item ∈ operations tree) :
    ∃ block ∈ tree.children, ∃ termOrWhen ∈ block.children, ∃ term ∈ termOrWhen.children,
      item.2 ∈ term.children ∧ item.2.kind = item.1.kind := by
  obtain ⟨part, selected, inside⟩ := List.mem_flatMap.mp h
  obtain ⟨block, member, found⟩ := List.mem_filterMap.mp selected
  obtain ⟨handler, -, rfl⟩ := Option.map_eq_some_iff.mp found
  cases handler with
  | breach => cases inside
  | terms =>
      obtain ⟨termOrWhen, picked, inside⟩ := List.mem_flatMap.mp inside
      obtain ⟨term, pickedTerm, inside⟩ := List.mem_flatMap.mp inside
      exact ⟨block, member, termOrWhen, (List.mem_filter.mp picked).1, term,
        (List.mem_filter.mp pickedTerm).1, mem_select_termRouting.mp inside⟩

/-- An operation is routed by the kind of its node. -/
theorem kind_of_mem_operations {item : Operation × Tree} (h : item ∈ operations tree) :
    item.2.kind = item.1.kind := by
  obtain ⟨_, _, _, _, _, _, _, kind⟩ := mem_operations h
  exact kind

/-- The operations of a clause that become terms. -/
def kept (tree : Tree) : List (Operation × Tree) :=
  (operations tree).filter keeps

/-- The terms are those of the operations, each at its own position counted from an index. -/
def Assembled (name : Name) (start : Nat) (items : List (Operation × Tree)) (terms : List Term) :
    Prop :=
  List.Forall₂ (fun slot term => termOf name slot.2 slot.1 = .ok (some term))
    (items.zipIdx start) terms

/-- The term of an operation stands at its position. -/
theorem Assembled.exists_term {name : Name} {items : List (Operation × Tree)} {terms : List Term}
    {start k : Nat} {item : Operation × Tree} (h : Assembled name start items terms)
    (found : items[k]? = some item) :
    ∃ term, terms[k]? = some term ∧ termOf name (start + k) item = .ok (some term) := by
  induction items generalizing start terms k with
  | nil => cases found
  | cons first items ih =>
      rw [Assembled, List.zipIdx_cons] at h
      cases h with
      | cons made later =>
          cases k with
          | zero =>
              cases found
              exact ⟨_, rfl, made⟩
          | succ k =>
              obtain ⟨term, listed, made⟩ := ih later found
              exact ⟨term, listed, by rw [← made]; congr 1; omega⟩

/-- The loop adds the terms of the operations that are kept. -/
theorem assembled_of_foldlM {items : List (Operation × Tree)}
    (h : items.foldlM (fun state item => (operation name state item).result v) progress
      = .ok done) :
    ∃ terms, Assembled name progress.index (items.filter keeps) terms ∧
      done = progress.addAll terms := by
  induction items generalizing progress with
  | nil =>
      cases h
      exact ⟨[], .nil, by simp⟩
  | cons item items ih =>
      rw [List.foldlM_cons] at h
      obtain ⟨middle, stepped, finished⟩ := bind_eq_ok_iff.mp h
      rw [result_operation] at stepped
      cases found : termOf name progress.index item with
      | error fault =>
          rw [found] at stepped
          cases stepped
      | ok term =>
          rw [found] at stepped
          obtain rfl : progress.addAll term.toList = middle := Except.ok.inj stepped
          obtain ⟨terms, assembled, rfl⟩ := ih finished
          -- an operation that adds nothing takes no index, so the later ones are not shifted
          have decided := keeps_of_termOf found
          cases term with
          | none =>
              rw [Option.toList_none, Progress.addAll_nil] at assembled ⊢
              refine ⟨terms, ?_, rfl⟩
              rw [List.filter_cons_of_neg (by simp [decided])]
              exact assembled
          | some term =>
              refine ⟨term :: terms, ?_, Progress.addAll_append progress [term] terms⟩
              rw [List.filter_cons_of_pos (by simp [decided]), Assembled, List.zipIdx_cons]
              rw [Progress.index_addAll] at assembled
              exact .cons found assembled

/-- The loop ends if every operation can be read, at whatever index. -/
theorem exists_foldlM_operation {items : List (Operation × Tree)}
    (h : ∀ item ∈ items, ∀ index, ∃ term, termOf name index item = .ok term)
    (progress : Progress) :
    ∃ done, items.foldlM (fun state item => (operation name state item).result v) progress
      = .ok done := by
  apply exists_foldlM_eq_ok
  intro item member state
  obtain ⟨term, found⟩ := h item member state.index
  refine ⟨state.addAll term.toList, ?_⟩
  rw [result_operation, found]
  rfl

/-! ## A clause -/

/-- The clause with the given header and terms, and the breach messages of the tree. -/
def clauseWith (header : Header) (terms : List Term) (tree : Tree) : Clause where
  name := header.name
  category := header.category
  rolePlayer := header.role
  operation := header.role
  inputs := (Inputs.empty.insertAll (terms.flatMap Term.inputs)).toList
  terms := terms
  messages := { error := (breachMessages tree).getLast?.getD "" }

theorem ofTree_eq (tree : Tree) :
    Clause.ofTree tree = do
      let header ← header tree
      let progress ← (operations tree).foldlM
        (fun state item => (operation header.name state item).result .quiet) {}
      return {
        name := header.name
        category := header.category
        rolePlayer := header.role
        operation := header.role
        inputs := progress.inputs.toList
        terms := progress.terms
        messages := { error := (breachMessages tree).getLast?.getD "" } } := by
  simp only [Clause.ofTree, clause, Traced.result_bind, Traced.result_ofExcept,
    Traced.result_foldlM, Traced.result_note, ok_bind]
  rfl

/-- An assembled clause has the terms of its kept operations, and the variables of these. -/
theorem assembled_of_ofTree {clause : Clause} (h : Clause.ofTree tree = .ok clause) :
    ∃ head terms, header tree = .ok head ∧ Assembled head.name 0 (kept tree) terms ∧
      clause = clauseWith head terms tree := by
  rw [ofTree_eq] at h
  obtain ⟨head, opened, h⟩ := bind_eq_ok_iff.mp h
  obtain ⟨progress, finished, h⟩ := bind_eq_ok_iff.mp h
  cases h
  obtain ⟨terms, assembled, rfl⟩ := assembled_of_foldlM finished
  exact ⟨head, terms, opened, assembled, by simp [clauseWith, Progress.addAll]⟩

/-- A clause is assembled if its header and its operations can be read. -/
theorem exists_ofTree_eq_ok {head : Header} (opened : header tree = .ok head)
    (readable : ∀ item ∈ operations tree, ∀ index,
      ∃ term, termOf head.name index item = .ok term) :
    ∃ clause, Clause.ofTree tree = .ok clause := by
  obtain ⟨progress, finished⟩ := exists_foldlM_operation readable {}
  rw [ofTree_eq, opened, ok_bind, finished]
  exact ⟨_, rfl⟩

end Assembly

end Covenant
