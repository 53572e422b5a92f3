import Covenant.Proofs.Assembly.Contract
import Covenant.Proofs.Assembly.Inputs
import Covenant.Proofs.Trace

/-!
# What an assembly reports

An assembly reports timeouts that it leaves out, variables that replace different ones, and each
clause that it completes. Here these reports are compared with the tree and with the clause that
comes of it. A variable is due to be reported if the last one of its name before it is another one
(`redefinitions`), which is said of the variables alone, without the store that the assembly keeps.

One operation either becomes a term, whose variables are stored, or is reported as left out
(`operation_cases`). Hence the events account for the operations: one operation keeps the account
(`Accounts.step`), and so does a run of operations (`Accounts.run`). At the end of a clause the
account says what became of it (`Tells`). In a contract the clauses are told one after the other, up
to the first that fails (`TellsAll`).

Main statement: events have no influence on what is assembled, and they leave nothing out
(`faithful_trace`).
-/

set_option autoImplicit false

namespace Covenant

/-! ## Kinds of events -/

namespace Event

/-- A timeout was left out. -/
def isSkip : Event → Bool
  | timeoutSkipped _ _ => true
  | _ => false

/-- A variable was replaced. -/
def isRedefinition : Event → Bool
  | variableRedefined _ _ _ => true
  | _ => false

/-- Something happened to an operation of a clause. -/
def isOfOperation (event : Event) : Bool :=
  event.isSkip || event.isRedefinition

/-- A clause was completed, or something happened to one of its operations. -/
def isOfClause : Event → Bool
  | clauseAssembled _ _ _ => true
  | event => event.isOfOperation

theorem not_isSkip_of_isRedefinition {event : Event} (h : event.isRedefinition = true) :
    event.isSkip = false := by
  cases event with
  | variableRedefined => rfl
  | _ => cases h

theorem isOfClause_of_isOfOperation {event : Event} (h : event.isOfOperation = true) :
    event.isOfClause = true := by
  cases event with
  | clauseAssembled => rfl
  | _ => exact h

end Event

/-! ## Redefinitions -/

/-- The last variable of a name in a history. -/
def Variable.lastNamed? (history : List Variable) (camel : String) : Option Variable :=
  history.reverse.find? fun v => v.key == camel

/-- The event for a variable that comes after a history, if one is due: the last variable of its
name is another one. -/
def redefinition (history : List Variable) (v : Variable) : List Event :=
  match Variable.lastNamed? history v.key with
  | some stored => if stored ≠ v then [.variableRedefined v.key stored.type v.type] else []
  | none => []

/-- The events for a sequence of variables, each compared with those before it. -/
def redefinitions (vars : List Variable) : List Event :=
  vars.zipIdx.flatMap fun place => redefinition (vars.take place.2) place.1

theorem Variable.IsLast.lastNamed?_eq {history : List Variable} {v : Variable}
    (h : IsLast history v) : lastNamed? history v.key = some v := by
  obtain ⟨front, back, rfl, others⟩ := h
  have none : back.reverse.find? (fun w => w.key == v.key) = none := by
    rw [List.find?_eq_none]
    intro w member
    simpa using others w (List.mem_reverse.mp member)
  simp [lastNamed?, List.find?_append, none]

/-- What is stored under a name is what the history had last under it. -/
theorem Inputs.Records.get?_eq {inputs : Inputs} {history : List Variable}
    (h : inputs.Records history) (camel : String) :
    inputs.get? camel = Variable.lastNamed? history camel := by
  cases stored : inputs.get? camel with
  | some v =>
      have named : v.key = camel := by simpa using List.find?_some stored
      have last := h.last v (List.mem_of_find?_eq_some stored)
      rw [← named, last.lastNamed?_eq]
  | none =>
      -- a name that is not stored never came up
      have absent : camel ∉ history.map Variable.key := by
        rw [← h.mem_keys_iff, List.mem_map]
        rintro ⟨v, member, named⟩
        exact absurd named (by simpa using List.find?_eq_none.mp stored v member)
      rw [eq_comm, Variable.lastNamed?, List.find?_eq_none]
      intro v member
      have other : v.key ≠ camel := by
        rintro rfl
        exact absent (List.mem_map_of_mem (List.mem_reverse.mp member))
      simpa using other

theorem redefinitions_concat (vars : List Variable) (v : Variable) :
    redefinitions (vars ++ [v]) = redefinitions vars ++ redefinition vars v := by
  have earlier :
      (vars.zipIdx.flatMap fun place => redefinition ((vars ++ [v]).take place.2) place.1)
        = redefinitions vars := by
    apply List.flatMap_congr
    intro place member
    have listed := List.mem_zipIdx_iff_getElem?.mp member
    have bound : place.2 < vars.length := (List.getElem?_eq_some_iff.mp listed).1
    rw [List.take_append_of_le_length bound.le]
  rw [redefinitions, List.zipIdx_append, List.flatMap_append, earlier]
  simp [redefinitions]

namespace Assembly

/-! ## Storing variables -/

variable {inputs : Inputs} {history : List Variable}

theorem events_store (h : inputs.Records history) (v : Variable) :
    (store inputs v).events .debug = redefinition history v := by
  unfold store redefinition
  rw [h.get?_eq]
  cases Variable.lastNamed? history v.key with
  | none => rfl
  | some stored =>
      by_cases same : stored = v
      · simp [same]
      · simp only [ne_eq, same, not_false_eq_true, if_true]
        rfl

/-- Storing a sequence goes on with the events for the whole history. -/
theorem events_foldlM_store (h : inputs.Records history) (vars : List Variable) :
    redefinitions history ++ (vars.foldlM store inputs).events .debug
      = redefinitions (history ++ vars) := by
  induction vars generalizing inputs history with
  | nil => simp
  | cons v vars ih =>
      rw [List.foldlM_cons, Traced.events_bind_of_ok (result_store inputs v), events_store h,
        ← List.append_assoc, ← redefinitions_concat, ih (h.insert v), List.append_assoc,
        List.singleton_append]

/-! ## What is reported at all -/

theorem notes_store (inputs : Inputs) (v : Variable) :
    (store inputs v).Notes Event.isRedefinition := by
  unfold store
  split
  · split
    · exact (Traced.notes_note rfl).bind fun _ => Traced.notes_pure _
    · exact Traced.notes_pure _
  · exact Traced.notes_pure _

theorem notes_stores (vars : List Variable) (inputs : Inputs) :
    (vars.foldlM store inputs).Notes Event.isRedefinition :=
  Traced.Notes.foldlM notes_store vars inputs

theorem notes_operation (name : Name) (progress : Progress) (item : Operation × Tree) :
    (operation name progress item).Notes Event.isOfOperation := by
  obtain ⟨kind, node⟩ := item
  cases kind with
  | timeout =>
      refine (Traced.notes_ofExcept _).bind fun operand => ?_
      split
      · exact Traced.notes_pure _
      · exact (Traced.notes_note rfl).bind fun _ => Traced.notes_pure _
  | messageContent =>
      refine (Traced.notes_ofExcept _).bind fun condition => ?_
      refine Traced.Notes.bind ?_ fun inputs => Traced.notes_pure _
      exact (notes_stores _ _).mono fun event h => by simp [Event.isOfOperation, h]

theorem notes_operations (name : Name) (items : List (Operation × Tree)) (progress : Progress) :
    (items.foldlM (operation name) progress).Notes Event.isOfOperation :=
  Traced.Notes.foldlM (notes_operation name) items progress

theorem notes_clause (tree : Tree) : (clause tree).Notes Event.isOfClause := by
  refine (Traced.notes_ofExcept _).bind fun head => ?_
  refine Traced.Notes.bind ?_ fun progress => ?_
  · exact (notes_operations _ _ _).mono fun _ => Event.isOfClause_of_isOfOperation
  · exact (Traced.notes_note rfl).bind fun _ => Traced.notes_pure _

/-! ## One operation -/

variable {name : Name} {progress next : Progress} {item : Operation × Tree}

theorem textAt_of_duration {node operand : Tree} (h : node.duration = .ok operand) :
    node.textAt 2 = operand.text := by
  obtain ⟨-, -, read⟩ := bind_eq_ok_iff.mp h
  exact Tree.textAt_of_nth read

theorem events_timeout {node operand : Tree} (h : node.duration = .ok operand) :
    (timeout name progress node).events .debug
      = if Lexeme.isNumber operand.text then []
        else [.timeoutSkipped name.camel operand.text] := by
  rw [timeout, Traced.events_bind, Traced.result_ofExcept, h]
  dsimp only
  split
  · rfl
  · rfl

theorem events_messageContent {node : Tree} {condition : Condition}
    (h : Condition.ofTree node progress.index = .ok condition) :
    (messageContent name progress node).events .debug
      = (condition.inputs.foldlM store progress.inputs).events .debug := by
  rw [messageContent, Traced.events_bind, Traced.result_ofExcept, h]
  exact Traced.events_bind_pure _ _ _

/-- What an operation can do: it adds a term and stores its variables, or it is a timeout that is
left out, and says so. -/
theorem operation_cases (h : (operation name progress item).result .debug = .ok next) :
    (∃ term, keeps item = true ∧ next = progress.addAll [term] ∧
      (operation name progress item).events .debug
        = (term.inputs.foldlM store progress.inputs).events .debug) ∨
    (keeps item = false ∧ next = progress ∧
      (operation name progress item).events .debug
        = [.timeoutSkipped name.camel (item.2.textAt 2)]) := by
  rw [result_operation] at h
  obtain ⟨kind, node⟩ := item
  cases kind with
  | timeout =>
      cases read : node.duration with
      | error fault =>
          rw [termOf, read] at h
          cases h
      | ok operand =>
          rw [termOf, read, ok_bind] at h
          rw [operation, events_timeout read]
          by_cases numeric : Lexeme.isNumber operand.text = true
          · rw [if_pos numeric] at h ⊢
            cases h
            exact Or.inl ⟨_, by simp [keeps, read, numeric], rfl, rfl⟩
          · -- the progress is unchanged, and the index with it
            rw [if_neg numeric] at h ⊢
            cases h
            refine Or.inr ⟨by simp [keeps, read, numeric], progress.addAll_nil, ?_⟩
            rw [textAt_of_duration read]
  | messageContent =>
      cases read : Condition.ofTree node progress.index with
      | error fault =>
          rw [termOf, read] at h
          cases h
      | ok condition =>
          rw [termOf, read, ok_bind] at h
          rw [operation, events_messageContent read]
          cases h
          exact Or.inl ⟨_, rfl, rfl, rfl⟩

/-! ## All operations -/

/-- The events for those of some operations that are left out. -/
def skips (name : Name) (items : List (Operation × Tree)) : List Event :=
  (items.filter fun item => !keeps item).map fun item =>
    .timeoutSkipped name.camel (item.2.textAt 2)

theorem skips_concat (name : Name) (items : List (Operation × Tree)) (item : Operation × Tree) :
    skips name (items ++ [item]) = skips name items ++
      if keeps item then [] else [.timeoutSkipped name.camel (item.2.textAt 2)] := by
  rw [skips, List.filter_append, List.map_append, ← skips]
  cases decided : keeps item with
  | true => simp [decided]
  | false => simp [decided]

/-- The events so far account for the operations so far: each operation has become a term or is
reported as left out, and the variables of the terms are those that were stored and reported. -/
structure Accounts (name : Name) (items : List (Operation × Tree)) (progress : Progress)
    (events : List Event) : Prop where
  recorded : progress.inputs.Records (progress.terms.flatMap Term.inputs)
  skipped : events.filter Event.isSkip = skips name items
  redefined : events.filter Event.isRedefinition
    = redefinitions (progress.terms.flatMap Term.inputs)
  balance : progress.terms.length + (skips name items).length = items.length

theorem accounts_nil (name : Name) : Accounts name [] {} [] :=
  ⟨Inputs.records_empty, rfl, rfl, rfl⟩

variable {items : List (Operation × Tree)} {events : List Event}

/-- One operation keeps the account. -/
theorem Accounts.step (h : Accounts name items progress events)
    (stepped : (operation name progress item).result .debug = .ok next) :
    Accounts name (items ++ [item]) next
      (events ++ (operation name progress item).events .debug) := by
  have balance := h.balance
  obtain ⟨term, kept, rfl, reported⟩ | ⟨left, rfl, reported⟩ := operation_cases stepped
  · -- a term takes the place of the operation, and its variables go on with the history
    have stored := notes_stores term.inputs progress.inputs
    have history : (progress.addAll [term]).terms.flatMap Term.inputs
        = progress.terms.flatMap Term.inputs ++ term.inputs := by
      simp [Progress.addAll]
    rw [reported]
    refine ⟨?_, ?_, ?_, ?_⟩
    · rw [history]
      simpa [Progress.addAll] using h.recorded.insertAll term.inputs
    · rw [List.filter_append, h.skipped, skips_concat, kept,
        stored.filter_eq_nil fun _ => Event.not_isSkip_of_isRedefinition]
      rfl
    · rw [List.filter_append, h.redefined, stored.filter_eq_self, history,
        events_foldlM_store h.recorded]
    · rw [skips_concat, kept]
      simp only [Progress.addAll, List.length_append, List.length_singleton, if_true,
        List.append_nil]
      omega
  · -- an event takes the place of the operation
    rw [reported]
    refine ⟨h.recorded, ?_, ?_, ?_⟩
    · rw [List.filter_append, h.skipped, skips_concat, left]
      rfl
    · rw [List.filter_append, h.redefined]
      exact List.append_nil _
    · rw [skips_concat, left]
      simp only [List.length_append, List.length_singleton, Bool.false_eq_true, if_false]
      omega

/-- All operations keep the account. -/
theorem Accounts.run (h : Accounts name items progress events) {more : List (Operation × Tree)}
    (finished : (more.foldlM (operation name) progress).result .debug = .ok next) :
    Accounts name (items ++ more) next
      (events ++ (more.foldlM (operation name) progress).events .debug) := by
  -- the operations that are done and their events are carried along, since the history matters
  induction more generalizing items progress events with
  | nil =>
      cases finished
      simpa using h
  | cons item more ih =>
      rw [List.foldlM_cons] at finished ⊢
      rw [Traced.result_bind] at finished
      obtain ⟨middle, stepped, finished⟩ := bind_eq_ok_iff.mp finished
      rw [Traced.events_bind_of_ok stepped, List.append_cons, ← List.append_assoc]
      exact ih (h.step stepped) finished

end Assembly

/-! ## Clauses -/

/-- The timeouts of a clause whose operand is no number. -/
def Tree.idleTimeouts (clause : Tree) : List Tree :=
  clause.operationNodes.filter fun node =>
    node.kind == .timeout && !Lexeme.isNumber (node.textAt 2)

/-- The events tell what became of a clause. -/
structure Tells (tree : Tree) (clause : Clause) (events : List Event) : Prop where
  /-- Each timeout that is left out has its event, in document order. -/
  skipped : events.filter Event.isSkip
    = tree.idleTimeouts.map fun node => .timeoutSkipped clause.name.camel (node.textAt 2)
  /-- So has each variable that comes after a different one of its name. -/
  redefined : events.filter Event.isRedefinition
    = redefinitions (clause.terms.flatMap Term.inputs)
  /-- At the end, and only there, the terms and the names of their variables are counted. -/
  summed : ∃ earlier, (∀ event ∈ earlier, event.isOfOperation = true) ∧
    events = earlier ++ [.clauseAssembled clause.name.camel clause.terms.length
      ((clause.terms.flatMap Term.inputs).map Variable.key).toFinset.card]
  /-- No operation is lost. -/
  balance : clause.terms.length + (events.filter Event.isSkip).length
    = tree.operationNodes.length

namespace Assembly

variable {tree : Tree} {made : Clause} {fault : Fault}

theorem skips_operations (name : Name) (tree : Tree) :
    skips name (operations tree)
      = tree.idleTimeouts.map fun node => .timeoutSkipped name.camel (node.textAt 2) := by
  rw [skips, Tree.idleTimeouts, ← map_snd_operations, List.filter_map, List.map_map]
  refine congrArg _ (List.filter_congr fun item member => ?_)
  rw [keeps_eq_becomesTerm (kind_of_mem_operations member)]
  simp [Tree.becomesTerm, bne]

/-- A clause that is assembled is told. -/
theorem tells_of_ofTree (h : Clause.ofTree tree = .ok made) :
    Tells tree made ((clause tree).events .debug) := by
  rw [ofTree_eq] at h
  obtain ⟨head, opened, h⟩ := bind_eq_ok_iff.mp h
  obtain ⟨progress, finished, h⟩ := bind_eq_ok_iff.mp h
  cases h
  have notes := notes_operations head.name (operations tree) {}
  have ran : ((operations tree).foldlM (operation head.name) {}).result .debug
      = .ok progress := by
    rw [notes.result, Traced.result_foldlM]
    exact finished
  have account := (accounts_nil head.name).run ran
  rw [List.nil_append, List.nil_append] at account
  -- after the operations there is nothing but the count
  have told : (clause tree).events .debug
      = ((operations tree).foldlM (operation head.name) {}).events .debug
        ++ [.clauseAssembled head.name.camel progress.terms.length progress.inputs.size] := by
    have first : (Traced.ofExcept (header tree)).result .debug = .ok head := opened
    rw [clause, Traced.events_bind_of_ok first, Traced.events_bind_of_ok ran]
    rfl
  have skipped : ((clause tree).events .debug).filter Event.isSkip
      = skips head.name (operations tree) := by
    rw [told, List.filter_append, account.skipped]
    exact List.append_nil _
  refine ⟨?_, ?_, ?_, ?_⟩
  · rw [skipped, skips_operations]
  · rw [told, List.filter_append, account.redefined]
    exact List.append_nil _
  · exact ⟨_, notes.only, by rw [told, account.recorded.size_eq]⟩
  · rw [skipped, account.balance, ← map_snd_operations, List.length_map]

/-- A clause that fails is not counted. -/
theorem only_of_ofTree_error (h : Clause.ofTree tree = .error fault) :
    ∀ event ∈ (clause tree).events .debug, event.isOfOperation = true := by
  have failed : (clause tree).result .debug = .error fault := (notes_clause tree).result.trans h
  rw [clause, Traced.result_bind] at failed
  rw [clause]
  cases opened : (Traced.ofExcept (header tree)).result .debug with
  | error first =>
      rw [Traced.events_bind_of_error opened]
      simp
  | ok head =>
      rw [opened, ok_bind, Traced.result_bind] at failed
      rw [Traced.events_bind_of_ok opened, Traced.events_ofExcept, List.nil_append]
      cases ran : ((operations tree).foldlM (operation head.name) {}).result .debug with
      | error later =>
          rw [Traced.events_bind_of_error ran]
          exact (notes_operations head.name (operations tree) {}).only
      | ok progress =>
          -- nothing can fail after the operations
          rw [ran] at failed
          cases failed

end Assembly

/-! ## Contracts -/

/-- The events tell what became of some clauses, one after the other, up to the first that fails,
which is not counted. -/
inductive TellsAll : List Tree → List Event → Prop
  | nil : TellsAll [] []
  | cons {node : Tree} {clause : Clause} {events : List Event} {nodes : List Tree}
      {later : List Event} : Clause.ofTree node = .ok clause → Tells node clause events →
      TellsAll nodes later → TellsAll (node :: nodes) (events ++ later)
  | failed {node : Tree} {fault : Fault} {events : List Event} {nodes : List Tree} :
      Clause.ofTree node = .error fault → (∀ event ∈ events, event.isOfOperation = true) →
      TellsAll (node :: nodes) events

namespace Assembly

variable {tree child : Tree}

theorem tellsAll_mapM (nodes : List Tree) :
    TellsAll nodes ((nodes.mapM clause).events .debug) := by
  induction nodes with
  | nil => exact .nil
  | cons node nodes ih =>
      have result := (notes_clause node).result
      rw [List.mapM_cons]
      cases made : Clause.ofTree node with
      | error fault =>
          rw [Traced.events_bind_of_error (result.trans made)]
          exact .failed made (only_of_ofTree_error made)
      | ok clause =>
          rw [Traced.events_bind_of_ok (result.trans made), Traced.events_bind_pure]
          exact .cons made (tells_of_ofTree made) ih

/-- A block of clauses is the visit of its clauses. -/
theorem contractChild_of_clauses (draft : Draft) (h : child.kind = .clauses) :
    contractChild draft child
      = (Tree.among [.clauses] [[.clause]] [child]).mapM clause >>= fun clauses =>
          pure { draft with clauses := draft.clauses ++ clauses } := by
  rw [Tree.among_singleton_of_mem (by simp [h]), Tree.reach_singleton, contractChild,
    contractRouting_handler?, h]
  rfl

/-- Other children report nothing about clauses. -/
theorem notes_contractChild_of_ne (draft : Draft) (h : child.kind ≠ .clauses) :
    (contractChild draft child).Notes fun event => !event.isOfClause := by
  rw [contractChild, contractRouting_handler?, if_neg h]
  by_cases named : child.kind = .variableBlock
  · rw [if_pos named]
    exact (Traced.Notes.forM (fun _ => Traced.notes_note rfl) _).bind fun _ =>
      Traced.notes_pure _
  · rw [if_neg named]
    by_cases dates : child.kind = .dates
    · rw [if_pos dates]
      exact Traced.notes_pure _
    · rw [if_neg dates]
      by_cases parties : child.kind = .parties
      · rw [if_pos parties]
        exact Traced.notes_pure _
      · rw [if_neg parties]
        dsimp only
        split
        · exact (Traced.notes_note rfl).bind fun _ => Traced.notes_pure _
        · exact Traced.notes_pure _

theorem notes_contractChild (draft : Draft) (child : Tree) :
    (contractChild draft child).Notes fun _ => true := by
  by_cases clauses : child.kind = .clauses
  · rw [contractChild_of_clauses draft clauses]
    refine Traced.Notes.bind ?_ fun _ => Traced.notes_pure _
    exact (Traced.Notes.mapM notes_clause _).mono fun _ _ => rfl
  · exact (notes_contractChild_of_ne draft clauses).mono fun _ _ => rfl

theorem notes_contract (tree : Tree) : (contract tree).Notes fun _ => true := by
  have visit : (tree.children.foldlM contractChild {}).Notes fun _ => true :=
    Traced.Notes.foldlM notes_contractChild tree.children {}
  rw [contract]
  split
  · exact (Traced.notes_ofExcept _).bind fun _ => (Traced.notes_ofExcept _).bind fun _ =>
      visit.bind fun _ => Traced.notes_pure _
  · exact (Traced.notes_ofExcept _).bind fun _ => visit.bind fun _ => Traced.notes_pure _

/-- What a child has to say about clauses is what they say. -/
theorem filter_events_contractChild (draft : Draft) (child : Tree) :
    ((contractChild draft child).events .debug).filter Event.isOfClause
      = ((Tree.among [.clauses] [[.clause]] [child]).mapM clause).events .debug := by
  by_cases clauses : child.kind = .clauses
  · rw [contractChild_of_clauses draft clauses, Traced.events_bind_pure]
    exact (Traced.Notes.mapM notes_clause _).filter_eq_self
  · rw [Tree.among_singleton_of_not_mem (by simp [clauses]),
      (notes_contractChild_of_ne draft clauses).filter_eq_nil (by simp)]
    rfl

/-- A child fails exactly if one of its clauses does. -/
theorem result_contractChild_debug (draft : Draft) (child : Tree) :
    (contractChild draft child).result .debug
      = (((Tree.among [.clauses] [[.clause]] [child]).mapM clause).result .debug).map
          (draft.extend [child]) := by
  rw [(notes_contractChild draft child).result, result_contractChild,
    (Traced.Notes.mapM notes_clause _).result, Traced.result_mapM]
  rfl

/-- What the children have to say about clauses is what these say. -/
theorem filter_events_foldlM_contractChild (draft : Draft) (children : List Tree) :
    ((children.foldlM contractChild draft).events .debug).filter Event.isOfClause
      = ((Tree.among [.clauses] [[.clause]] children).mapM clause).events .debug := by
  induction children generalizing draft with
  | nil => rfl
  | cons child rest ih =>
      have stepped := result_contractChild_debug draft child
      rw [List.foldlM_cons, Tree.among_cons child rest, List.mapM_append]
      -- a child fails exactly if its clauses do, so both traces go on or end at the same place
      cases visited : ((Tree.among [.clauses] [[.clause]] [child]).mapM clause).result .debug with
      | error fault =>
          rw [visited] at stepped
          rw [Traced.events_bind_of_error stepped, Traced.events_bind_of_error visited,
            filter_events_contractChild]
      | ok clauses =>
          rw [visited] at stepped
          rw [Traced.events_bind_of_ok stepped, Traced.events_bind_of_ok visited,
            List.filter_append, filter_events_contractChild, ih, Traced.events_bind_pure]

/-- The trace of a contract tells its clauses. -/
theorem tellsAll_contract (kind : tree.kind = .contract) :
    TellsAll tree.clauseNodes (((contract tree).events .debug).filter Event.isOfClause) := by
  have title : (Traced.ofExcept tree.contractTitle).result .debug = .ok tree.identifierText := by
    simp [Tree.contractTitle, Tree.expect, kind]
  have told : ((contract tree).events .debug).filter Event.isOfClause
      = (tree.clauseNodes.mapM clause).events .debug := by
    rw [contract, if_neg (not_not_intro kind)]
    dsimp only
    rw [Traced.events_bind_of_ok title, Traced.events_ofExcept, List.nil_append,
      Traced.events_bind_pure, filter_events_foldlM_contractChild, Tree.clauseNodes,
      Tree.reach_cons]
  rw [told]
  exact tellsAll_mapM tree.clauseNodes

/-- Notes have no influence, and they are complete. For every tree the contract or the error is
the same with and without them. What they say about the clauses of a contract tells each of these
up to the first that fails, and so do the reports of a clause that is assembled by itself. Variables
that are stored one after the other are reported where they replace a different one. -/
theorem faithful_trace (tree : Tree) :
    (contract tree).result .debug = Contract.ofTree tree ∧
    (contract tree).events .quiet = [] ∧
    (tree.kind = .contract →
      TellsAll tree.clauseNodes (((contract tree).events .debug).filter Event.isOfClause)) ∧
    (∀ made, Clause.ofTree tree = .ok made → (clause tree).result .debug = .ok made ∧
      Tells tree made ((clause tree).events .debug)) ∧
    ∀ vars, (vars.foldlM store .empty).events .debug = redefinitions vars := by
  have notes := notes_contract tree
  refine ⟨notes.result, notes.silent, tellsAll_contract, ?_, ?_⟩
  · intro made h
    exact ⟨(notes_clause tree).result.trans h, tells_of_ofTree h⟩
  · exact events_foldlM_store Inputs.records_empty

/-- A clause with a timeout under a name and one name for three variables, the second of which is
as the first. -/
def talkativeClause : Tree :=
  let word := Tree.leaf .token
  let entry := fun operation => Tree.inner .termOrWhen [.inner .term [operation]]
  let timeout := fun operand =>
    entry (.inner .timeout [word "Timeout", word "(", operand, word ")"])
  let message := fun comparator operand => entry <| .inner .messageContent
    [word "MessageContent", word "(", .leaf .identifier "a", .leaf .comparator comparator, operand,
      word ")"]
  framedClause
    [.inner .terms
      [message "<" (.leaf .number "1"), message "<" (.leaf .number "2"),
        timeout (.leaf .identifier "soon")],
      .inner .terms [message "==" (.leaf .string "'x'"), timeout (.leaf .number "9")]]

/-- A contract in which a clause that cannot be read follows it. -/
def haltedContract : Tree :=
  .inner .contract [.inner .clauses [talkativeClause, .inner .clause []]]

/-- The contract fails, and the clause before the failure is told. -/
theorem faithful_trace_broken :
    (∃ fault, (contract haltedContract).result .debug = .error fault ∧
      Contract.ofTree haltedContract = .error fault) ∧
    TellsAll haltedContract.clauseNodes
      (((contract haltedContract).events .debug).filter Event.isOfClause) ∧
    (∃ made, Clause.ofTree talkativeClause = .ok made ∧
      Tells talkativeClause made ((clause talkativeClause).events .debug)) ∧
    (clause talkativeClause).events .debug
      = [.timeoutSkipped "rightR" "soon", .variableRedefined "a" "NUMBER" "TEXT",
        .clauseAssembled "rightR" 4 2] := by
  obtain ⟨same, -, told, -⟩ := faithful_trace haltedContract
  obtain ⟨-, -, -, alone, -⟩ := faithful_trace talkativeClause
  have failed : Contract.ofTree haltedContract = .error _ := rfl
  have made : Clause.ofTree talkativeClause = .ok _ := rfl
  exact ⟨⟨_, same.trans failed, failed⟩, told rfl, ⟨_, made, (alone _ made).2⟩, rfl⟩

end Assembly

end Covenant
