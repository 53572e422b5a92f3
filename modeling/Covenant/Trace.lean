import Covenant.Kind

/-!
# Traces

What a run reports about itself when asked to: events, in the order in which they happen. A run
yields a result or an error, and the events up to its end, also when it ends in an error.
Whether events are kept is decided once, by the verbosity with which the run is started.
-/

set_option autoImplicit false

namespace Covenant

/-- Whether a run keeps its events. -/
inductive Verbosity where
  | quiet
  | debug
  deriving DecidableEq, Repr

/-- Something that a run reports. -/
inductive Event where
  /-- The grammar was made ready. -/
  | grammarReady (version : String)
  /-- A document of so many characters was read. -/
  | documentRead (length : Nat)
  /-- A named term of the contract is not part of the canonical form. -/
  | statementPassed (text : String)
  /-- A node that is neither a leaf nor handled was skipped. -/
  | nodeSkipped (kind : Kind)
  /-- A variable was replaced by a different one of the same name. -/
  | variableRedefined (camel storedType newType : String)
  /-- A timeout whose operand is no number was left out. -/
  | timeoutSkipped (clause operand : String)
  /-- A clause was assembled. -/
  | clauseAssembled (clause : String) (terms inputs : Nat)
  deriving DecidableEq, Repr

namespace Event

/-- The part of the program that reports an event. -/
def reporter : Event → String
  | grammarReady _ | documentRead _ => "[jabuti.frontend] "
  | statementPassed _ | nodeSkipped _ => "[jabuti.canonicalizer] "
  | variableRedefined _ _ _ | timeoutSkipped _ _ | clauseAssembled _ _ _ => "[jabuti.clauses] "

/-- What is said about an event. The time that reading took is not kept, and a star stands for
it. -/
def report : Event → String
  | grammarReady version => "parser created (grammar " ++ version ++ ")"
  | documentRead length => "parsed " ++ toString length ++ " chars in * ms"
  | statementPassed text => "contract variable " ++ Text.quoted text ++ " not recorded"
  | nodeSkipped kind => "skipping " ++ kind.name ++ " node"
  | variableRedefined camel storedType newType =>
      "variable " ++ Text.quoted camel ++ " redefined: " ++ storedType ++ " -> " ++ newType
  | timeoutSkipped clause operand =>
      clause ++ ": non-numeric timeout " ++ Text.quoted operand ++ " skipped"
  | clauseAssembled clause terms inputs =>
      clause ++ ": " ++ toString terms ++ " terms, " ++ toString inputs ++ " variables"

/-- The text written for an event, without the line feed that ends it. -/
def text (event : Event) : String :=
  event.reporter ++ event.report

end Event

/-- A text divided at its line feeds; `current` holds the line so far, last character first. -/
def linesFrom (current : List Char) : List Char → List String
  | [] => [String.ofList current.reverse]
  | c :: rest =>
      if c == '\n' then String.ofList current.reverse :: linesFrom [] rest
      else linesFrom (c :: current) rest

/-- The lines that are written for events. A line feed in a name divides a line. -/
def traceLines (events : List Event) : List String :=
  events.flatMap fun event => linesFrom [] event.text.toList

/-- A run that may fail and reports events. -/
structure Traced (ε α : Type) where
  run : Verbosity → Except ε α × List Event

namespace Traced

variable {ε α β : Type}

/-- The result of a run. -/
def result (traced : Traced ε α) (verbosity : Verbosity) : Except ε α :=
  (traced.run verbosity).1

/-- The events of a run. -/
def events (traced : Traced ε α) (verbosity : Verbosity) : List Event :=
  (traced.run verbosity).2

/-- Goes on with the result, unless the run failed. -/
def bind (traced : Traced ε α) (next : α → Traced ε β) : Traced ε β where
  run verbosity :=
    match traced.run verbosity with
    | (.ok value, events) =>
        let (result, later) := (next value).run verbosity
        (result, events ++ later)
    | (.error fault, events) => (.error fault, events)

instance : Monad (Traced ε) where
  pure value := ⟨fun _ => (.ok value, [])⟩
  bind := bind

/-- A result without events. -/
def ofExcept (result : Except ε α) : Traced ε α :=
  ⟨fun _ => (result, [])⟩

/-- Reports an event. -/
def note (event : Event) : Traced ε Unit where
  run
    | .quiet => (.ok (), [])
    | .debug => (.ok (), [event])

/-- The same run with its error seen as another one. -/
def mapError {ε' : Type} (f : ε → ε') (traced : Traced ε α) : Traced ε' α where
  run verbosity :=
    let (result, events) := traced.run verbosity
    (result.mapError f, events)

/-! ## Results and events of composed runs -/

@[simp] theorem result_pure (value : α) (v : Verbosity) :
    (pure value : Traced ε α).result v = .ok value := rfl

@[simp] theorem events_pure (value : α) (v : Verbosity) :
    (pure value : Traced ε α).events v = [] := rfl

@[simp] theorem result_ofExcept (result : Except ε α) (v : Verbosity) :
    (ofExcept result).result v = result := rfl

@[simp] theorem events_ofExcept (result : Except ε α) (v : Verbosity) :
    (ofExcept result).events v = [] := rfl

@[simp] theorem result_note (event : Event) (v : Verbosity) :
    (note event : Traced ε Unit).result v = .ok () := by
  cases v <;> rfl

@[simp] theorem events_note_quiet (event : Event) :
    (note event : Traced ε Unit).events .quiet = [] := rfl

@[simp] theorem events_note_debug (event : Event) :
    (note event : Traced ε Unit).events .debug = [event] := rfl

@[simp] theorem result_bind (traced : Traced ε α) (next : α → Traced ε β) (v : Verbosity) :
    (traced >>= next).result v = traced.result v >>= fun value => (next value).result v := by
  show (traced.bind next).result v = _
  simp only [bind, result]
  rcases traced.run v with ⟨_ | value, events⟩ <;> rfl

theorem events_bind (traced : Traced ε α) (next : α → Traced ε β) (v : Verbosity) :
    (traced >>= next).events v
      = traced.events v ++
        match traced.result v with
        | .ok value => (next value).events v
        | .error _ => [] := by
  show (traced.bind next).events v = _
  simp only [bind, events, result]
  rcases traced.run v with ⟨_ | value, events⟩ <;> simp

/-- Two runs with the same results and events are the same. -/
theorem ext_run {traced other : Traced ε α} (h : ∀ v, traced.run v = other.run v) :
    traced = other := by
  cases traced
  cases other
  exact congrArg Traced.mk (funext h)

/-- Composition is associative and `pure` is neutral. -/
instance : LawfulMonad (Traced ε) := LawfulMonad.mk' _
  (by
    intro α traced
    apply ext_run
    intro v
    show (traced.bind fun value => ⟨fun _ => (.ok value, [])⟩).run v = traced.run v
    simp only [bind]
    rcases traced.run v with ⟨_ | value, events⟩ <;> simp)
  (by
    intro α β value next
    rfl)
  (by
    intro α β γ traced f g
    apply ext_run
    intro v
    show ((traced.bind f).bind g).run v = (traced.bind fun value => (f value).bind g).run v
    simp only [bind]
    rcases traced.run v with ⟨_ | value, events⟩
    · rfl
    · dsimp only
      rcases h : (f value).run v with ⟨_ | value', events'⟩ <;> simp [h])

@[simp] theorem result_map (f : α → β) (traced : Traced ε α) (v : Verbosity) :
    (f <$> traced).result v = f <$> traced.result v := by
  rw [map_eq_pure_bind, result_bind]
  cases traced.result v <;> rfl

/-- The result of a fold is the fold of the results. -/
@[simp] theorem result_foldlM {σ : Type} (step : σ → α → Traced ε σ) (items : List α)
    (start : σ) (v : Verbosity) :
    (items.foldlM step start).result v
      = items.foldlM (fun state item => (step state item).result v) start := by
  induction items generalizing start with
  | nil => rfl
  | cons item rest ih => simp [List.foldlM_cons, ih]

/-- The result of visiting all items is that of visiting them by results. -/
@[simp] theorem result_mapM (step : α → Traced ε β) (items : List α) (v : Verbosity) :
    (items.mapM step).result v = items.mapM fun item => (step item).result v := by
  induction items with
  | nil => rfl
  | cons item rest ih => simp [List.mapM_cons, ih]

/-- Reporting alone never fails. -/
theorem result_forM_note (event : α → Event) (items : List α) (v : Verbosity) :
    (items.forM fun item => (note (event item) : Traced ε PUnit)).result v = .ok () := by
  induction items with
  | nil => rfl
  | cons item rest ih =>
      show ((note (event item) : Traced ε PUnit) >>= fun _ =>
        rest.forM fun item => note (event item)).result v = _
      rw [result_bind, result_note]
      exact ih

end Traced

end Covenant
