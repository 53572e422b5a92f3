import Covenant.Trace

/-!
# What runs report

A run notes events of a kind (`Traced.Notes`) if all its events are of this kind, if it keeps
none of them when it is quiet, and if it comes to the same result or error in both cases. Reporting
an event is a run of this sort, and so is whatever is put together from such runs: one run after
another (`Traced.Notes.bind`), a loop (`Traced.Notes.foldlM`), a visit of all items
(`Traced.Notes.mapM`, `Traced.Notes.forM`). A program that is written in these forms therefore
never comes to depend on its own notes.
-/

set_option autoImplicit false

namespace Covenant.Traced

variable {ε α β : Type} {kind other : Event → Bool} {traced : Traced ε α}

/-- All events are of a kind, and keeping them changes nothing else. -/
structure Notes (traced : Traced ε α) (kind : Event → Bool) : Prop where
  /-- The result or error is the same whether events are kept or not. -/
  result : traced.result .debug = traced.result .quiet
  silent : traced.events .quiet = []
  only : ∀ event ∈ traced.events .debug, kind event = true

theorem notes_pure (value : α) : (pure value : Traced ε α).Notes kind :=
  ⟨rfl, rfl, by simp⟩

theorem notes_ofExcept (result : Except ε α) : (ofExcept result).Notes kind :=
  ⟨rfl, rfl, by simp⟩

theorem notes_note {event : Event} (h : kind event = true) :
    (note event : Traced ε Unit).Notes kind :=
  ⟨rfl, rfl, by simpa using h⟩

/-- What is of a kind is of every wider kind. -/
theorem Notes.mono (h : traced.Notes kind)
    (wider : ∀ event, kind event = true → other event = true) : traced.Notes other :=
  ⟨h.result, h.silent, fun event member => wider event (h.only event member)⟩

/-- One run after another. -/
theorem Notes.bind {next : α → Traced ε β} (first : traced.Notes kind)
    (later : ∀ value, (next value).Notes kind) : (traced >>= next).Notes kind := by
  refine ⟨?_, ?_, ?_⟩
  · rw [result_bind, result_bind, first.result]
    exact congrArg _ (funext fun value => (later value).result)
  · rw [events_bind, first.silent, List.nil_append]
    cases traced.result .quiet with
    | error fault => rfl
    | ok value => exact (later value).silent
  · rw [events_bind, List.forall_mem_append]
    refine ⟨first.only, ?_⟩
    cases traced.result .debug with
    | error fault => simp
    | ok value => exact (later value).only

/-- A loop whose steps report from every state. -/
theorem Notes.foldlM {step : β → α → Traced ε β}
    (h : ∀ state item, (step state item).Notes kind) (items : List α) (start : β) :
    (items.foldlM step start).Notes kind := by
  induction items generalizing start with
  | nil => exact notes_pure start
  | cons item items ih =>
      rw [List.foldlM_cons]
      exact (h start item).bind ih

theorem Notes.mapM {visit : α → Traced ε β} (h : ∀ item, (visit item).Notes kind)
    (items : List α) : (items.mapM visit).Notes kind := by
  induction items with
  | nil => exact notes_pure []
  | cons item items ih =>
      rw [List.mapM_cons]
      exact (h item).bind fun value => ih.bind fun values => notes_pure (value :: values)

theorem Notes.forM {visit : α → Traced ε PUnit} (h : ∀ item, (visit item).Notes kind)
    (items : List α) : (items.forM visit).Notes kind := by
  induction items with
  | nil => exact notes_pure PUnit.unit
  | cons item items ih => exact (h item).bind fun _ => ih

/-! ## Events of a kind -/

theorem Notes.filter_eq_self (h : traced.Notes kind) :
    (traced.events .debug).filter kind = traced.events .debug :=
  List.filter_eq_self.mpr h.only

/-- There are no events of a kind that excludes what is reported. -/
theorem Notes.filter_eq_nil (h : traced.Notes kind)
    (apart : ∀ event, kind event = true → other event = false) :
    (traced.events .debug).filter other = [] := by
  rw [List.filter_eq_nil_iff]
  intro event member
  simp [apart event (h.only event member)]

/-! ## Events of runs that succeed -/

/-- A run that succeeds is followed by the events of what comes next. -/
theorem events_bind_of_ok {v : Verbosity} {value : α} (h : traced.result v = .ok value)
    (next : α → Traced ε β) :
    (traced >>= next).events v = traced.events v ++ (next value).events v := by
  rw [events_bind, h]

/-- Only the result is changed. -/
theorem events_bind_pure (traced : Traced ε α) (f : α → β) (v : Verbosity) :
    (traced >>= fun value => pure (f value)).events v = traced.events v := by
  rw [events_bind]
  cases traced.result v <;> simp

/-- A run that fails is the last one. -/
theorem events_bind_of_error {v : Verbosity} {fault : ε} (h : traced.result v = .error fault)
    (next : α → Traced ε β) : (traced >>= next).events v = traced.events v := by
  rw [events_bind, h, List.append_nil]

end Covenant.Traced
