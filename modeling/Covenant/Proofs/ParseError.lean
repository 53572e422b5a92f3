import Covenant.Proofs.Document
import Covenant.Proofs.Grammar.Completion

/-!
# Where a document goes wrong

The report on a document that cannot be read names a line and a column. They stand for an offset
into the document (`ParseError.offset_eq_length`), and up to there the document is right: some text
can be put after it that makes a contract of it (`Document.viable_of_parse_error`). This holds of
every place at which a terminal was missed, of which the report takes the furthest.

Up to the end of the document the completion is that of `Grammar.body`. The end itself is missed
after a whole contract, where only a line feed is needed.
-/

set_option autoImplicit false

namespace Covenant

open Lexeme (Gap skipLayout)
open Text (opensLine)

/-! ## Lines and columns -/

namespace ParseError

/-- The offset at which a line starts; lines are counted from zero here. -/
def lineStart : Nat → List Char → Nat
  | 0, _ => 0
  | _ + 1, [] => 0
  | line + 1, c :: text => 1 + lineStart (if c == '\n' then line else line + 1) text

/-- The offset of a line and a column, both counted from one. -/
def offset (text : List Char) (line column : Nat) : Nat :=
  lineStart (line - 1) text + (column - 1)

/-- The characters after the last line feed. -/
def lastLine (text : List Char) : List Char :=
  text.reverse.takeWhile (· != '\n')

theorem lastLine_lineFeed_cons (text : List Char) : lastLine ('\n' :: text) = lastLine text := by
  rw [lastLine, List.reverse_cons, List.takeWhile_append]
  split
  · next whole =>
      rw [lastLine, (List.takeWhile_prefix _).eq_of_length whole]
      exact List.append_nil _
  · rfl

/-- What stands before a line feed does not belong to the last line. -/
theorem lastLine_cons_of_mem {c : Char} {text : List Char} (h : '\n' ∈ text) :
    lastLine (c :: text) = lastLine text := by
  rw [lastLine, List.reverse_cons, List.takeWhile_append, if_neg, lastLine]
  intro whole
  have inside := List.takeWhile_eq_self_iff.mp ((List.takeWhile_prefix _).eq_of_length whole)
  exact absurd (inside '\n' (List.mem_reverse.mpr h)) (by decide)

theorem lastLine_of_not_mem {text : List Char} (h : '\n' ∉ text) :
    lastLine text = text.reverse := by
  refine List.takeWhile_eq_self_iff.mpr fun c member => ?_
  rw [bne_iff_ne]
  rintro rfl
  exact h (List.mem_reverse.mp member)

/-- Going to the last line of a text and then to its end is going to the end of the text. -/
theorem lineStart_add_length_lastLine (front rest : List Char) :
    lineStart (front.count '\n') (front ++ rest) + (lastLine front).length = front.length := by
  induction front with
  | nil => cases rest <;> rfl
  | cons c front ih =>
      by_cases lineFeed : c = '\n'
      · subst lineFeed
        rw [lastLine_lineFeed_cons, List.count_cons_self, List.cons_append, lineStart,
          List.length_cons]
        simp only [beq_self_eq_true, if_true]
        omega
      · have other : (c == '\n') = false := beq_eq_false_iff_ne.mpr lineFeed
        rw [List.count_cons_of_ne lineFeed]
        by_cases later : '\n' ∈ front
        · -- the last line begins further on, so both offsets move by one
          obtain ⟨count, same⟩ :=
            Nat.exists_eq_add_one_of_ne_zero (List.count_pos_iff.mpr later).ne'
          rw [lastLine_cons_of_mem later]
          rw [same] at ih ⊢
          rw [List.cons_append, lineStart, other, List.length_cons]
          simp only [Bool.false_eq_true, if_false]
          omega
        · -- all of the text is on the first line
          have none : '\n' ∉ c :: front := by simp [later, Ne.symm lineFeed]
          rw [lastLine_of_not_mem none, List.count_eq_zero_of_not_mem later, lineStart]
          simp

/-- Line and column of a report stand for the length of the text before its place. -/
theorem offset_eq_length {error : ParseError} {text : List Char}
    (whole : text = error.before ++ error.after) :
    offset text error.line error.column = error.before.length := by
  have place := lineStart_add_length_lastLine error.before error.after
  rw [← whole] at place
  rw [offset, line, column, Nat.add_sub_cancel_left, Nat.add_sub_cancel_left]
  exact place

end ParseError

/-! ## Completing a contract -/

namespace Pattern

variable {text : List Char} {attempt : Attempt}

theorem halts_body : Grammar.body.halts [] = true := by
  decide

/-- Nothing is left to meet where only a gap is left. -/
theorem meets_nil_iff : Meets text [] ↔ skipLayout text = [] := by
  constructor
  · intro meets
    cases left : skipLayout text with
    | nil => rfl
    | cons c rest =>
        obtain ⟨t, member, -⟩ := meets c (by rw [left]; rfl)
        cases member
  · intro none c next
    rw [none] at next
    cases next

/-- A contract is passed if its body is and a gap is left. -/
theorem passes_contract {closing : List Char} (h : Grammar.body.Passes text closing)
    (none : skipLayout closing = []) : Grammar.contract.Passes text [] := by
  obtain ⟨children, read⟩ := h
  exact ⟨_, reads_contract_iff.mpr ⟨children, closing, read, none, rfl, rfl⟩⟩

/-- Where a contract misses a terminal, the text can be completed to a contract. -/
theorem completes_contract (h : attempt ∈ (Grammar.contract.scan text).missed) :
    ∃ used more, text = used ++ attempt.rest ∧
      Completes (fun text _ => Grammar.contract.Passes text []) [] used more := by
  rcases mem_missed_andThen h with missed | ⟨nodes, closing, read, missed⟩
  · obtain ⟨used, more, split, completes⟩ :=
      completes_of_missed isSolid_body predicts_body halts_body missed
    refine ⟨used, more, split, completes.imp fun _ meets passed => ?_⟩
    exact passes_contract passed (meets_nil_iff.mp meets)
  · -- the end of the document was missed: the gap before it is closed by a line feed
    obtain ⟨gap, split, skipped⟩ := Lexeme.exists_gap_append_skipLayout closing
    rw [rest_of_mem_missed_terminal missed]
    have ended : Completes (fun text _ => skipLayout text = []) [] gap ['\n'] := by
      refine ⟨fun _ meets => ?_, fun _ => rfl⟩
      rw [← List.append_assoc, Lexeme.skipLayout_gap_append skipped.append_lineFeed]
      exact meets_nil_iff.mp meets
    obtain ⟨front, glue, rfl, resumes⟩ :=
      resumes_of_reads isSolid_body predicts_body halts_body read
    rw [split] at resumes
    refine ⟨front ++ gap, _, ?_, resumes.completes ended (fun _ => meets_nil_iff.mpr)
      passes_contract⟩
    rw [List.append_assoc, ← split]

/-- On a text that is only a gap a contract misses its first word. -/
theorem exists_missed_of_gap {gap : List Char} (h : Gap true gap) :
    ∃ attempt ∈ (Grammar.contract.scan gap).missed, attempt.rest = [] := by
  have first : (⟨[], "'contract'"⟩ : Attempt) ∈ ((Grammar.literal "contract").scan gap).missed := by
    rw [Grammar.literal, scan, Scan.ofTerminal, Lexeme.skipLayout_closing h]
    exact List.mem_singleton_self _
  -- the word opens a sequence of six parts
  have whole : (⟨[], "'contract'"⟩ : Attempt) ∈ (Grammar.contract.scan gap).missed := by
    iterate 5 apply mem_missed_andThen_of_mem
    exact first
  exact ⟨_, whole, rfl⟩

end Pattern

namespace Document

/-! ## Viable texts -/

/-- The text can be completed to a document that is read. -/
def Viable (front : List Char) : Prop :=
  ∃ rest tree, parse (String.ofList (front ++ rest)) = .ok tree

theorem viable_of_completes {used more : List Char}
    (h : Pattern.Completes (fun text _ => Grammar.contract.Passes text []) [] used more) :
    Viable used := by
  have lineEnd : Pattern.Meets ['\n'] [] := Pattern.meets_nil_iff.mpr rfl
  obtain ⟨nodes, read⟩ := h.ends (show opensLine ['\n'] = true from rfl) lineEnd
  obtain ⟨children, -, -, -, rfl, -⟩ := Pattern.reads_contract_iff.mp read
  refine ⟨more ++ ['\n'], Tree.inner .contract children, ?_⟩
  rw [parse_eq_ok_iff, String.toList_ofList]
  exact read

theorem viable_of_gap {gap : List Char} (h : Gap true gap) : Viable gap := by
  obtain ⟨attempt, missed, none⟩ := Pattern.exists_missed_of_gap h
  obtain ⟨used, more, split, completes⟩ := Pattern.completes_contract missed
  rw [none, List.append_nil] at split
  rw [split]
  exact viable_of_completes completes

/-- Every attempt that a report looks at was made after a viable text. -/
theorem viable_of_attempt {text : List Char} {attempt : Attempt}
    (h : attempt ∈ openingAttempt text :: (Grammar.contract.scan text).missed) :
    ∃ used, text = used ++ attempt.rest ∧ Viable used := by
  rcases List.mem_cons.mp h with rfl | missed
  · obtain ⟨gap, split, skipped⟩ := Lexeme.exists_gap_append_skipLayout text
    refine ⟨gap, split, viable_of_gap ?_⟩
    cases atEnd : (skipLayout text).isEmpty with
    | true => exact atEnd ▸ skipped
    | false => exact Gap.toEnd (atEnd ▸ skipped)
  · obtain ⟨used, more, split, completes⟩ := Pattern.completes_contract missed
    exact ⟨used, split, viable_of_completes completes⟩

/-! ## The place of a report -/

/-- The furthest text is that of an attempt, or the start if there is none. -/
theorem furthest_eq (start : List Char) (attempts : List Attempt) :
    furthest start attempts = start ∨
      ∃ attempt ∈ attempts, furthest start attempts = attempt.rest := by
  induction attempts generalizing start with
  | nil => exact Or.inl rfl
  | cons attempt attempts ih =>
      rw [furthest, List.foldl_cons, ← furthest]
      rcases ih (if attempt.rest.length < start.length then attempt.rest else start) with
        same | ⟨later, member, same⟩
      · rw [same]
        split
        · exact Or.inr ⟨attempt, List.mem_cons_self, rfl⟩
        · exact Or.inl rfl
      · exact Or.inr ⟨later, List.mem_cons_of_mem _ member, same⟩

/-- A report divides the text after a viable part. -/
theorem viable_before_report (text : List Char) :
    let error := report text (openingAttempt text :: (Grammar.contract.scan text).missed)
    text = error.before ++ error.after ∧ Viable error.before := by
  intro error
  have divided : ∃ used, text = used ++ error.after ∧ Viable used := by
    rcases furthest_eq text (openingAttempt text :: (Grammar.contract.scan text).missed) with
      same | ⟨attempt, member, same⟩
    · -- no attempt came further than the start, before which nothing stands
      exact ⟨[], same.symm, viable_of_gap .nil⟩
    · obtain ⟨used, split, viable⟩ := viable_of_attempt member
      exact ⟨used, by rw [split]; exact congrArg (used ++ ·) same.symm, viable⟩
  obtain ⟨used, split, viable⟩ := divided
  have before : error.before = used := by
    show text.take (text.length - error.after.length) = used
    generalize error.after = after at split
    rw [split, List.length_append, Nat.add_sub_cancel, List.take_left]
  rw [before]
  exact ⟨split, viable⟩

/-- A document that is not read is reported on from the attempts of its run. -/
theorem eq_report_of_parse {source : String} {error : ParseError}
    (h : parse source = .error error) :
    error = report source.toList
      (openingAttempt source.toList :: (Grammar.contract.scan source.toList).missed) := by
  unfold parse at h
  extract_lets text scan at h
  change error = report text (openingAttempt text :: scan.missed)
  -- nothing is needed of the grammar, so the run is made a variable
  clear_value scan
  split at h
  · cases h
  · exact (Except.error.inj h).symm

/-- A document that is not read is viable up to the offset of its report. -/
theorem viable_of_parse_error {source : String} {error : ParseError}
    (h : parse source = .error error) :
    ParseError.offset source.toList error.line error.column ≤ source.length ∧
      Viable (source.toList.take (ParseError.offset source.toList error.line error.column)) := by
  obtain ⟨whole, viable⟩ := viable_before_report source.toList
  rw [← eq_report_of_parse h] at whole viable
  rw [ParseError.offset_eq_length whole]
  constructor
  · rw [← String.length_toList, whole, List.length_append]
    exact Nat.le_add_right _ _
  · rw [whole, List.take_left]
    exact viable

/-- A reserved word before a letter that no name holds, on the third line. -/
def reservedSource : String :=
  "contract // its name\n\n  righté"

/-- The reserved word is read as a name, and a brace is missed after it. -/
theorem viable_of_parse_error_reserved :
    ∃ error, parse reservedSource = .error error ∧ error.line = 3 ∧ error.column = 8 ∧
      ParseError.offset reservedSource.toList error.line error.column = 29 ∧
        Viable "contract // its name\n\n  right".toList := by
  have failed : parse reservedSource
      = .error ⟨"contract // its name\n\n  right".toList, "é".toList, ["'\x7b'"]⟩ := by
    rfl
  exact ⟨_, failed, by decide, by decide, by decide, (viable_of_parse_error failed).2⟩

end Document

end Covenant
