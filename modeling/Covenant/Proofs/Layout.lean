import Covenant.Lexeme.Layout
import Covenant.Proofs.Lexeme.Classes
import Mathlib.Data.List.Chain

/-!
# Gaps and laid-out texts

A gap is what layout may be made of: blanks and comments. A comment ends with its line, and only
at the end of a document may the line feed be missing. Skipping layout drops a gap and nothing
else (`exists_gap_append_skipLayout`), and drops every gap whole (`skipLayout_gap_append`).

A laid-out text is a sequence of lexemes, each with the gap before it, and a closing gap. In a
spaced one the gaps are where they have to be: no two lexemes grow together into one word.
Skipping layout then leads to the next lexeme (`skipLayout_laidOut_cons`), and a word is never
continued by what follows it (`Spaced.not_opensWith_isWordChar`).
-/

set_option autoImplicit false

namespace Covenant.Lexeme

open Text (opensWith)

/-- Blanks and comments; the last comment may lack its line feed if the document ends there. -/
inductive Gap (atEnd : Bool) : List Char → Prop
  | nil : Gap atEnd []
  | blank {c : Char} {rest : List Char} : isBlank c = true → Gap atEnd rest → Gap atEnd (c :: rest)
  | comment {body rest : List Char} :
      '\n' ∉ body → Gap atEnd rest → Gap atEnd ('/' :: '/' :: (body ++ '\n' :: rest))
  | lastComment {body : List Char} :
      atEnd = true → '\n' ∉ body → Gap atEnd ('/' :: '/' :: body)

/-- A character with which a gap can open. -/
def opensGap (c : Char) : Bool :=
  isBlank c || c == '/'

variable {atEnd : Bool} {gap body rest text : List Char} {c : Char}

theorem Gap.opensWith_opensGap (h : Gap atEnd gap) (nonempty : gap ≠ []) :
    opensWith opensGap gap = true := by
  cases h with
  | nil => exact absurd rfl nonempty
  | blank blank _ => simp [opensGap, blank]
  | comment => rfl
  | lastComment => rfl

/-- A gap that may stand anywhere may stand at the end. -/
theorem Gap.toEnd (h : Gap false gap) : Gap true gap := by
  induction h with
  | nil => exact .nil
  | blank blank _ ih => exact .blank blank ih
  | comment absent _ ih => exact .comment absent ih
  | lastComment final _ => cases final

/-- A comment may hold any further character but a line feed. -/
theorem Gap.cons_comment (h : Gap atEnd ('/' :: '/' :: gap)) (other : c ≠ '\n') :
    Gap atEnd ('/' :: '/' :: c :: gap) := by
  have absentCons : ∀ {body : List Char}, '\n' ∉ body → '\n' ∉ c :: body := by
    intro body absent member
    rcases List.mem_cons.mp member with same | member
    · exact other same.symm
    · exact absent member
  cases h with
  | blank blank _ => exact absurd blank (by decide)
  | comment absent later => exact .comment (absentCons absent) later
  | lastComment final absent => exact .lastComment final (absentCons absent)

/-! ## Skipping -/

theorem dropLayout_blank (blank : isBlank c = true) (rest : List Char) :
    dropLayout false (c :: rest) = dropLayout false rest := by
  rw [dropLayout]
  · rw [if_pos blank]
  · rintro tail rfl -
    exact absurd blank (by decide)

theorem dropLayout_comment (absent : '\n' ∉ body) (rest : List Char) :
    dropLayout true (body ++ '\n' :: rest) = dropLayout false rest := by
  induction body with
  | nil => rfl
  | cons d body ih =>
      rw [List.mem_cons, not_or] at absent
      have other : (d != '\n') = true := bne_iff_ne.mpr fun same => absent.1 same.symm
      rw [List.cons_append, dropLayout, other]
      exact ih absent.2

theorem dropLayout_lastComment (absent : '\n' ∉ body) : dropLayout true body = [] := by
  induction body with
  | nil => rfl
  | cons d body ih =>
      rw [List.mem_cons, not_or] at absent
      have other : (d != '\n') = true := bne_iff_ne.mpr fun same => absent.1 same.symm
      rw [dropLayout, other]
      exact ih absent.2

/-- Skipping layout passes over a gap. -/
theorem skipLayout_gap_append (h : Gap false gap) (rest : List Char) :
    skipLayout (gap ++ rest) = skipLayout rest := by
  unfold skipLayout
  induction h with
  | nil => rfl
  | blank blank _ ih => rw [List.cons_append, dropLayout_blank blank, ih]
  | @comment body tail absent _ ih =>
      have shape : '/' :: '/' :: (body ++ '\n' :: tail) ++ rest
          = '/' :: '/' :: (body ++ '\n' :: (tail ++ rest)) := by simp
      rw [shape, dropLayout, dropLayout_comment absent, ih]
  | lastComment final _ => cases final

/-- Skipping layout passes over the gap at the end of a document. -/
theorem skipLayout_closing (h : Gap true gap) : skipLayout gap = [] := by
  unfold skipLayout
  induction h with
  | nil => rfl
  | blank blank _ ih => rw [dropLayout_blank blank, ih]
  | comment absent _ ih => rw [dropLayout, dropLayout_comment absent, ih]
  | lastComment _ absent => rw [dropLayout, dropLayout_lastComment absent]

theorem skipLayout_blank (blank : isBlank c = true) (rest : List Char) :
    skipLayout (c :: rest) = skipLayout rest :=
  dropLayout_blank blank rest

/-- A text that opens with no layout is left as it is. -/
theorem skipLayout_of_not_opensGap (h : opensWith opensGap text = false) :
    skipLayout text = text := by
  unfold skipLayout
  cases text with
  | nil => rfl
  | cons d rest =>
      rw [Text.opensWith_cons, opensGap, Bool.or_eq_false_iff, beq_eq_false_iff_ne] at h
      rw [dropLayout]
      · rw [if_neg (Bool.eq_false_iff.mp h.1)]
      · rintro tail rfl -
        exact h.2 rfl

/-- The part that is dropped is a gap; inside a comment it is one with the two slashes put back
in front. Only at the end of the text does it lack the line feed. -/
theorem exists_gap_append_dropLayout (inComment : Bool) (text : List Char) :
    ∃ gap, text = gap ++ dropLayout inComment text ∧
      Gap (dropLayout inComment text).isEmpty
        (if inComment then '/' :: '/' :: gap else gap) := by
  fun_induction dropLayout inComment text with
  | case1 inComment =>
      refine ⟨[], rfl, ?_⟩
      cases inComment with
      | false => exact .nil
      | true => exact .lastComment rfl (by simp)
  | case2 d rest ih =>
      obtain ⟨gap, split, skipped⟩ := ih
      refine ⟨d :: gap, congrArg (d :: ·) split, ?_⟩
      -- a line feed closes the comment and the gap goes on behind it
      by_cases ended : d = '\n'
      · subst ended
        show Gap _ ('/' :: '/' :: ([] ++ '\n' :: gap))
        exact .comment List.not_mem_nil skipped
      · rw [bne_iff_ne.mpr ended] at skipped ⊢
        exact skipped.cons_comment ended
  | case3 rest ih =>
      obtain ⟨gap, split, skipped⟩ := ih
      exact ⟨'/' :: '/' :: gap, congrArg ('/' :: '/' :: ·) split, skipped⟩
  | case4 d rest _ blank ih =>
      obtain ⟨gap, split, skipped⟩ := ih
      exact ⟨d :: gap, congrArg (d :: ·) split, .blank blank skipped⟩
  | case5 d rest => exact ⟨[], rfl, .nil⟩

/-- Skipping layout drops a gap and nothing else. -/
theorem exists_gap_append_skipLayout (text : List Char) :
    ∃ gap, text = gap ++ skipLayout text ∧ Gap (skipLayout text).isEmpty gap :=
  exists_gap_append_dropLayout false text

end Covenant.Lexeme

namespace Covenant

open Lexeme (Gap opensGap skipLayout)
open Text (opensWith)

/-! ## Laid-out texts -/

/-- A lexeme with the gap before it. -/
structure Piece where
  gap : List Char
  lexeme : List Char
  deriving DecidableEq, Repr

/-- The text of a piece. -/
def Piece.text (piece : Piece) : List Char :=
  piece.gap ++ piece.lexeme

/-- The text of pieces in order, with a last gap after them. -/
def laidOut (pieces : List Piece) (closing : List Char) : List Char :=
  pieces.flatMap Piece.text ++ closing

/-- The text ends with a character of the class. -/
def Text.endsWith (accepts : Char → Bool) (text : List Char) : Bool :=
  text.getLast?.any accepts

/-- Two pieces that do not grow together: where no gap stands between their lexemes, these do not
meet in two word characters. -/
def Piece.Apart (before after : Piece) : Prop :=
  after.gap = [] →
    ¬ (Text.endsWith Text.isWordChar before.lexeme = true ∧
      opensWith Text.isWordChar after.lexeme = true)

/-- Pieces whose gaps are gaps, whose lexemes open with no layout, and of which no two that
follow each other grow together. -/
structure Spaced (pieces : List Piece) : Prop where
  gaps : ∀ piece ∈ pieces, Gap false piece.gap
  nonempty : ∀ piece ∈ pieces, piece.lexeme ≠ []
  solid : ∀ piece ∈ pieces, opensWith opensGap piece.lexeme = false
  apart : pieces.IsChain Piece.Apart

/-- The character with which the first lexeme opens. -/
def opening (pieces : List Piece) : Option Char :=
  pieces.head?.bind fun piece => piece.lexeme.head?

variable {piece : Piece} {pieces later : List Piece} {closing : List Char}

@[simp] theorem laidOut_nil (closing : List Char) : laidOut [] closing = closing := rfl

theorem laidOut_cons (piece : Piece) (later : List Piece) (closing : List Char) :
    laidOut (piece :: later) closing = piece.gap ++ (piece.lexeme ++ laidOut later closing) := by
  simp [laidOut, Piece.text]

theorem Spaced.of_append (h : Spaced (pieces ++ later)) : Spaced later where
  gaps p member := h.gaps p (List.mem_append_right pieces member)
  nonempty p member := h.nonempty p (List.mem_append_right pieces member)
  solid p member := h.solid p (List.mem_append_right pieces member)
  apart := h.apart.right_of_append

theorem Spaced.of_cons (h : Spaced (piece :: later)) : Spaced later :=
  Spaced.of_append (show Spaced ([piece] ++ later) from h)

/-- Pieces take up room. -/
theorem Spaced.length_laidOut_lt (h : Spaced (pieces ++ later)) (nonempty : pieces ≠ []) :
    (laidOut later closing).length < (laidOut (pieces ++ later) closing).length := by
  obtain ⟨piece, rest, rfl⟩ := List.exists_cons_of_ne_nil nonempty
  have filled := List.length_pos_of_ne_nil (h.nonempty piece List.mem_cons_self)
  simp only [laidOut, List.cons_append, List.flatMap_cons, List.flatMap_append, Piece.text,
    List.length_append]
  omega

/-- Skipping layout leads to the next lexeme. -/
theorem skipLayout_laidOut_cons (h : Spaced (piece :: later)) (closing : List Char) :
    skipLayout (laidOut (piece :: later) closing) = piece.lexeme ++ laidOut later closing := by
  have nonempty := h.nonempty piece List.mem_cons_self
  rw [laidOut_cons, Lexeme.skipLayout_gap_append (h.gaps piece List.mem_cons_self)]
  apply Lexeme.skipLayout_of_not_opensGap
  rw [Text.opensWith_append nonempty]
  exact h.solid piece List.mem_cons_self

/-- After skipping layout the text opens as its first lexeme does, or is at its end. -/
theorem head?_skipLayout_laidOut (spaced : Spaced pieces) (closed : Gap true closing) :
    (skipLayout (laidOut pieces closing)).head? = opening pieces := by
  cases pieces with
  | nil => rw [laidOut_nil, Lexeme.skipLayout_closing closed]; rfl
  | cons piece later =>
      rw [skipLayout_laidOut_cons spaced, List.head?_append_of_ne_nil _
        (spaced.nonempty piece List.mem_cons_self)]
      rfl

/-- A class that holds no layout opens a laid-out text only with the first lexeme, and only if no
gap stands before that. -/
theorem opensWith_laidOut {accepts : Char → Bool} (spaced : Spaced pieces)
    (closed : Gap true closing) (noLayout : ∀ c, opensGap c = true → accepts c = false)
    (h : opensWith accepts (laidOut pieces closing) = true) :
    ∃ piece later, pieces = piece :: later ∧ piece.gap = [] ∧
      opensWith accepts piece.lexeme = true := by
  have notGap : ∀ {atEnd gap}, Gap atEnd gap → opensWith accepts gap = true → gap = [] := by
    intro atEnd gap layout opens
    by_contra nonempty
    obtain ⟨c, tail, rfl, open'⟩ :=
      Text.exists_cons_of_opensWith (layout.opensWith_opensGap nonempty)
    rw [Text.opensWith_cons, noLayout c open'] at opens
    cases opens
  cases pieces with
  | nil =>
      rw [laidOut_nil] at h
      rw [notGap closed h] at h
      cases h
  | cons piece later =>
      rw [laidOut_cons] at h
      -- a gap would open the text itself, with layout
      have empty : piece.gap = [] := by
        by_contra nonempty
        rw [Text.opensWith_append nonempty] at h
        exact nonempty (notGap (spaced.gaps piece List.mem_cons_self) h)
      rw [empty, List.nil_append,
        Text.opensWith_append (spaced.nonempty piece List.mem_cons_self)] at h
      exact ⟨piece, later, rfl, empty, h⟩

theorem not_isWordChar_of_opensGap {c : Char} (h : opensGap c = true) :
    Text.isWordChar c = false := by
  simp only [opensGap, Lexeme.isBlank, Bool.or_eq_true, beq_iff_eq] at h
  rcases h with (((rfl | rfl) | rfl) | rfl) | rfl
  all_goals decide

/-- A word is not continued by what follows it in a spaced text. -/
theorem Spaced.not_opensWith_isWordChar (h : Spaced (piece :: later)) (closed : Gap true closing)
    (ends : Text.endsWith Text.isWordChar piece.lexeme = true) :
    opensWith Text.isWordChar (laidOut later closing) = false := by
  cases opens : opensWith Text.isWordChar (laidOut later closing) with
  | false => rfl
  | true =>
      obtain ⟨next, rest, rfl, empty, word⟩ :=
        opensWith_laidOut h.of_cons closed (fun c => not_isWordChar_of_opensGap) opens
      exact absurd ⟨ends, word⟩ (h.apart.rel_head? rfl empty)

end Covenant
