import Covenant.Lexeme.Basic
import Covenant.Text.DecimalDigit

/-!
# Numbers

A number is an optional sign, digits, an optional fraction and an optional exponent. Digits are
those of any script. A point or an exponent mark without digits after it does not belong to the
number.
-/

set_option autoImplicit false

namespace Covenant.Lexeme

/-- A plus or minus sign. -/
def isSign (c : Char) : Bool :=
  c == '+' || c == '-'

/-- An exponent mark. -/
def isExponentMark (c : Char) : Bool :=
  c == 'e' || c == 'E'

/-- A sign at the head of the text, if there is one. -/
def sign : List Char → Cut
  | c :: rest => if isSign c then ([c], rest) else ([], c :: rest)
  | [] => ([], [])

/-- Digits, at least one. -/
def digits (text : List Char) : Option Cut :=
  run Text.isDecimalDigit text

/-- A point and digits, if both are there. -/
def fraction (text : List Char) : Cut :=
  match text with
  | '.' :: rest =>
      match digits rest with
      | some (lexeme, rest) => ('.' :: lexeme, rest)
      | none => ([], text)
  | _ => ([], text)

/-- An exponent mark, an optional sign and digits, if they are there. -/
def exponent (text : List Char) : Cut :=
  match text with
  | [] => ([], [])
  | mark :: rest =>
      if isExponentMark mark then
        match digits (sign rest).2 with
        | some (lexeme, after) => (mark :: (sign rest).1 ++ lexeme, after)
        | none => ([], text)
      else ([], text)

/-- The number at the head of the text. -/
def number (text : List Char) : Option Cut :=
  match digits (sign text).2 with
  | none => none
  | some (whole, rest) =>
      let part := fraction rest
      let scale := exponent part.2
      some ((sign text).1 ++ whole ++ part.1 ++ scale.1, scale.2)

/-- The text is a number, with nothing before or after it. -/
def isNumber (text : String) : Bool :=
  match number text.toList with
  | some (_, []) => true
  | _ => false

/-! ## Nothing is lost -/

theorem sign_append (text : List Char) : (sign text).1 ++ (sign text).2 = text := by
  cases text with
  | nil => rfl
  | cons c rest =>
      rw [sign]
      split <;> rfl

theorem fraction_append (text : List Char) : (fraction text).1 ++ (fraction text).2 = text := by
  unfold fraction
  split
  · next rest =>
      cases h : digits rest with
      | none => rfl
      | some cut => exact congrArg ('.' :: ·) (run_append h)
  · rfl

theorem exponent_append (text : List Char) : (exponent text).1 ++ (exponent text).2 = text := by
  unfold exponent
  split
  · rfl
  · next mark rest =>
      split
      · cases h : digits (sign rest).2 with
        | none => rfl
        | some cut =>
            show mark :: (sign rest).1 ++ cut.1 ++ cut.2 = mark :: rest
            rw [List.append_assoc, run_append h, List.cons_append, sign_append]
      · rfl

/-- A number and what follows it make up the text. -/
theorem number_append {text lexeme rest : List Char} (h : number text = some (lexeme, rest)) :
    lexeme ++ rest = text := by
  unfold number at h
  split at h
  · cases h
  · next whole afterWhole found =>
      have scale := exponent_append (fraction afterWhole).2
      have part := fraction_append afterWhole
      obtain ⟨rfl, rfl⟩ := Prod.mk.inj (Option.some.inj h)
      simp only [List.append_assoc, scale, part, run_append found, sign_append]

end Covenant.Lexeme
