import Covenant.Grammar.Terminal
import Covenant.Proofs.Layout

/-!
# Lexemes of terminals

Each terminal has a class of lexemes (`Terminal.Accepts`) and a class of characters with which
they open (`Terminal.opens`). What a terminal reads is one of its lexemes
(`Terminal.accepts_of_read`); of identifiers this is said only where no character follows that
belongs to a word and to no identifier, since before such a character a reserved word is read as
an identifier. In a spaced text a terminal reads exactly the lexeme before it
(`Terminal.read_laidOut`), unless the next lexeme opens with one of the few characters that
continue the lexeme without being word characters (`Terminal.clears`).
-/

set_option autoImplicit false

namespace Covenant

open Lexeme (Gap opensGap isForeign)
open Text (opensWith endsWith)

namespace Text

variable {accepts : Char → Bool} {front back text : List Char}

theorem endsWith_append (nonempty : back ≠ []) :
    endsWith accepts (front ++ back) = endsWith accepts back := by
  rw [endsWith, endsWith, List.getLast?_append_of_ne_nil front nonempty]

/-- A text that holds the class only also ends with it. -/
theorem endsWith_of_forall (nonempty : text ≠ []) (inside : ∀ c ∈ text, accepts c = true) :
    endsWith accepts text = true := by
  rw [endsWith, List.getLast?_eq_some_getLast nonempty]
  exact inside _ (List.getLast_mem nonempty)

theorem isWordChar_of_isDecimalDigit {c : Char} (h : isDecimalDigit c = true) :
    isWordChar c = true := by
  simp [isWordChar, h]

end Text

/-! ## How lexemes open and end -/

namespace Lexeme

variable {lexeme : List Char}

theorem opensWith_of_isNumeral (h : IsNumeral lexeme) :
    opensWith (fun c => isSign c || Text.isDecimalDigit c) lexeme = true := by
  obtain ⟨signPart, whole, part, scale, signed, ⟨nonempty, inside⟩, -, -, rfl⟩ := h
  rcases signed with rfl | ⟨c, sign, rfl⟩
  · cases whole with
    | nil => exact absurd rfl nonempty
    | cons c whole => simp [inside c List.mem_cons_self]
  · simp [sign]

theorem IsDigits.endsWith (h : IsDigits lexeme) : endsWith Text.isWordChar lexeme = true :=
  Text.endsWith_of_forall h.1 fun c member =>
    Text.isWordChar_of_isDecimalDigit (h.2 c member)

/-- A numeral ends with a digit, whichever of its parts is the last. -/
theorem endsWith_of_isNumeral (h : IsNumeral lexeme) :
    endsWith Text.isWordChar lexeme = true := by
  obtain ⟨signPart, whole, part, scale, -, digits, fractional, exponential, rfl⟩ := h
  have wholeNonempty : whole ++ (part ++ scale) ≠ [] := by simp [digits.1]
  rw [Text.endsWith_append wholeNonempty]
  -- the last digits are those of the exponent, else of the fraction, else of the whole part
  rcases exponential with rfl | ⟨mark, signs, places, -, -, scaled, rfl⟩
  · rcases fractional with rfl | ⟨places, divided, rfl⟩
    · simpa using digits.endsWith
    · have split : whole ++ ('.' :: places ++ []) = (whole ++ ['.']) ++ places := by simp
      rw [split, Text.endsWith_append divided.1]
      exact divided.endsWith
  · have split : whole ++ (part ++ mark :: (signs ++ places))
        = (whole ++ part ++ mark :: signs) ++ places := by simp
    rw [split, Text.endsWith_append scaled.1]
    exact scaled.endsWith

theorem opensWith_of_isTriple {count : Nat} {divider : Char}
    (h : IsTriple (count + 1) divider lexeme) :
    opensWith Text.isDecimalDigit lexeme = true := by
  obtain ⟨first, second, third, ⟨length, inside⟩, -, -, rfl⟩ := h
  cases first with
  | nil => cases length
  | cons c first => exact inside c List.mem_cons_self

theorem IsTriple.length {count : Nat} {divider : Char} (h : IsTriple count divider lexeme) :
    lexeme.length = count + 6 := by
  obtain ⟨first, second, third, ⟨lengthFirst, -⟩, ⟨lengthSecond, -⟩, ⟨lengthThird, -⟩, rfl⟩ := h
  simp only [List.length_append, List.length_cons]
  omega

theorem IsTriple.endsWith {count : Nat} {divider : Char} (h : IsTriple count divider lexeme) :
    endsWith Text.isWordChar lexeme = true := by
  obtain ⟨first, second, third, -, -, ⟨length, inside⟩, rfl⟩ := h
  have nonempty : third ≠ [] := by
    rintro rfl
    cases length
  have split : first ++ divider :: (second ++ divider :: third)
      = (first ++ divider :: second ++ [divider]) ++ third := by simp
  rw [split, Text.endsWith_append nonempty]
  exact IsDigits.endsWith ⟨nonempty, inside⟩

theorem opensWith_of_isDatetime (h : IsDatetime lexeme) :
    opensWith Text.isDecimalDigit lexeme = true := by
  obtain ⟨day, divider, time, dated, -, -, rfl⟩ := h
  have opens := opensWith_of_isTriple dated
  have nonempty : day ≠ [] := by
    rintro rfl
    cases opens
  rw [Text.opensWith_append nonempty]
  exact opens

theorem opensWith_of_isQuotation (h : IsQuotation lexeme) :
    opensWith Vocabulary.quotes.contains lexeme = true := by
  obtain ⟨quote, body, quoted, -, rfl⟩ := h
  exact List.contains_iff_mem.mpr quoted

theorem opensWith_of_isIdentifier (h : IsIdentifier lexeme) :
    opensWith Text.isIdentifierStart lexeme = true :=
  (isIdentifier_iff.mp h).1

theorem IsIdentifier.endsWith (h : IsIdentifier lexeme) :
    endsWith Text.isWordChar lexeme = true := by
  have nonempty : lexeme ≠ [] := by
    obtain ⟨c, tail, -, -, rfl⟩ := h
    exact List.cons_ne_nil c tail
  exact Text.endsWith_of_forall nonempty fun c member =>
    Text.isWordChar_of_isIdentifierChar (h.isIdentifierChar c member)

/-- The characters with which words open. -/
def opensOneOf (words : List String) (c : Char) : Bool :=
  words.any fun word => opensWith (· == c) word.toList

theorem opensWith_opensOneOf {words : List String} (h : String.ofList lexeme ∈ words)
    (nonempty : lexeme ≠ []) : opensWith (opensOneOf words) lexeme = true := by
  cases lexeme with
  | nil => exact absurd rfl nonempty
  | cons c lexeme =>
      rw [Text.opensWith_cons, opensOneOf, List.any_eq_true]
      exact ⟨_, h, by simp⟩

end Lexeme

namespace Terminal

open Lexeme

/-- The lexemes of a terminal. -/
def Accepts : Terminal → List Char → Prop
  | literal text, lexeme => lexeme = text.toList
  | identifier, lexeme => IsFreeIdentifier lexeme
  | number, lexeme => IsNumeral lexeme
  | string, lexeme => IsQuotation lexeme
  | datetime, lexeme => IsDatetime lexeme
  | date, lexeme => IsDate lexeme
  | comparator, lexeme => String.ofList lexeme ∈ Vocabulary.comparators
  | clauseType, lexeme => String.ofList lexeme ∈ Vocabulary.categories
  | partyRole, lexeme => String.ofList lexeme ∈ Vocabulary.roles
  | connective, lexeme => String.ofList lexeme ∈ Vocabulary.connectives
  | endOfDocument, lexeme => lexeme = []

/-- The characters with which lexemes of a terminal open. -/
def opens : Terminal → Char → Bool
  | literal text, c => opensWith (· == c) text.toList
  | identifier, c => Text.isIdentifierStart c
  | number, c => isSign c || Text.isDecimalDigit c
  | string, c => Vocabulary.quotes.contains c
  | datetime, c => Text.isDecimalDigit c
  | date, c => Text.isDecimalDigit c
  | comparator, c => opensOneOf Vocabulary.comparators c
  | clauseType, c => opensOneOf Vocabulary.categories c
  | partyRole, c => opensOneOf Vocabulary.roles c
  | connective, c => opensOneOf Vocabulary.connectives c
  | endOfDocument, _ => false

/-- Terminals whose lexemes are never empty and open with no layout. -/
def isSolid : Terminal → Bool
  | literal text => opensWith (fun c => !opensGap c) text.toList
  | endOfDocument => false
  | _ => true

variable {terminal : Terminal} {text lexeme rest : List Char}

/-! ## What is read -/

/-- What a terminal reads is one of its lexemes. A name is not reserved if the text after it does
not open with a foreign word character. -/
theorem accepts_of_read (h : terminal.read text = some (lexeme, rest))
    (settled : terminal = identifier → opensWith isForeign rest = false) :
    terminal.Accepts lexeme := by
  cases terminal with
  | literal expected => exact (exactly_eq_some_iff.mp h).1
  | identifier => exact (identifier_facts h).2 (settled rfl)
  | number => exact isNumeral_of_number h
  | string => exact (quotation_eq_some_iff.mp h).1
  | datetime => exact (datetime_eq_some_iff.mp h).1
  | date => exact (date_eq_some_iff.mp h).1
  | comparator => exact (Vocabulary.mem_alternatives _ _).mp (mem_of_firstOf h)
  | clauseType => exact mem_of_keyword h
  | partyRole => exact mem_of_keyword h
  | connective => exact mem_of_keyword h
  | endOfDocument =>
      cases text with
      | nil =>
          cases h
          rfl
      | cons c text => cases h

theorem ne_nil_of_mem {words : List String} (h : String.ofList lexeme ∈ words)
    (proper : "" ∉ words) : lexeme ≠ [] := by
  rintro rfl
  exact proper h

/-- A lexeme opens as its terminal says. -/
theorem opensWith_opens (solid : terminal.isSolid = true) (h : terminal.Accepts lexeme) :
    opensWith terminal.opens lexeme = true := by
  cases terminal with
  | literal expected =>
      obtain ⟨c, tail, same, -⟩ := Text.exists_cons_of_opensWith solid
      rw [show lexeme = expected.toList from h, same]
      simp [opens, same]
  | identifier => exact opensWith_of_isIdentifier h.1
  | number => exact opensWith_of_isNumeral h
  | string => exact opensWith_of_isQuotation h
  | datetime => exact opensWith_of_isDatetime h
  | date => exact opensWith_of_isTriple h
  | comparator => exact opensWith_opensOneOf h (ne_nil_of_mem h (by decide))
  | clauseType => exact opensWith_opensOneOf h (ne_nil_of_mem h (by decide))
  | partyRole => exact opensWith_opensOneOf h (ne_nil_of_mem h (by decide))
  | connective => exact opensWith_opensOneOf h (ne_nil_of_mem h (by decide))
  | endOfDocument => cases solid

/-- What a terminal reads opens as the terminal says, reserved or not. -/
theorem opensWith_opens_of_read (solid : terminal.isSolid = true)
    (h : terminal.read text = some (lexeme, rest)) : opensWith terminal.opens lexeme = true := by
  by_cases name : terminal = identifier
  · subst name
    exact opensWith_of_isIdentifier (identifier_facts h).1
  · exact opensWith_opens solid (accepts_of_read h fun same => absurd same name)

/-- No lexeme opens with layout. -/
theorem not_opensGap_of_opens (solid : terminal.isSolid = true) {c : Char}
    (h : terminal.opens c = true) : opensGap c = false := by
  cases gap : opensGap c with
  | false => rfl
  | true =>
      cases terminal with
      | literal expected =>
          obtain ⟨d, tail, same, free⟩ := Text.exists_cons_of_opensWith solid
          simp only [opens, same, Text.opensWith_cons, beq_iff_eq] at h
          rw [h, gap] at free
          cases free
      | endOfDocument => cases h
      | _ =>
          simp only [opensGap, isBlank, Bool.or_eq_true, beq_iff_eq] at gap
          rcases gap with (((rfl | rfl) | rfl) | rfl) | rfl <;> exact absurd h (by decide)

theorem opensWith_opensGap_of_opens (solid : terminal.isSolid = true)
    (h : opensWith terminal.opens lexeme = true) : opensWith opensGap lexeme = false := by
  obtain ⟨c, tail, rfl, opens⟩ := Text.exists_cons_of_opensWith h
  exact not_opensGap_of_opens solid opens

theorem not_opens_number_of_opens_string {c : Char} (h : string.opens c = true) :
    number.opens c = false := by
  simp only [opens, Vocabulary.quotes, List.contains_iff_mem, List.mem_cons, List.not_mem_nil,
    or_false] at h
  rcases h with rfl | rfl <;> decide

/-! ## Reading in a spaced text -/

/-- The characters that may open the next lexeme. A point continues a numeral and an equality
sign a comparator; all else that continues a lexeme is kept apart by the layout. -/
def clears : Terminal → Char → Bool
  | number, c => c != '.'
  | comparator, c => c != '='
  | _, _ => true

variable {piece : Piece} {later : List Piece} {closing : List Char}

/-- The next lexeme cannot open with a character that the follow class leaves out. -/
theorem not_opensWith_of_clear {c : Char} {clear : Char → Bool} (spaced : Spaced later)
    (closed : Gap true closing) (noLayout : opensGap c = false) (excluded : clear c = false)
    (follow : ∀ d, opening later = some d → clear d = true) :
    opensWith (· == c) (laidOut later closing) = false := by
  cases opens : opensWith (· == c) (laidOut later closing) with
  | false => rfl
  | true =>
      have other : ∀ d, opensGap d = true → (d == c) = false := by
        intro d gap
        rw [beq_eq_false_iff_ne]
        rintro rfl
        rw [gap] at noLayout
        cases noLayout
      obtain ⟨next, rest, rfl, -, first⟩ := opensWith_laidOut spaced closed other opens
      obtain ⟨d, tail, same, found⟩ := Text.exists_cons_of_opensWith first
      rw [beq_iff_eq] at found
      subst found
      have allowed := follow d (by simp [opening, same])
      rw [excluded] at allowed
      cases allowed

theorem isIdentifierChar_of_mem_words {words : List String}
    (plain : (words.all fun word => word.toList.all Text.isIdentifierChar) = true)
    (h : String.ofList lexeme ∈ words) : ∀ c ∈ lexeme, Text.isIdentifierChar c = true := by
  have inside := List.all_eq_true.mp plain _ h
  rw [String.toList_ofList] at inside
  exact List.all_eq_true.mp inside

/-- A keyword is read whole in a spaced text. -/
theorem keyword_laidOut {words : List String} (h : String.ofList piece.lexeme ∈ words)
    (plain : (words.all fun word => word.toList.all Text.isIdentifierChar) = true)
    (spaced : Spaced (piece :: later)) (closed : Gap true closing) :
    keyword words (piece.lexeme ++ laidOut later closing)
      = some (piece.lexeme, laidOut later closing) := by
  have inside := isIdentifierChar_of_mem_words plain h
  have ends : endsWith Text.isWordChar piece.lexeme = true :=
    Text.endsWith_of_forall (spaced.nonempty piece List.mem_cons_self) fun c member =>
      Text.isWordChar_of_isIdentifierChar (inside c member)
  exact keyword_append_of_stop h inside (spaced.not_opensWith_isWordChar closed ends)

/-- A numeral is read whole in a spaced text, unless a point follows. -/
theorem number_laidOut (h : IsNumeral piece.lexeme) (spaced : Spaced (piece :: later))
    (closed : Gap true closing) (follow : ∀ d, opening later = some d → clears number d = true) :
    Lexeme.number (piece.lexeme ++ laidOut later closing)
      = some (piece.lexeme, laidOut later closing) := by
  -- digits and exponent marks are word characters, so only the point needs a condition
  have noWord := spaced.not_opensWith_isWordChar closed (endsWith_of_isNumeral h)
  have noPoint : opensWith (· == '.') (laidOut later closing) = false :=
    not_opensWith_of_clear spaced.of_cons closed (by decide) (by decide) follow
  apply number_append_of_stop h
  cases after : laidOut later closing with
  | nil => rfl
  | cons c rest =>
      rw [after, Text.opensWith_cons] at noWord noPoint
      have noMark : isExponentMark c = false := by
        cases marked : isExponentMark c with
        | false => rfl
        | true =>
            simp only [isExponentMark, Bool.or_eq_true, beq_iff_eq] at marked
            rcases marked with rfl | rfl <;> exact absurd noWord (by decide)
      have noDigit : Text.isDecimalDigit c = false := by
        cases digit : Text.isDecimalDigit c with
        | false => rfl
        | true => rw [Text.isWordChar_of_isDecimalDigit digit] at noWord; cases noWord
      simp [continuesNumeral, noDigit, noPoint, noMark]

/-- No date with a time stands where a date does, if the next character is no `T` and no digit
comes next: a space would lead to the digits of the time. -/
theorem datetime_append_eq_none (h : IsDate lexeme)
    (noMark : opensWith (· == 'T') rest = false)
    (noDigit : opensWith Text.isDecimalDigit (skipLayout rest) = false) :
    Lexeme.datetime (lexeme ++ rest) = none := by
  cases found : Lexeme.datetime (lexeme ++ rest) with
  | none => rfl
  | some cut =>
      obtain ⟨longer, after⟩ := cut
      obtain ⟨⟨day, divider, time, dated, divides, timed, rfl⟩, whole⟩ :=
        datetime_eq_some_iff.mp found
      rw [List.append_assoc] at whole
      -- both dates have ten characters, so the date with a time begins with the one before it
      have sameLength : lexeme.length = day.length := by rw [h.length, dated.length]
      obtain rfl := (List.append_inj whole sameLength).2
      rcases divides with rfl | rfl
      · obtain ⟨d, tail, rfl, digit⟩ := Text.exists_cons_of_opensWith (opensWith_of_isTriple timed)
        have noGap : opensWith opensGap (d :: (tail ++ after)) = false := by
          rw [Text.opensWith_cons]
          cases gap : opensGap d with
          | false => rfl
          | true =>
              have word := Text.isWordChar_of_isDecimalDigit digit
              rw [not_isWordChar_of_opensGap gap] at word
              cases word
        rw [List.cons_append, skipLayout_blank (by decide), List.cons_append,
          skipLayout_of_not_opensGap noGap, Text.opensWith_cons, digit] at noDigit
        cases noDigit
      · cases noMark

/-- A terminal reads exactly the lexeme before it. -/
theorem read_laidOut (solid : terminal.isSolid = true) (h : terminal.Accepts piece.lexeme)
    (spaced : Spaced (piece :: later)) (closed : Gap true closing)
    (follow : ∀ c, opening later = some c → terminal.clears c = true) :
    terminal.read (piece.lexeme ++ laidOut later closing)
      = some (piece.lexeme, laidOut later closing) := by
  cases terminal with
  | literal expected =>
      exact exactly_eq_some_iff.mpr ⟨h, congrArg (· ++ laidOut later closing) h⟩
  | identifier =>
      exact identifier_append_of_stop h (spaced.not_opensWith_isWordChar closed h.1.endsWith)
  | number => exact number_laidOut h spaced closed follow
  | string => exact quotation_eq_some_iff.mpr ⟨h, rfl⟩
  | datetime => exact datetime_eq_some_iff.mpr ⟨h, rfl⟩
  | date => exact date_eq_some_iff.mpr ⟨h, rfl⟩
  | comparator =>
      exact comparator_append_of_stop h
        (not_opensWith_of_clear spaced.of_cons closed (by decide) (by decide) follow)
  | clauseType => exact keyword_laidOut h (by decide) spaced closed
  | partyRole => exact keyword_laidOut h (by decide) spaced closed
  | connective => exact keyword_laidOut h (by decide) spaced closed
  | endOfDocument => cases solid

end Terminal

end Covenant
