import Covenant.Lexeme.Calendar
import Covenant.Lexeme.Number
import Covenant.Lexeme.Quotation
import Covenant.Lexeme.Word
import Covenant.Vocabulary.Alternatives
import Mathlib.Data.List.TakeWhile

/-!
# Classes of lexemes

Which lexemes there are, said without the readers: numerals, strings, dates and identifiers as
sets of texts. Each reader is tied to its class by two statements. What it reads belongs to the
class (`isNumeral_of_number`, `identifier_facts`), and a lexeme of the class is read whole
wherever the text after it does not continue it (`number_append_of_stop`,
`identifier_append_of_stop`). Readers of fixed places need no such condition and are
characterised by an equivalence (`quotation_eq_some_iff`, `date_eq_some_iff`).
-/

set_option autoImplicit false

namespace Covenant.Text

/-- The text opens with a character of the class. -/
def opensWith (accepts : Char → Bool) (text : List Char) : Bool :=
  text.head?.any accepts

variable {accepts : Char → Bool}

@[simp] theorem opensWith_nil (accepts : Char → Bool) : opensWith accepts [] = false := rfl

@[simp] theorem opensWith_cons (accepts : Char → Bool) (c : Char) (rest : List Char) :
    opensWith accepts (c :: rest) = accepts c := rfl

theorem opensWith_append {front : List Char} (h : front ≠ []) (rest : List Char) :
    opensWith accepts (front ++ rest) = opensWith accepts front := by
  cases front with
  | nil => exact absurd rfl h
  | cons c front => rfl

theorem exists_cons_of_opensWith {text : List Char} (h : opensWith accepts text = true) :
    ∃ c rest, text = c :: rest ∧ accepts c = true := by
  cases text with
  | nil => cases h
  | cons c rest => exact ⟨c, rest, rfl, h⟩

/-- A class that holds no more characters is opened with no more often. -/
theorem opensWith_eq_false_of_imp {narrow : Char → Bool} {text : List Char}
    (h : opensWith accepts text = false) (imp : ∀ c, narrow c = true → accepts c = true) :
    opensWith narrow text = false := by
  cases text with
  | nil => rfl
  | cons c rest =>
      rw [opensWith_cons] at h ⊢
      cases found : narrow c with
      | false => rfl
      | true =>
          rw [imp c found] at h
          cases h

theorem opensWith_dropWhile (accepts : Char → Bool) (text : List Char) :
    opensWith accepts (text.dropWhile accepts) = false := by
  have stop := List.head?_dropWhile_not accepts text
  cases found : text.dropWhile accepts with
  | nil => rfl
  | cons c rest =>
      rw [found] at stop
      exact stop

section Stop

variable {front rest : List Char}

/-- A run of the class, followed by a character outside it, is the longest run. -/
theorem takeWhile_append_of_stop (inside : ∀ c ∈ front, accepts c = true)
    (stop : opensWith accepts rest = false) : (front ++ rest).takeWhile accepts = front := by
  rw [List.takeWhile_append_of_pos inside]
  cases rest with
  | nil => simp
  | cons c rest =>
      rw [opensWith_cons] at stop
      simp [stop]

theorem dropWhile_append_of_stop (inside : ∀ c ∈ front, accepts c = true)
    (stop : opensWith accepts rest = false) : (front ++ rest).dropWhile accepts = rest := by
  rw [List.dropWhile_append_of_pos inside]
  cases rest with
  | nil => rfl
  | cons c rest =>
      rw [opensWith_cons] at stop
      simp [stop]

end Stop

end Covenant.Text

namespace Covenant.Lexeme

open Text (opensWith)

variable {text lexeme rest : List Char}

/-! ## Runs -/

/-- The longest run of a class is read iff it is not empty. -/
theorem run_eq_some_iff {accepts : Char → Bool} :
    run accepts text = some (lexeme, rest) ↔
      lexeme ≠ [] ∧ (∀ c ∈ lexeme, accepts c = true) ∧ opensWith accepts rest = false ∧
        text = lexeme ++ rest := by
  constructor
  · intro h
    have whole := run_append h
    unfold run at h
    split at h
    · cases h
    · next found =>
        cases h
        exact ⟨found, fun c => List.mem_takeWhile_imp, Text.opensWith_dropWhile accepts text,
          whole.symm⟩
  · rintro ⟨nonempty, inside, stop, rfl⟩
    unfold run
    rw [Text.takeWhile_append_of_stop inside stop, Text.dropWhile_append_of_stop inside stop]
    cases lexeme with
    | nil => exact absurd rfl nonempty
    | cons c lexeme => rfl

/-! ## Numerals -/

/-- Digits, at least one. -/
def IsDigits (text : List Char) : Prop :=
  text ≠ [] ∧ ∀ c ∈ text, Text.isDecimalDigit c = true

/-- One sign, or nothing. -/
def IsSignPart (text : List Char) : Prop :=
  text = [] ∨ ∃ c, isSign c = true ∧ text = [c]

/-- A point and digits, or nothing. -/
def IsFraction (text : List Char) : Prop :=
  text = [] ∨ ∃ places, IsDigits places ∧ text = '.' :: places

/-- An exponent mark, an optional sign and digits, or nothing. -/
def IsExponent (text : List Char) : Prop :=
  text = [] ∨ ∃ mark signPart places, isExponentMark mark = true ∧ IsSignPart signPart ∧
    IsDigits places ∧ text = mark :: (signPart ++ places)

/-- A number: an optional sign, digits, an optional fraction and an optional exponent. -/
def IsNumeral (text : List Char) : Prop :=
  ∃ signPart whole part scale, IsSignPart signPart ∧ IsDigits whole ∧ IsFraction part ∧
    IsExponent scale ∧ text = signPart ++ (whole ++ (part ++ scale))

theorem isSignPart_sign (text : List Char) : IsSignPart (sign text).1 := by
  cases text with
  | nil => exact Or.inl rfl
  | cons c rest =>
      rw [sign]
      split
      · next h => exact Or.inr ⟨c, h, rfl⟩
      · exact Or.inl rfl

theorem isDigits_of_digits (h : digits text = some (lexeme, rest)) : IsDigits lexeme :=
  ⟨(run_eq_some_iff.mp h).1, (run_eq_some_iff.mp h).2.1⟩

theorem isFraction_fraction (text : List Char) : IsFraction (fraction text).1 := by
  unfold fraction
  split
  · next rest =>
      cases h : digits rest with
      | none => exact Or.inl rfl
      | some cut => exact Or.inr ⟨cut.1, isDigits_of_digits h, rfl⟩
  · exact Or.inl rfl

theorem isExponent_exponent (text : List Char) : IsExponent (exponent text).1 := by
  unfold exponent
  split
  · exact Or.inl rfl
  · next mark rest =>
      split
      · next marked =>
          cases h : digits (sign rest).2 with
          | none => exact Or.inl rfl
          | some cut =>
              exact Or.inr ⟨mark, (sign rest).1, cut.1, marked, isSignPart_sign rest,
                isDigits_of_digits h, rfl⟩
      · exact Or.inl rfl

/-- What is read as a number is a numeral. -/
theorem isNumeral_of_number (h : number text = some (lexeme, rest)) : IsNumeral lexeme := by
  unfold number at h
  split at h
  · cases h
  · next whole afterWhole found =>
      obtain ⟨rfl, -⟩ := Prod.mk.inj (Option.some.inj h)
      refine ⟨_, whole, _, _, isSignPart_sign text, isDigits_of_digits found,
        isFraction_fraction afterWhole, isExponent_exponent (fraction afterWhole).2, ?_⟩
      simp only [List.append_assoc]

/-- A character that a numeral could go on with. -/
def continuesNumeral (c : Char) : Bool :=
  Text.isDecimalDigit c || c == '.' || isExponentMark c

theorem not_isSign_of_isDecimalDigit {c : Char} (h : Text.isDecimalDigit c = true) :
    isSign c = false := by
  cases found : isSign c with
  | false => rfl
  | true =>
      simp only [isSign, Bool.or_eq_true, beq_iff_eq] at found
      rcases found with rfl | rfl
      · exact absurd h (by decide)
      · exact absurd h (by decide)

theorem not_isDecimalDigit_of_isExponentMark {c : Char} (h : isExponentMark c = true) :
    Text.isDecimalDigit c = false := by
  simp only [isExponentMark, Bool.or_eq_true, beq_iff_eq] at h
  rcases h with rfl | rfl
  · decide
  · decide

/-- The sign part is split off where digits follow it. -/
theorem sign_append_of_digits {signPart : List Char} (h : IsSignPart signPart)
    (stop : opensWith Text.isDecimalDigit rest = true) :
    sign (signPart ++ rest) = (signPart, rest) := by
  obtain ⟨c, tail, rfl, digit⟩ := Text.exists_cons_of_opensWith stop
  rcases h with rfl | ⟨d, signed, rfl⟩
  · simp [sign, not_isSign_of_isDecimalDigit digit]
  · simp [sign, signed]

theorem digits_append_of_stop (h : IsDigits lexeme)
    (stop : opensWith Text.isDecimalDigit rest = false) :
    digits (lexeme ++ rest) = some (lexeme, rest) :=
  run_eq_some_iff.mpr ⟨h.1, h.2, stop, rfl⟩

theorem opensWith_isDecimalDigit_of_isDigits (h : IsDigits lexeme) (rest : List Char) :
    opensWith Text.isDecimalDigit (lexeme ++ rest) = true := by
  obtain ⟨nonempty, inside⟩ := h
  cases lexeme with
  | nil => exact absurd rfl nonempty
  | cons c lexeme => exact inside c List.mem_cons_self

theorem exponent_append_of_stop {scale : List Char} (h : IsExponent scale)
    (stop : opensWith continuesNumeral rest = false) :
    exponent (scale ++ rest) = (scale, rest) := by
  have noDigit : opensWith Text.isDecimalDigit rest = false :=
    Text.opensWith_eq_false_of_imp stop fun c found => by simp [continuesNumeral, found]
  rcases h with rfl | ⟨mark, signPart, places, marked, signed, digits, rfl⟩
  · cases rest with
    | nil => rfl
    | cons c rest =>
        have noMark : isExponentMark c = false := by
          simp only [opensWith, continuesNumeral, List.head?_cons, Option.any_some,
            Bool.or_eq_false_iff] at stop
          exact stop.2
        simp [exponent, noMark]
  · have split := sign_append_of_digits signed (opensWith_isDecimalDigit_of_isDigits digits rest)
    simp [exponent, marked, split, digits_append_of_stop digits noDigit]

/-- After the fraction of a numeral stands its exponent, or what does not continue it; neither
is a digit. -/
theorem opensWith_exponent_append {scale : List Char} (h : IsExponent scale)
    (stop : opensWith continuesNumeral rest = false) :
    opensWith (fun c => Text.isDecimalDigit c || c == '.') (scale ++ rest) = false := by
  rcases h with rfl | ⟨mark, signPart, places, marked, -, -, rfl⟩
  · refine Text.opensWith_eq_false_of_imp stop fun c found => ?_
    rw [continuesNumeral, found, Bool.true_or]
  · have noPoint : (mark == '.') = false := by
      simp only [isExponentMark, Bool.or_eq_true, beq_iff_eq] at marked
      rcases marked with rfl | rfl
      · decide
      · decide
    simp [not_isDecimalDigit_of_isExponentMark marked, noPoint]

theorem fraction_append_of_stop {part : List Char} (h : IsFraction part)
    (stop : opensWith (fun c => Text.isDecimalDigit c || c == '.') rest = false) :
    fraction (part ++ rest) = (part, rest) := by
  have noDigit : opensWith Text.isDecimalDigit rest = false :=
    Text.opensWith_eq_false_of_imp stop fun c found => by simp [found]
  rcases h with rfl | ⟨places, digits, rfl⟩
  · unfold fraction
    split
    · next tail same =>
        rw [List.nil_append] at same
        rw [same] at stop
        cases stop
    · rfl
  · simp [fraction, digits_append_of_stop digits noDigit]

/-- After the whole part of a numeral stands its fraction or exponent, or what does not continue
it; none is a digit. -/
theorem opensWith_fraction_append {part : List Char} (h : IsFraction part)
    (stop : opensWith (fun c => Text.isDecimalDigit c || c == '.') rest = false) :
    opensWith Text.isDecimalDigit (part ++ rest) = false := by
  rcases h with rfl | ⟨places, -, rfl⟩
  · exact Text.opensWith_eq_false_of_imp stop fun c found => by simp [found]
  · rw [List.cons_append, Text.opensWith_cons]
    decide

/-- A numeral is read whole unless the text after it continues it. -/
theorem number_append_of_stop (h : IsNumeral lexeme)
    (stop : opensWith continuesNumeral rest = false) :
    number (lexeme ++ rest) = some (lexeme, rest) := by
  obtain ⟨signPart, whole, part, scale, signed, digits, fractional, exponential, rfl⟩ := h
  -- from right to left: each part stops where the next one begins
  have afterPart := opensWith_exponent_append exponential stop
  have afterWhole := opensWith_fraction_append fractional afterPart
  have readSign := sign_append_of_digits signed
    (opensWith_isDecimalDigit_of_isDigits digits (part ++ (scale ++ rest)))
  simp only [List.append_assoc, number, readSign, digits_append_of_stop digits afterWhole,
    fraction_append_of_stop fractional afterPart, exponent_append_of_stop exponential stop]

/-! ## Strings -/

/-- A quote, a text without it, and the same quote. -/
def IsQuotation (text : List Char) : Prop :=
  ∃ quote body, quote ∈ Vocabulary.quotes ∧ quote ∉ body ∧ text = quote :: (body ++ [quote])

/-- A string is read iff it stands at the head of the text, whatever follows it. -/
theorem quotation_eq_some_iff :
    quotation text = some (lexeme, rest) ↔ IsQuotation lexeme ∧ text = lexeme ++ rest := by
  constructor
  · intro h
    refine ⟨?_, (quotation_append h).symm⟩
    unfold quotation at h
    split at h
    · cases h
    · next quote tail =>
        split at h
        · next quoted =>
            split at h
            · cases h
            · next close after found =>
                cases h
                -- the dropping stopped at the quote that closes the string
                have stop := Text.opensWith_dropWhile (· != quote) tail
                rw [found, Text.opensWith_cons, bne_eq_false_iff_eq] at stop
                subst stop
                refine ⟨close, _, List.contains_iff_mem.mp quoted, fun inside => ?_, rfl⟩
                have other := List.mem_takeWhile_imp inside
                simp at other
        · cases h
  · rintro ⟨⟨quote, body, quoted, absent, rfl⟩, rfl⟩
    have inside : ∀ c ∈ body, (c != quote) = true := by
      intro c member
      rw [bne_iff_ne]
      rintro rfl
      exact absent member
    have stop : opensWith (· != quote) (quote :: rest) = false := by simp
    simp [quotation, quoted, Text.takeWhile_append_of_stop inside stop,
      Text.dropWhile_append_of_stop inside stop]

/-! ## Dates -/

/-- So many digits. -/
def IsDigitsOf (count : Nat) (text : List Char) : Prop :=
  text.length = count ∧ ∀ c ∈ text, Text.isDecimalDigit c = true

/-- Three groups of digits, the later two of two each, with dividers between them. -/
def IsTriple (count : Nat) (divider : Char) (text : List Char) : Prop :=
  ∃ first second third, IsDigitsOf count first ∧ IsDigitsOf 2 second ∧ IsDigitsOf 2 third ∧
    text = first ++ divider :: (second ++ divider :: third)

/-- A year of four digits, a month and a day of two, divided by hyphens. -/
def IsDate (text : List Char) : Prop :=
  IsTriple 4 '-' text

/-- Hours, minutes and seconds of two digits, divided by colons. -/
def IsTime (text : List Char) : Prop :=
  IsTriple 2 ':' text

/-- A date and a time, divided by a space or a `T`. -/
def IsDatetime (text : List Char) : Prop :=
  ∃ day divider time, IsDate day ∧ (divider = ' ' ∨ divider = 'T') ∧ IsTime time ∧
    text = day ++ divider :: time

/-- Places are read in two parts iff they are read one part after the other. -/
theorem following_append_iff {front back : List (Char → Bool)} :
    following (front ++ back) text = some (lexeme, rest) ↔
      ∃ left mid right, following front text = some (left, mid) ∧
        following back mid = some (right, rest) ∧ lexeme = left ++ right := by
  induction front generalizing text lexeme rest with
  | nil =>
      rw [List.nil_append]
      constructor
      · intro h
        exact ⟨[], text, lexeme, rfl, h, rfl⟩
      · rintro ⟨left, mid, right, first, second, rfl⟩
        cases first
        exact second
  | cons accepts front ih =>
      cases text with
      | nil => simp [following]
      | cons c text =>
          by_cases accepted : accepts c = true
          · simp only [List.cons_append, following, accepted, if_true, Option.map_eq_some_iff,
              Prod.exists, Prod.mk.injEq, ih]
            constructor
            · rintro ⟨_, _, ⟨left, mid, right, first, second, rfl⟩, rfl, rfl⟩
              exact ⟨c :: left, mid, right, ⟨left, mid, first, rfl, rfl⟩, second, rfl⟩
            · rintro ⟨_, _, right, ⟨left, mid, first, rfl, rfl⟩, second, rfl⟩
              exact ⟨left ++ right, rest, ⟨left, mid, right, first, second, rfl⟩, rfl, rfl⟩
          · simp [following, accepted]

theorem following_digitClasses_iff {count : Nat} :
    following (digitClasses count) text = some (lexeme, rest) ↔
      IsDigitsOf count lexeme ∧ text = lexeme ++ rest := by
  induction count generalizing text lexeme with
  | zero =>
      simp only [digitClasses, List.replicate_zero, following, Option.some.injEq, Prod.mk.injEq,
        IsDigitsOf, List.length_eq_zero_iff]
      constructor
      · rintro ⟨rfl, rfl⟩
        simp
      · rintro ⟨⟨rfl, -⟩, rfl⟩
        exact ⟨rfl, rfl⟩
  | succ count ih =>
      have step : digitClasses (count + 1) = Text.isDecimalDigit :: digitClasses count :=
        List.replicate_succ
      rw [step]
      constructor
      · intro h
        refine ⟨?_, (following_append h).symm⟩
        cases text with
        | nil => cases h
        | cons c text =>
            rw [following] at h
            split at h
            · next digit =>
                obtain ⟨⟨tail, after⟩, cut, same⟩ := Option.map_eq_some_iff.mp h
                cases same
                obtain ⟨⟨length, inside⟩, -⟩ := ih.mp cut
                refine ⟨congrArg (· + 1) length, fun d member => ?_⟩
                rcases List.mem_cons.mp member with rfl | member
                · exact digit
                · exact inside d member
            · cases h
      · rintro ⟨⟨length, inside⟩, rfl⟩
        cases lexeme with
        | nil => cases length
        | cons c lexeme =>
            have tail : following (digitClasses count) (lexeme ++ rest) = some (lexeme, rest) :=
              ih.mpr ⟨⟨Nat.succ.inj length, fun d member => inside d (.tail c member)⟩, rfl⟩
            simp [following, inside c List.mem_cons_self, tail]

theorem following_singleton_iff {accepts : Char → Bool} :
    following [accepts] text = some (lexeme, rest) ↔
      ∃ c, accepts c = true ∧ lexeme = [c] ∧ text = c :: rest := by
  cases text with
  | nil => simp [following]
  | cons c text =>
      by_cases accepted : accepts c = true
      · simp only [following, accepted, if_true, Option.map_some, Option.some.injEq,
          Prod.mk.injEq, List.cons.injEq]
        constructor
        · rintro ⟨rfl, rfl⟩
          exact ⟨c, accepted, rfl, rfl, rfl⟩
        · rintro ⟨d, -, rfl, rfl, rfl⟩
          exact ⟨rfl, rfl⟩
      · simp only [following, accepted, Bool.false_eq_true, if_false, List.cons.injEq,
          reduceCtorEq, false_iff, not_exists, not_and]
        rintro d found - rfl
        exact absurd found accepted

theorem following_triple_iff {count : Nat} {divider : Char} :
    following (digitClasses count ++ [(· == divider)] ++ digitClasses 2 ++ [(· == divider)]
        ++ digitClasses 2) text = some (lexeme, rest) ↔
      IsTriple count divider lexeme ∧ text = lexeme ++ rest := by
  simp only [List.append_assoc, following_append_iff, following_digitClasses_iff,
    following_singleton_iff, beq_iff_eq]
  constructor
  · rintro ⟨first, _, _, ⟨firsts, rfl⟩, ⟨_, _, _, ⟨_, rfl, rfl, rfl⟩, ⟨second, _, _, ⟨seconds, rfl⟩,
      ⟨_, _, third, ⟨_, rfl, rfl, rfl⟩, ⟨thirds, rfl⟩, rfl⟩, rfl⟩, rfl⟩, rfl⟩
    exact ⟨⟨first, second, third, firsts, seconds, thirds, by simp⟩, by simp⟩
  · rintro ⟨⟨first, second, third, firsts, seconds, thirds, rfl⟩, rfl⟩
    refine ⟨first, _, _, ⟨firsts, ?_⟩, ⟨_, _, _, ⟨divider, rfl, rfl, rfl⟩,
      ⟨second, _, _, ⟨seconds, rfl⟩, ⟨_, _, third, ⟨divider, rfl, rfl, rfl⟩, ⟨thirds, rfl⟩, rfl⟩,
        rfl⟩, rfl⟩, ?_⟩
    · simp
    · simp

/-- A date is read iff it stands at the head of the text, whatever follows it. -/
theorem date_eq_some_iff :
    date text = some (lexeme, rest) ↔ IsDate lexeme ∧ text = lexeme ++ rest :=
  following_triple_iff

/-- A date with a time is read iff it stands at the head of the text, whatever follows it. -/
theorem datetime_eq_some_iff :
    datetime text = some (lexeme, rest) ↔ IsDatetime lexeme ∧ text = lexeme ++ rest := by
  unfold datetime
  rw [List.append_assoc, following_append_iff]
  constructor
  · rintro ⟨day, mid, clock, first, second, rfl⟩
    obtain ⟨dated, rfl⟩ := following_triple_iff.mp first
    obtain ⟨_, _, time, divided, third, rfl⟩ := following_append_iff.mp second
    obtain ⟨divider, kind, rfl, rfl⟩ := following_singleton_iff.mp divided
    obtain ⟨timed, rfl⟩ := following_triple_iff.mp third
    simp only [Bool.or_eq_true, beq_iff_eq] at kind
    exact ⟨⟨day, divider, time, dated, kind, timed, rfl⟩, by simp⟩
  · rintro ⟨⟨day, divider, time, dated, kind, timed, rfl⟩, rfl⟩
    refine ⟨day, divider :: time ++ rest, divider :: time,
      following_triple_iff.mpr ⟨dated, by simp⟩, following_append_iff.mpr
        ⟨[divider], time ++ rest, time, following_singleton_iff.mpr ⟨divider, ?_, rfl, rfl⟩,
          following_triple_iff.mpr ⟨timed, rfl⟩, rfl⟩, rfl⟩
    simpa using kind

/-! ## Words -/

/-- Letters, digits and underscores of ASCII, not opening with a digit. -/
def IsIdentifier (text : List Char) : Prop :=
  ∃ c tail, Text.isIdentifierStart c = true ∧ (∀ d ∈ tail, Text.isIdentifierChar d = true) ∧
    text = c :: tail

/-- An identifier that is no reserved word. -/
def IsFreeIdentifier (text : List Char) : Prop :=
  IsIdentifier text ∧ String.ofList text ∉ Vocabulary.reserved

theorem IsIdentifier.isIdentifierChar (h : IsIdentifier lexeme) :
    ∀ c ∈ lexeme, Text.isIdentifierChar c = true := by
  obtain ⟨c, tail, start, inside, rfl⟩ := h
  intro d member
  rcases List.mem_cons.mp member with rfl | member
  · exact Text.isIdentifierChar_of_isIdentifierStart start
  · exact inside d member

theorem isIdentifier_iff :
    IsIdentifier lexeme ↔ opensWith Text.isIdentifierStart lexeme = true ∧
      ∀ c ∈ lexeme, Text.isIdentifierChar c = true := by
  constructor
  · intro h
    refine ⟨?_, h.isIdentifierChar⟩
    obtain ⟨c, tail, start, -, rfl⟩ := h
    exact start
  · rintro ⟨opens, inside⟩
    obtain ⟨c, tail, rfl, start⟩ := Text.exists_cons_of_opensWith opens
    exact ⟨c, tail, start, fun d member => inside d (List.mem_cons_of_mem c member), rfl⟩

theorem isIdentifier_of_mem_words {words : List String}
    (plain : (words.all fun word =>
      opensWith Text.isIdentifierStart word.toList && word.toList.all Text.isIdentifierChar) = true)
    {word : String} (h : word ∈ words) : IsIdentifier word.toList := by
  have shape := List.all_eq_true.mp plain word h
  rw [Bool.and_eq_true, List.all_eq_true] at shape
  exact isIdentifier_iff.mpr shape

/-- A word that is followed by no word character is the leading word. -/
theorem leadingWord_append_of_stop (inside : ∀ c ∈ lexeme, Text.isIdentifierChar c = true)
    (stop : opensWith Text.isWordChar rest = false) :
    Text.leadingWord (lexeme ++ rest) = lexeme :=
  Text.takeWhile_append_of_stop
    (fun c member => Text.isWordChar_of_isIdentifierChar (inside c member)) stop

theorem afterWord_append_of_stop (inside : ∀ c ∈ lexeme, Text.isIdentifierChar c = true)
    (stop : opensWith Text.isWordChar rest = false) :
    Text.afterWord (lexeme ++ rest) = rest :=
  Text.dropWhile_append_of_stop
    (fun c member => Text.isWordChar_of_isIdentifierChar (inside c member)) stop

/-- A word character that no identifier holds. -/
def isForeign (c : Char) : Bool :=
  Text.isWordChar c && !Text.isIdentifierChar c

/-- What is read as an identifier is one. It may be a reserved word only where a word character
that no identifier holds follows it. -/
theorem identifier_facts (h : identifier text = some (lexeme, rest)) :
    IsIdentifier lexeme ∧ (opensWith isForeign rest = false → IsFreeIdentifier lexeme) := by
  have whole := identifier_append h
  unfold identifier at h
  split at h
  · cases h
  · next c tail =>
      split at h
      · cases h
      · next free =>
          split at h
          · next start =>
              cases h
              have identifier : IsIdentifier (c :: tail.takeWhile Text.isIdentifierChar) :=
                ⟨c, _, start, fun d => List.mem_takeWhile_imp, rfl⟩
              refine ⟨identifier, fun stop => ⟨identifier, fun reserved => free ?_⟩⟩
              -- reserved words are looked for in the leading word, which may be longer than the
              -- identifier; without a foreign character the two are the same
              have ended := Text.opensWith_dropWhile Text.isIdentifierChar tail
              have noWord :
                  opensWith Text.isWordChar (tail.dropWhile Text.isIdentifierChar) = false := by
                cases after : tail.dropWhile Text.isIdentifierChar with
                | nil => rfl
                | cons d rest =>
                    rw [after] at stop ended
                    rw [Text.opensWith_cons] at stop ended ⊢
                    rw [isForeign, ended] at stop
                    simpa using stop
              rw [startsWithWord, ← whole,
                leadingWord_append_of_stop identifier.isIdentifierChar noWord]
              exact List.contains_iff_mem.mpr reserved
          · cases h

/-- An identifier is read whole unless a word character follows it. -/
theorem identifier_append_of_stop (h : IsFreeIdentifier lexeme)
    (stop : opensWith Text.isWordChar rest = false) :
    identifier (lexeme ++ rest) = some (lexeme, rest) := by
  have free : startsWithWord Vocabulary.reserved (lexeme ++ rest) = false := by
    rw [startsWithWord, leadingWord_append_of_stop h.1.isIdentifierChar stop]
    exact Bool.eq_false_iff.mpr fun found => h.2 (List.contains_iff_mem.mp found)
  have ended : opensWith Text.isIdentifierChar rest = false :=
    Text.opensWith_eq_false_of_imp stop fun c => Text.isWordChar_of_isIdentifierChar
  obtain ⟨c, tail, start, inside, rfl⟩ := h.1
  rw [List.cons_append] at free ⊢
  simp [identifier, free, start, Text.takeWhile_append_of_stop inside ended,
    Text.dropWhile_append_of_stop inside ended]

theorem mem_of_keyword {words : List String} (h : keyword words text = some (lexeme, rest)) :
    String.ofList lexeme ∈ words := by
  unfold keyword at h
  split at h
  · next found =>
      cases h
      exact List.contains_iff_mem.mp found
  · cases h

/-- A keyword is read whole unless a word character follows it. -/
theorem keyword_append_of_stop {words : List String} (h : String.ofList lexeme ∈ words)
    (inside : ∀ c ∈ lexeme, Text.isIdentifierChar c = true)
    (stop : opensWith Text.isWordChar rest = false) :
    keyword words (lexeme ++ rest) = some (lexeme, rest) := by
  have found : startsWithWord words (lexeme ++ rest) = true := by
    rw [startsWithWord, leadingWord_append_of_stop inside stop]
    exact List.contains_iff_mem.mpr h
  rw [keyword, if_pos found, leadingWord_append_of_stop inside stop,
    afterWord_append_of_stop inside stop]

/-! ## Comparators -/

theorem mem_of_firstOf {words : List String} (h : firstOf words text = some (lexeme, rest)) :
    String.ofList lexeme ∈ words := by
  induction words with
  | nil => cases h
  | cons word words ih =>
      rw [firstOf] at h
      split at h
      · next cut found =>
          cases h
          rw [(exactly_eq_some_iff.mp found).1, String.ofList_toList]
          exact List.mem_cons_self
      · exact List.mem_cons_of_mem word (ih h)

theorem alternatives_comparators :
    Vocabulary.alternatives Vocabulary.comparators = ["!=", "<=", "==", ">=", "<", ">"] := by
  decide

/-- A comparator is read whole unless an equality sign follows it. -/
theorem comparator_append_of_stop (h : String.ofList lexeme ∈ Vocabulary.comparators)
    (stop : opensWith (· == '=') rest = false) :
    firstOf (Vocabulary.alternatives Vocabulary.comparators) (lexeme ++ rest)
      = some (lexeme, rest) := by
  rw [alternatives_comparators]
  have same : lexeme = (String.ofList lexeme).toList := String.toList_ofList.symm
  rw [same]
  -- `<` and `>` are tried after `<=` and `>=`, which the equality sign would complete
  generalize String.ofList lexeme = word at h
  simp only [Vocabulary.comparators, Vocabulary.equalities, Vocabulary.inequalities,
    List.cons_append, List.nil_append, List.mem_cons, List.not_mem_nil, or_false] at h
  rcases h with rfl | rfl | rfl | rfl | rfl | rfl
  all_goals
    cases rest with
    | nil => simp [firstOf, exactly]
    | cons c rest =>
        rw [Text.opensWith_cons, beq_eq_false_iff_ne] at stop
        simp [firstOf, exactly, stop.symm]

end Covenant.Lexeme
