import Covenant.Proofs.Condition
import Covenant.Proofs.Lexeme.Longest

/-!
# The language of numerals

The numerals as a regular language over characters: a sign or nothing, digits, a point with digits
or nothing, and an exponent mark with an optional sign and digits, or nothing (`numerals`). Two
readers are compared with it. A text is a number exactly if the whole of it is in the language. The
terminal for numbers, which reads from some place of a document on, takes the longest text of the
language that stands there, and refuses the place only if there is none.

The reader goes from left to right and never takes back a part that it has read. This is enough
since a digit, a point and an exponent mark exclude each other: a numeral that stops before the
reader does stops in front of a digit and then has no further parts, or it leaves out its last parts
(`prefix_fraction`, `prefix_number`). A point or an exponent mark without digits behind it is not
read at all, so nothing has to be given back.

Main statement: `numerals_read`.
-/

set_option autoImplicit false

namespace Covenant.Lexeme

open Text (opensWith)
open scoped Computability

/-! ## The language -/

/-- One decimal digit of any script. -/
def digit : Language Char :=
  {text | ∃ c, Text.isDecimalDigit c = true ∧ text = [c]}

/-- Digits, at least one. -/
def digitRun : Language Char := digit * digit∗

/-- A sign or nothing. -/
def signPart : Language Char := 1 + {['+'], ['-']}

/-- A point and digits, or nothing. -/
def fractionPart : Language Char := 1 + {['.']} * digitRun

/-- An exponent mark, a sign or nothing, and digits; or nothing. -/
def exponentPart : Language Char := 1 + {['e'], ['E']} * signPart * digitRun

/-- All numerals. -/
def numerals : Language Char := signPart * digitRun * fractionPart * exponentPart

variable {text lexeme rest : List Char}

theorem mem_digitRun : text ∈ digitRun ↔ IsDigits text := by
  rw [digitRun, Language.mem_mul]
  constructor
  · rintro ⟨_, ⟨c, decimal, rfl⟩, more, repeated, rfl⟩
    obtain ⟨pieces, rfl, inside⟩ := Language.mem_kstar.mp repeated
    refine ⟨List.cons_ne_nil _ _, ?_⟩
    intro d member
    rcases List.mem_cons.mp member with rfl | later
    · exact decimal
    · obtain ⟨piece, listed, here⟩ := List.mem_flatten.mp later
      obtain ⟨e, decimal', rfl⟩ := inside piece listed
      rw [List.mem_singleton.mp here]
      exact decimal'
  · rintro ⟨nonempty, inside⟩
    obtain ⟨c, more, rfl⟩ := List.exists_cons_of_ne_nil nonempty
    rw [List.forall_mem_cons] at inside
    refine ⟨[c], ⟨c, inside.1, rfl⟩, more, ?_, rfl⟩
    refine Language.mem_kstar.mpr ⟨more.map fun d => [d], ?_, ?_⟩
    · rw [← List.flatMap_def, List.flatMap_singleton']
    · intro piece listed
      obtain ⟨d, member, rfl⟩ := List.mem_map.mp listed
      exact ⟨d, inside.2 d member, rfl⟩

theorem mem_signPart : text ∈ signPart ↔ IsSignPart text := by
  constructor
  · rintro (rfl | rfl | rfl)
    · exact Or.inl rfl
    · exact Or.inr ⟨'+', rfl, rfl⟩
    · exact Or.inr ⟨'-', rfl, rfl⟩
  · rintro (rfl | ⟨c, signed, rfl⟩)
    · exact Or.inl rfl
    · simp only [isSign, Bool.or_eq_true, beq_iff_eq] at signed
      rcases signed with rfl | rfl
      · exact Or.inr (Or.inl rfl)
      · exact Or.inr (Or.inr rfl)

theorem mem_fractionPart : text ∈ fractionPart ↔ IsFraction text := by
  constructor
  · rintro (rfl | ⟨_, rfl, places, run, rfl⟩)
    · exact Or.inl rfl
    · exact Or.inr ⟨places, mem_digitRun.mp run, rfl⟩
  · rintro (rfl | ⟨places, run, rfl⟩)
    · exact Or.inl rfl
    · exact Or.inr ⟨['.'], rfl, places, mem_digitRun.mpr run, rfl⟩

theorem mem_exponentPart : text ∈ exponentPart ↔ IsExponent text := by
  constructor
  · rintro (rfl | ⟨_, ⟨_, rfl | rfl, sign, signed, rfl⟩, places, run, rfl⟩)
    · exact Or.inl rfl
    · exact Or.inr ⟨'e', sign, places, rfl, mem_signPart.mp signed, mem_digitRun.mp run, rfl⟩
    · exact Or.inr ⟨'E', sign, places, rfl, mem_signPart.mp signed, mem_digitRun.mp run, rfl⟩
  · rintro (rfl | ⟨mark, sign, places, marked, signed, run, rfl⟩)
    · exact Or.inl rfl
    · refine Or.inr ⟨[mark] ++ sign, ⟨[mark], ?_, sign, mem_signPart.mpr signed, rfl⟩, places,
        mem_digitRun.mpr run, rfl⟩
      simp only [isExponentMark, Bool.or_eq_true, beq_iff_eq] at marked
      rcases marked with rfl | rfl
      · exact Or.inl rfl
      · exact Or.inr rfl

/-- The language holds exactly the texts that are put together like a numeral. -/
theorem mem_numerals : text ∈ numerals ↔ IsNumeral text := by
  constructor
  · rintro ⟨_, ⟨_, ⟨sign, signed, whole, run, rfl⟩, part, fractional, rfl⟩, scale, exponential, rfl⟩
    refine ⟨sign, whole, part, scale, mem_signPart.mp signed, mem_digitRun.mp run,
      mem_fractionPart.mp fractional, mem_exponentPart.mp exponential, ?_⟩
    simp only [List.append_assoc]
  · rintro ⟨sign, whole, part, scale, signed, run, fractional, exponential, rfl⟩
    refine ⟨sign ++ whole ++ part, ⟨sign ++ whole, ⟨sign, mem_signPart.mpr signed, whole,
      mem_digitRun.mpr run, rfl⟩, part, mem_fractionPart.mpr fractional, rfl⟩, scale,
      mem_exponentPart.mpr exponential, ?_⟩
    simp only [List.append_assoc]

/-! ## What a numeral leaves to the reader -/

section Prefix

variable {whole part scale : List Char}

/-- No character is taken from a text that opens with none of the class. -/
theorem span_of_stop {accepts : Char → Bool} (stop : opensWith accepts rest = false) :
    rest.takeWhile accepts = [] ∧ rest.dropWhile accepts = rest :=
  ⟨Text.takeWhile_append_of_stop (List.forall_mem_nil _) stop,
    Text.dropWhile_append_of_stop (List.forall_mem_nil _) stop⟩

/-- Digits that begin a text are read with all digits behind them. -/
theorem digits_append (h : IsDigits whole) (rest : List Char) :
    digits (whole ++ rest) = some (whole ++ rest.takeWhile Text.isDecimalDigit,
      rest.dropWhile Text.isDecimalDigit) := by
  apply run_eq_some_iff.mpr
  refine ⟨List.append_ne_nil_of_left_ne_nil h.1 _, ?_, Text.opensWith_dropWhile _ rest, ?_⟩
  · intro c member
    rcases List.mem_append.mp member with here | behind
    · exact h.2 c here
    · exact List.mem_takeWhile_imp behind
  · rw [List.append_assoc, List.takeWhile_append_dropWhile]

/-- The exponent that is read is no shorter than one that stands at the head of the text. -/
theorem prefix_exponent (h : IsExponent scale) (rest : List Char) :
    scale <+: (exponent (scale ++ rest)).1 := by
  rcases h with rfl | ⟨mark, signPart, places, marked, signed, run, rfl⟩
  · exact List.nil_prefix
  · have split := sign_append_of_digits signed (opensWith_isDecimalDigit_of_isDigits run rest)
    have read : (exponent (mark :: (signPart ++ places) ++ rest)).1
        = mark :: (signPart ++ places) ++ rest.takeWhile Text.isDecimalDigit := by
      simp [exponent, marked, split, digits_append run]
    rw [read]
    exact List.prefix_append _ _

/-- What can come behind digits is nothing, or it opens with no digit. -/
theorem eq_nil_or_not_opensWith (fractional : IsFraction part) (exponential : IsExponent scale)
    (rest : List Char) :
    part ++ scale = [] ∨ opensWith Text.isDecimalDigit (part ++ (scale ++ rest)) = false := by
  rcases fractional with rfl | ⟨places, -, rfl⟩
  · rcases exponential with rfl | ⟨mark, signPart, places, marked, -, -, rfl⟩
    · exact Or.inl rfl
    · exact Or.inr (not_isDecimalDigit_of_isExponentMark marked)
  · exact Or.inr (show Text.isDecimalDigit '.' = false by decide)

/-- The fraction and the exponent that are read are together no shorter than those that stand at the
head of the text. -/
theorem prefix_fraction (fractional : IsFraction part) (exponential : IsExponent scale)
    (rest : List Char) :
    part ++ scale <+: (fraction (part ++ (scale ++ rest))).1
      ++ (exponent (fraction (part ++ (scale ++ rest))).2).1 := by
  rcases fractional with rfl | ⟨places, run, rfl⟩
  · rw [List.nil_append, List.nil_append]
    rcases exponential with rfl | ⟨mark, signPart, places, marked, signed, run, rfl⟩
    · exact List.nil_prefix
    · -- an exponent mark is no point, so no fraction is read in front of it
      have exponential : IsExponent (mark :: (signPart ++ places)) :=
        Or.inr ⟨mark, signPart, places, marked, signed, run, rfl⟩
      have stop : opensWith (fun c => Text.isDecimalDigit c || c == '.')
          (mark :: (signPart ++ places) ++ rest) = false := by
        simp only [isExponentMark, Bool.or_eq_true, beq_iff_eq] at marked
        rcases marked with rfl | rfl
        · rfl
        · rfl
      have none := fraction_append_of_stop (Or.inl rfl) stop
      rw [List.nil_append] at none
      rw [none]
      exact prefix_exponent exponential rest
  · have read : fraction ('.' :: places ++ (scale ++ rest))
        = ('.' :: (places ++ (scale ++ rest).takeWhile Text.isDecimalDigit),
          (scale ++ rest).dropWhile Text.isDecimalDigit) := by
      simp [fraction, digits_append run]
    rw [read]
    rcases eq_nil_or_not_opensWith (Or.inl rfl) exponential rest with none | stop
    · -- nothing is asked for behind the places, so reading further does no harm
      obtain rfl : scale = [] := none
      rw [List.append_nil, List.cons_append, List.append_assoc]
      exact List.prefix_append ('.' :: places) _
    · -- the places end where the exponent begins
      rw [List.nil_append] at stop
      obtain ⟨none, all⟩ := span_of_stop stop
      rw [none, all, List.append_nil]
      exact (List.prefix_append_right_inj _).mpr (prefix_exponent exponential rest)

/-- Wherever a numeral stands a number is read, and it is no shorter than the numeral. -/
theorem prefix_number (h : IsNumeral lexeme) (rest : List Char) :
    ∃ found after, number (lexeme ++ rest) = some (found, after) ∧ lexeme <+: found := by
  obtain ⟨signPart, whole, part, scale, signed, run, fractional, exponential, rfl⟩ := h
  have split := sign_append_of_digits signed
    (opensWith_isDecimalDigit_of_isDigits run (part ++ (scale ++ rest)))
  have read := digits_append run (part ++ (scale ++ rest))
  simp only [List.append_assoc, number, split, read]
  refine ⟨_, _, rfl, ?_⟩
  rw [List.prefix_append_right_inj]
  rcases eq_nil_or_not_opensWith fractional exponential rest with none | stop
  · obtain ⟨rfl, rfl⟩ := List.append_eq_nil_iff.mp none
    rw [List.append_nil, List.append_nil]
    exact List.prefix_append _ _
  · obtain ⟨none, all⟩ := span_of_stop stop
    rw [none, all, List.nil_append, List.prefix_append_right_inj]
    exact prefix_fraction fractional exponential rest

end Prefix

/-! ## Readers of numerals -/

theorem isLongest_of_number (h : number text = some (lexeme, rest)) :
    IsLongest numerals text lexeme := by
  refine ⟨mem_numerals.mpr (isNumeral_of_number h), ⟨rest, number_append h⟩, ?_⟩
  rintro other member ⟨behind, whole⟩
  obtain ⟨found, after, read, begins⟩ := prefix_number (mem_numerals.mp member) behind
  rw [whole, h] at read
  cases read
  exact begins.length_le

/-- The reader of numbers takes the longest numeral that stands at the head of a text. -/
theorem readsLongest_number : ReadsLongest numerals number := by
  apply ReadsLongest.of_cuts
  · intro text lexeme rest read
    exact ⟨isLongest_of_number read, number_append read⟩
  · rintro text lexeme member ⟨rest, rfl⟩
    obtain ⟨found, after, read, -⟩ := prefix_number (mem_numerals.mp member) rest
    exact ⟨(found, after), read⟩

/-- A number is refused exactly where no numeral stands. -/
theorem number_eq_none_iff : number text = none ↔ ∀ lexeme ∈ numerals, ¬ lexeme <+: text :=
  readsLongest_number.refuses text

/-- A number is read exactly if it is the longest numeral that stands at the head of the text. -/
theorem number_eq_some_iff :
    number text = some (lexeme, rest) ↔ IsLongest numerals text lexeme ∧ lexeme ++ rest = text :=
  readsLongest_number.reads text lexeme rest

/-- A text is a number exactly if it is a numeral from its first character to its last. The terminal
for numbers reads at a position of a document exactly if a numeral stands there, and reads the
longest one. -/
theorem numerals_read :
    (∀ text : String, isNumber text = true ↔ text.toList ∈ numerals) ∧
    ∀ (document : String) (position : Nat),
      ((∃ cut, Terminal.number.read (document.toList.drop position) = some cut) ↔
        ∃ lexeme ∈ numerals, lexeme <+: document.toList.drop position) ∧
      ∀ lexeme rest, Terminal.number.read (document.toList.drop position) = some (lexeme, rest) ↔
        IsLongest numerals (document.toList.drop position) lexeme ∧
          lexeme ++ rest = document.toList.drop position := by
  refine ⟨fun text => ?_, fun document position => ⟨?_, fun lexeme rest => number_eq_some_iff⟩⟩
  · rw [mem_numerals]
    exact ⟨isNumeral_of_isNumber, isNumber_of_isNumeral⟩
  · have refused : Terminal.number.read (document.toList.drop position) = none ↔
        ∀ lexeme ∈ numerals, ¬ lexeme <+: document.toList.drop position := number_eq_none_iff
    rw [← Option.ne_none_iff_exists', ne_eq, refused]
    simp

/-- What a numeral begins and does not complete is left in the text. -/
example : Terminal.number.read "-1.5e+x".toList = some ("-1.5".toList, "e+x".toList) := by decide

end Covenant.Lexeme
