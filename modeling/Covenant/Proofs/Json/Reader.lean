import Covenant.Json
import Covenant.Lexeme.Layout
import Covenant.Proofs.Lexeme.Classes
import Covenant.Proofs.Name

/-!
# Reading JSON

A reader of JSON texts, with blanks between tokens, all escapes and members in any order. It knows
nothing of the canonical form: it is the other side of `Json.write`.

The reader is built from readers of tokens (`readToken`), characters of a string (`readChar`),
strings (`readString`), integers (`readInt`), and sequences between brackets (`readSequence`). An
integer has no needless zeros, so `07` is none. The
main statements are that each of them reads back what the writer writes for it
(`readChar_escapeChar`, `readString_flatMap`, `readInt_toString`, `readSequence_commaSeparated`).
-/

set_option autoImplicit false

namespace Covenant.Json

open Lexeme (isBlank)
open Text (opensWith)

/-! ## The reader -/

/-- The text after a token of one character; blanks may stand before it. -/
def readToken (token : Char) (text : List Char) : Option (List Char) :=
  match text.dropWhile isBlank with
  | [] => none
  | c :: rest => if c = token then some rest else none

/-- The value of a hexadecimal digit. -/
def hexValue? (c : Char) : Option Nat :=
  if '0' ≤ c ∧ c ≤ '9' then some (c.toNat - 0x30)
  else if 'a' ≤ c ∧ c ≤ 'f' then some (c.toNat - 0x57)
  else if 'A' ≤ c ∧ c ≤ 'F' then some (c.toNat - 0x37)
  else none

/-- A code unit in four hexadecimal digits. -/
def readUnit : List Char → Option (Nat × List Char)
  | a :: b :: c :: d :: rest => do
      let a ← hexValue? a
      let b ← hexValue? b
      let c ← hexValue? c
      let d ← hexValue? d
      return (((a * 16 + b) * 16 + c) * 16 + d, rest)
  | _ => none

/-- The character of a pair of code units whose first one was read. -/
def readPair (high : Nat) (text : List Char) : Option (Char × List Char) := do
  let (_, rest) ← Lexeme.exactly ['\\', 'u'] text
  let (low, rest) ← readUnit rest
  if high < 0xdc00 ∧ 0xdc00 ≤ low ∧ low < 0xe000 then
    return (Char.ofNat (0x10000 + (high - 0xd800) * 0x400 + (low - 0xdc00)), rest)
  else none

/-- The character of one or two code units. -/
def readUnits (text : List Char) : Option (Char × List Char) := do
  let (unit, rest) ← readUnit text
  if 0xd800 ≤ unit ∧ unit < 0xe000 then readPair unit rest
  else return (Char.ofNat unit, rest)

/-- The character of a short escape. -/
def shortEscape? (mark : Char) : Option Char :=
  [('"', '"'), ('\\', '\\'), ('/', '/'), ('b', '\x08'), ('f', '\x0c'), ('n', '\n'), ('r', '\r'),
    ('t', '\t')].lookup mark

/-- The character of an escape whose backslash was read. -/
def readEscape : List Char → Option (Char × List Char)
  | [] => none
  | mark :: rest =>
      if mark = 'u' then readUnits rest else (shortEscape? mark).map fun c => (c, rest)

/-- A character inside a string. -/
def readChar : List Char → Option (Char × List Char)
  | [] => none
  | c :: rest =>
      if c = '\\' then readEscape rest
      else if c = '"' ∨ c.toNat < 0x20 then none
      else some (c, rest)

/-- The rest of a string whose opening quote was read. -/
def readString : (fuel : Nat) → List Char → Option (List Char × List Char)
  | 0, _ => none
  | fuel + 1, text =>
      match text with
      | [] => none
      | c :: rest =>
          if c = '"' then some ([], rest)
          else do
            let (first, rest) ← readChar (c :: rest)
            let (more, rest) ← readString fuel rest
            return (first :: more, rest)

/-- Digits without a needless zero: a zero alone, or digits of which the first one is no zero. -/
def readNatural : List Char → Option (Nat × List Char)
  | [] => none
  | c :: rest =>
      if c = '0' then some (0, rest)
      else (Lexeme.run Char.isDigit (c :: rest)).map fun cut =>
        (Nat.ofDigitChars 10 cut.1 0, cut.2)

/-- An integer: a minus sign or nothing, and digits. -/
def readInt : List Char → Option (Int × List Char)
  | [] => none
  | c :: rest =>
      if c = '-' then (readNatural rest).map fun read => (-(read.1 : Int), read.2)
      else (readNatural (c :: rest)).map fun read => ((read.1 : Int), read.2)

/-- One of the three words. -/
def readWord (text : List Char) : Option (Json × List Char) :=
  [("null", null), ("true", bool true), ("false", bool false)].findSome? fun entry =>
    (Lexeme.exactly entry.1.toList text).map fun cut => (entry.2, cut.2)

section Sequence

variable {α : Type}

/-- Items with commas between them, at least one, and the token that closes them. -/
def readItems (readItem : List Char → Option (α × List Char)) (close : Char) :
    (fuel : Nat) → List Char → Option (List α × List Char)
  | 0, _ => none
  | fuel + 1, text => do
      let (item, rest) ← readItem text
      match readToken close rest with
      | some rest => return ([item], rest)
      | none =>
          let rest ← readToken ',' rest
          let (items, rest) ← readItems readItem close fuel rest
          return (item :: items, rest)

/-- Any number of items, and the token that closes them. -/
def readSequence (readItem : List Char → Option (α × List Char)) (close : Char) (fuel : Nat)
    (text : List Char) : Option (List α × List Char) :=
  match readToken close text with
  | some rest => some ([], rest)
  | none => readItems readItem close fuel text

end Sequence

/-- A member: a key, a colon and a value. -/
def readMember (readValue : List Char → Option (Json × List Char)) (fuel : Nat)
    (text : List Char) : Option ((String × Json) × List Char) := do
  let rest ← readToken '"' text
  let (key, rest) ← readString fuel rest
  let rest ← readToken ':' rest
  let (value, rest) ← readValue rest
  return ((String.ofList key, value), rest)

/-- A value; blanks may stand before it. Each level and each item takes one unit of fuel. -/
def readValue : (fuel : Nat) → List Char → Option (Json × List Char)
  | 0, _ => none
  | fuel + 1, text =>
      match text.dropWhile isBlank with
      | [] => none
      | c :: rest =>
          if c = '"' then
            (readString fuel rest).map fun read => (str (String.ofList read.1), read.2)
          else if c = '[' then
            (readSequence (readValue fuel) ']' fuel rest).map fun read => (arr read.1, read.2)
          else if c = '\x7b' then
            (readSequence (readMember (readValue fuel) fuel) '\x7d' fuel rest).map fun read =>
              (obj read.1, read.2)
          else if c = '-' ∨ c.isDigit then
            (readInt (c :: rest)).map fun read => (int read.1, read.2)
          else readWord (c :: rest)

/-! ## Strings are read back -/

theorem hexValue?_hexDigit : ∀ value < 16, hexValue? (Text.hexDigit value) = some value := by
  decide

theorem readUnit_hex {unit : Nat} (small : unit < 0x10000) (rest : List Char) :
    readUnit (Text.hex 4 unit ++ rest) = some (unit, rest) := by
  have digits : Text.hex 4 unit ++ rest = Text.hexDigit (unit / 16 / 16 / 16 % 16)
      :: Text.hexDigit (unit / 16 / 16 % 16) :: Text.hexDigit (unit / 16 % 16)
      :: Text.hexDigit (unit % 16) :: rest := rfl
  have value : ((unit / 16 / 16 / 16 % 16 * 16 + unit / 16 / 16 % 16) * 16 + unit / 16 % 16) * 16
      + unit % 16 = unit := by omega
  have below (n : Nat) : n % 16 < 16 := Nat.mod_lt n (by decide)
  rw [digits]
  simp only [readUnit, hexValue?_hexDigit _ (below _), Option.pure_def, Option.bind_eq_bind,
    Option.bind_some, value]

theorem readChar_escaped (unit : Nat) (rest : List Char) :
    readChar (unitEscape unit ++ rest) = readUnits (Text.hex 4 unit ++ rest) := rfl

/-- A code unit that is no half of a pair is read back as its character. -/
theorem readChar_unitEscape {c : Char} (small : c.toNat < 0x10000) (rest : List Char) :
    readChar (unitEscape c.toNat ++ rest) = some (c, rest) := by
  -- characters leave out the code points of halves
  have single : ¬ (0xd800 ≤ c.toNat ∧ c.toNat < 0xe000) := by
    have valid : c.toNat < 0xd800 ∨ 0xdfff < c.toNat ∧ c.toNat < 0x110000 := c.valid
    omega
  rw [readChar_escaped, readUnits, readUnit_hex small]
  simp only [Option.pure_def, Option.bind_eq_bind, Option.bind_some, if_neg single,
    Char.ofNat_toNat]

/-- Two code units that make a pair are read back as one character. -/
theorem readChar_pair {high low : Nat} (isHigh : 0xd800 ≤ high ∧ high < 0xdc00)
    (isLow : 0xdc00 ≤ low ∧ low < 0xe000) (rest : List Char) :
    readChar (unitEscape high ++ unitEscape low ++ rest)
      = some (Char.ofNat (0x10000 + (high - 0xd800) * 0x400 + (low - 0xdc00)), rest) := by
  have escaped : Lexeme.exactly ['\\', 'u'] (unitEscape low ++ rest)
      = some (['\\', 'u'], Text.hex 4 low ++ rest) :=
    Lexeme.exactly_eq_some_iff.mpr ⟨rfl, rfl⟩
  have second : readPair high (unitEscape low ++ rest)
      = some (Char.ofNat (0x10000 + (high - 0xd800) * 0x400 + (low - 0xdc00)), rest) := by
    have small : low < 0x10000 := by omega
    simp only [readPair, escaped, readUnit_hex small, Option.pure_def, Option.bind_eq_bind,
      Option.bind_some, if_pos (And.intro isHigh.2 isLow)]
  have surrogate : 0xd800 ≤ high ∧ high < 0xe000 := by omega
  rw [List.append_assoc, readChar_escaped, readUnits, readUnit_hex (by omega)]
  simp only [Option.bind_eq_bind, Option.bind_some, if_pos surrogate, second]

/-- The two units of a character beyond the basic plane are read back as the character. -/
theorem readChar_unitEscape_pair {c : Char} (large : 0x10000 ≤ c.toNat) (rest : List Char) :
    readChar (unitEscape (0xd800 + (c.toNat - 0x10000) / 0x400)
      ++ unitEscape (0xdc00 + (c.toNat - 0x10000) % 0x400) ++ rest) = some (c, rest) := by
  have valid : c.toNat < 0xd800 ∨ 0xdfff < c.toNat ∧ c.toNat < 0x110000 := c.valid
  have isHigh : 0xd800 ≤ 0xd800 + (c.toNat - 0x10000) / 0x400 ∧
      0xd800 + (c.toNat - 0x10000) / 0x400 < 0xdc00 := by omega
  have isLow : 0xdc00 ≤ 0xdc00 + (c.toNat - 0x10000) % 0x400 ∧
      0xdc00 + (c.toNat - 0x10000) % 0x400 < 0xe000 := by omega
  have value : 0x10000 + (0xd800 + (c.toNat - 0x10000) / 0x400 - 0xd800) * 0x400
      + (0xdc00 + (c.toNat - 0x10000) % 0x400 - 0xdc00) = c.toNat := by omega
  rw [readChar_pair isHigh isLow, value, Char.ofNat_toNat]

/-- A character without a short escape is written as itself if it is printable, and else by its
code units. -/
theorem readChar_long {c : Char} (quote : c ≠ '"') (slash : c ≠ '\\') (rest : List Char) :
    readChar ((if 0x20 ≤ c.toNat && c.toNat ≤ 0x7e then [c]
      else if c.toNat < 0x10000 then unitEscape c.toNat
      else unitEscape (0xd800 + (c.toNat - 0x10000) / 0x400)
        ++ unitEscape (0xdc00 + (c.toNat - 0x10000) % 0x400)) ++ rest) = some (c, rest) := by
  by_cases printable : (0x20 ≤ c.toNat && c.toNat ≤ 0x7e) = true
  · rw [if_pos printable]
    simp only [Bool.and_eq_true, decide_eq_true_eq] at printable
    have plain : ¬ (c = '"' ∨ c.toNat < 0x20) := by
      rintro (same | control)
      · exact quote same
      · omega
    rw [List.singleton_append, readChar, if_neg slash, if_neg plain]
  · rw [if_neg printable]
    by_cases small : c.toNat < 0x10000
    · rw [if_pos small]
      exact readChar_unitEscape small rest
    · rw [if_neg small]
      exact readChar_unitEscape_pair (Nat.le_of_not_lt small) rest

/-- A character is read back from the way it is written in a string. -/
theorem readChar_escapeChar (c : Char) (rest : List Char) :
    readChar (escapeChar c ++ rest) = some (c, rest) := by
  -- the seven short escapes are read back by computation
  by_cases quote : c = '"'
  · subst quote
    rfl
  by_cases slash : c = '\\'
  · subst slash
    rfl
  by_cases feed : c = '\n'
  · subst feed
    rfl
  by_cases carriage : c = '\r'
  · subst carriage
    rfl
  by_cases tab : c = '\t'
  · subst tab
    rfl
  by_cases back : c.toNat = 0x08
  · obtain rfl : c = '\x08' := Char.toNat_inj.mp back
    rfl
  by_cases form : c.toNat = 0x0c
  · obtain rfl : c = '\x0c' := Char.toNat_inj.mp form
    rfl
  have written : escapeChar c = if 0x20 ≤ c.toNat && c.toNat ≤ 0x7e then [c]
      else if c.toNat < 0x10000 then unitEscape c.toNat
      else unitEscape (0xd800 + (c.toNat - 0x10000) / 0x400)
        ++ unitEscape (0xdc00 + (c.toNat - 0x10000) % 0x400) := by
    simp only [escapeChar, beq_iff_eq, quote, slash, feed, carriage, tab, back, form, if_false]
  rw [written]
  exact readChar_long quote slash rest

/-- No character of a string is written so that it looks like the end of the string. -/
theorem exists_escapeChar (c : Char) :
    ∃ first tail, escapeChar c = first :: tail ∧ first ≠ '"' := by
  have read := readChar_escapeChar c []
  cases written : escapeChar c with
  | nil =>
      rw [written] at read
      cases read
  | cons first tail =>
      refine ⟨first, tail, rfl, ?_⟩
      rintro rfl
      rw [written] at read
      cases read

/-- A string is read back up to its closing quote. -/
theorem readString_flatMap (text : List Char) {fuel : Nat} (enough : text.length < fuel)
    (rest : List Char) :
    readString fuel (text.flatMap escapeChar ++ '"' :: rest) = some (text, rest) := by
  induction text generalizing fuel with
  | nil =>
      cases fuel with
      | zero => exact absurd enough (Nat.not_lt_zero _)
      | succ fuel => rfl
  | cons c text ih =>
      cases fuel with
      | zero => exact absurd enough (Nat.not_lt_zero _)
      | succ fuel =>
          -- a written character does not open with a quote, so the string goes on
          have read := readChar_escapeChar c (text.flatMap escapeChar ++ '"' :: rest)
          obtain ⟨first, tail, written, notQuote⟩ := exists_escapeChar c
          rw [written, List.cons_append] at read
          rw [List.flatMap_cons, List.append_assoc, written, List.cons_append]
          simp only [readString, if_neg notQuote, read, ih (Nat.lt_of_succ_lt_succ enough),
            Option.pure_def, Option.bind_eq_bind, Option.bind_some]

theorem length_le_length_flatMap_escapeChar (text : List Char) :
    text.length ≤ (text.flatMap escapeChar).length := by
  induction text with
  | nil => exact Nat.le_refl 0
  | cons c text ih =>
      obtain ⟨first, tail, written, -⟩ := exists_escapeChar c
      rw [List.flatMap_cons, List.length_append, written, List.length_cons, List.length_cons]
      omega

/-! ## Integers are read back -/

theorem run_toDigits (n : Nat) {rest : List Char} (stop : opensWith Char.isDigit rest = false) :
    Lexeme.run Char.isDigit (Nat.toDigits 10 n ++ rest) = some (Nat.toDigits 10 n, rest) := by
  refine Lexeme.run_eq_some_iff.mpr ⟨Nat.toDigits_ne_nil, ?_, stop, rfl⟩
  intro c member
  exact Nat.isDigit_of_mem_toDigits (by decide) (by decide) member

/-- The digits of a number are read back. They open with a zero only if there is no other digit. -/
theorem readNatural_toDigits (n : Nat) {rest : List Char}
    (stop : opensWith Char.isDigit rest = false) :
    readNatural (Nat.toDigits 10 n ++ rest) = some (n, rest) := by
  rcases Nat.eq_zero_or_pos n with rfl | positive
  · rfl
  · have read := run_toDigits n stop
    obtain ⟨first, tail, digits, -⟩ := exists_toDigits n
    rw [digits, List.cons_append] at read ⊢
    rw [readNatural, if_neg (ne_zero_of_toDigits positive digits), read, Option.map_some, ← digits,
      Nat.ofDigitChars_ten_toDigits]

theorem readInt_toString (value : Int) {rest : List Char}
    (stop : opensWith Char.isDigit rest = false) :
    readInt ((toString value).toList ++ rest) = some (value, rest) := by
  cases value with
  | ofNat n =>
      have read := readNatural_toDigits n stop
      obtain ⟨first, tail, digits, digit⟩ := exists_toDigits n
      have unsigned : first ≠ '-' := by
        rintro rfl
        exact absurd digit (by decide)
      rw [toList_toString_ofNat]
      rw [digits, List.cons_append] at read ⊢
      rw [readInt, if_neg unsigned, read]
      rfl
  | negSucc n =>
      rw [toList_toString_negSucc, List.cons_append, readInt, if_pos rfl,
        readNatural_toDigits (n + 1) stop]
      rfl

/-! ## Sequences are read back -/

theorem readToken_cons {c : Char} (solid : isBlank c = false) (token : Char) (rest : List Char) :
    readToken token (c :: rest) = if c = token then some rest else none := by
  rw [readToken, List.dropWhile_cons_of_neg (by simp [solid])]

theorem commaSeparated_cons_cons (text next : List Char) (more : List (List Char)) :
    commaSeparated (text :: next :: more) = text ++ ',' :: commaSeparated (next :: more) := rfl

section Sequence

variable {α β : Type} {readItem : List Char → Option (β × List Char)} {text : α → List Char}
  {value : α → β} {close : Char} {items : List α}

/-- Items are read back one after the other, each up to the comma or the close after it. -/
theorem readItems_commaSeparated (solid : isBlank close = false) (noComma : close ≠ ',')
    (noDigit : close.isDigit = false)
    (reads : ∀ item ∈ items, ∀ rest, opensWith Char.isDigit rest = false →
      readItem (text item ++ rest) = some (value item, rest))
    (nonempty : items ≠ []) {fuel : Nat} (enough : items.length ≤ fuel) (rest : List Char) :
    readItems readItem close fuel (commaSeparated (items.map text) ++ close :: rest)
      = some (items.map value, rest) := by
  induction items generalizing fuel with
  | nil => exact absurd rfl nonempty
  | cons item later ih =>
      rw [List.forall_mem_cons] at reads
      cases fuel with
      | zero => exact absurd enough (Nat.not_succ_le_zero _)
      | succ fuel =>
          cases later with
          | nil =>
              have first := reads.1 (close :: rest) noDigit
              simp only [List.map_cons, List.map_nil, commaSeparated, readItems, first,
                readToken_cons solid, if_true, Option.pure_def, Option.bind_eq_bind,
                Option.bind_some]
          | cons next more =>
              -- the comma is not the close, so one more item is read
              have first := reads.1
                (',' :: (commaSeparated ((next :: more).map text) ++ close :: rest)) rfl
              have others := ih reads.2 (List.cons_ne_nil _ _) (Nat.le_of_succ_le_succ enough)
              rw [List.map_cons, List.map_cons, commaSeparated_cons_cons, List.append_assoc,
                List.cons_append, ← List.map_cons]
              simp only [readItems, first, readToken_cons (show isBlank ',' = false from rfl),
                if_neg noComma.symm, if_true, others, Option.pure_def, Option.bind_eq_bind,
                Option.bind_some]
              rfl

/-- A sequence is read back if each of its items is, and none of them looks like the close. -/
theorem readSequence_commaSeparated (solid : isBlank close = false) (noComma : close ≠ ',')
    (noDigit : close.isDigit = false)
    (opens : ∀ item ∈ items, ∃ first tail, text item = first :: tail ∧
      isBlank first = false ∧ first ≠ close)
    (reads : ∀ item ∈ items, ∀ rest, opensWith Char.isDigit rest = false →
      readItem (text item ++ rest) = some (value item, rest))
    {fuel : Nat} (enough : items.length ≤ fuel) (rest : List Char) :
    readSequence readItem close fuel (commaSeparated (items.map text) ++ close :: rest)
      = some (items.map value, rest) := by
  cases items with
  | nil =>
      simp only [List.map_nil, commaSeparated, List.nil_append, readSequence,
        readToken_cons solid, if_true]
  | cons item later =>
      obtain ⟨first, tail, opening, firstSolid, notClose⟩ := opens item List.mem_cons_self
      -- the first item does not look like the close, so the sequence is not taken for an empty one
      have goesOn : readToken close (commaSeparated ((item :: later).map text) ++ close :: rest)
          = none := by
        have written : ∃ more, commaSeparated ((item :: later).map text) = first :: more := by
          cases later <;> simp [commaSeparated, opening]
        obtain ⟨more, written⟩ := written
        rw [written, List.cons_append, readToken_cons firstSolid, if_neg notClose]
      rw [readSequence, goesOn]
      exact readItems_commaSeparated solid noComma noDigit reads (List.cons_ne_nil _ _) enough rest

end Sequence

end Covenant.Json
