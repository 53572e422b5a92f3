import Covenant.Grammar.Terminal
import Covenant.Proofs.Lexeme.Longest

/-!
# Alternatives and the patterns made of them

Words are put in order, the longest first, and written as one pattern with bars between them. The
order is total and antisymmetric, so the pattern depends on the words and on how often each is
given, and not on the order in which they come (`alternatives_eq_of_perm`). It descends in length,
so the first alternative that stands at the head of a text is the longest word that does
(`readsLongest_alternatives`), whatever words are prefixes of others, repeated or empty.

A pattern is a text, and it is read back by dividing it at its bars (`literalAlternatives?`). This
gives the alternatives again if no word holds a metacharacter and there is a word at all. No words
and the empty word give the same pattern, the empty one, which stands at the head of every text; so
a list without words is the only one whose pattern does not say what the list says.

Main statement: `alternativesText_law`.
-/

set_option autoImplicit false

namespace Covenant.Vocabulary

open Lexeme (ReadsLongest languageOf firstOf)

variable {words : List String}

/-! ## The order of alternatives -/

theorem precedes_iff {a b : String} :
    precedes a b = true ↔ b.length < a.length ∨ a.length = b.length ∧ a ≤ b := by
  simp [precedes]

theorem isOrder_precedes : IsOrder precedes where
  total a b := by
    rw [precedes_iff, precedes_iff]
    rcases Nat.lt_trichotomy a.length b.length with shorter | same | longer
    · exact Or.inr (Or.inl shorter)
    · rcases String.le_total a b with below | above
      · exact Or.inl (Or.inr ⟨same, below⟩)
      · exact Or.inr (Or.inr ⟨same.symm, above⟩)
    · exact Or.inl (Or.inl longer)
  trans a b c := by
    rw [precedes_iff, precedes_iff, precedes_iff]
    rintro (longer | ⟨same, below⟩) (longer' | ⟨same', below'⟩)
    · exact Or.inl (by omega)
    · exact Or.inl (by omega)
    · exact Or.inl (by omega)
    · exact Or.inr ⟨same.trans same', String.le_trans below below'⟩

/-- Two words that precede each other are the same, so that ties leave no choice. -/
theorem eq_of_precedes {a b : String} (h : precedes a b = true) (h' : precedes b a = true) :
    a = b := by
  rcases precedes_iff.mp h with longer | ⟨same, below⟩
  · rcases precedes_iff.mp h' with longer' | ⟨same', -⟩ <;> omega
  · rcases precedes_iff.mp h' with longer' | ⟨-, above⟩
    · omega
    · exact String.le_antisymm below above

/-- The order in which words are given has no influence on the order of the alternatives. -/
theorem alternatives_eq_of_perm {other : List String} (h : words.Perm other) :
    alternatives words = alternatives other :=
  sortBy_eq_of_perm isOrder_precedes (fun _ _ _ _ => eq_of_precedes) h

theorem alternatives_descending (words : List String) :
    (alternatives words).Pairwise fun a b => b.length ≤ a.length := by
  refine (sortBy_pairwise isOrder_precedes words).imp fun before => ?_
  rcases precedes_iff.mp before with longer | ⟨same, -⟩
  · exact Nat.le_of_lt longer
  · exact Nat.le_of_eq same.symm

theorem alternatives_ne_nil (h : words ≠ []) : alternatives words ≠ [] := by
  intro none
  have same : words.length = 0 := by
    rw [← (sortBy_perm precedes words).length_eq]
    exact congrArg List.length none
  exact h (List.eq_nil_of_length_eq_zero same)

theorem languageOf_alternatives (words : List String) :
    languageOf (alternatives words) = languageOf words := by
  ext lexeme
  exact mem_alternatives words (String.ofList lexeme)

/-- The first alternative that stands at the head of a text is the longest word that does. -/
theorem readsLongest_alternatives (words : List String) :
    ReadsLongest (languageOf words) (firstOf (alternatives words)) := by
  rw [← languageOf_alternatives]
  exact Lexeme.readsLongest_firstOf (alternatives_descending words)

/-- The terminal for comparators reads the longest comparator. -/
theorem readsLongest_comparator :
    ReadsLongest (languageOf comparators) Terminal.comparator.read :=
  readsLongest_alternatives comparators

/-! ## Reading a pattern -/

/-- The characters that do not stand for themselves in a pattern. -/
def metacharacters : List Char :=
  ['.', '^', '$', '*', '+', '?', '{', '}', '[', ']', '\\', '|', '(', ')']

/-- All characters of the text stand for themselves. -/
def isLiteral (text : String) : Bool :=
  text.toList.all fun c => !metacharacters.contains c

/-- The parts of a pattern between its bars. -/
def barred (pattern : String) : List String :=
  (pattern.toList.splitOn '|').map String.ofList

/-- The alternatives of a pattern in which nothing but the bars is a metacharacter. -/
def literalAlternatives? (pattern : String) : Option (List String) :=
  if (barred pattern).all isLiteral then some (barred pattern) else none

/-- Reads the first alternative of a pattern that stands at the head of a text. -/
def readPattern (pattern : String) (text : List Char) : Option Cut :=
  (literalAlternatives? pattern).bind fun choices => firstOf choices text

theorem bar_notMem_of_isLiteral {word : String} (h : isLiteral word = true) :
    '|' ∉ word.toList := by
  intro member
  exact absurd (List.all_eq_true.mp h '|' member) (by decide)

/-- Words with bars between them are the parts between the bars, unless there are none: then the
pattern has one part, which is empty. -/
theorem barred_intercalate (literal : ∀ word ∈ words, isLiteral word = true)
    (nonempty : words ≠ []) : barred (String.intercalate "|" words) = words := by
  have free : ∀ piece ∈ words.map String.toList, '|' ∉ piece := by
    intro piece member
    obtain ⟨word, listed, rfl⟩ := List.mem_map.mp member
    exact bar_notMem_of_isLiteral (literal word listed)
  have bar : "|".toList = ['|'] := rfl
  have split := List.splitOn_intercalate '|' free (by simpa using nonempty)
  rw [barred, String.toList_intercalate, bar, split, List.map_map]
  simp

/-- The alternatives are read back from their pattern. -/
theorem literalAlternatives?_alternativesText (literal : ∀ word ∈ words, isLiteral word = true)
    (nonempty : words ≠ []) :
    literalAlternatives? (alternativesText words) = some (alternatives words) := by
  have sorted : ∀ word ∈ alternatives words, isLiteral word = true := fun word member =>
    literal word ((mem_alternatives words word).mp member)
  have parts : barred (alternativesText words) = alternatives words :=
    barred_intercalate sorted (alternatives_ne_nil nonempty)
  rw [literalAlternatives?, parts, if_pos (List.all_eq_true.mpr sorted)]

/-! ## What the pattern says -/

theorem readsLongest_alternativesText (literal : ∀ word ∈ words, isLiteral word = true)
    (nonempty : words ≠ []) :
    ReadsLongest (languageOf words) (readPattern (alternativesText words)) := by
  have same : readPattern (alternativesText words) = firstOf (alternatives words) := by
    funext text
    rw [readPattern, literalAlternatives?_alternativesText literal nonempty, Option.bind_some]
  rw [same]
  exact readsLongest_alternatives words

/-- The words of which the grammar makes patterns are literal and there are some in each list, so
every pattern of the grammar takes the longest of its words. -/
theorem readsLongest_vocabulary
    (listed : words ∈ [comparators, categories, roles, connectives, reserved]) :
    ReadsLongest (languageOf words) (readPattern (alternativesText words)) := by
  apply readsLongest_alternativesText
  · revert words
    decide +kernel
  · rintro rfl
    exact absurd listed (by decide)

/-- No reader is right both for no words and for the empty word: the empty text is to be refused
for the ones and read for the other. -/
theorem not_readsLongest_both {read : List Char → Option Cut}
    (none : ReadsLongest (languageOf []) read) : ¬ ReadsLongest (languageOf [""]) read := by
  intro empty
  have refused : read [] = Option.none := (none.refuses []).mpr fun lexeme member => by cases member
  exact (empty.refuses []).mp refused [] List.mem_cons_self List.nil_prefix

theorem alternativesText_nil : alternativesText [] = "" := by
  decide

theorem alternativesText_empty : alternativesText [""] = "" := by
  decide

theorem literalAlternatives?_empty : literalAlternatives? "" = some [""] := by
  decide

/-- The empty pattern is read at the head of every text. -/
theorem readPattern_empty (text : List Char) : readPattern "" text = some ([], text) := by
  rw [readPattern, literalAlternatives?_empty]
  rfl

/-- The pattern of some words does not depend on the order in which they are given. Read at the
head of any text, it takes the longest of the words that stand there and refuses the text if none
does, exactly if there is a word: the pattern of no words is that of the empty word, whose one
alternative stands at the head of every text. -/
theorem alternativesText_law (literal : ∀ word ∈ words, isLiteral word = true) :
    (∀ other, words.Perm other → alternativesText other = alternativesText words) ∧
      (ReadsLongest (languageOf words) (readPattern (alternativesText words)) ↔ words ≠ []) ∧
      alternativesText [] = "" ∧ alternativesText [""] = "" ∧
      literalAlternatives? "" = some [""] ∧ ∀ text, readPattern "" text = some ([], text) := by
  refine ⟨?_, ⟨?_, readsLongest_alternativesText literal⟩, alternativesText_nil,
    alternativesText_empty, literalAlternatives?_empty, readPattern_empty⟩
  · intro other same
    rw [alternativesText, alternativesText, alternatives_eq_of_perm same]
  · rintro longest rfl
    rw [alternativesText_nil, ← alternativesText_empty] at longest
    apply not_readsLongest_both longest
    exact readsLongest_alternativesText (by decide) (by decide)

/-- A word that shadows another one if it comes first, a repeated word and the empty word. -/
theorem alternativesText_law_shadowed :
    (∀ word ∈ ["<", "", "<=", "<"], isLiteral word = true) ∧
      ["<", "", "<=", "<"].Perm ["<=", "<", "<", ""] ∧
      alternativesText ["<=", "<", "<", ""] = alternativesText ["<", "", "<=", "<"] ∧
      ReadsLongest (languageOf ["<", "", "<=", "<"]) (readPattern "<=|<|<|") := by
  have literal : ∀ word ∈ ["<", "", "<=", "<"], isLiteral word = true := by decide
  have same : ["<", "", "<=", "<"].Perm ["<=", "<", "<", ""] := by decide
  have written : alternativesText ["<", "", "<=", "<"] = "<=|<|<|" := by decide
  obtain ⟨stable, longest, -⟩ := alternativesText_law literal
  rw [written] at longest
  exact ⟨literal, same, stable _ same, longest.mpr (by decide)⟩

/-- Without words the pattern is empty and is read at the head of a text where no word stands. No
way of reading patterns avoids this, since the empty word has the same pattern. -/
theorem not_readsLongest_empty :
    readPattern (alternativesText []) ['a'] = some ([], ['a']) ∧
      ¬ ReadsLongest (languageOf []) (readPattern (alternativesText [])) ∧
      ¬ ∃ read : String → List Char → Option Cut, ∀ words : List String,
        (∀ word ∈ words, isLiteral word = true) →
          ReadsLongest (languageOf words) (read (alternativesText words)) := by
  have read : readPattern (alternativesText []) ['a'] = some ([], ['a']) := by
    rw [alternativesText_nil, readPattern_empty]
  refine ⟨read, fun longest => ?_, ?_⟩
  · obtain ⟨⟨member, -, -⟩, -⟩ := (longest.reads ['a'] [] ['a']).mp read
    cases member
  · rintro ⟨read, longest⟩
    have none := longest [] (by decide)
    rw [alternativesText_nil, ← alternativesText_empty] at none
    exact not_readsLongest_both none (longest [""] (by decide))

end Covenant.Vocabulary
