import Covenant.Proofs.Lexeme.Classes
import Mathlib.Computability.Language

/-!
# Longest match

A reader takes the longest text of a language if it reads, at the head of every text, the longest
text of the language that stands there, and refuses a text only where none stands
(`ReadsLongest`). There is at most one such text (`IsLongest.unique`), so it is enough that what is
read is longest and that something is read wherever a text of the language stands
(`ReadsLongest.of_cuts`).

Words that are tried one after another are such a reader if they come in the order of their
length, the longest first (`readsLongest_firstOf`).
-/

set_option autoImplicit false

namespace Covenant.Lexeme

variable {language : Language Char} {text lexeme rest : List Char}

/-- The longest text of a language that stands at the head of a text. -/
structure IsLongest (language : Language Char) (text lexeme : List Char) : Prop where
  mem : lexeme ∈ language
  stands : lexeme <+: text
  longest : ∀ other ∈ language, other <+: text → other.length ≤ lexeme.length

/-- There is at most one longest text. -/
theorem IsLongest.unique {other : List Char} (h : IsLongest language text lexeme)
    (h' : IsLongest language text other) : lexeme = other := by
  have shorter : lexeme.length ≤ other.length := h'.longest lexeme h.mem h.stands
  have longer : other.length ≤ lexeme.length := h.longest other h'.mem h'.stands
  have begins : lexeme <+: other := List.prefix_of_prefix_length_le h.stands h'.stands shorter
  exact begins.eq_of_length (Nat.le_antisymm shorter longer)

/-- The reader takes the longest text of the language wherever one stands, and refuses all other
texts. -/
structure ReadsLongest (language : Language Char) (read : List Char → Option Cut) : Prop where
  reads : ∀ text lexeme rest, read text = some (lexeme, rest) ↔
    IsLongest language text lexeme ∧ lexeme ++ rest = text
  refuses : ∀ text, read text = none ↔ ∀ lexeme ∈ language, ¬ lexeme <+: text

/-- A reader takes the longest texts if it reads no others and reads wherever a text of the
language stands. -/
theorem ReadsLongest.of_cuts {read : List Char → Option Cut}
    (sound : ∀ text lexeme rest, read text = some (lexeme, rest) →
      IsLongest language text lexeme ∧ lexeme ++ rest = text)
    (complete : ∀ text, ∀ lexeme ∈ language, lexeme <+: text → ∃ cut, read text = some cut) :
    ReadsLongest language read where
  reads text lexeme rest := by
    constructor
    · exact sound text lexeme rest
    · rintro ⟨longest, whole⟩
      obtain ⟨⟨found, after⟩, cut⟩ := complete text lexeme longest.mem longest.stands
      obtain ⟨foundLongest, same⟩ := sound text found after cut
      obtain rfl : found = lexeme := foundLongest.unique longest
      obtain rfl : after = rest := List.append_cancel_left (same.trans whole.symm)
      exact cut
  refuses text := by
    constructor
    · intro refused lexeme member stands
      obtain ⟨cut, found⟩ := complete text lexeme member stands
      rw [refused] at found
      cases found
    · intro none
      cases found : read text with
      | none => rfl
      | some cut =>
          have longest := (sound text cut.1 cut.2 found).1
          exact absurd longest.stands (none cut.1 longest.mem)

/-! ## Words one after another -/

variable {words : List String} {word : String}

/-- The texts of some words. -/
def languageOf (words : List String) : Language Char :=
  {lexeme | String.ofList lexeme ∈ words}

theorem not_prefix_of_exactly {expected : List Char} (h : exactly expected text = none) :
    ¬ expected <+: text := by
  rintro ⟨rest, whole⟩
  have read : exactly expected text = some (expected, rest) :=
    exactly_eq_some_iff.mpr ⟨rfl, whole.symm⟩
  rw [h] at read
  cases read

/-- Some word is read wherever one stands. -/
theorem exists_firstOf (member : word ∈ words) (stands : word.toList <+: text) :
    ∃ cut, firstOf words text = some cut := by
  induction words with
  | nil => cases member
  | cons first words ih =>
      rw [firstOf]
      split
      · next cut _ => exact ⟨cut, rfl⟩
      · next refused =>
          rcases List.mem_cons.mp member with rfl | member
          · exact absurd stands (not_prefix_of_exactly refused)
          · exact ih member

/-- Among words of descending length, the word that is read is no shorter than any word that
stands. -/
theorem length_le_of_firstOf (descending : words.Pairwise fun a b => b.length ≤ a.length)
    (h : firstOf words text = some (lexeme, rest)) (member : word ∈ words)
    (stands : word.toList <+: text) : word.length ≤ lexeme.length := by
  induction words with
  | nil => cases member
  | cons first words ih =>
      obtain ⟨shorter, later⟩ := List.pairwise_cons.mp descending
      rw [firstOf] at h
      split at h
      · -- the first word is read, and no later word is longer
        next cut found =>
          cases h
          rw [(exactly_eq_some_iff.mp found).1, String.length_toList]
          rcases List.mem_cons.mp member with rfl | member
          · exact Nat.le_refl _
          · exact shorter word member
      · -- the first word does not stand here, so it is not the one that does
        next refused =>
          rcases List.mem_cons.mp member with rfl | member
          · exact absurd stands (not_prefix_of_exactly refused)
          · exact ih later h member

/-- Words of descending length, tried one after another, give the longest of them. -/
theorem readsLongest_firstOf (descending : words.Pairwise fun a b => b.length ≤ a.length) :
    ReadsLongest (languageOf words) (firstOf words) := by
  apply ReadsLongest.of_cuts
  · intro text lexeme rest read
    have whole := firstOf_append read
    refine ⟨⟨mem_of_firstOf read, ⟨rest, whole⟩, ?_⟩, whole⟩
    intro other member stands
    rw [← String.toList_ofList (l := other)] at stands
    have bound := length_le_of_firstOf descending read member stands
    rwa [String.length_ofList] at bound
  · intro text lexeme member stands
    apply exists_firstOf member
    rwa [String.toList_ofList]

end Covenant.Lexeme
