/-!
# Readers of lexemes

A reader takes a lexeme from the head of a text and leaves the rest, or refuses the text.
-/

set_option autoImplicit false

namespace Covenant

/-- A lexeme and the text after it. -/
abbrev Cut : Type := List Char × List Char

namespace Lexeme

/-- The given text, character for character; nothing is asked of what follows. -/
def exactly (expected text : List Char) : Option Cut :=
  match expected, text with
  | [], rest => some ([], rest)
  | _ :: _, [] => none
  | e :: expected, c :: rest =>
      if e == c then (exactly expected rest).map fun cut => (c :: cut.1, cut.2) else none

/-- One character of each class, in order. -/
def following (classes : List (Char → Bool)) (text : List Char) : Option Cut :=
  match classes, text with
  | [], rest => some ([], rest)
  | _ :: _, [] => none
  | accepts :: classes, c :: rest =>
      if accepts c then (following classes rest).map fun cut => (c :: cut.1, cut.2) else none

/-- At least one character of the class, and as many as there are. -/
def run (accepts : Char → Bool) (text : List Char) : Option Cut :=
  match text.takeWhile accepts with
  | [] => none
  | lexeme => some (lexeme, text.dropWhile accepts)

/-- The first of the words that stands at the head of the text. -/
def firstOf : (words : List String) → (text : List Char) → Option Cut
  | [], _ => none
  | word :: words, text =>
      match exactly word.toList text with
      | some cut => some cut
      | none => firstOf words text

/-- The exact text is read iff the text starts with it, and the rest is what follows. -/
theorem exactly_eq_some_iff {expected text lexeme rest : List Char} :
    exactly expected text = some (lexeme, rest) ↔
      lexeme = expected ∧ text = expected ++ rest := by
  induction expected generalizing text lexeme with
  | nil =>
      simp only [exactly, Option.some.injEq, Prod.mk.injEq, List.nil_append]
      exact ⟨fun h => ⟨h.1.symm, h.2⟩, fun h => ⟨h.1.symm, h.2⟩⟩
  | cons e expected ih =>
      cases text with
      | nil => simp [exactly]
      | cons c text =>
          by_cases same : e = c
          · subst same
            simp only [exactly, beq_self_eq_true, if_true, Option.map_eq_some_iff, Prod.exists,
              Prod.mk.injEq, List.cons_append, List.cons.injEq, true_and]
            constructor
            · rintro ⟨a, b, h, rfl, rfl⟩
              obtain ⟨rfl, rfl⟩ := ih.mp h
              exact ⟨rfl, rfl⟩
            · rintro ⟨rfl, rfl⟩
              exact ⟨expected, rest, ih.mpr ⟨rfl, rfl⟩, rfl, rfl⟩
          · simp only [exactly, beq_iff_eq, same, if_false, List.cons_append, List.cons.injEq]
            constructor
            · intro h
              cases h
            · rintro ⟨_, h, _⟩
              exact absurd h.symm same

/-! ## Nothing is lost -/

theorem following_append {classes : List (Char → Bool)} {text lexeme rest : List Char}
    (h : following classes text = some (lexeme, rest)) : lexeme ++ rest = text := by
  induction classes generalizing text lexeme with
  | nil =>
      cases h
      rfl
  | cons accepts classes ih =>
      cases text with
      | nil => cases h
      | cons c text =>
          rw [following] at h
          split at h
          · obtain ⟨⟨a, b⟩, cut, same⟩ := Option.map_eq_some_iff.mp h
            cases same
            rw [List.cons_append, ih cut]
          · cases h

theorem run_append {accepts : Char → Bool} {text lexeme rest : List Char}
    (h : run accepts text = some (lexeme, rest)) : lexeme ++ rest = text := by
  unfold run at h
  split at h
  · cases h
  · cases h
    exact List.takeWhile_append_dropWhile

theorem firstOf_append {words : List String} {text lexeme rest : List Char}
    (h : firstOf words text = some (lexeme, rest)) : lexeme ++ rest = text := by
  induction words with
  | nil => cases h
  | cons word words ih =>
      rw [firstOf] at h
      split at h
      · next cut found =>
          cases h
          obtain ⟨same, split⟩ := exactly_eq_some_iff.mp found
          rw [same, split]
      · exact ih h

end Lexeme

end Covenant
