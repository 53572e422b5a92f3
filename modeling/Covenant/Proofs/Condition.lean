import Covenant.Condition
import Covenant.Proofs.Grammar.Prediction
import Covenant.Proofs.Grammar.Shape

/-!
# What operands stand for

An operand is classified by its text. The lexeme classes of numbers, strings and identifiers open
with different characters, so the class of a leaf decides: a number stays as it is written
(`Operand.ofText_of_number`), an identifier names a variable (`Operand.ofText_of_identifier`), and
a string is named after its place (`Operand.ofText_of_string`).
-/

set_option autoImplicit false

namespace Covenant

/-! ## Numbers by how they open -/

namespace Lexeme

variable {text : String}

theorem isNumber_of_isNumeral (h : IsNumeral text.toList) : isNumber text = true := by
  have read := number_append_of_stop h (Text.opensWith_nil _)
  rw [List.append_nil] at read
  rw [isNumber, read]

theorem isNumeral_of_isNumber (h : isNumber text = true) : IsNumeral text.toList := by
  unfold isNumber at h
  split at h
  · next lexeme read =>
      have whole := number_append read
      rw [List.append_nil] at whole
      rw [← whole]
      exact isNumeral_of_number read
  · cases h

/-- A text that opens as no number does is none. -/
theorem not_isNumber_of_opensWith {accepts : Char → Bool}
    (h : Text.opensWith accepts text.toList = true)
    (apart : ∀ c, accepts c = true → Terminal.number.opens c = false) : isNumber text = false := by
  cases found : isNumber text with
  | false => rfl
  | true =>
      obtain ⟨c, tail, same, opens⟩ :=
        Text.exists_cons_of_opensWith (opensWith_of_isNumeral (isNumeral_of_isNumber found))
      rw [same, Text.opensWith_cons] at h
      rw [show (isSign c || Text.isDecimalDigit c) = false from apart c h] at opens
      cases opens

theorem opensQuotation_eq (text : String) :
    opensQuotation text = Text.opensWith Vocabulary.quotes.contains text.toList := by
  unfold opensQuotation
  cases text.toList <;> rfl

/-- A text in quotes is no number. -/
theorem not_isNumber_of_opensQuotation (h : opensQuotation text = true) :
    isNumber text = false := by
  rw [opensQuotation_eq] at h
  exact not_isNumber_of_opensWith h fun _ => Terminal.not_opens_number_of_opens_string

theorem not_isNumber_of_isIdentifier (h : IsIdentifier text.toList) : isNumber text = false :=
  not_isNumber_of_opensWith (opensWith_of_isIdentifier h)
    fun _ => Terminal.not_opens_number_of_opens_identifier

theorem not_opensQuotation_of_isIdentifier (h : IsIdentifier text.toList) :
    opensQuotation text = false := by
  obtain ⟨c, tail, same, opens⟩ := Text.exists_cons_of_opensWith (opensWith_of_isIdentifier h)
  rw [opensQuotation_eq, same, Text.opensWith_cons]
  exact Terminal.not_opens_string_of_opens_identifier opens

end Lexeme

/-! ## Operands -/

namespace Operand

variable {tree : Tree}

/-- A quoted operand is named after its place. -/
theorem ofText_of_opensQuotation {text : String} (h : Lexeme.opensQuotation text = true)
    (index side : Int) (type : String) :
    ofText text index side type
      = .reference
          ⟨Name.ofParts Vocabulary.messageContentTag [.index index, .index side], type⟩ := by
  rw [ofText, if_neg (by simp [Lexeme.not_isNumber_of_opensQuotation h]), if_pos h]

theorem ofText_of_number (made : Terminal.number.Makes tree) (index side : Int) (type : String) :
    ofText tree.text index side type = .literal tree.text :=
  if_pos (Lexeme.isNumber_of_isNumeral made.accepts)

theorem ofText_of_string (made : Terminal.string.Makes tree) (index side : Int) (type : String) :
    ofText tree.text index side type
      = .reference
          ⟨Name.ofParts Vocabulary.messageContentTag [.index index, .index side], type⟩ := by
  apply ofText_of_opensQuotation
  rw [Lexeme.opensQuotation_eq]
  exact Lexeme.opensWith_of_isQuotation made.accepts

theorem ofText_of_identifier (made : Terminal.identifier.Makes tree) (index side : Int)
    (type : String) :
    ofText tree.text index side type = .reference ⟨Name.ofParts tree.text [], type⟩ := by
  obtain ⟨identifier, -⟩ : Lexeme.IsFreeIdentifier tree.text.toList := made.accepts
  rw [ofText, if_neg (by simp [Lexeme.not_isNumber_of_isIdentifier identifier]),
    if_neg (by simp [Lexeme.not_opensQuotation_of_isIdentifier identifier])]

end Operand

/-! ## Conditions -/

theorem Condition.ofTree_of_presence {node : Tree} (h : node.testsPresence = .ok true)
    (index : Int) :
    ofTree node index = .ok (.presence
      ⟨Name.ofParts Vocabulary.messageContentTag [.index index], Vocabulary.booleanType⟩) := by
  rw [ofTree, h]
  rfl

end Covenant
