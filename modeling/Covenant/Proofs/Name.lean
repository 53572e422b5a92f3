import Covenant.Name

/-!
# Numbers in names

In the cased renderings of a name its parts stand side by side without a divider, and casing
leaves numbers as they are. Two names with one base and number parts are therefore the same
exactly if the digits of their numbers run together into the same digits (`camel_ofParts_inj`).
For one number, and for a number followed by a digit, this happens only as decimal notation allows
(`toDigits_inj`, `toDigits_append_inj`, `toDigits_eq_append_iff`). The third rendering has an
underscore before each number, so all three together tell a name with numbers from a word that
spells the same (`ofParts_nil_ne_index`).
-/

set_option autoImplicit false

namespace Covenant

/-! ## Digits that run together -/

section Digits

variable {i j m n : Nat}

theorem toDigits_inj : Nat.toDigits 10 i = Nat.toDigits 10 j ↔ i = j := by
  constructor
  · intro h
    have read := congrArg (fun digits => Nat.ofDigitChars 10 digits 0) h
    simpa using read
  · rintro rfl
    rfl

theorem exists_toDigits (n : Nat) :
    ∃ first tail, Nat.toDigits 10 n = first :: tail ∧ first.isDigit = true := by
  cases digits : Nat.toDigits 10 n with
  | nil => exact absurd digits Nat.toDigits_ne_nil
  | cons first tail =>
      refine ⟨first, tail, rfl, ?_⟩
      exact Nat.isDigit_of_mem_toDigits (by decide) (by decide) (digits ▸ List.mem_cons_self)

/-- The digits of a number open with a zero only if it is zero. -/
theorem ne_zero_of_toDigits {first : Char} {tail : List Char} (positive : 0 < n)
    (digits : Nat.toDigits 10 n = first :: tail) : first ≠ '0' := by
  have single : ∀ digit < 10, 0 < digit → Nat.digitChar digit ≠ '0' := by decide
  induction n using Nat.strongRecOn generalizing tail with
  | ind n ih =>
      rcases Nat.lt_or_ge n 10 with small | large
      · rw [Nat.toDigits_of_lt_base small] at digits
        rw [← (List.cons.inj digits).1]
        exact single n small positive
      · -- the first digit is that of the number without its last one
        obtain ⟨front, more, opening, -⟩ := exists_toDigits (n / 10)
        rw [Nat.toDigits_of_base_le (by decide) large, opening, List.cons_append] at digits
        obtain rfl := (List.cons.inj digits).1
        exact ih (n / 10) (by omega) (by omega) opening

/-- A number and a digit after it make one number if the first number is not zero, and none if it
is. -/
theorem toDigits_eq_append_iff (digit : m < 10) :
    Nat.toDigits 10 j = Nat.toDigits 10 i ++ Nat.toDigits 10 m ↔ 0 < i ∧ j = 10 * i + m := by
  rcases Nat.eq_zero_or_pos i with rfl | positive
  · constructor
    · intro h
      rw [Nat.toDigits_zero, List.singleton_append] at h
      rcases Nat.eq_zero_or_pos j with rfl | positive
      · rw [Nat.toDigits_zero] at h
        exact absurd (List.cons.inj h).2.symm Nat.toDigits_ne_nil
      · exact absurd rfl (ne_zero_of_toDigits positive h)
    · rintro ⟨positive, -⟩
      cases positive
  · rw [Nat.toDigits_append_toDigits (by decide) positive digit, toDigits_inj]
    exact ⟨fun same => ⟨positive, same⟩, fun h => h.2⟩

/-- A digit after a number is told from the number. -/
theorem toDigits_append_inj (digitM : m < 10) (digitN : n < 10) :
    Nat.toDigits 10 i ++ Nat.toDigits 10 m = Nat.toDigits 10 j ++ Nat.toDigits 10 n ↔
      i = j ∧ m = n := by
  have lengths : (Nat.toDigits 10 m).length = (Nat.toDigits 10 n).length := by
    rw [Nat.toDigits_of_lt_base digitM, Nat.toDigits_of_lt_base digitN]
    rfl
  constructor
  · intro h
    obtain ⟨first, second⟩ := List.append_inj' h lengths
    exact ⟨toDigits_inj.mp first, toDigits_inj.mp second⟩
  · rintro ⟨rfl, rfl⟩
    rfl

theorem toList_toString_ofNat (n : Nat) : (toString (Int.ofNat n)).toList = Nat.toDigits 10 n := by
  show (toString n).toList = _
  simp

theorem toList_toString_negSucc (n : Nat) :
    (toString (Int.negSucc n)).toList = '-' :: Nat.toDigits 10 (n + 1) := by
  show ("-" ++ toString (n + 1)).toList = _
  simp

/-- An integer opens with its sign or with a digit. -/
theorem exists_toString_int (value : Int) :
    ∃ first tail, (toString value).toList = first :: tail ∧
      (first = '-' ∨ first.isDigit = true) := by
  cases value with
  | ofNat n =>
      obtain ⟨first, tail, digits, digit⟩ := exists_toDigits n
      exact ⟨first, tail, (toList_toString_ofNat n).trans digits, Or.inr digit⟩
  | negSucc n => exact ⟨'-', _, toList_toString_negSucc n, Or.inl rfl⟩

end Digits

/-! ## Cased numbers -/

namespace Text

theorem toUpper_of_isDigit {c : Char} (h : c.isDigit = true) : c.toUpper = c := by
  simp only [Char.isDigit, Bool.and_eq_true, decide_eq_true_eq, ge_iff_le,
    UInt32.le_iff_toNat_le] at h
  have nine : '9'.val.toNat = 57 := rfl
  have small : 'a'.val.toNat = 97 := rfl
  have notSmall : ¬ ('a'.val ≤ c.val ∧ c.val ≤ 'z'.val) := by
    rw [UInt32.le_iff_toNat_le]
    omega
  unfold Char.toUpper
  exact dif_neg notSmall

/-- Casing leaves an integer as it is. -/
theorem upperFirst_toString_int (value : Int) : upperFirst (toString value) = toString value := by
  obtain ⟨c, rest, written, opening⟩ := exists_toString_int value
  have kept : upper c = [c] := by
    rcases opening with rfl | digit
    · decide
    · have ascii : c.toNat < 0x80 := toNat_lt_of_isAlphanum (by simp [Char.isAlphanum, digit])
      rw [upper_of_ascii ascii, toUpper_of_isDigit digit]
  rw [upperFirst, written]
  simp only [kept]
  rw [← String.toList_inj, String.toList_ofList, written]
  rfl

/-- Casing leaves a number as it is. -/
theorem upperFirst_toString (n : Nat) : upperFirst (toString n) = toString n :=
  upperFirst_toString_int (Int.ofNat n)

/-- Only the first character is cased. -/
theorem lowerFirst_append {front : String} (proper : front ≠ "") (back : String) :
    lowerFirst (front ++ back) = lowerFirst front ++ back := by
  rw [lowerFirst, lowerFirst, String.toList_append]
  cases found : front.toList with
  | nil => exact absurd (String.toList_eq_nil_iff.mp found) proper
  | cons c rest => simp [← String.toList_inj]

end Text

namespace Name

/-- Numbers as parts of a name. -/
def numbers (values : List Nat) : List Part :=
  values.map fun value : Nat => .index value

/-- The cased form of numbers is their digits, one after the other. -/
theorem toList_cased_numbers (values : List Nat) :
    (cased (numbers values)).toList = values.flatMap (Nat.toDigits 10) := by
  have texts : (numbers values).map (fun part => Text.upperFirst part.text)
      = values.map fun value => toString value := by
    rw [numbers, List.map_map]
    exact List.map_congr_left fun value _ => Text.upperFirst_toString value
  rw [cased, texts, String.toList_join, List.flatMap_map]
  simp only [Nat.toString_eq_ofList_toDigits, String.toList_ofList]

/-- Numbers look the same in cased form exactly if their digits run together into the same
digits. -/
theorem cased_numbers_inj (values others : List Nat) :
    cased (numbers values) = cased (numbers others) ↔
      values.flatMap (Nat.toDigits 10) = others.flatMap (Nat.toDigits 10) := by
  rw [← String.toList_inj, toList_cased_numbers, toList_cased_numbers]

/-- Names with one base and number parts are the same in camel case exactly if the digits of the
numbers run together into the same digits. -/
theorem camel_ofParts_inj (base : String) (values others : List Nat) :
    (ofParts base (numbers values)).camel = (ofParts base (numbers others)).camel ↔
      values.flatMap (Nat.toDigits 10) = others.flatMap (Nat.toDigits 10) := by
  rw [ofParts, ofParts, String.append_right_inj, cased_numbers_inj]

theorem pascal_ofParts_inj (base : String) (values others : List Nat) :
    (ofParts base (numbers values)).pascal = (ofParts base (numbers others)).pascal ↔
      values.flatMap (Nat.toDigits 10) = others.flatMap (Nat.toDigits 10) := by
  rw [ofParts, ofParts, String.append_right_inj, cased_numbers_inj]

/-! ## Words and numbered names -/

@[simp] theorem underscored_nil (base : String) : underscored base [] = base :=
  String.intercalate_singleton

theorem underscored_cons (base : String) (part : Part) (parts : List Part) :
    underscored base (part :: parts) = base ++ ("_" ++ underscored part.text parts) := by
  rw [underscored, List.map_cons, String.intercalate_cons_cons, String.append_assoc, underscored]

/-- A word is never a name whose first part is a number. If they agree in the third rendering,
then after the base the word goes on with an underscore where the second rendering of the name has
a digit or a sign. -/
theorem ofParts_nil_ne_index {base : String} (proper : base ≠ "") (word : String) (value : Int)
    (more : List Part) : ofParts word [] ≠ ofParts base (.index value :: more) := by
  intro same
  have snake : word = base ++ ("_" ++ underscored (toString value) more) :=
    calc word = underscored word [] := (underscored_nil word).symm
      _ = underscored base (.index value :: more) := congrArg Name.snake same
      _ = _ := underscored_cons base _ _
  have camel : Text.lowerFirst word ++ ""
      = Text.lowerFirst base ++ (Text.upperFirst (toString value) ++ cased more) :=
    calc _ = Text.lowerFirst base ++ cased (.index value :: more) := congrArg Name.camel same
      _ = _ := by simp [cased, Part.text, String.join_cons]
  rw [String.append_empty, snake, Text.lowerFirst_append proper, String.append_right_inj,
    Text.upperFirst_toString_int, ← String.toList_inj, String.toList_append,
    String.toList_append] at camel
  obtain ⟨c, rest, written, opening⟩ := exists_toString_int value
  rw [written, List.cons_append] at camel
  have underscore : '_' = c := (List.cons.inj camel).1
  rw [← underscore] at opening
  rcases opening with sign | digit
  · exact absurd sign (by decide)
  · exact absurd digit (by decide)

end Name

end Covenant
