/-!
# Hexadecimal numerals of fixed width

Lower-case, most significant digit first, padded with zeros. Numbers that need more digits lose
their upper ones, so callers choose the width by the number's range.
-/

set_option autoImplicit false

namespace Covenant.Text

/-- The digit for a value below sixteen. -/
def hexDigit (value : Nat) : Char :=
  if value < 10 then Char.ofNat (0x30 + value) else Char.ofNat (0x57 + value)

/-- The last `width` hexadecimal digits of a number. -/
def hex : (width : Nat) → (value : Nat) → List Char
  | 0, _ => []
  | width + 1, value => hex width (value / 16) ++ [hexDigit (value % 16)]

/-- A numeral has the width asked for. -/
@[simp] theorem length_hex (width value : Nat) : (hex width value).length = width := by
  induction width generalizing value with
  | zero => rfl
  | succ width ih => simp [hex, ih]

end Covenant.Text
