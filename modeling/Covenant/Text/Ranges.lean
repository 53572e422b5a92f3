/-!
# Ranges of code points

A character property given as a list of closed intervals of code points. The properties that are
given so concern characters outside ASCII; on ASCII they are spelled out.
-/

set_option autoImplicit false

namespace Covenant.Text

/-- Closed intervals of code points, in ascending order. -/
abbrev Ranges : Type := List (Nat × Nat)

/-- The character lies in one of the intervals. -/
def Ranges.has (ranges : Ranges) (c : Char) : Bool :=
  ranges.any fun range => range.1 ≤ c.toNat && c.toNat ≤ range.2

/-- Membership, read as a statement about one interval. -/
theorem Ranges.has_iff (ranges : Ranges) (c : Char) :
    ranges.has c = true ↔ ∃ range ∈ ranges, range.1 ≤ c.toNat ∧ c.toNat ≤ range.2 := by
  simp [Ranges.has]

/-- What holds of the first 128 characters one by one holds of every ASCII character. -/
theorem of_ascii (holds : Char → Prop) (all : ∀ code < 0x80, holds (Char.ofNat code)) {c : Char}
    (ascii : c.toNat < 0x80) : holds c := by
  have found := all c.toNat ascii
  rwa [Char.ofNat_toNat] at found

/-- The letters and digits of the standard library are ASCII. -/
theorem toNat_lt_of_isAlphanum {c : Char} (h : c.isAlphanum = true) : c.toNat < 0x80 := by
  unfold Char.isAlphanum Char.isAlpha Char.isUpper Char.isLower Char.isDigit at h
  simp only [Bool.or_eq_true, Bool.and_eq_true, decide_eq_true_eq, ge_iff_le,
    UInt32.le_iff_toNat_le] at h
  change c.val.toNat < 0x80
  rcases h with (⟨_, h⟩ | ⟨_, h⟩) | ⟨_, h⟩
  · exact Nat.lt_of_le_of_lt h (by decide)
  · exact Nat.lt_of_le_of_lt h (by decide)
  · exact Nat.lt_of_le_of_lt h (by decide)

end Covenant.Text
