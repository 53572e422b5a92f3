/-!
# Runs of a case mapping

A case mapping is a table: characters that expand to several, and runs of characters that are
shifted by one offset. A run takes every character between its ends, or every second one where
capital and small letters alternate.
-/

set_option autoImplicit false

namespace Covenant.Text

/-- Characters `first`, `first + step`, …, `last`, which map to `target`, `target + step`, … -/
structure CaseRun where
  first : Nat
  last : Nat
  step : Nat
  target : Nat

/-- The run maps this code point. -/
def CaseRun.covers (run : CaseRun) (code : Nat) : Bool :=
  run.first ≤ code && code ≤ run.last && (code - run.first) % run.step == 0

/-- The form of a character under a case mapping; a character in no row of the table stays as it
is. -/
def mapCase (expansions : List (Nat × List Nat)) (runs : List CaseRun) (c : Char) : List Char :=
  match expansions.lookup c.toNat with
  | some codes => codes.map Char.ofNat
  | none =>
      match runs.find? (·.covers c.toNat) with
      | some run => [Char.ofNat (run.target + (c.toNat - run.first))]
      | none => [c]

end Covenant.Text
