/-!
# Digits

Values of digits and of digit sequences in bases up to sixteen.

Main results:

- `digitValue?` and `digits?` read one digit and a sequence in a given base.
- `decimalValue` is the number that decimal digits denote.
-/

namespace CacheMeter.Text

/-- The value of a digit or of a letter that serves as one up to base sixteen. -/
def digitValue? (c : Char) : Option Nat :=
  if c.isDigit then some (c.toNat - '0'.toNat)
  else if 'a' ≤ c ∧ c ≤ 'f' then some (c.toNat - 'a'.toNat + 10)
  else if 'A' ≤ c ∧ c ≤ 'F' then some (c.toNat - 'A'.toNat + 10)
  else none

/-- The number that digits denote in a base; at least one digit is needed. -/
def digits? (base : Nat) (digits : List Char) : Option Nat :=
  if digits.isEmpty then none
  else
    digits.foldlM (fun value c => do
      let digit ← digitValue? c
      if digit < base then some (value * base + digit) else none) 0

/-- The number that decimal digits denote; other characters count as zero. -/
def decimalValue (digits : List Char) : Nat :=
  digits.foldl (fun value c => value * 10 + (digitValue? c).getD 0) 0

end CacheMeter.Text
