/-!
# Hexadecimal digits

Escapes write and read numbers in base sixteen: a fixed count of digits, in lower case when written
and in either case when read.
-/

namespace ContractAudit.Text

/-- The last `width` digits of `n` in base sixteen. -/
def hexDigits : Nat → Nat → List Char
  | 0, _ => []
  | width + 1, n => hexDigits width (n / 16) ++ [Nat.digitChar (n % 16)]

/-- The value of the digit with the code point `n`. -/
def hexDigit? (n : Nat) : Option Nat :=
  if 0x30 ≤ n ∧ n ≤ 0x39 then some (n - 0x30)
  else if 0x41 ≤ n ∧ n ≤ 0x46 then some (n - 0x37)
  else if 0x61 ≤ n ∧ n ≤ 0x66 then some (n - 0x57)
  else none

end ContractAudit.Text
