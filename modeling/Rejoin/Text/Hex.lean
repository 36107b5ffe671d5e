/-!
# Hexadecimal digits

* `hexDigits n`, `hexByte b` — lower-case digits, as few as a number needs and two for a byte;
* `hexValue? c` — the number that a digit of either case stands for (`hexValue?_hexDigit`).
-/

namespace Rejoin.Text

/-- The digit of a number below sixteen. -/
def hexDigit (n : Nat) : Char := Char.ofNat (if n < 10 then 48 + n else 87 + n)

/-- The digits of `n`, as few as it needs. -/
def hexDigits (n : Nat) : List Char := Nat.toDigits 16 n

def hexByte (b : UInt8) : List Char := [hexDigit (b.toNat / 16), hexDigit (b.toNat % 16)]

/-- The number a hexadecimal digit of either case stands for. -/
def hexValue? (c : Char) : Option Nat :=
  if c.isDigit then some (c.toNat - 48)
  else if 'a' ≤ c ∧ c ≤ 'f' then some (c.toNat - 87)
  else if 'A' ≤ c ∧ c ≤ 'F' then some (c.toNat - 55)
  else none

@[simp] theorem length_hexByte (b : UInt8) : (hexByte b).length = 2 := rfl

/-- A digit is read back as the number it was written for. -/
theorem hexValue?_hexDigit : ∀ n < 16, hexValue? (hexDigit n) = some n := by decide

example : hexByte 0x0a = ['0', 'a'] := by decide

end Rejoin.Text
