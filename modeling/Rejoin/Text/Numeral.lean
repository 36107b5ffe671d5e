/-!
# Decimal numerals

* `numeral? limit cs` — the number that `cs` denotes: one optional plus sign, one or more ASCII digits, and a value
  of `limit` at most;
* `numeral?_toString` — what a number is written as is read back, with or without a sign;
* `padded width n` — digits with zeros in front, for dates and clock times.
-/

namespace Rejoin.Text

/-- The value of a run of decimal digits, most significant first. -/
def digitsValue (cs : List Char) : Nat := Nat.ofDigitChars 10 cs 0

@[simp] theorem digitsValue_toString (n : Nat) : digitsValue (toString n).toList = n := by
  simp [digitsValue, Nat.toString_eq_repr, Nat.toList_repr, Nat.ofDigitChars_toDigits]

theorem all_isDigit_toString (n : Nat) : (toString n).toList.all Char.isDigit = true := by
  rw [Nat.toString_eq_repr, Nat.toList_repr, List.all_eq_true]
  exact fun _ h => Nat.isDigit_of_mem_toDigits (by decide) (by decide) h

theorem toList_toString_ne_nil (n : Nat) : (toString n).toList ≠ [] := by
  rw [Nat.toString_eq_repr, Nat.toList_repr]
  exact Nat.toDigits_ne_nil

/-- Strips one plus sign. -/
def dropPlus : List Char → List Char
  | '+' :: r => r
  | cs => cs

theorem dropPlus_of_isDigit {c : Char} {cs : List Char} (h : c.isDigit = true) : dropPlus (c :: cs) = c :: cs := by
  unfold dropPlus
  split
  next he => cases he; exact absurd h (by decide)
  next => rfl

/-- The number a numeral denotes, if it is one and at most `limit`. -/
def numeral? (limit : Nat) (cs : List Char) : Option Nat :=
  let ds := dropPlus cs
  if ds ≠ [] ∧ ds.all Char.isDigit ∧ digitsValue ds ≤ limit then some (digitsValue ds) else none

/-- A number within the bound is read back from its digits. -/
theorem numeral?_toString {limit n : Nat} (h : n ≤ limit) : numeral? limit (toString n).toList = some n := by
  have hd := all_isDigit_toString n
  have hv := digitsValue_toString n
  cases hc : (toString n).toList with
  | nil => exact absurd hc (toList_toString_ne_nil n)
  | cons c cs =>
    rw [hc] at hd hv
    have h1 : c.isDigit = true := by simp at hd; exact hd.1
    simp only [numeral?, dropPlus_of_isDigit h1, hv]
    simp [hd, h]

/-! ### Padding -/

/-- Decimal digits of `n`, zeros in front up to `width`. -/
def padded (width n : Nat) : String :=
  let ds := toString n
  String.ofList (List.replicate (width - ds.length) '0') ++ ds

example : numeral? 100 "+007".toList = some 7 := by decide
example : numeral? 100 "101".toList = none := by decide
example : numeral? 100 "+".toList = none := by decide
example : padded 4 33 = "0033" := by decide

end Rejoin.Text
