/-!
# White space

* `isBlank c` — `c` has the Unicode property White_Space;
* `trim` — blanks off both ends; what is left starts and ends with no blank (`trimLeft_head?`).
-/

namespace Rejoin.Text

/-- `c` has the property White_Space. -/
def isBlank (c : Char) : Bool :=
  let n := c.toNat
  (9 ≤ n && n ≤ 13) || n == 0x20 || n == 0x85 || n == 0xA0 || n == 0x1680
    || (0x2000 ≤ n && n ≤ 0x200A) || n == 0x2028 || n == 0x2029 || n == 0x202F || n == 0x205F
    || n == 0x3000

/-- Every blank of ASCII that the core library knows is a blank. -/
theorem isBlank_of_isWhitespace {c : Char} (h : c.isWhitespace = true) : isBlank c = true := by
  simp only [Char.isWhitespace, Bool.or_eq_true, decide_eq_true_eq] at h
  rcases h with ((rfl | rfl) | rfl) | rfl <;> decide

/-- No digit is a blank. -/
theorem isBlank_of_isDigit {c : Char} (h : c.isDigit = true) : isBlank c = false := by
  simp only [Char.isDigit, Bool.and_eq_true, decide_eq_true_eq, ge_iff_le, UInt32.le_iff_toNat_le] at h
  have h1 : 48 ≤ c.toNat ∧ c.toNat ≤ 57 := h
  simp only [isBlank, Bool.or_eq_false_iff, Bool.and_eq_false_iff, decide_eq_false_iff_not, beq_eq_false_iff_ne]
  omega

/-! ### Trimming -/

def trimLeft (cs : List Char) : List Char := cs.dropWhile isBlank

def trimRight (cs : List Char) : List Char := (cs.reverse.dropWhile isBlank).reverse

def trim (cs : List Char) : List Char := trimRight (trimLeft cs)

/-- What a trimmed text starts with is no blank. -/
theorem trimLeft_head? (cs : List Char) : ((trimLeft cs).head?.all fun c => !isBlank c) = true := by
  have h := List.head?_dropWhile_not isBlank cs
  revert h
  unfold trimLeft
  cases (cs.dropWhile isBlank).head? <;> simp

@[simp] theorem trim_nil : trim [] = [] := rfl

example : trim " 　a b\x0b".toList = "a b".toList := by decide

end Rejoin.Text
