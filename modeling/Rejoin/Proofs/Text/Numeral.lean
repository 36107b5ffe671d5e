import Mathlib.Data.List.DropRight
import Mathlib.Data.List.Induction
import Rejoin.Text.Blank
import Rejoin.Text.Numeral

/-!
# Numerals between blanks

What is read of a number is told without the functions that read it.

* `Framed` — a text between blanks; `trim_eq_iff` — it is what trimming leaves;
* `Digits`, `IsNumeral` — numerals, and the numbers that they denote; `numeral?_eq_some_iff` — those within a bound are
  read, and nothing else is;
* `spelled` — a number with zeros and a plus sign in front, between blanks; `isNumeral_spelled` — it is read as that
  number.
-/

namespace Rejoin.Text

variable {cs core : List Char} {n : Nat}

/-! ### Blanks around a text -/

def Blank (cs : List Char) : Prop := ∀ c ∈ cs, isBlank c = true

/-- The first text has blanks around the second one, which begins and ends with none. -/
structure Framed (cs core : List Char) : Prop where
  frame : ∃ l r, Blank l ∧ Blank r ∧ cs = l ++ core ++ r
  head? : ∀ c ∈ core.head?, isBlank c = false
  getLast? : ∀ c ∈ core.getLast?, isBlank c = false

theorem trimLeft_append {l : List Char} (hl : Blank l) (cs : List Char) : trimLeft (l ++ cs) = trimLeft cs :=
  List.dropWhile_append_of_pos hl

theorem trimRight_append {r : List Char} (hr : Blank r) (cs : List Char) : trimRight (cs ++ r) = trimRight cs := by
  have hrev : ∀ c ∈ r.reverse, isBlank c = true := fun c hc => hr c (List.mem_reverse.mp hc)
  rw [trimRight, List.reverse_append, List.dropWhile_append_of_pos hrev, ← trimRight]

theorem trimLeft_of_head? (h : ∀ c ∈ cs.head?, isBlank c = false) : trimLeft cs = cs := by
  cases cs with
  | nil => rfl
  | cons c cs =>
    have hc : ¬ isBlank c = true := by simp [h c rfl]
    exact List.dropWhile_cons_of_neg hc

theorem trimRight_of_getLast? (h : ∀ c ∈ cs.getLast?, isBlank c = false) : trimRight cs = cs := by
  rw [← List.head?_reverse] at h
  have hrev : trimLeft cs.reverse = cs.reverse := trimLeft_of_head? h
  rw [trimRight, ← trimLeft, hrev, List.reverse_reverse]

theorem trim_of_framed (h : Framed cs core) : trim cs = core := by
  obtain ⟨⟨l, r, hl, hr, rfl⟩, hhead, hlast⟩ := h
  rw [trim, List.append_assoc, trimLeft_append hl]
  by_cases hcore : core = []
  · -- the blanks at the front and those at the end meet
    have hnone : trimLeft r = [] := List.dropWhile_eq_nil_iff.mpr hr
    rw [hcore, List.nil_append, hnone]
    rfl
  · have hleft : trimLeft (core ++ r) = core ++ r := by
      refine trimLeft_of_head? ?_
      rwa [List.head?_append_of_ne_nil _ hcore]
    rw [hleft, trimRight_append hr, trimRight_of_getLast? hlast]

theorem not_blank_of_mem_head? {c : Char} (h : c ∈ (trimLeft cs).head?) : isBlank c = false := by
  have hfirst := trimLeft_head? cs
  rw [h] at hfirst
  simpa using hfirst

theorem framed_trim (cs : List Char) : Framed cs (trim cs) where
  frame := by
    have hright : trim cs ++ (trimLeft cs).rtakeWhile isBlank = trimLeft cs := List.rdropWhile_append_rtakeWhile
    refine ⟨cs.takeWhile isBlank, (trimLeft cs).rtakeWhile isBlank, ?_, ?_, ?_⟩
    · exact fun c hc => List.mem_takeWhile_imp hc
    · exact fun c hc => List.mem_rtakeWhile_imp hc
    · rw [List.append_assoc, hright]
      exact List.takeWhile_append_dropWhile.symm
  head? := by
    intro c hc
    have hright : trim cs ++ (trimLeft cs).rtakeWhile isBlank = trimLeft cs := List.rdropWhile_append_rtakeWhile
    have hmem : c ∈ (trimLeft cs).head? := by
      rw [← hright, List.head?_append, hc]
      rfl
    exact not_blank_of_mem_head? hmem
  getLast? := by
    intro c hc
    rw [trim, trimRight, List.getLast?_reverse] at hc
    exact not_blank_of_mem_head? hc

theorem trim_eq_iff : trim cs = core ↔ Framed cs core :=
  ⟨fun h => h ▸ framed_trim cs, trim_of_framed⟩

theorem trim_eq_nil_iff : trim cs = [] ↔ Blank cs := by
  rw [trim_eq_iff]
  constructor
  · rintro ⟨⟨l, r, hl, hr, rfl⟩, -, -⟩ c hc
    rw [List.append_nil, List.mem_append] at hc
    exact hc.elim (hl c) (hr c)
  · exact fun h => ⟨⟨cs, [], h, nofun, by simp⟩, nofun, nofun⟩

/-! ### Numerals -/

/-- A run of decimal digits, and the number that it denotes. -/
inductive Digits : List Char → Nat → Prop
  | one {c : Char} : c.isDigit = true → Digits [c] (c.toNat - 48)
  | more {cs : List Char} {n : Nat} {c : Char} : Digits cs n → c.isDigit = true →
      Digits (cs ++ [c]) (10 * n + (c.toNat - 48))

/-- A run of digits, with a plus sign or without one. -/
inductive IsNumeral : List Char → Nat → Prop
  | bare {cs : List Char} {n : Nat} : Digits cs n → IsNumeral cs n
  | plus {cs : List Char} {n : Nat} : Digits cs n → IsNumeral ('+' :: cs) n

theorem digitsValue_singleton (c : Char) : digitsValue [c] = c.toNat - 48 := by simp [digitsValue, Nat.ofDigitChars]

theorem digitsValue_concat (cs : List Char) (c : Char) :
    digitsValue (cs ++ [c]) = 10 * digitsValue cs + (c.toNat - 48) :=
  Nat.ofDigitChars_append 0

theorem digits_iff : Digits cs n ↔ cs ≠ [] ∧ cs.all Char.isDigit = true ∧ digitsValue cs = n := by
  constructor
  · intro h
    induction h with
    | one hc => exact ⟨List.cons_ne_nil _ _, by simp [hc], digitsValue_singleton _⟩
    | more _ hc ih =>
      obtain ⟨-, hall, rfl⟩ := ih
      exact ⟨by simp, by simp [hall, hc], digitsValue_concat _ _⟩
  · rintro ⟨hne, hall, rfl⟩
    induction cs using List.reverseRecOn with
    | nil => exact absurd rfl hne
    | append_singleton cs c ih =>
      rw [List.all_append, Bool.and_eq_true] at hall
      obtain ⟨hcs, hc⟩ := hall
      have hdigit : c.isDigit = true := by simpa using hc
      by_cases hnil : cs = []
      · rw [hnil, List.nil_append, digitsValue_singleton]
        exact .one hdigit
      · rw [digitsValue_concat]
        exact .more (ih hnil hcs) hdigit

theorem Digits.dropPlus_eq (h : Digits cs n) : dropPlus cs = cs := by
  obtain ⟨hne, hall, -⟩ := digits_iff.mp h
  obtain ⟨c, r, rfl⟩ := List.exists_cons_of_ne_nil hne
  rw [List.all_cons, Bool.and_eq_true] at hall
  exact dropPlus_of_isDigit hall.1

theorem isNumeral_iff : IsNumeral cs n ↔ Digits (dropPlus cs) n := by
  constructor
  · rintro (h | h)
    · rwa [h.dropPlus_eq]
    · exact h
  · intro h
    unfold dropPlus at h
    split at h
    next r => exact .plus h
    next => exact .bare h

theorem IsNumeral.unique {m : Nat} (hm : IsNumeral cs m) (hn : IsNumeral cs n) : m = n := by
  rw [isNumeral_iff, digits_iff] at hm hn
  exact hm.2.2.symm.trans hn.2.2

/-- Numerals within the bound are read, and nothing else is. -/
theorem numeral?_eq_some_iff {limit : Nat} : numeral? limit cs = some n ↔ IsNumeral cs n ∧ n ≤ limit := by
  rw [isNumeral_iff, digits_iff]
  simp only [numeral?, Option.ite_none_right_eq_some, Option.some.injEq]
  constructor
  · rintro ⟨⟨hne, hall, hle⟩, rfl⟩
    exact ⟨⟨hne, hall, rfl⟩, hle⟩
  · rintro ⟨⟨hne, hall, rfl⟩, hle⟩
    exact ⟨⟨hne, hall, hle⟩, rfl⟩

/-! ### Spellings -/

/-- A number with some zeros in front of it, with a plus sign or without one, and between blanks. -/
def spelled (l : List Char) (plus : Bool) (zeros n : Nat) (r : List Char) : String :=
  String.ofList (l ++ ((if plus then ['+'] else []) ++ (List.replicate zeros '0' ++ (toString n).toList)) ++ r)

theorem digits_zeros (zeros n : Nat) : Digits (List.replicate zeros '0' ++ (toString n).toList) n := by
  refine digits_iff.mpr ⟨List.append_ne_nil_of_right_ne_nil _ (toList_toString_ne_nil n), ?_, ?_⟩
  · rw [List.all_append, all_isDigit_toString, Bool.and_true, List.all_replicate]
    split <;> rfl
  · rw [digitsValue, Nat.ofDigitChars_append, Nat.ofDigitChars_replicate_zero, Nat.mul_zero, ← digitsValue,
      digitsValue_toString]

theorem not_blank_of_isNumeral (h : IsNumeral cs n) : (∀ c ∈ cs, isBlank c = false) ∧ cs ≠ [] := by
  have hdigits {cs : List Char} (h : Digits cs n) : ∀ c ∈ cs, isBlank c = false := by
    obtain ⟨-, hall, -⟩ := digits_iff.mp h
    exact fun c hc => isBlank_of_isDigit (List.all_eq_true.mp hall c hc)
  rcases h with h | h
  · exact ⟨hdigits h, (digits_iff.mp h).1⟩
  · refine ⟨fun c hc => ?_, List.cons_ne_nil _ _⟩
    rcases List.mem_cons.mp hc with rfl | hc
    · decide
    · exact hdigits h c hc

theorem isNumeral_spelled {l r : List Char} (hl : Blank l) (hr : Blank r) (plus : Bool) (zeros n : Nat) :
    ∃ core, Framed (spelled l plus zeros n r).toList core ∧ IsNumeral core n := by
  have hdigits := digits_zeros zeros n
  have hn : IsNumeral ((if plus then ['+'] else []) ++ (List.replicate zeros '0' ++ (toString n).toList)) n := by
    cases plus with
    | false => exact .bare hdigits
    | true => exact .plus hdigits
  obtain ⟨hblank, -⟩ := not_blank_of_isNumeral hn
  refine ⟨_, ⟨⟨l, r, hl, hr, String.toList_ofList⟩, ?_, ?_⟩, hn⟩
  · exact fun c hc => hblank c (List.mem_of_mem_head? hc)
  · exact fun c hc => hblank c (List.mem_of_getLast? hc)

end Rejoin.Text
