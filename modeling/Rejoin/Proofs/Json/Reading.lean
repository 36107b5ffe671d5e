import Mathlib.Algebra.Group.Int.Defs
import Mathlib.Algebra.Group.Nat.Defs
import Rejoin.Json.Reader

/-!
# What is written is read back

* `Json.Plain` — values that are written with all that they hold: strings that can be read, integers of 64 bits;
* `Json.readString?_quoted` — the characters of a string are read back from their escapes;
* `Json.readNumber?_integer` — an integer is read back from its digits;
* `Json.Plain.readValue?_chars` — a plain value is read back from its compact text, and what follows it is left;
* `Json.Plain.read?_chars` — a text of a plain value holds exactly that value.
-/

namespace Rejoin.Json

/-! ### Strings -/

theorem readNumbered?_hexByte {c : Char} (h : c.toNat < 0x20) (r : List Char) :
    readNumbered? ('0' :: '0' :: Text.hexByte (UInt8.ofNat c.toNat) ++ r) = some (some c, r) := by
  have hn : (UInt8.ofNat c.toNat).toNat = c.toNat := by
    rw [UInt8.toNat_ofNat']
    omega
  have hu : readUnit? ('0' :: '0' :: Text.hexByte (UInt8.ofNat c.toNat) ++ r) = some (c.toNat, r) := by
    have h0 : Text.hexValue? '0' = some 0 := rfl
    simp only [Text.hexByte, hn, List.cons_append, List.nil_append, readUnit?, h0,
      Text.hexValue?_hexDigit (c.toNat / 16) (by omega), Text.hexValue?_hexDigit (c.toNat % 16) (by omega),
      Option.bind_eq_bind, Option.bind_some]
    congr 2
    omega
  have hhigh : isHigh c.toNat = false := by
    simp only [isHigh, Bool.and_eq_false_iff, decide_eq_false_iff_not]
    omega
  have hlow : isLow c.toNat = false := by
    simp only [isLow, Bool.and_eq_false_iff, decide_eq_false_iff_not]
    omega
  simp only [readNumbered?, hu, hhigh, hlow, Option.bind_eq_bind, Option.bind_some, Bool.false_eq_true, if_false,
    Char.ofNat_toNat]

theorem escape_cases (c : Char) :
    (∃ e, escape c = '\\' :: e ∧ ∀ r, readEscape? (e ++ r) = some (some c, r)) ∨
      (escape c = [c] ∧ c ≠ '"' ∧ c ≠ '\\' ∧ ¬ c.toNat < 0x20) := by
  by_cases hl : c ∈ ['"', '\\', '\n', '\r', '\t', '\x08', '\x0c']
  · left
    simp only [List.mem_cons, List.not_mem_nil, or_false] at hl
    rcases hl with rfl | rfl | rfl | rfl | rfl | rfl | rfl <;> exact ⟨_, rfl, fun _ => rfl⟩
  · simp only [List.mem_cons, List.not_mem_nil, or_false, not_or] at hl
    obtain ⟨hquote, hbackslash, hn, hr, ht, hb, hf⟩ := hl
    simp only [escape, hquote, hbackslash, hn, hr, ht, hb, hf, if_false]
    by_cases hctrl : c.toNat < 0x20
    · left
      rw [if_pos hctrl]
      exact ⟨_, rfl, readNumbered?_hexByte hctrl⟩
    · right
      rw [if_neg hctrl]
      exact ⟨rfl, hquote, hbackslash, hctrl⟩

/-- One character of a string is read back from what it is written as. -/
theorem readString?_escape (budget : Nat) (c : Char) (r : List Char) :
    readString? (budget + 1) (escape c ++ r) = (readString? budget r).map fun p => (p.1.map (c :: ·), p.2) := by
  rcases escape_cases c with ⟨e, he, hread⟩ | ⟨he, hquote, hbackslash, hctrl⟩
  · rw [he, List.cons_append, readString?, hread]
    simp only [Option.bind_eq_bind, Option.bind_some]
    rcases readString? budget r with _ | ⟨_ | cs, r⟩ <;> rfl
  · rw [he, List.singleton_append, readString?, if_neg hctrl]
    · cases readString? budget r <;> rfl
    · exact hquote
    · exact hbackslash

theorem length_le_flatMap_escape (cs : List Char) : cs.length ≤ (cs.flatMap escape).length := by
  induction cs with
  | nil => exact Nat.le_refl 0
  | cons c cs ih =>
    have hc : 0 < (escape c).length := by
      rcases escape_cases c with ⟨e, he, -⟩ | ⟨he, -⟩ <;> simp [he]
    rw [List.flatMap_cons, List.length_append, List.length_cons]
    omega

theorem length_quote (s : String) : (quote s).length = (s.toList.flatMap escape).length + 2 := by
  simp [quote]

theorem quote_append (s : String) (r : List Char) :
    quote s ++ r = '"' :: (s.toList.flatMap escape ++ '"' :: r) := by
  simp [quote]

/-- The rest of a string, up to its closing quote, is read back. -/
theorem readString?_quoted {budget : Nat} {cs : List Char} (h : cs.length < budget) (r : List Char) :
    readString? budget (cs.flatMap escape ++ '"' :: r) = some (some cs, r) := by
  induction cs generalizing budget with
  | nil =>
    obtain ⟨b, rfl⟩ : ∃ b, budget = b + 1 := ⟨budget - 1, by simp at h; omega⟩
    rfl
  | cons c cs ih =>
    obtain ⟨b, rfl⟩ : ∃ b, budget = b + 1 := ⟨budget - 1, by simp at h; omega⟩
    rw [List.flatMap_cons, List.append_assoc, readString?_escape, ih (by simpa using h)]
    rfl

/-! ### Numbers -/

/-- What follows does not go on with a number. -/
def Ends (r : List Char) : Prop := ∀ c ∈ r.head?, c.isDigit = false ∧ c ≠ '.' ∧ c ≠ 'e' ∧ c ≠ 'E'

theorem ends_nil : Ends [] := fun _ h => nomatch h

theorem ends_cons {c : Char} (h : c.isDigit = false ∧ c ≠ '.' ∧ c ≠ 'e' ∧ c ≠ 'E') (r : List Char) :
    Ends (c :: r) := by
  intro d hd
  obtain rfl : c = d := Option.some.inj hd
  exact h

theorem Ends.readFraction? {r : List Char} (h : Ends r) : readFraction? r = some ([], r) := by
  cases r with
  | nil => rfl
  | cons c r => rw [Json.readFraction?]; exact fun _ hc => (h c rfl).2.1 (List.cons.inj hc).1

theorem Ends.readExponent? {r : List Char} (h : Ends r) : readExponent? r = some (none, r) := by
  cases r with
  | nil => rfl
  | cons c r =>
    rw [Json.readExponent?]
    · exact fun _ hc => (h c rfl).2.2.1 (List.cons.inj hc).1
    · exact fun _ hc => (h c rfl).2.2.2 (List.cons.inj hc).1

theorem Ends.readDigits {r ds : List Char} (h : Ends r) (hd : ds.all Char.isDigit = true) :
    readDigits (ds ++ r) = (ds, r) := by
  refine readDigits_append hd ?_
  cases r with
  | nil => rfl
  | cons c r => simp [(h c rfl).1]

theorem head?_digits {n : Nat} (h : 0 < n) : (digits n).head? ≠ some '0' := by
  rw [digits, Nat.toString_eq_repr, Nat.toList_repr]
  induction n using Nat.strongRecOn with
  | ind n ih =>
    by_cases hn : n < 10
    · have hsmall : ∀ m < 10, 0 < m → [Nat.digitChar m].head? ≠ some '0' := by decide
      rw [Nat.toDigits_of_lt_base hn]
      exact hsmall n hn h
    · have hsome : (Nat.toDigits 10 (n / 10)).head?.isSome = true := List.isSome_head?.mpr Nat.toDigits_ne_nil
      rw [Nat.toDigits_of_base_le (by decide) (by omega), List.head?_append, Option.or_of_isSome hsome]
      exact ih (n / 10) (by omega) (by omega)

theorem digits_eq_cons (n : Nat) : ∃ c ds, digits n = c :: ds ∧ c.isDigit = true := by
  have hall : (digits n).all Char.isDigit = true := Text.all_isDigit_toString n
  have hne : digits n ≠ [] := by
    rw [digits, Nat.toString_eq_repr, Nat.toList_repr]
    exact Nat.toDigits_ne_nil
  obtain ⟨c, ds, h⟩ := List.exists_cons_of_ne_nil hne
  rw [h, List.all_cons, Bool.and_eq_true] at hall
  exact ⟨c, ds, h, hall.1⟩

theorem readMagnitude?_digits {negative : Bool} {n : Nat} (hn : fitsWord negative n = true) {r : List Char}
    (hr : Ends r) :
    readMagnitude? negative (digits n ++ r) = some (.integer (if negative then -(n : Int) else n), r) := by
  have hv : Text.digitsValue (digits n) = n := Text.digitsValue_toString n
  have hzero : ¬ (digits n = [] ∨ ((digits n).head? = some '0' ∧ (digits n).length ≠ 1)) := by
    rintro (h | ⟨h0, h1⟩)
    · obtain ⟨c, ds, he, -⟩ := digits_eq_cons n
      cases he.symm.trans h
    · obtain rfl : n = 0 := Nat.eq_zero_of_not_pos fun hn => head?_digits hn h0
      exact h1 rfl
  have hd : readDigits (digits n ++ r) = (digits n, r) := hr.readDigits (Text.all_isDigit_toString n)
  simp only [readMagnitude?, hd, if_neg hzero, hr.readFraction?, hr.readExponent?, Option.bind_eq_bind,
    Option.bind_some, mkNumeral, hv, hn, and_self, if_true]

def InWord (n : Int) : Prop := -2 ^ 63 ≤ n ∧ n < 2 ^ 64

theorem readNumber?_integer {n : Int} (hn : InWord n) {r : List Char} (hr : Ends r) :
    readNumber? (numeral (.integer n) ++ r) = some (.integer n, r) := by
  cases n with
  | ofNat n =>
    have hf : fitsWord false n = true := by
      have hlt : (n : Int) < 2 ^ 64 := hn.2
      simp only [fitsWord, Bool.false_eq_true, if_false, decide_eq_true_eq, Nat.pow_eq]
      omega
    obtain ⟨c, ds, he, hc⟩ := digits_eq_cons n
    have hminus : ∀ r', numeral (.integer (.ofNat n)) ++ r ≠ '-' :: r' := by
      intro r' h
      rw [numeral, he] at h
      obtain rfl := (List.cons.inj h).1
      cases hc
    rw [readNumber?]
    · exact readMagnitude?_digits hf hr
    · exact hminus
  | negSucc n =>
    have hf : fitsWord true (n + 1) = true := by
      have hle : -2 ^ 63 ≤ Int.negSucc n := hn.1
      simp only [fitsWord, if_true, decide_eq_true_eq, Nat.pow_eq]
      omega
    exact readMagnitude?_digits hf hr

/-! ### Values -/

/-- Values that their texts tell in full. -/
inductive Plain : Json → Prop
  | null : Plain .null
  | bool (b : Bool) : Plain (.bool b)
  | integer {n : Int} (h : InWord n) : Plain (.number (.integer n))
  | string (s : String) : Plain (.string s)
  | array {xs : List Json} (h : ∀ x ∈ xs, Plain x) : Plain (.array xs)
  | object {ms : List (String × Json)} (h : ∀ m ∈ ms, Plain m.2) : Plain (.object ms)

/-- The value is read back from its compact text, and what follows it is left. -/
def Reads (j : Json) : Prop :=
  ∀ budget r, 2 * j.chars.length ≤ budget → Ends r → readValue? budget (j.chars ++ r) = some (j, r)

theorem isBlank_of_isDigit {c : Char} (h : c.isDigit = true) : isBlank c = false := by
  simp only [isBlank, Bool.or_eq_false_iff, decide_eq_false_iff_not]
  refine ⟨⟨⟨?_, ?_⟩, ?_⟩, ?_⟩ <;> rintro rfl <;> cases h

theorem numeral_eq_cons (n : Int) : ∃ c cs, numeral (.integer n) = c :: cs ∧ (c.isDigit = true ∨ c = '-') := by
  cases n with
  | ofNat n =>
    obtain ⟨c, ds, h, hc⟩ := digits_eq_cons n
    exact ⟨c, ds, h, .inl hc⟩
  | negSucc n => exact ⟨'-', _, rfl, .inr rfl⟩

theorem readValue?_of_number {c : Char} (hc : c.isDigit = true ∨ c = '-') (budget : Nat) (cs : List Char) :
    readValue? (budget + 1) (c :: cs) = (readNumber? (c :: cs)).map fun p => (.number p.1, p.2) := by
  have hb : isBlank c = false := by
    rcases hc with hc | rfl
    · exact isBlank_of_isDigit hc
    · rfl
  have hne {d : Char} (hd : ¬ (d.isDigit = true ∨ d = '-')) : c ≠ d := fun e => hd (e ▸ hc)
  rw [readValue?, skipBlanks_of_not_isBlank hb]
  split
  case h_7 => rfl
  all_goals
    next h => exact absurd (List.cons.inj h).1 (hne (by decide))

/-- The text of a value starts with no blank, and does not end a list. -/
theorem Plain.chars_eq_cons {j : Json} (h : Plain j) :
    ∃ c cs, j.chars = c :: cs ∧ isBlank c = false ∧ c ≠ ']' := by
  cases h with
  | null => exact ⟨'n', _, rfl, rfl, by decide⟩
  | bool b => cases b <;> exact ⟨_, _, rfl, rfl, by decide⟩
  | @integer n _ =>
    obtain ⟨c, cs, he, hc⟩ := numeral_eq_cons n
    refine ⟨c, cs, he, ?_⟩
    rcases hc with hc | rfl
    · exact ⟨isBlank_of_isDigit hc, by rintro rfl; cases hc⟩
    · exact ⟨rfl, by decide⟩
  | string s => exact ⟨'"', _, rfl, rfl, by decide⟩
  | @array xs _ => cases xs <;> exact ⟨'[', _, rfl, rfl, by decide⟩
  | @object ms _ => cases ms <;> exact ⟨'\x7b', _, rfl, rfl, by decide⟩

theorem ends_charsElements (xs : List Json) (r : List Char) : Ends (charsElements xs ++ r) := by
  cases xs <;> rw [charsElements] <;> exact ends_cons (by decide) _

theorem ends_charsMembers (ms : List (String × Json)) (r : List Char) : Ends (charsMembers ms ++ r) := by
  cases ms <;> rw [charsMembers] <;> exact ends_cons (by decide) _

/-- The elements of an array are read back one after the other, each followed by the comma before the next one or by
the end of the array. -/
theorem readElements?_chars {x : Json} {xs : List Json} (h : ∀ y ∈ x :: xs, Reads y) {budget : Nat} {r : List Char}
    (hb : 2 * (x.chars.length + (charsElements xs).length) ≤ budget) :
    readElements? budget (x.chars ++ (charsElements xs ++ r)) = some (x :: xs, r) := by
  induction xs generalizing x budget with
  | nil =>
    have hnil : (charsElements []).length = 1 := rfl
    rw [hnil] at hb
    obtain ⟨b, rfl⟩ : ∃ b, budget = b + 1 := ⟨budget - 1, by omega⟩
    have hx : readValue? b (x.chars ++ ']' :: r) = some (x, ']' :: r) :=
      h x List.mem_cons_self b _ (by omega) (ends_charsElements [] r)
    rw [charsElements, List.singleton_append, readElements?, hx]
    rfl
  | cons y ys ih =>
    have hcons : charsElements (y :: ys) = ',' :: (y.chars ++ charsElements ys) := rfl
    rw [hcons, List.length_cons, List.length_append] at hb
    obtain ⟨b, rfl⟩ : ∃ b, budget = b + 1 := ⟨budget - 1, by omega⟩
    have hx : readValue? b (x.chars ++ ',' :: (y.chars ++ (charsElements ys ++ r))) =
        some (x, ',' :: (y.chars ++ (charsElements ys ++ r))) :=
      h x List.mem_cons_self b _ (by omega) (ends_cons (by decide) _)
    have hys : readElements? b (y.chars ++ (charsElements ys ++ r)) = some (y :: ys, r) :=
      ih (fun z hz => h z (List.mem_cons_of_mem x hz)) (by omega)
    rw [hcons, List.cons_append, List.append_assoc, readElements?, hx]
    simp only [Option.bind_eq_bind, Option.bind_some, skipBlanks_of_not_isBlank (c := ',') rfl, hys]

theorem readMembers?_last {k : String} {v : Json} {budget : Nat} {r : List Char} (hk : k.toList.length < budget)
    (hv : readValue? budget (v.chars ++ '\x7d' :: r) = some (v, '\x7d' :: r)) :
    readMembers? (budget + 1) (quote k ++ ':' :: (v.chars ++ '\x7d' :: r)) = some ([(k, v)], r) := by
  rw [quote_append, readMembers?, skipBlanks_of_not_isBlank rfl]
  simp only [readString?_quoted hk, Option.bind_eq_bind, Option.bind_some, skipBlanks_of_not_isBlank (c := ':') rfl, hv,
    skipBlanks_of_not_isBlank (c := '\x7d') rfl, mkMember, String.ofList_toList]

theorem readMembers?_next {k : String} {v : Json} {ms : List (String × Json)} {budget : Nat} {r r' : List Char}
    (hk : k.toList.length < budget) (hv : readValue? budget (v.chars ++ ',' :: r) = some (v, ',' :: r))
    (hms : readMembers? budget r = some (ms, r')) :
    readMembers? (budget + 1) (quote k ++ ':' :: (v.chars ++ ',' :: r)) = some ((k, v) :: ms, r') := by
  rw [quote_append, readMembers?, skipBlanks_of_not_isBlank rfl]
  simp only [readString?_quoted hk, Option.bind_eq_bind, Option.bind_some, skipBlanks_of_not_isBlank (c := ':') rfl, hv,
    skipBlanks_of_not_isBlank (c := ',') rfl, hms, mkMember, String.ofList_toList]

theorem length_lt_quote (s : String) : s.toList.length < (quote s).length := by
  have := length_le_flatMap_escape s.toList
  rw [length_quote]
  omega

/-- The members of an object are read back one after the other, like the elements of an array. -/
theorem readMembers?_chars {k : String} {v : Json} {ms : List (String × Json)} (h : ∀ m ∈ (k, v) :: ms, Reads m.2)
    {budget : Nat} {r : List Char}
    (hb : 2 * ((quote k).length + v.chars.length + (charsMembers ms).length) ≤ budget) :
    readMembers? budget (quote k ++ ':' :: (v.chars ++ (charsMembers ms ++ r))) = some ((k, v) :: ms, r) := by
  induction ms generalizing k v budget with
  | nil =>
    have hk := length_lt_quote k
    have hnil : (charsMembers []).length = 1 := rfl
    rw [hnil] at hb
    obtain ⟨b, rfl⟩ : ∃ b, budget = b + 1 := ⟨budget - 1, by omega⟩
    have hv : readValue? b (v.chars ++ '\x7d' :: r) = some (v, '\x7d' :: r) :=
      h (k, v) List.mem_cons_self b _ (by simp only; omega) (ends_charsMembers [] r)
    exact readMembers?_last (by omega) hv
  | cons m ms ih =>
    obtain ⟨k', v'⟩ := m
    have hk := length_lt_quote k
    have hcons : charsMembers ((k', v') :: ms) = ',' :: (quote k' ++ ':' :: (v'.chars ++ charsMembers ms)) := by
      simp [charsMembers]
    rw [hcons, List.length_cons, List.length_append, List.length_cons, List.length_append] at hb
    obtain ⟨b, rfl⟩ : ∃ b, budget = b + 1 := ⟨budget - 1, by omega⟩
    have hv : readValue? b (v.chars ++ ',' :: (quote k' ++ ':' :: (v'.chars ++ (charsMembers ms ++ r)))) =
        some (v, ',' :: (quote k' ++ ':' :: (v'.chars ++ (charsMembers ms ++ r)))) :=
      h (k, v) List.mem_cons_self b _ (by simp only; omega) (ends_cons (by decide) _)
    have hms : readMembers? b (quote k' ++ ':' :: (v'.chars ++ (charsMembers ms ++ r))) = some ((k', v') :: ms, r) :=
      ih (fun m hm => h m (List.mem_cons_of_mem _ hm)) (by omega)
    rw [hcons, List.cons_append, List.append_assoc, List.cons_append, List.append_assoc]
    exact readMembers?_next (by omega) hv hms

/-! ### Whole values -/

theorem Plain.reads_of_succ {j : Json} (h : Plain j)
    (hj : ∀ budget r, 2 * j.chars.length ≤ budget + 1 → Ends r →
      readValue? (budget + 1) (j.chars ++ r) = some (j, r)) : Reads j := by
  intro budget r hb hr
  obtain ⟨c, cs, hc, -⟩ := h.chars_eq_cons
  obtain ⟨b, rfl⟩ : ∃ b, budget = b + 1 := ⟨budget - 1, by rw [hc, List.length_cons] at hb; omega⟩
  exact hj b r hb hr

theorem reads_string (s : String) : Reads (.string s) := by
  refine (Plain.string s).reads_of_succ fun budget r hb _ => ?_
  have hs := length_lt_quote s
  rw [chars] at hb ⊢
  rw [quote_append, readValue?, skipBlanks_of_not_isBlank rfl]
  simp only [readString?_quoted (show s.toList.length < budget by omega), Option.map_some, ofChars,
    String.ofList_toList]

theorem reads_array {xs : List Json} (hp : ∀ x ∈ xs, Plain x) (h : ∀ x ∈ xs, Reads x) : Reads (.array xs) := by
  refine (Plain.array hp).reads_of_succ fun budget r hb _ => ?_
  cases xs with
  | nil => rfl
  | cons x xs =>
    obtain ⟨c, cs, hc, hblank, hend⟩ := (hp x List.mem_cons_self).chars_eq_cons
    have htext : (array (x :: xs)).chars = '[' :: (x.chars ++ charsElements xs) := rfl
    rw [htext, List.length_cons, List.length_append] at hb
    have hxs : readElements? budget (x.chars ++ (charsElements xs ++ r)) = some (x :: xs, r) :=
      readElements?_chars h (by omega)
    have hskip : skipBlanks (x.chars ++ (charsElements xs ++ r)) = x.chars ++ (charsElements xs ++ r) := by
      rw [hc]
      exact skipBlanks_of_not_isBlank hblank _
    rw [htext, List.cons_append, List.append_assoc, readValue?, skipBlanks_of_not_isBlank rfl]
    simp only [hskip]
    split
    next he =>
      rw [hc] at he
      exact absurd (List.cons.inj he).1 hend
    next => rw [hxs, Option.map_some]

theorem reads_object {ms : List (String × Json)} (hp : ∀ m ∈ ms, Plain m.2) (h : ∀ m ∈ ms, Reads m.2) :
    Reads (.object ms) := by
  refine (Plain.object hp).reads_of_succ fun budget r hb _ => ?_
  cases ms with
  | nil => rfl
  | cons m ms =>
    obtain ⟨k, v⟩ := m
    have htext : (object ((k, v) :: ms)).chars = '\x7b' :: (quote k ++ ':' :: (v.chars ++ charsMembers ms)) := by
      simp [chars]
    rw [htext, List.length_cons, List.length_append, List.length_cons, List.length_append] at hb
    have hms : readMembers? budget (quote k ++ ':' :: (v.chars ++ (charsMembers ms ++ r))) = some ((k, v) :: ms, r) :=
      readMembers?_chars h (by omega)
    rw [htext, List.cons_append, List.append_assoc, List.cons_append, List.append_assoc, readValue?,
      skipBlanks_of_not_isBlank rfl]
    rw [quote_append] at hms ⊢
    exact congrArg (Option.map fun p => (object p.1, p.2)) hms

/-- Every plain value is read back. -/
theorem Plain.reads {j : Json} (h : Plain j) : Reads j := by
  induction h with
  | null => exact Plain.null.reads_of_succ fun _ _ _ _ => rfl
  | bool b => exact (Plain.bool b).reads_of_succ fun _ _ _ _ => by cases b <;> rfl
  | @integer n hn =>
    refine (Plain.integer hn).reads_of_succ fun budget r _ hr => ?_
    obtain ⟨d, ds, hd, hnum⟩ := numeral_eq_cons n
    rw [chars, hd, List.cons_append, readValue?_of_number hnum, ← List.cons_append, ← hd, readNumber?_integer hn hr]
    rfl
  | string s => exact reads_string s
  | array h ih => exact reads_array h ih
  | object h ih => exact reads_object h ih

/-- The text of a plain value holds exactly that value. -/
theorem Plain.read?_chars {j : Json} (h : Plain j) : read? j.chars = some j := by
  have hj := h.reads (2 * j.chars.length + 2) [] (by omega) ends_nil
  rw [List.append_nil] at hj
  simp only [read?, hj, Option.bind_eq_bind, Option.bind_some, skipBlanks_nil, if_true]

end Rejoin.Json
