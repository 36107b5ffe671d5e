import Rejoin.Json.Basic
import Rejoin.Text.Numeral

/-!
# Reading JSON

`Json.read?` takes a text for exactly one value with blanks around it, and accepts nothing that the grammar does
not have.  The readers below it take a list of characters and give what they read with the rest.  A budget
bounds their nesting; every character read pays for at most two levels, so twice the length of the text is enough.
-/

namespace Rejoin.Json

def isBlank (c : Char) : Bool := c = ' ' || c = '\n' || c = '\t' || c = '\r'

/-- What follows the blanks at the front. -/
def skipBlanks (cs : List Char) : List Char := cs.dropWhile isBlank

@[simp] theorem skipBlanks_nil : skipBlanks [] = [] := rfl

theorem skipBlanks_of_not_isBlank {c : Char} (h : isBlank c = false) (cs : List Char) :
    skipBlanks (c :: cs) = c :: cs := by
  simp [skipBlanks, h]

/-- The rest of a text that starts with `word`. -/
def after? : List Char → List Char → Option (List Char)
  | [], cs => some cs
  | _ :: _, [] => none
  | w :: ws, c :: cs => if w = c then after? ws cs else none

@[simp] theorem after?_append (ws cs : List Char) : after? ws (ws ++ cs) = some cs := by
  induction ws with
  | nil => rfl
  | cons w ws ih => simp [after?, ih]

/-! ### Strings -/

/-- The unit that four hexadecimal digits give. -/
def readUnit? : List Char → Option (Nat × List Char)
  | a :: b :: c :: d :: r => do
    let a ← Text.hexValue? a
    let b ← Text.hexValue? b
    let c ← Text.hexValue? c
    let d ← Text.hexValue? d
    some (a * 4096 + b * 256 + c * 16 + d, r)
  | _ => none

/-- A unit that opens a pair of surrogates. -/
def isHigh (u : Nat) : Bool := 0xD800 ≤ u && u ≤ 0xDBFF

/-- A unit that closes a pair of surrogates. -/
def isLow (u : Nat) : Bool := 0xDC00 ≤ u && u ≤ 0xDFFF

/-- What an escape stands for; nothing where a surrogate has no partner. -/
abbrev Escaped := Option Char

/-- The escape with a number, after its letter. -/
def readNumbered? (cs : List Char) : Option (Escaped × List Char) := do
  let (u, r) ← readUnit? cs
  if isHigh u then
    match r with
    | '\\' :: 'u' :: r' =>
      let (v, r'') ← readUnit? r'
      if isLow v then some (some (Char.ofNat (0x10000 + (u - 0xD800) * 1024 + (v - 0xDC00))), r'')
      else some (none, r)
    | _ => some (none, r)
  else if isLow u then some (none, r)
  else some (some (Char.ofNat u), r)

/-- An escape, after its backslash. -/
def readEscape? : List Char → Option (Escaped × List Char)
  | '"' :: r => some (some '"', r)
  | '\\' :: r => some (some '\\', r)
  | '/' :: r => some (some '/', r)
  | 'b' :: r => some (some '\x08', r)
  | 'f' :: r => some (some '\x0c', r)
  | 'n' :: r => some (some '\n', r)
  | 'r' :: r => some (some '\r', r)
  | 't' :: r => some (some '\t', r)
  | 'u' :: r => readNumbered? r
  | _ => none

/-- The rest of a string after its opening quote: its characters, or nothing for them where a surrogate
is unpaired. -/
def readString? : Nat → List Char → Option (Option (List Char) × List Char)
  | 0, _ => none
  | _ + 1, [] => none
  | _ + 1, '"' :: r => some (some [], r)
  | budget + 1, '\\' :: r => do
    let (c, r) ← readEscape? r
    let (s, r) ← readString? budget r
    some (do let c ← c; let s ← s; pure (c :: s), r)
  | budget + 1, c :: r =>
    if c.toNat < 0x20 then none
    else do
      let (s, r) ← readString? budget r
      some (s.map (c :: ·), r)

/-! ### Numbers -/

/-- A run of digits. -/
def readDigits (cs : List Char) : List Char × List Char := (cs.takeWhile Char.isDigit, cs.dropWhile Char.isDigit)

/-- A run of digits ends where a character that is none follows. -/
theorem readDigits_append {ds r : List Char} (hd : ds.all Char.isDigit = true)
    (hr : r.head?.all (!Char.isDigit ·) = true) : readDigits (ds ++ r) = (ds, r) := by
  have hd' : ∀ c ∈ ds, c.isDigit = true := List.all_eq_true.mp hd
  rw [readDigits, List.takeWhile_append_of_pos hd', List.dropWhile_append_of_pos hd']
  cases r with
  | nil => simp
  | cons c r =>
    have hc : c.isDigit = false := by simpa using hr
    simp [hc]

/-- The digits after a point, of which there must be one at least; none where no point follows. -/
def readFraction? : List Char → Option (List Char × List Char)
  | '.' :: r => let (ds, r) := readDigits r; if ds = [] then none else some (ds, r)
  | cs => some ([], cs)

/-- The sign of an exponent. -/
def readSign : List Char → Int × List Char
  | '+' :: r => (1, r)
  | '-' :: r => (-1, r)
  | cs => (1, cs)

/-- An exponent, or nothing where none follows. -/
def readExponent? : List Char → Option (Option Int × List Char)
  | 'e' :: r | 'E' :: r =>
    let (sign, r) := readSign r
    let (ds, r) := readDigits r
    if ds = [] then none else some (some (sign * Text.digitsValue ds), r)
  | cs => some (none, cs)

/-- A word of 64 bits with `m` in it takes digits as long as it can hold them: what it holds then, and the digits
from the first one it has no room for. -/
def absorb (m : Nat) : List Char → Nat × List Char
  | [] => (m, [])
  | d :: ds =>
    if Nat.ofDigitChars 10 [d] m < Nat.pow 2 64 then absorb (Nat.ofDigitChars 10 [d] m) ds else (m, d :: ds)

/-- The decimal with the given parts.  A digit before the point that the word has no room for counts as a zero; one
after the point is dropped.  The digits after the point are offered to the word in any case, so that the first of
them may still find room where the last ones before the point did not. -/
def mkDecimal (negative : Bool) (whole fraction : List Char) (exponent : Int) : Numeral :=
  let (m, above) := absorb 0 whole
  let (m, below) := absorb m fraction
  .decimal negative m (exponent + above.length - (fraction.length - below.length : Nat))

example : mkDecimal false "18446744073709551616".toList "47".toList 0 = .decimal false 18446744073709551614 0 := by
  decide

/-- `n` with the given sign is an integer of 64 bits; there is no minus zero among those. -/
def fitsWord (negative : Bool) (n : Nat) : Bool :=
  if negative then decide (0 < n ∧ n ≤ Nat.pow 2 63) else decide (n < Nat.pow 2 64)

/-- The numeral with the given parts. -/
def mkNumeral (negative : Bool) (whole fraction : List Char) (exponent : Option Int) : Numeral :=
  if fraction = [] ∧ exponent = none ∧ fitsWord negative (Text.digitsValue whole) then
    .integer (if negative then -(Text.digitsValue whole : Int) else Text.digitsValue whole)
  else mkDecimal negative whole fraction (exponent.getD 0)

/-- A number without its sign; a zero is not followed by digits. -/
def readMagnitude? (negative : Bool) (cs : List Char) : Option (Numeral × List Char) := do
  let (whole, r) := readDigits cs
  if whole = [] ∨ (whole.head? = some '0' ∧ whole.length ≠ 1) then none
  else
    let (fraction, r) ← readFraction? r
    let (exponent, r) ← readExponent? r
    some (mkNumeral negative whole fraction exponent, r)

def readNumber? : List Char → Option (Numeral × List Char)
  | '-' :: r => readMagnitude? true r
  | cs => readMagnitude? false cs

/-! ### Values -/

/-- A string as a value. -/
def ofChars : Option (List Char) → Json
  | some cs => .string (String.ofList cs)
  | none => .flawed false

/-- A member of an object. -/
def mkMember (name : Option (List Char)) (value : Json) : String × Json :=
  match name with
  | some cs => (String.ofList cs, value)
  | none => ("", .flawed true)

mutual

/-- A value, blanks before it skipped. -/
def readValue? : Nat → List Char → Option (Json × List Char)
  | 0, _ => none
  | budget + 1, cs =>
    match skipBlanks cs with
    | 'n' :: r => (after? ['u', 'l', 'l'] r).map fun r => (.null, r)
    | 't' :: r => (after? ['r', 'u', 'e'] r).map fun r => (.bool true, r)
    | 'f' :: r => (after? ['a', 'l', 's', 'e'] r).map fun r => (.bool false, r)
    | '"' :: r => (readString? budget r).map fun p => (ofChars p.1, p.2)
    | '[' :: r =>
      match skipBlanks r with
      | ']' :: r => some (.array [], r)
      | r => (readElements? budget r).map fun p => (.array p.1, p.2)
    | '\x7b' :: r =>
      match skipBlanks r with
      | '\x7d' :: r => some (.object [], r)
      | r => (readMembers? budget r).map fun p => (.object p.1, p.2)
    | r => (readNumber? r).map fun p => (.number p.1, p.2)

/-- The elements of an array, of which there is one at least, and its end. -/
def readElements? : Nat → List Char → Option (List Json × List Char)
  | 0, _ => none
  | budget + 1, cs => do
    let (x, r) ← readValue? budget cs
    match skipBlanks r with
    | ']' :: r => some ([x], r)
    | ',' :: r =>
      let (xs, r) ← readElements? budget r
      some (x :: xs, r)
    | _ => none

/-- The members of an object, of which there is one at least, and its end. -/
def readMembers? : Nat → List Char → Option (List (String × Json) × List Char)
  | 0, _ => none
  | budget + 1, cs =>
    match skipBlanks cs with
    | '"' :: r => do
      let (name, r) ← readString? budget r
      match skipBlanks r with
      | ':' :: r =>
        let (value, r) ← readValue? budget r
        match skipBlanks r with
        | '\x7d' :: r => some ([mkMember name value], r)
        | ',' :: r =>
          let (ms, r) ← readMembers? budget r
          some (mkMember name value :: ms, r)
        | _ => none
      | _ => none
    | _ => none

end

/-- The value a text holds, if it holds exactly one. -/
def read? (cs : List Char) : Option Json := do
  let (j, r) ← readValue? (2 * cs.length + 2) cs
  if skipBlanks r = [] then some j else none

end Rejoin.Json
