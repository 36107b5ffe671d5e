import Rejoin.Text.Blank
import Rejoin.Text.Numeral
import Rejoin.Time.Calendar

/-!
# Moments in UTC

A moment and its RFC 3339 text.

* `Timestamp.text` — as few of none, three, six or nine digits of a second's fraction as say it exactly;
* `Timestamp.read` — lenient: single digits, blanks before the parts, a lower-case or blank separator, and any
  offset below a day.

A leap second keeps its sixtieth second: it is stored as second 59 with a thousand million nanoseconds more.
-/

namespace Rejoin

open Time Text

/-- A moment: seconds since 1970-01-01T00:00:00Z, and nanoseconds, a thousand million more in a leap second. -/
structure Timestamp where
  seconds : Int
  nanos : Nat
deriving DecidableEq, Repr

/-- Why a text is no moment. -/
inductive TimestampError where
  | tooShort
  | invalid
  | outOfRange
  | impossible
  | tooLong
deriving DecidableEq, Repr

def TimestampError.message : TimestampError → String
  | .tooShort => "premature end of input"
  | .invalid => "input contains invalid characters"
  | .outOfRange => "input is out of range"
  | .impossible => "no possible date and time matching input"
  | .tooLong => "trailing input"

namespace Timestamp

/-! ### Writing -/

/-- The year of a date: four digits, a sign and at least four digits outside 0 to 9999. -/
def yearText (y : Int) : String :=
  if 0 ≤ y ∧ y ≤ 9999 then padded 4 y.toNat
  else (if y < 0 then "-" else "+") ++ padded 4 y.natAbs

/-- The fraction of a second, without digits that carry nothing. -/
def fractionText (nanos : Nat) : String :=
  if nanos = 0 then ""
  else if nanos % 1000000 = 0 then "." ++ padded 3 (nanos / 1000000)
  else if nanos % 1000 = 0 then "." ++ padded 6 (nanos / 1000)
  else "." ++ padded 9 nanos

/-- The text of a moment, with the given spelling of the zero offset. -/
def text (t : Timestamp) (zone : String) : String :=
  let d := Date.ofDays (t.seconds.fdiv 86400)
  let s := (t.seconds.fmod 86400).toNat
  let leap := 1000000000 ≤ t.nanos
  yearText d.year ++ "-" ++ padded 2 d.month ++ "-" ++ padded 2 d.day ++ "T"
    ++ padded 2 (s / 3600) ++ ":" ++ padded 2 (s / 60 % 60)
    ++ ":" ++ padded 2 (if leap then s % 60 + 1 else s % 60)
    ++ fractionText (if leap then t.nanos - 1000000000 else t.nanos) ++ zone

/-! ### Reading -/

/-- A run of one to `most` digits with a value below 2^63. -/
def readNumber (most : Nat) (cs : List Char) : Except TimestampError (Nat × List Char) :=
  let ds := (cs.take most).takeWhile Char.isDigit
  if cs = [] then .error .tooShort
  else if ds = [] then .error .invalid
  else if Nat.pow 2 63 ≤ digitsValue ds then .error .outOfRange
  else .ok (digitsValue ds, cs.drop ds.length)

/-- A year: four digits at most, or a sign and any number of them; it must fit in 32 bits. -/
def readYear (cs : List Char) : Except TimestampError (Int × List Char) := do
  let (y, r) ← match trimLeft cs with
    | '-' :: r => (readNumber r.length r).map fun p => (-(p.1 : Int), p.2)
    | '+' :: r => (readNumber r.length r).map fun p => ((p.1 : Int), p.2)
    | r => (readNumber 4 r).map fun p => ((p.1 : Int), p.2)
  if -2147483648 ≤ y ∧ y ≤ 2147483647 then pure (y, r) else .error .outOfRange

/-- A two-digit part within bounds, blanks before it skipped. -/
def readPart (low high : Nat) (cs : List Char) : Except TimestampError (Nat × List Char) := do
  let (n, r) ← readNumber 2 (trimLeft cs)
  if low ≤ n ∧ n ≤ high then pure (n, r) else .error .outOfRange

/-- One expected character, blanks before it skipped. -/
def readMark (c : Char) (cs : List Char) : Except TimestampError (List Char) :=
  match trimLeft cs with
  | [] => .error .tooShort
  | x :: r => if x = c then .ok r else .error .invalid

/-- The fraction of a second, if a point follows; digits past the ninth are dropped. -/
def readFraction : List Char → Except TimestampError (Nat × List Char)
  | '.' :: cs => do
    let (n, r) ← readNumber 9 cs
    pure (n * Nat.pow 10 (9 - (cs.length - r.length)), r.dropWhile Char.isDigit)
  | cs => pure (0, cs)

/-- Two digits of an offset; a character outside ASCII takes two bytes by itself. -/
def readPair (tens : Char) (cs : List Char) : Except TimestampError (Nat × List Char) :=
  match cs with
  | [] => .error .tooShort
  | [c] => if c.toNat < 0x80 then .error .tooShort else .error .invalid
  | c :: d :: r =>
    if c.isDigit ∧ d.isDigit then
      if c ≤ tens then .ok (digitsValue [c, d], r) else .error .outOfRange
    else .error .invalid

/-- Hours and minutes of an offset, in seconds. -/
def readOffsetParts (cs : List Char) : Except TimestampError (Nat × List Char) := do
  let (h, r) ← readPair '9' cs
  let (m, r) ← readPair '5' (r.dropWhile fun c => c = ':' ∨ isBlank c)
  pure (h * 3600 + m * 60, r)

/-- The three letters that may stand for the zero offset, in either case. -/
def dropUtc? : List Char → Option (List Char)
  | u :: t :: c :: r => if u.toUpper = 'U' ∧ t.toUpper = 'T' ∧ c.toUpper = 'C' then some r else none
  | _ => none

/-- The offset from UTC in seconds. -/
def readOffset (cs : List Char) : Except TimestampError (Int × List Char) :=
  match dropUtc? cs with
  | some r => .ok (0, r)
  | none =>
    match cs with
    | [] => .error .tooShort
    | c :: r =>
      if c = 'Z' ∨ c = 'z' then .ok (0, r)
      else if c = '+' then (readOffsetParts r).map fun p => ((p.1 : Int), p.2)
      else if c = '-' ∨ c = '−' then (readOffsetParts r).map fun p => (-(p.1 : Int), p.2)
      else .error .invalid

/-- The letter or blank between date and time. -/
def readSeparator : List Char → Except TimestampError (List Char)
  | [] => .error .tooShort
  | c :: r => if c = 'T' ∨ c = 't' ∨ c = ' ' then .ok r else .error .invalid

/-- The moment of local clock time under an offset. -/
def ofLocal (date : Date) (h m s nanos : Nat) (offset : Int) : Except TimestampError Timestamp :=
  if ¬date.valid then .error .outOfRange
  else if 86400 ≤ offset.natAbs then .error .outOfRange
  else
    let second := if s = 60 then 59 else s
    let t := date.toDays * 86400 + (h * 3600 + m * 60 + second : Nat) - offset
    let year := (Date.ofDays (t.fdiv 86400)).year
    if yearRange.1 ≤ year ∧ year ≤ yearRange.2 then
      .ok ⟨t, if s = 60 then nanos + 1000000000 else nanos⟩
    else .error .impossible

/-- Reads a moment. -/
def read (s : String) : Except TimestampError Timestamp := do
  let (year, cs) ← readYear s.toList
  let cs ← readMark '-' cs
  let (month, cs) ← readPart 1 12 cs
  let cs ← readMark '-' cs
  let (day, cs) ← readPart 1 31 cs
  let cs ← readSeparator cs
  let (h, cs) ← readPart 0 23 cs
  let cs ← readMark ':' cs
  let (m, cs) ← readPart 0 59 cs
  let cs ← readMark ':' cs
  let (s, cs) ← readPart 0 60 cs
  let (nanos, cs) ← readFraction cs
  let (offset, cs) ← readOffset (trimLeft cs)
  if trimLeft cs ≠ [] then .error .tooLong
  else ofLocal ⟨year, month, day⟩ h m s nanos offset

end Timestamp

end Rejoin
