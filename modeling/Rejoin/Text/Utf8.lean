/-!
# UTF-8

* `encode` — the bytes of characters;
* `decode` — characters from bytes, with the replacement character U+FFFD in place of every maximal ill-formed
  piece.  It is a machine that takes one byte at a time (`step`), so how a text was cut into writes makes no
  difference to what is read;
* `decode?` — the characters of bytes that are well-formed, told by writing them again (`encode_of_decode?`).
-/

namespace Rejoin.Text.Utf8

def encode (cs : List Char) : List UInt8 := cs.flatMap String.utf8EncodeChar

@[simp] theorem encode_nil : encode [] = [] := rfl

@[simp] theorem encode_append (cs ds : List Char) : encode (cs ++ ds) = encode cs ++ encode ds :=
  List.flatMap_append

/-! ### Reading -/

/-- What stands for an ill-formed piece. -/
def replacement : Char := '\uFFFD'

/-- An unfinished character: the bits so far, how many bytes are missing, and the range the next one must be in. -/
structure Partial where
  bits : Nat
  missing : Nat
  low : Nat
  high : Nat
deriving DecidableEq, Repr

/-- What a leading byte of a longer character starts; the ranges exclude overlong forms, surrogates
and numbers past U+10FFFF. -/
def lead? (b : Nat) : Option Partial :=
  if 0xC2 ≤ b ∧ b ≤ 0xDF then some ⟨b - 0xC0, 1, 0x80, 0xBF⟩
  else if b = 0xE0 then some ⟨0, 2, 0xA0, 0xBF⟩
  else if b = 0xED then some ⟨0xD, 2, 0x80, 0x9F⟩
  else if 0xE1 ≤ b ∧ b ≤ 0xEF then some ⟨b - 0xE0, 2, 0x80, 0xBF⟩
  else if b = 0xF0 then some ⟨0, 3, 0x90, 0xBF⟩
  else if 0xF1 ≤ b ∧ b ≤ 0xF3 then some ⟨b - 0xF0, 3, 0x80, 0xBF⟩
  else if b = 0xF4 then some ⟨4, 3, 0x80, 0x8F⟩
  else none

/-- One byte read outside a character: what it writes and what it leaves unfinished. -/
def start (b : Nat) : List Char × Option Partial :=
  if b < 0x80 then ([Char.ofNat b], none)
  else match lead? b with
    | some p => ([], some p)
    | none => ([replacement], none)

/-- One byte read; a byte that cannot go on ends the unfinished character as ill-formed and is read afresh. -/
def step : Option Partial → Nat → List Char × Option Partial
  | none, b => start b
  | some p, b =>
    if p.low ≤ b ∧ b ≤ p.high then
      let bits := p.bits * 64 + (b - 0x80)
      if p.missing = 1 then ([Char.ofNat bits], none) else ([], some ⟨bits, p.missing - 1, 0x80, 0xBF⟩)
    else (replacement :: (start b).1, (start b).2)

/-- The characters read from bytes after an unfinished one. -/
def decodeFrom : Option Partial → List UInt8 → List Char
  | none, [] => []
  | some _, [] => [replacement]
  | st, b :: r => (step st b.toNat).1 ++ decodeFrom (step st b.toNat).2 r

/-- The text of a byte sequence, ill-formed pieces replaced. -/
def decode (bs : List UInt8) : List Char := decodeFrom none bs

/-- The text of a well-formed byte sequence: one that its own reading writes again. -/
def decode? (bs : List UInt8) : Option (List Char) :=
  if encode (decode bs) = bs then some (decode bs) else none

theorem encode_of_decode? {bs : List UInt8} {cs : List Char} (h : decode? bs = some cs) : encode cs = bs := by
  unfold decode? at h
  split at h
  next he => cases h; exact he
  next => cases h

@[simp] theorem decode_nil : decode [] = [] := rfl

example : decode [0xF0, 0x9F, 0x98, 0x80] = ['😀'] := by decide
example : decode [0xE2, 0x82, 0x41, 0xFF] = [replacement, 'A', replacement] := by decide
example : decode [0xED, 0xA0, 0x80] = [replacement, replacement, replacement] := by decide

end Rejoin.Text.Utf8
