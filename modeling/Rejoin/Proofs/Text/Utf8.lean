import Mathlib.Data.List.Basic
import Rejoin.Text.Utf8

/-!
# Reading what was written in UTF-8

A character of more than one byte is written as the bits that stand above its last ones, six bits to a byte.  The
reader takes the bytes one at a time and has, at each, the bits of the character that were read so far.

* `lead?_two`, `lead?_three`, `lead?_four` — what the first byte of a character starts, and that the second one is in
  the range that it asks for;
* `decodeFrom_tail` — a further byte;
* `decode_encode_append` — the characters of a text come out again, whatever bytes follow;
* `decode_of_toByteArray` — the bytes of a text in memory are read as that text.
-/

namespace Rejoin.Text.Utf8

variable {n : Nat}

/-! ### First bytes -/

theorem lead?_two (hl : 0x80 ≤ n) (hu : n ≤ 0x7FF) : lead? (n / 64 % 32 + 192) = some ⟨n / 64, 1, 0x80, 0xBF⟩ := by
  have hbits : n / 64 % 32 + 192 - 0xC0 = n / 64 := by omega
  rw [lead?, if_pos (by omega), hbits]

/-- The ranges for the second byte exclude what fewer bytes can write, and the surrogates. -/
theorem lead?_three (hl : 0x800 ≤ n) (hu : n ≤ 0xFFFF) (hs : n < 0xD800 ∨ 0xDFFF < n) :
    ∃ low high, lead? (n / 4096 % 16 + 224) = some ⟨n / 64 / 64, 2, low, high⟩ ∧
      low ≤ n / 64 % 64 + 128 ∧ n / 64 % 64 + 128 ≤ high := by
  have hb : n / 4096 % 16 = n / 64 / 64 := by omega
  rw [hb, lead?, if_neg (by omega)]
  by_cases h0 : n / 64 / 64 = 0
  · exact ⟨0xA0, 0xBF, by rw [h0]; rfl, by omega, by omega⟩
  · by_cases hd : n / 64 / 64 = 0xD
    · exact ⟨0x80, 0x9F, by rw [hd]; rfl, by omega, by omega⟩
    · refine ⟨0x80, 0xBF, ?_, by omega, by omega⟩
      rw [if_neg (by omega), if_neg (by omega), if_pos (by omega), Nat.add_sub_cancel]

theorem lead?_four (hl : 0x10000 ≤ n) (hu : n ≤ 0x10FFFF) :
    ∃ low high, lead? (n / 262144 % 8 + 240) = some ⟨n / 4096 / 64, 3, low, high⟩ ∧
      low ≤ n / 4096 % 64 + 128 ∧ n / 4096 % 64 + 128 ≤ high := by
  have hb : n / 262144 % 8 = n / 4096 / 64 := by omega
  rw [hb]
  have hcases : n / 4096 / 64 = 0 ∨ n / 4096 / 64 = 4 ∨ (1 ≤ n / 4096 / 64 ∧ n / 4096 / 64 ≤ 3) := by omega
  rcases hcases with h0 | h4 | ⟨h1, h3⟩
  · exact ⟨0x90, 0xBF, by rw [h0]; rfl, by omega, by omega⟩
  · exact ⟨0x80, 0x8F, by rw [h4]; rfl, by omega, by omega⟩
  · refine ⟨0x80, 0xBF, ?_, by omega, by omega⟩
    rw [lead?, if_neg (by omega), if_neg (by omega), if_neg (by omega), if_neg (by omega), if_neg (by omega),
      if_pos (by omega), Nat.add_sub_cancel]

/-! ### Whole characters -/

theorem decodeFrom_ascii (h : n < 0x80) (r : List UInt8) :
    decodeFrom none (UInt8.ofNat n :: r) = Char.ofNat n :: decodeFrom none r := by
  have hn : (UInt8.ofNat n).toNat = n := UInt8.toNat_ofNat_of_lt' (show n < 256 by omega)
  rw [decodeFrom, hn]
  simp only [step, start, if_pos h]
  rfl

theorem decodeFrom_lead {b : Nat} {p : Partial} (hb : b < 256) (hp : lead? b = some p) (r : List UInt8) :
    decodeFrom none (UInt8.ofNat b :: r) = decodeFrom (some p) r := by
  have hn : (UInt8.ofNat b).toNat = b := UInt8.toNat_ofNat_of_lt' hb
  have hlarge : ¬ b < 0x80 := by
    intro h
    have hnone : lead? b = none := by
      simp only [lead?]
      split_ifs <;> first | omega | rfl
    rw [hnone] at hp
    cases hp
  rw [decodeFrom, hn]
  simp only [step, start, if_neg hlarge, hp]
  rfl

/-- A byte in the range that is asked for adds its six bits; if it is the last one they are a character. -/
theorem decodeFrom_tail {low high : Nat} (hlow : low ≤ n % 64 + 128) (hhigh : n % 64 + 128 ≤ high) (m : Nat)
    (r : List UInt8) :
    decodeFrom (some ⟨n / 64, m, low, high⟩) (UInt8.ofNat (n % 64 + 128) :: r) =
      if m = 1 then Char.ofNat n :: decodeFrom none r else decodeFrom (some ⟨n, m - 1, 0x80, 0xBF⟩) r := by
  have hn : (UInt8.ofNat (n % 64 + 128)).toNat = n % 64 + 128 :=
    UInt8.toNat_ofNat_of_lt' (show n % 64 + 128 < 256 by omega)
  have hbits : n / 64 * 64 + (n % 64 + 128 - 0x80) = n := by omega
  rw [decodeFrom, hn]
  simp only [step, if_pos (And.intro hlow hhigh), hbits]
  split <;> rfl

theorem decodeFrom_later (m : Nat) (r : List UInt8) :
    decodeFrom (some ⟨n / 64, m, 0x80, 0xBF⟩) (UInt8.ofNat (n % 64 + 128) :: r) =
      if m = 1 then Char.ofNat n :: decodeFrom none r else decodeFrom (some ⟨n, m - 1, 0x80, 0xBF⟩) r :=
  decodeFrom_tail (by omega) (by omega) m r

theorem decodeFrom_char (c : Char) (r : List UInt8) :
    decodeFrom none (String.utf8EncodeChar c ++ r) = c :: decodeFrom none r := by
  have hc : Char.ofNat c.toNat = c := Char.ofNat_toNat c
  have hv : c.toNat < 0xD800 ∨ (0xDFFF < c.toNat ∧ c.toNat < 0x110000) := c.valid
  have hn : c.val.toNat = c.toNat := rfl
  rw [String.utf8EncodeChar, hn]
  generalize c.toNat = n at hc hv
  split
  next h1 =>
    rw [List.singleton_append, decodeFrom_ascii (by omega), hc]
  next h1 =>
    split
    next h2 =>
      simp only [List.cons_append, List.nil_append]
      rw [decodeFrom_lead (by omega) (lead?_two (by omega) h2), decodeFrom_later, if_pos rfl, hc]
    next h2 =>
      split
      next h3 =>
        obtain ⟨low, high, hlead, hlow, hhigh⟩ := lead?_three (n := n) (by omega) h3 (by omega)
        simp only [List.cons_append, List.nil_append]
        rw [decodeFrom_lead (by omega) hlead, decodeFrom_tail hlow hhigh, if_neg (by decide), decodeFrom_later,
          if_pos rfl, hc]
      next h3 =>
        obtain ⟨low, high, hlead, hlow, hhigh⟩ := lead?_four (n := n) (by omega) (by omega)
        have hsplit : n / 4096 = n / 64 / 64 := by omega
        simp only [List.cons_append, List.nil_append]
        rw [decodeFrom_lead (by omega) hlead, decodeFrom_tail hlow hhigh, if_neg (by decide), hsplit, decodeFrom_later,
          if_neg (by decide), decodeFrom_later, if_pos rfl, hc]

/-! ### Texts -/

/-- Characters that were written come out again, whatever bytes follow. -/
theorem decode_encode_append (cs : List Char) (bs : List UInt8) : decode (encode cs ++ bs) = cs ++ decode bs := by
  induction cs with
  | nil => rfl
  | cons c cs ih =>
    rw [encode, List.flatMap_cons, List.append_assoc, decode, decodeFrom_char]
    exact congrArg (c :: ·) ih

theorem decode_encode (cs : List Char) : decode (encode cs) = cs := by
  have h := decode_encode_append cs []
  simpa using h

/-- Bytes that are those of a text are read as that text. -/
theorem decode_of_toByteArray {bs : List UInt8} {s : String} (h : bs.toByteArray = s.toByteArray) :
    decode bs = s.toList := by
  have hbs : bs = encode s.toList := by
    rw [← String.utf8Encode_toList] at h
    exact List.toByteArray_inj.mp h
  rw [hbs, decode_encode]

end Rejoin.Text.Utf8
