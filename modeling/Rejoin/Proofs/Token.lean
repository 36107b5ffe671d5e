import Mathlib.Data.List.Basic
import Rejoin.Ticket

/-!
# Which steps have one token

A null byte stands between the names of the run and of the step when their token is made, and names may have null
characters, too.

* `Text.Utf8.encode_injective`, `Digest.text_inj` — bytes tell characters, and texts of digests tell digests;
* `Ticket.Recut` — two steps that are cut at different null characters of one text;
* `Ticket.tokenBytes_eq_iff` — the steps whose tokens are digests of the same bytes;
* `Ticket.tokenOf_eq_iff` — the steps that have one token;
* `Ticket.recut_steps_share_bytes` — two that do, although they differ.
-/

namespace Rejoin

theorem Text.Utf8.encode_injective : Function.Injective Text.Utf8.encode := by
  intro cs ds h
  have hbytes : cs.utf8Encode = ds.utf8Encode := congrArg List.toByteArray h
  exact String.ofList_injective (String.toByteArray_inj.mp hbytes)

theorem Text.hexByte_injective : Function.Injective Text.hexByte := by
  intro b c h
  have hdigit {m n : Nat} (hm : m < 16) (hn : n < 16) (he : Text.hexDigit m = Text.hexDigit n) : m = n := by
    have hv := congrArg Text.hexValue? he
    rw [Text.hexValue?_hexDigit m hm, Text.hexValue?_hexDigit n hn] at hv
    exact Option.some.inj hv
  obtain ⟨hhigh, hlow⟩ := List.cons.inj h
  have hb := b.toNat_lt
  have hc := c.toNat_lt
  have h16 : b.toNat / 16 = c.toNat / 16 := hdigit (by omega) (by omega) hhigh
  have hmod : b.toNat % 16 = c.toNat % 16 := hdigit (by omega) (by omega) (List.cons.inj hlow).1
  exact UInt8.toNat_inj.mp (by omega)

theorem Text.flatMap_hexByte_inj {bs cs : List UInt8} :
    bs.flatMap Text.hexByte = cs.flatMap Text.hexByte ↔ bs = cs := by
  refine ⟨fun h => ?_, fun h => h ▸ rfl⟩
  induction bs generalizing cs with
  | nil =>
    cases cs with
    | nil => rfl
    | cons c cs => cases h
  | cons b bs ih =>
    cases cs with
    | nil => cases h
    | cons c cs =>
      obtain ⟨hbyte, hrest⟩ := List.append_inj h (by simp)
      rw [Text.hexByte_injective hbyte, ih hrest]

namespace Digest

/-- Two messages that differ have one digest. -/
def Collide (bs cs : List UInt8) : Prop := bs ≠ cs ∧ sha256 bs = sha256 cs

theorem text_inj {bs cs : List UInt8} : text bs = text cs ↔ sha256 bs = sha256 cs := by
  rw [text, text, String.ofList_inj, Text.flatMap_hexByte_inj]

theorem text_eq_iff {bs cs : List UInt8} : text bs = text cs ↔ bs = cs ∨ Collide bs cs := by
  rw [text_inj, Collide]
  by_cases h : bs = cs <;> simp [h]

end Digest

namespace Ticket

variable {run step run' step' : String}

/-- The names of a run and a step, with the null character that their token has between them. -/
def joined (run step : String) : List Char := run.toList ++ '\x00' :: step.toList

theorem tokenBytes_eq (run step : String) : tokenBytes run step = Text.Utf8.encode (joined run step) := by
  have hnull : Text.Utf8.encode ['\x00'] = [0] := by decide
  rw [tokenBytes, joined, ← List.singleton_append, ← hnull, ← Text.Utf8.encode_append, ← Text.Utf8.encode_append,
    List.singleton_append]

/-- The first step is the second one cut at a later null character: the name of its run goes on after that of the
other's run, by what the other's own name begins with. -/
def Recut (run step run' step' : String) : Prop := ∃ x, run = run' ++ "\x00" ++ x ∧ step' = x ++ "\x00" ++ step

theorem Recut.mem_null (h : Recut run step run' step') : '\x00' ∈ run.toList ∧ '\x00' ∈ step'.toList := by
  obtain ⟨x, rfl, rfl⟩ := h
  simp

theorem Recut.joined_eq (h : Recut run step run' step') : joined run step = joined run' step' := by
  obtain ⟨x, rfl, rfl⟩ := h
  simp [joined]

/-- Where the name of a run goes on after that of another one, it does so by nothing or from a null character on. -/
theorem eq_or_recut {x : List Char} (hr : run.toList = run'.toList ++ x)
    (hs : '\x00' :: step'.toList = x ++ '\x00' :: step.toList) :
    (run = run' ∧ step = step') ∨ Recut run step run' step' := by
  cases x with
  | nil =>
    have hrun : run.toList = run'.toList := by simpa using hr
    have hstep : step'.toList = step.toList := (List.cons.inj hs).2
    exact .inl ⟨String.toList_inj.mp hrun, (String.toList_inj.mp hstep).symm⟩
  | cons c x =>
    obtain ⟨rfl, hstep⟩ := List.cons.inj hs
    refine .inr ⟨String.ofList x, ?_, ?_⟩ <;> rw [← String.toList_inj]
    · simpa using hr
    · simpa using hstep

theorem joined_eq_iff : joined run step = joined run' step' ↔
    (run = run' ∧ step = step') ∨ Recut run step run' step' ∨ Recut run' step' run step := by
  constructor
  · intro h
    rcases List.append_eq_append_iff.mp h with ⟨x, hr, hs⟩ | ⟨x, hr, hs⟩
    · rcases eq_or_recut hr hs with ⟨rfl, rfl⟩ | hcut
      · exact .inl ⟨rfl, rfl⟩
      · exact .inr (.inr hcut)
    · rcases eq_or_recut hr hs with hsame | hcut
      · exact .inl hsame
      · exact .inr (.inl hcut)
  · rintro (⟨rfl, rfl⟩ | hcut | hcut)
    · rfl
    · exact hcut.joined_eq
    · exact hcut.joined_eq.symm

/-- The steps whose tokens are digests of the same bytes are cut from one text at a null character. -/
theorem tokenBytes_eq_iff : tokenBytes run step = tokenBytes run' step' ↔
    (run = run' ∧ step = step') ∨ Recut run step run' step' ∨ Recut run' step' run step := by
  rw [tokenBytes_eq, tokenBytes_eq, Text.Utf8.encode_injective.eq_iff, joined_eq_iff]

/-- **Which steps have one token.**  The tokens of two steps are the same exactly if the steps are, or if they are cut
from one text at different null characters, or if the bytes that their tokens are made of differ and have one digest. -/
theorem tokenOf_eq_iff (run step run' step' : String) :
    (tokenOf run step = tokenOf run' step' ↔
      (run = run' ∧ step = step') ∨ (Recut run step run' step' ∨ Recut run' step' run step) ∨
        Digest.Collide (tokenBytes run step) (tokenBytes run' step')) ∧
    (Recut run step run' step' → '\x00' ∈ run.toList ∧ '\x00' ∈ step'.toList) := by
  refine ⟨?_, Recut.mem_null⟩
  rw [tokenOf, tokenOf, Digest.text_eq_iff, tokenBytes_eq_iff]
  simp only [or_assoc]

/-- Two steps can differ and yet have tokens that are digests of the same bytes. -/
theorem recut_steps_share_bytes : ¬∀ run step run' step' : String,
    tokenBytes run step = tokenBytes run' step' → run = run' ∧ step = step' := by
  intro h
  have hbytes : tokenBytes "a\x00b" "c" = tokenBytes "a" "b\x00c" := by decide
  obtain ⟨hrun, -⟩ := h "a\x00b" "c" "a" "b\x00c" hbytes
  revert hrun
  decide

end Ticket

end Rejoin
