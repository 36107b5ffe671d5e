import Rejoin.Proofs.Text.Numeral
import Rejoin.Settings

/-!
# Settings from variables

* `Settings.Unset`, `Settings.Denotes` — a variable with nothing but blanks, and one with a numeral between blanks;
  `Settings.Grants` — what either makes of a setting;
* `Settings.denotes_spelled` — a variable denotes a number however it is spelled;
* `Settings.read_eq_ok_iff` — the settings that are granted are read, and no others;
* `SettingsError.Names` — an error that names a variable;
* `Settings.read_variables` — the settings that are read, and the variable that is at fault where none are.
-/

namespace Rejoin

/-- The message of an error begins with the name of a variable, or says of it that it is invalid. -/
def SettingsError.Names (e : SettingsError) (name : String) : Prop :=
  ∃ before ∈ ["", "invalid "], ∃ rest, e.message = before ++ name ++ rest

theorem SettingsError.names_of_quoted {e : SettingsError} (opening : String) {name raw rest : String}
    (ho : opening = "invalid " ++ name ++ "='") (h : e.message = opening ++ raw ++ rest) : e.Names name := by
  refine ⟨"invalid ", .tail _ (.head _), "='" ++ (raw ++ rest), ?_⟩
  rw [h, ho, String.append_assoc, String.append_assoc]

namespace Settings

open Text

/-- A variable that is not set, or to nothing but blanks. -/
def Unset (v : Option String) : Prop := ∀ s ∈ v, Blank s.toList

/-- A variable that is set to a numeral between blanks. -/
def Denotes (v : Option String) (n : Nat) : Prop := ∃ s ∈ v, ∃ core, Framed s.toList core ∧ IsNumeral core n

/-- What a variable makes of a setting with bounds and a fallback. -/
def Grants (least most fallback : Nat) (v : Option String) (n : Nat) : Prop :=
  (Unset v ∧ n = fallback) ∨ (Denotes v n ∧ least ≤ n ∧ n ≤ most)

section Values

variable {v : Option String} {raw : List Char} {least most fallback m n : Nat}

theorem given_some (s : String) : given (some s) = if trim s.toList = [] then none else some (trim s.toList) := by
  by_cases h : trim s.toList = [] <;> simp [given, h]

theorem given_eq_none_iff : given v = none ↔ Unset v := by
  cases v with
  | none => exact iff_of_true rfl nofun
  | some s =>
    have hunset : Unset (some s) ↔ trim s.toList = [] := by simp [Unset, trim_eq_nil_iff]
    rw [hunset, given_some]
    split <;> simp [*]

theorem given_eq_some_iff : given v = some raw ↔ raw ≠ [] ∧ ∃ s ∈ v, Framed s.toList raw := by
  cases v with
  | none => exact iff_of_false nofun (by simp)
  | some s =>
    have hframed : (∃ s' ∈ some s, Framed s'.toList raw) ↔ trim s.toList = raw := by simp [trim_eq_iff]
    rw [hframed, given_some]
    constructor
    · intro h
      split at h
      next => cases h
      next hne => exact ⟨Option.some.inj h ▸ hne, Option.some.inj h⟩
    · rintro ⟨hne, rfl⟩
      rw [if_neg hne]

theorem denotes_of_given (h : given v = some raw) : Denotes v n ↔ IsNumeral raw n := by
  obtain ⟨-, s, rfl, hraw⟩ := given_eq_some_iff.mp h
  constructor
  · rintro ⟨s', hs, core, hcore, hn⟩
    cases hs
    rwa [← trim_of_framed hraw, trim_of_framed hcore]
  · exact fun hn => ⟨s, rfl, raw, hraw, hn⟩

theorem given_of_denotes (h : Denotes v n) : ∃ raw, given v = some raw := by
  obtain ⟨s, hs, core, hcore, hn⟩ := h
  exact ⟨core, given_eq_some_iff.mpr ⟨(not_blank_of_isNumeral hn).2, s, hs, hcore⟩⟩

theorem grants_of_unset (h : given v = none) : Grants least most fallback v n ↔ n = fallback := by
  have hdenotes : ¬ Denotes v n := by
    intro hn
    obtain ⟨raw, hraw⟩ := given_of_denotes hn
    rw [h] at hraw
    cases hraw
  simp [Grants, given_eq_none_iff.mp h, hdenotes]

theorem grants_of_given (h : given v = some raw) :
    Grants least most fallback v n ↔ numeral? most raw = some n ∧ least ≤ n := by
  have hset : ¬ Unset v := by
    rw [← given_eq_none_iff, h]
    nofun
  rw [numeral?_eq_some_iff, ← denotes_of_given h]
  simp [Grants, hset, and_assoc, and_comm]

theorem readPatience_eq_ok_iff : readPatience v = .ok n ↔ Grants 1 (Nat.pow 2 64 - 1) 300000 v n := by
  rw [readPatience]
  split
  next h =>
    rw [grants_of_unset h, Except.ok.injEq]
    exact eq_comm
  next raw h =>
    rw [grants_of_given h]
    generalize numeral? (Nat.pow 2 64 - 1) raw = o
    match o with
    | none => simp
    | some 0 =>
      refine iff_of_false nofun ?_
      rintro ⟨hn, hle⟩
      cases hn
      exact absurd hle (by decide)
    | some (m + 1) =>
      simp only [Except.ok.injEq, Option.some.injEq, iff_self_and]
      omega

theorem readPriority_eq_ok_iff : readPriority v = .ok n ↔ Grants 0 (Nat.pow 2 32 - 1) 0 v n := by
  rw [readPriority]
  split
  next h =>
    rw [grants_of_unset h, Except.ok.injEq]
    exact eq_comm
  next raw h =>
    rw [grants_of_given h]
    cases numeral? (Nat.pow 2 32 - 1) raw <;> simp

theorem denotes_spelled {l r : List Char} (hl : Blank l) (hr : Blank r) (plus : Bool) (zeros n : Nat) :
    Denotes (some (spelled l plus zeros n r)) n :=
  ⟨_, rfl, isNumeral_spelled hl hr plus zeros n⟩

theorem grants_of_denotes (h : Denotes v m) : Grants least most fallback v n ↔ n = m ∧ least ≤ n ∧ n ≤ most := by
  obtain ⟨raw, hraw⟩ := given_of_denotes h
  have hm : IsNumeral raw m := (denotes_of_given hraw).mp h
  rw [grants_of_given hraw, numeral?_eq_some_iff]
  constructor
  · rintro ⟨⟨hn, hmost⟩, hleast⟩
    exact ⟨hn.unique hm, hleast, hmost⟩
  · rintro ⟨rfl, hleast, hmost⟩
    exact ⟨⟨hm, hmost⟩, hleast⟩

theorem grants_spelled {l r : List Char} (hl : Blank l) (hr : Blank r) (plus : Bool) (zeros m : Nat) :
    Grants least most fallback (some (spelled l plus zeros m r)) n ↔
      Grants least most fallback (some (toString m)) n := by
  have husual : spelled [] false 0 m [] = toString m := by
    rw [spelled, ← String.toList_inj]
    simp
  have hdenotes : Denotes (some (spelled [] false 0 m [])) m :=
    denotes_spelled (List.forall_mem_nil _) (List.forall_mem_nil _) false 0 m
  rw [husual] at hdenotes
  rw [grants_of_denotes (denotes_spelled hl hr plus zeros m), grants_of_denotes hdenotes]

end Values

/-! ### Settings and errors -/

section Reading

variable {v p q : Option String} {e : SettingsError}

theorem read_eq_ok_iff {s : Settings} : read p q = .ok s ↔
    Grants 1 (Nat.pow 2 64 - 1) 300000 p s.patience ∧ Grants 0 (Nat.pow 2 32 - 1) 0 q s.priority := by
  rw [← readPatience_eq_ok_iff, ← readPriority_eq_ok_iff, read]
  cases readPatience p with
  | error e =>
    refine iff_of_false (fun h => ?_) (fun h => ?_)
    · cases h
    · cases h.1
  | ok m =>
    cases readPriority q with
    | error e =>
      refine iff_of_false (fun h => ?_) (fun h => ?_)
      · cases h
      · cases h.2
    | ok n =>
      obtain ⟨patience, priority⟩ := s
      show Except.ok (⟨m, n⟩ : Settings) = .ok ⟨patience, priority⟩ ↔ _
      simp

theorem names_of_readPatience (h : readPatience v = .error e) : e.Names "TETHER_NODE_WAIT_TIMEOUT_MS" := by
  rw [readPatience] at h
  split at h
  next => cases h
  next raw _ =>
    split at h
    next =>
      cases h
      exact SettingsError.names_of_quoted "invalid TETHER_NODE_WAIT_TIMEOUT_MS='" (by decide) rfl
    next =>
      cases h
      exact ⟨"", .head _, " must be greater than zero", by decide⟩
    next => cases h

theorem names_of_readPriority (h : readPriority v = .error e) : e.Names "TETHER_QUEUE_PRIORITY" := by
  rw [readPriority] at h
  split at h
  next => cases h
  next raw _ =>
    split at h
    next =>
      cases h
      exact SettingsError.names_of_quoted "invalid TETHER_QUEUE_PRIORITY='" (by decide) rfl
    next => cases h

theorem read_of_bad_priority {n : Nat} (hp : readPatience p = .ok n) (hq : readPriority q = .error e) :
    read p q = .error e := by
  simp only [read, hp, hq]
  rfl

end Reading

/-- **Settings from variables.**  The settings that are read are those that the two variables grant: a variable that is
not set, or to nothing but blanks, grants the default, and one that is set to a numeral between blanks grants what the
numeral denotes, within the bounds.  Where the patience is granted nothing, an error names its variable, whatever there
is of the priority; where only the priority is granted nothing, an error names that one's.  A number is the same
whatever blanks, plus sign and zeros are around it and in front. -/
theorem read_variables (p q : Option String) :
    (∀ s, read p q = .ok s ↔
      Grants 1 (Nat.pow 2 64 - 1) 300000 p s.patience ∧ Grants 0 (Nat.pow 2 32 - 1) 0 q s.priority) ∧
    ((∀ n, ¬ Grants 1 (Nat.pow 2 64 - 1) 300000 p n) →
      ∃ e, read p q = .error e ∧ e.Names "TETHER_NODE_WAIT_TIMEOUT_MS") ∧
    ((∃ n, Grants 1 (Nat.pow 2 64 - 1) 300000 p n) → (∀ n, ¬ Grants 0 (Nat.pow 2 32 - 1) 0 q n) →
      ∃ e, read p q = .error e ∧ e.Names "TETHER_QUEUE_PRIORITY") ∧
    ∀ l r, Blank l → Blank r → ∀ plus zeros n s,
      (read (some (spelled l plus zeros n r)) q = .ok s ↔ read (some (toString n)) q = .ok s) ∧
      (read p (some (spelled l plus zeros n r)) = .ok s ↔ read p (some (toString n)) = .ok s) := by
  refine ⟨fun s => read_eq_ok_iff, fun hp => ?_, fun hp hq => ?_, fun l r hl hr plus zeros n s => ⟨?_, ?_⟩⟩
  · cases he : readPatience p with
    | ok n => exact absurd (readPatience_eq_ok_iff.mp he) (hp n)
    | error e => exact ⟨e, read_of_bad_patience he q, names_of_readPatience he⟩
  · obtain ⟨n, hn⟩ := hp
    cases he : readPriority q with
    | ok n => exact absurd (readPriority_eq_ok_iff.mp he) (hq n)
    | error e => exact ⟨e, read_of_bad_priority (readPatience_eq_ok_iff.mpr hn) he, names_of_readPriority he⟩
  · rw [read_eq_ok_iff, read_eq_ok_iff, grants_spelled hl hr]
  · rw [read_eq_ok_iff, read_eq_ok_iff, grants_spelled hl hr]

/-- A spelled-out patience is read; of two faults that of the patience counts; a priority may have 32 bits. -/
theorem read_variables_spelled :
    let patience := "\u3000+001500\t"
    (Blank ['\u3000'] ∧ Blank ['\t'] ∧ patience = spelled ['\u3000'] true 2 1500 ['\t']) ∧
      read (some patience) none = .ok ⟨1500, 0⟩ ∧
      (∃ e, read (some "0") (some "soon") = .error e ∧ e.Names "TETHER_NODE_WAIT_TIMEOUT_MS") ∧
      ∃ e, read (some patience) (some "4294967296") = .error e ∧ e.Names "TETHER_QUEUE_PRIORITY" := by
  intro patience
  have hblank : Blank ['\u3000'] ∧ Blank ['\t'] :=
    ⟨List.forall_mem_singleton.mpr (by decide), List.forall_mem_singleton.mpr (by decide)⟩
  have hspelled : patience = spelled ['\u3000'] true 2 1500 ['\t'] := by decide
  obtain ⟨-, -, -, hspelling⟩ := read_variables none none
  have hread : read (some patience) none = .ok ⟨1500, 0⟩ := by
    rw [hspelled]
    exact (hspelling _ _ hblank.1 hblank.2 true 2 1500 ⟨1500, 0⟩).1.mpr (by decide)
  obtain ⟨hgrants, -⟩ := read_variables (some patience) none
  obtain ⟨-, hpatience, -⟩ := read_variables (some "0") (some "soon")
  obtain ⟨-, -, hpriority, -⟩ := read_variables (some patience) (some "4294967296")
  refine ⟨⟨hblank.1, hblank.2, hspelled⟩, hread, hpatience fun n hn => ?_,
    hpriority ⟨1500, ((hgrants _).mp hread).1⟩ fun n hn => ?_⟩
  · have hzero : readPatience (some "0") = .error .zeroPatience := by decide
    rw [readPatience_eq_ok_iff.mpr hn] at hzero
    cases hzero
  · have hlarge : readPriority (some "4294967296") = .error (.badPriority "4294967296") := by decide
    rw [readPriority_eq_ok_iff.mpr hn] at hlarge
    cases hlarge

end Settings

end Rejoin
