import Mathlib.Data.List.Basic
import Mathlib.Tactic.ByContra
import Rejoin.Proofs.Places
import Rejoin.Queue.Basic

/-!
# Phases of items

What each operation of the queue does to the board, and the numbering that all of them keep.

* `Queue.Numbered` — the queue knows an item exactly as long as the board has its number under another phase than
  cancelled, and knows it once;
* `Queue.phase?_of_submit_eq`, `Queue.phase?_of_start`, `Queue.phase?_of_cancel`, `Queue.phase?_finish` — the board
  after an operation;
* `Queue.Live` — the items that are pending or running.
-/

namespace Rejoin

namespace Phase

/-- Pending or started, and neither finished nor cancelled. -/
def isLive (p : Phase) : Bool := p.isPending || p.isRunning

@[simp] theorem isLive_pending : Phase.isLive .pending = true := rfl

@[simp] theorem isLive_started (e : Execution) : Phase.isLive (.started e) = true := rfl

@[simp] theorem isLive_finished (e : Execution) : Phase.isLive (.finished e) = false := rfl

@[simp] theorem isLive_cancelled : Phase.isLive .cancelled = false := rfl

theorem isPending_iff {p : Phase} : p.isPending = true ↔ p = .pending := by
  cases p <;> simp [isPending]

theorem isRunning_iff {p : Phase} : p.isRunning = true ↔ ∃ e, p = .started e := by
  cases p <;> simp [isRunning]

end Phase

namespace Queue

/-! ### Writing on the board -/

@[simp] theorem known_setPhase (q : Queue) (n : Nat) (p : Phase) : (q.setPhase n p).known = q.known := by
  cases n <;> rfl

@[simp] theorem tokens_setPhase (q : Queue) (n : Nat) (p : Phase) : (q.setPhase n p).tokens = q.tokens := by
  cases n <;> rfl

@[simp] theorem claims_setPhase (q : Queue) (n : Nat) (p : Phase) : (q.setPhase n p).claims = q.claims := by
  cases n <;> rfl

@[simp] theorem issued_setPhase (q : Queue) (n : Nat) (p : Phase) : (q.setPhase n p).issued = q.issued := by
  cases n <;> rfl

@[simp] theorem quiet_setPhase (q : Queue) (n : Nat) (p : Phase) : (q.setPhase n p).quiet = q.quiet := by
  cases n <;> rfl

/-- The board has the phases of the numbers from one up to the last accepted. -/
theorem exists_phase?_iff {q : Queue} {n : Nat} : (∃ p, q.phase? n = some p) ↔ 0 < n ∧ n ≤ q.accepted := by
  cases n with
  | zero => simp [phase?]
  | succ n =>
    simp only [phase?, accepted, ← Option.isSome_iff_exists, isSome_getElem?]
    omega

theorem phase?_eq_none_of_lt {q : Queue} {n : Nat} (h : q.accepted < n) : q.phase? n = none := by
  by_contra hn
  obtain ⟨p, hp⟩ := Option.ne_none_iff_exists'.mp hn
  have hle := (exists_phase?_iff.mp ⟨p, hp⟩).2
  omega

theorem phase?_congr {q r : Queue} (hb : r.board = q.board) (n : Nat) : r.phase? n = q.phase? n := by
  cases n <;> simp [phase?, hb]

/-- The board after the phase of an accepted item was set; only the board of the queue matters. -/
theorem phase?_setPhase {q r : Queue} {id : Nat} {o : Phase} (h : q.phase? id = some o) (hb : r.board = q.board)
    (p : Phase) (n : Nat) : (r.setPhase id p).phase? n = if n = id then some p else q.phase? n := by
  obtain ⟨h0, hle⟩ := exists_phase?_iff.mp ⟨o, h⟩
  split
  next hn => rw [hn, phase?_setPhase_self h0 (by simpa [accepted, hb] using hle)]
  next hn => rw [phase?_setPhase_of_ne r (Ne.symm hn) p, phase?_congr hb]

/-! ### Numbering -/

/-- The queue knows each item once, in the order of their numbers, and it knows those that the board does not have
as cancelled. -/
structure Numbered (q : Queue) : Prop where
  ascending : q.known.Pairwise fun i j => i.id < j.id
  known_iff : ∀ n, (∃ i ∈ q.known, i.id = n) ↔ ∃ p, q.phase? n = some p ∧ p ≠ .cancelled

namespace Numbered

variable {q : Queue}

theorem phase?_of_mem (h : q.Numbered) {i : Item} (hi : i ∈ q.known) :
    ∃ p, q.phase? i.id = some p ∧ p ≠ .cancelled := (h.known_iff i.id).mp ⟨i, hi, rfl⟩

theorem id_le (h : q.Numbered) {i : Item} (hi : i ∈ q.known) : i.id ≤ q.accepted := by
  obtain ⟨p, hp, -⟩ := h.phase?_of_mem hi
  exact (exists_phase?_iff.mp ⟨p, hp⟩).2

theorem eq_of_id_eq (h : q.Numbered) {i j : Item} (hi : i ∈ q.known) (hj : j ∈ q.known) (e : i.id = j.id) :
    i = j := by
  have hlt := List.pairwise_iff_getElem.mp h.ascending
  obtain ⟨a, ha, rfl⟩ := List.getElem_of_mem hi
  obtain ⟨b, hb, rfl⟩ := List.getElem_of_mem hj
  rcases Nat.lt_trichotomy a b with hab | rfl | hab
  · have hid := hlt a b ha hb hab
    omega
  · rfl
  · have hid := hlt b a hb ha hab
    omega

theorem item?_eq_some (h : q.Numbered) {n : Nat} {i : Item} : q.item? n = some i ↔ i ∈ q.known ∧ i.id = n := by
  constructor
  · intro hi
    have hid : i.id = n := by simpa using List.find?_some hi
    exact ⟨List.mem_of_find?_eq_some hi, hid⟩
  · rintro ⟨hi, rfl⟩
    obtain ⟨j, hj⟩ : ∃ j, q.item? i.id = some j := by
      rw [← Option.isSome_iff_exists, item?, List.find?_isSome]
      exact ⟨i, hi, by simp⟩
    have hj' := List.mem_of_find?_eq_some hj
    have e : j.id = i.id := by simpa using List.find?_some hj
    rw [hj, h.eq_of_id_eq hj' hi e]

theorem item?_eq_none (h : q.Numbered) {n : Nat} :
    q.item? n = none ↔ q.phase? n = none ∨ q.phase? n = some .cancelled := by
  have hk := h.known_iff n
  have hn : q.item? n = none ↔ ¬ ∃ i ∈ q.known, i.id = n := by simp [item?]
  rw [hn, hk]
  cases q.phase? n <;> simp

theorem arrive_eq (h : q.Numbered) (n : Nat) : q.arrive n = q.news? n := by
  unfold arrive
  split
  next => rfl
  next hn =>
    have hn : q.item? n = none := by simpa using hn
    rcases h.item?_eq_none.mp hn with hp | hp <;> simp [news?, hp]

end Numbered

theorem numbered_empty : Numbered {} := by
  refine ⟨.nil, ?_⟩
  intro n
  cases n <;> simp [phase?]

/-! ### Items that are pending or running -/

def Live (q : Queue) (i : Item) : Prop := i ∈ q.pending ∨ i ∈ q.running

theorem live_iff {q : Queue} {i : Item} :
    q.Live i ↔ i ∈ q.known ∧ ∃ p, q.phase? i.id = some p ∧ p.isLive = true := by
  simp only [Live, pending, running, List.mem_filter, isPending, isRunning, Option.any_eq_true, ← and_or_left]
  refine and_congr_right fun _ => ?_
  cases h : q.phase? i.id <;> simp [Phase.isLive]

theorem isPending_iff {q : Queue} {i : Item} : q.isPending i = true ↔ q.phase? i.id = some .pending := by
  simp only [isPending, Option.any_eq_true, Phase.isPending_iff, exists_eq_right]

theorem isRunning_iff {q : Queue} {i : Item} : q.isRunning i = true ↔ ∃ e, q.phase? i.id = some (.started e) := by
  simp only [isRunning, Option.any_eq_true, Phase.isRunning_iff]
  constructor
  · rintro ⟨_, hp, e, rfl⟩
    exact ⟨e, hp⟩
  · rintro ⟨e, hp⟩
    exact ⟨_, hp, e, rfl⟩

theorem Numbered.exists_running_iff {q : Queue} (h : q.Numbered) {n : Nat} :
    (∃ i ∈ q.running, i.id = n) ↔ ∃ e, q.phase? n = some (.started e) := by
  constructor
  · rintro ⟨i, hi, rfl⟩
    exact isRunning_iff.mp (List.mem_filter.mp hi).2
  · rintro ⟨e, hp⟩
    obtain ⟨i, hi, rfl⟩ := (h.known_iff n).mpr ⟨_, hp, nofun⟩
    exact ⟨i, List.mem_filter.mpr ⟨hi, isRunning_iff.mpr ⟨e, hp⟩⟩, rfl⟩

/-! ### The board after an operation -/

section Operations

variable {q q' : Queue}

theorem id_of_item? {n : Nat} {i : Item} (h : q.item? n = some i) : i.id = n := by simpa using List.find?_some h

/-- What is accepted is the next number's item, pending, and indexed by its token. -/
theorem submit_eq_some {w : Work} {priority : Nat} {i : Item} : q.submit w priority = some (i, q') ↔
    q.quiet = false ∧ i = ⟨q.accepted + 1, w, priority⟩ ∧ q' = { q with
      known := q.known ++ [i], board := q.board ++ [.pending], tokens := q.indexed w.token? i.id } := by
  unfold submit
  cases q.quiet with
  | true => simp
  | false =>
    simp only [Bool.false_eq_true, if_false, Option.some.injEq, Prod.mk.injEq, true_and]
    constructor
    · rintro ⟨rfl, rfl⟩
      exact ⟨rfl, rfl⟩
    · rintro ⟨rfl, rfl⟩
      exact ⟨rfl, rfl⟩

theorem known_of_submit {w : Work} {priority : Nat} {i : Item} (h : q.submit w priority = some (i, q')) :
    q'.known = q.known ++ [i] := by
  obtain ⟨-, rfl, rfl⟩ := submit_eq_some.mp h
  rfl

theorem phase?_of_submit_eq {w : Work} {priority : Nat} {i : Item} (h : q.submit w priority = some (i, q'))
    (n : Nat) : q'.phase? n = if n = i.id then some .pending else q.phase? n := by
  obtain ⟨-, rfl, rfl⟩ := submit_eq_some.mp h
  cases n with
  | zero => simp [phase?]
  | succ n =>
    simp only [phase?, accepted, Nat.add_right_cancel_iff, getElem?_concat]

theorem filter_known_of_submit (hn : q.Numbered) {w : Work} {priority : Nat} {i : Item}
    (h : q.submit w priority = some (i, q')) : q'.pending = q.pending ++ [i] ∧ q'.running = q.running := by
  have hi : q'.phase? i.id = some .pending := phase?_of_submit h
  have hk : ∀ j ∈ q.known, q'.phase? j.id = q.phase? j.id := by
    intro j hj
    have hle := hn.id_le hj
    have hid := (accepted_of_submit h).2
    rw [phase?_of_submit_eq h, if_neg (by omega)]
  constructor
  · have hold : ∀ j ∈ q.known, q'.isPending j = q.isPending j := by
      intro j hj
      rw [isPending, hk j hj, isPending]
    rw [pending, known_of_submit h, List.filter_append, pending, List.filter_congr hold]
    simp [isPending, hi, Phase.isPending]
  · have hold : ∀ j ∈ q.known, q'.isRunning j = q.isRunning j := by
      intro j hj
      rw [isRunning, hk j hj, isRunning]
    rw [running, known_of_submit h, List.filter_append, running, List.filter_congr hold]
    simp [isRunning, hi, Phase.isRunning]

/-- A start hands a pending item to the slot under a new number. -/
theorem start_eq_ok {id : Nat} {s : Slot} {e : Execution} : q.start id s = .ok (e, q') ↔
    q.phase? id = some .pending ∧ ∃ i, q.item? id = some i ∧ e = ⟨q.issued + 1, id, i.work.text⟩ ∧
      q' = { q with issued := q.issued + 1, claims := (e.id, s) :: q.claims }.setPhase id (.started e) := by
  unfold start
  cases hi : q.item? id with
  | none => simp
  | some i =>
    have hp : q.isPending i = true ↔ q.phase? id = some .pending := by rw [isPending_iff, id_of_item? hi]
    by_cases h : q.isPending i = true
    · simp only [h, if_true, hp.mp h, Except.ok.injEq, Prod.mk.injEq, Option.some.injEq, true_and]
      constructor
      · rintro ⟨rfl, rfl⟩
        exact ⟨i, rfl, rfl, rfl⟩
      · rintro ⟨_, rfl, rfl, rfl⟩
        exact ⟨rfl, rfl⟩
    · simp [h, mt hp.mpr h]

theorem issued_of_start {id : Nat} {s : Slot} {e : Execution} (h : q.start id s = .ok (e, q')) :
    q'.issued = q.issued + 1 ∧ e.id = q.issued + 1 ∧ e.item = id := by
  obtain ⟨-, i, -, rfl, rfl⟩ := start_eq_ok.mp h
  simp

theorem known_of_start {id : Nat} {s : Slot} {e : Execution} (h : q.start id s = .ok (e, q')) :
    q'.known = q.known := by
  obtain ⟨-, i, -, -, rfl⟩ := start_eq_ok.mp h
  simp

theorem accepted_of_start {id : Nat} {s : Slot} {e : Execution} (h : q.start id s = .ok (e, q')) :
    q'.accepted = q.accepted := by
  obtain ⟨-, i, -, -, rfl⟩ := start_eq_ok.mp h
  exact accepted_setPhase _ id _

theorem phase?_of_start {id : Nat} {s : Slot} {e : Execution} (h : q.start id s = .ok (e, q')) (n : Nat) :
    q'.phase? n = if n = id then some (.started e) else q.phase? n := by
  obtain ⟨hp, i, -, -, rfl⟩ := start_eq_ok.mp h
  exact phase?_setPhase hp (by rfl) _ n

/-- What is cancelled was pending; it leaves the queue and the index. -/
theorem cancel_eq_true {id : Nat} : q.cancel id = (true, q') ↔
    q.phase? id = some .pending ∧ (q.item? id).isSome = true ∧
      q' = ({ q with known := q.known.filter (·.id ≠ id) }.forget id).setPhase id .cancelled := by
  unfold cancel
  cases hi : q.item? id with
  | none => simp
  | some i =>
    have hp : q.isPending i = true ↔ q.phase? id = some .pending := by rw [isPending_iff, id_of_item? hi]
    by_cases h : q.isPending i = true
    · simp [h, hp.mp h, eq_comm]
    · simp [h, mt hp.mpr h]

theorem known_of_cancel {id : Nat} (h : q.cancel id = (true, q')) : q'.known = q.known.filter (·.id ≠ id) := by
  obtain ⟨-, -, rfl⟩ := cancel_eq_true.mp h
  simp [forget]

theorem accepted_of_cancel {id : Nat} (h : q.cancel id = (true, q')) : q'.accepted = q.accepted := by
  obtain ⟨-, -, rfl⟩ := cancel_eq_true.mp h
  exact accepted_setPhase _ id _

theorem phase?_of_cancel {id : Nat} (h : q.cancel id = (true, q')) (n : Nat) :
    q'.phase? n = if n = id then some .cancelled else q.phase? n := by
  obtain ⟨hp, -, rfl⟩ := cancel_eq_true.mp h
  exact phase?_setPhase hp (by rfl) _ n

theorem phase?_finish (h : q.Numbered) (e : Execution) (n : Nat) :
    (q.finish e).phase? n = if n = e.item ∧ (q.item? n).isSome = true then some (.finished e) else q.phase? n := by
  have hi : ({ q with claims := q.claims.filter (·.1 ≠ e.id) }.forget e.item).item? e.item = q.item? e.item := rfl
  unfold finish
  simp only [hi]
  cases hk : q.item? e.item with
  | none =>
    have hn : ¬(n = e.item ∧ (q.item? n).isSome = true) := by
      rintro ⟨rfl, hs⟩
      simp [hk] at hs
    rw [if_neg hn]
    rfl
  | some i =>
    obtain ⟨hm, hid⟩ := h.item?_eq_some.mp hk
    obtain ⟨p, hp, -⟩ := h.phase?_of_mem hm
    rw [hid] at hp
    rw [if_pos (by rfl), phase?_setPhase hp (by rfl)]
    by_cases hn : n = e.item <;> simp [hn, hk]

@[simp] theorem known_finish (q : Queue) (e : Execution) : (q.finish e).known = q.known := by
  unfold finish
  dsimp only
  split <;> simp [forget]

@[simp] theorem tokens_finish (q : Queue) (e : Execution) :
    (q.finish e).tokens = q.tokens.filter (·.2 ≠ e.item) := by
  unfold finish
  dsimp only
  split <;> simp [forget]

@[simp] theorem claims_finish (q : Queue) (e : Execution) :
    (q.finish e).claims = q.claims.filter (·.1 ≠ e.id) := by
  unfold finish
  dsimp only
  split <;> simp [forget]

@[simp] theorem issued_finish (q : Queue) (e : Execution) : (q.finish e).issued = q.issued := by
  unfold finish
  dsimp only
  split <;> simp [forget]

@[simp] theorem accepted_finish (q : Queue) (e : Execution) : (q.finish e).accepted = q.accepted := by
  unfold finish
  dsimp only
  split
  · exact accepted_setPhase _ e.item _
  · rfl

/-! ### The slot of an execution after an operation -/

theorem claimed?_of_submit {w : Work} {priority : Nat} {i : Item} (h : q.submit w priority = some (i, q'))
    (x : Execution) : q'.claimed? x = q.claimed? x := by
  obtain ⟨-, -, rfl⟩ := submit_eq_some.mp h
  rfl

theorem claimed?_of_start {id : Nat} {s : Slot} {e : Execution} (h : q.start id s = .ok (e, q')) (x : Execution) :
    q'.claimed? x = if x.id = e.id then some s else q.claimed? x := by
  obtain ⟨-, i, -, rfl, rfl⟩ := start_eq_ok.mp h
  simp only [claimed?, claims_setPhase, List.lookup_cons]
  by_cases hx : x.id = q.issued + 1
  · simp [hx]
  · simp [hx, beq_eq_false_iff_ne.mpr hx]

theorem claimed?_of_cancel {id : Nat} (h : q.cancel id = (true, q')) (x : Execution) :
    q'.claimed? x = q.claimed? x := by
  obtain ⟨-, -, rfl⟩ := cancel_eq_true.mp h
  simp [claimed?, forget]

theorem claimed?_finish (q : Queue) (e x : Execution) :
    (q.finish e).claimed? x = if x.id = e.id then none else q.claimed? x := by
  rw [claimed?, claims_finish, claimed?]
  induction q.claims with
  | nil => simp
  | cons c cs ih =>
    by_cases hc : c.1 = e.id
    · rw [List.filter_cons_of_neg (by simpa using hc), ih]
      by_cases hx : x.id = e.id
      · simp [hx]
      · rw [if_neg hx, if_neg hx, List.lookup_cons, beq_eq_false_iff_ne.mpr (hc ▸ hx)]
    · rw [List.filter_cons_of_pos (by simpa using hc), List.lookup_cons, List.lookup_cons, ih]
      by_cases hx : x.id = c.1
      · simp [hx, hc]
      · rw [beq_eq_false_iff_ne.mpr hx]

/-! ### Numbering is kept -/

namespace Numbered

/-- Numbering depends on what is known and on which numbers are cancelled alone. -/
theorem of_phases (h : q.Numbered) (hk : q'.known = q.known) (hp : ∀ n,
    (∃ p, q'.phase? n = some p ∧ p ≠ .cancelled) ↔ ∃ p, q.phase? n = some p ∧ p ≠ .cancelled) : q'.Numbered := by
  constructor
  · rw [hk]
    exact h.ascending
  · intro n
    rw [hk, hp]
    exact h.known_iff n

theorem setQuiet (h : q.Numbered) (on : Bool) : (q.setQuiet on).Numbered := h.of_phases rfl fun _ => Iff.rfl

theorem of_submit (h : q.Numbered) {w : Work} {priority : Nat} {i : Item} (hs : q.submit w priority = some (i, q')) :
    q'.Numbered := by
  have hid := (accepted_of_submit hs).2
  constructor
  · rw [known_of_submit hs]
    refine List.pairwise_append.mpr ⟨h.ascending, List.pairwise_singleton _ _, ?_⟩
    intro j hj k hk
    obtain rfl := List.mem_singleton.mp hk
    have hle := h.id_le hj
    omega
  · intro n
    rw [known_of_submit hs, phase?_of_submit_eq hs]
    by_cases hn : n = i.id
    · simp [hn]
    · have he : (∃ j ∈ q.known ++ [i], j.id = n) ↔ ∃ j ∈ q.known, j.id = n := by
        simp [or_and_right, exists_or, Ne.symm hn]
      rw [he, h.known_iff, if_neg hn]

theorem of_start (h : q.Numbered) {id : Nat} {s : Slot} {e : Execution} (hs : q.start id s = .ok (e, q')) :
    q'.Numbered := by
  have hp := (start_eq_ok.mp hs).1
  refine h.of_phases (known_of_start hs) fun n => ?_
  rw [phase?_of_start hs]
  by_cases hn : n = id <;> simp [hn, hp]

theorem of_cancel (h : q.Numbered) {id : Nat} (hs : q.cancel id = (true, q')) : q'.Numbered := by
  constructor
  · rw [known_of_cancel hs]
    exact h.ascending.filter _
  · intro n
    rw [known_of_cancel hs, phase?_of_cancel hs]
    by_cases hn : n = id
    · simp [hn]
    · rw [if_neg hn, ← h.known_iff]
      simp only [List.mem_filter, decide_eq_true_eq]
      constructor
      · rintro ⟨i, ⟨hi, -⟩, rfl⟩
        exact ⟨i, hi, rfl⟩
      · rintro ⟨i, hi, rfl⟩
        exact ⟨i, ⟨hi, hn⟩, rfl⟩

theorem finish (h : q.Numbered) (e : Execution) : (q.finish e).Numbered := by
  refine h.of_phases (known_finish q e) fun n => ?_
  rw [phase?_finish h]
  split
  next hn =>
    obtain ⟨i, hi⟩ := Option.isSome_iff_exists.mp hn.2
    obtain ⟨hm, rfl⟩ := h.item?_eq_some.mp hi
    obtain ⟨p, hp, hc⟩ := h.phase?_of_mem hm
    simp [hp, hc]
  next => rfl

end Numbered

end Operations

end Queue

end Rejoin
