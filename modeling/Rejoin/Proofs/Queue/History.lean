import Mathlib.Data.List.Nodup
import Mathlib.Data.List.Range
import Rejoin.Proofs.World.Log

/-!
# Histories of a queue

What can be done to a queue that stands by itself, and what is known of it afterwards.

* `Queue.Act` — what can be done.  An execution is finished by the place of its start in the order of starts, so
  that nothing is finished but what the queue started, though late or more than once;
* `Queue.History` — a queue with the items that were submitted to it and what it was told of them;
* `Queue.History.did_step` — what an act does, and that it does nothing only where the queue refuses it;
* `Queue.History.Kept`, `Queue.History.kept_after` — what every act keeps, and so every list of acts: items and
  executions are numbered from one, and the queue knows the items that were not cancelled.
-/

namespace Rejoin.Queue

inductive Act where
  | submit (w : Work) (priority : Nat)
  | start (item : Nat) (s : Slot)
  | cancel (item : Nat)
  /-- Ends the execution of the start that has the place. -/
  | finish (place : Nat)
  | setQuiet (on : Bool)
deriving DecidableEq, Repr

/-- A queue with what it was told, and the work that was submitted, in order, each under the number that the queue gave
it. -/
structure History extends World.Log where
  items : List Item := []

namespace History

/-- What an act does; one that the queue refuses does nothing. -/
def step (h : History) : Act → History
  | .submit w priority =>
    match h.queue.submit w priority with
    | some (i, q) => { h with queue := q, items := h.items ++ [⟨i.id, w, priority⟩] }
    | none => h
  | .start item s =>
    match h.queue.start item s with
    | .ok (e, q) => { h with queue := q, starts := h.starts ++ [⟨e, s, 0⟩] }
    | .error _ => h
  | .cancel item =>
    match h.queue.cancel item with
    | (true, q) => { h with queue := q, cancels := item :: h.cancels }
    | (false, _) => h
  | .finish place =>
    match h.starts[place]? with
    | some a => { h with queue := h.queue.finish a.execution, finishes := a.execution :: h.finishes }
    | none => h
  | .setQuiet on => { h with queue := h.queue.setQuiet on }

def after (as : List Act) : History := as.foldl step {}

@[simp] theorem after_nil : after [] = {} := rfl

@[simp] theorem after_concat (as : List Act) (a : Act) : after (as ++ [a]) = (after as).step a := by
  simp [after, List.foldl_append]

/-- The queue takes no such act: it accepts nothing, the item is not pending, or there was no such start. -/
def Refuses (h : History) : Act → Prop
  | .submit w priority => h.queue.submit w priority = none
  | .start item s => ∃ x, h.queue.start item s = .error x
  | .cancel item => (h.queue.cancel item).1 = false
  | .finish place => h.starts[place]? = none
  | .setQuiet _ => False

inductive Did (h : History) : Act → History → Prop
  | submitted {w : Work} {priority : Nat} {i : Item} {q : Queue} (hs : h.queue.submit w priority = some (i, q)) :
    Did h (.submit w priority) { h with queue := q, items := h.items ++ [i] }
  | started {item : Nat} {s : Slot} {e : Execution} {q : Queue} (hs : h.queue.start item s = .ok (e, q)) :
    Did h (.start item s) { h with queue := q, starts := h.starts ++ [⟨e, s, 0⟩] }
  | cancelled {item : Nat} {q : Queue} (hs : h.queue.cancel item = (true, q)) :
    Did h (.cancel item) { h with queue := q, cancels := item :: h.cancels }
  | finished {place : Nat} {a : World.Start} (ha : h.starts[place]? = some a) :
    Did h (.finish place) { h with queue := h.queue.finish a.execution, finishes := a.execution :: h.finishes }
  | quieted (on : Bool) : Did h (.setQuiet on) { h with queue := h.queue.setQuiet on }
  | refused {a : Act} (hr : h.Refuses a) : Did h a h

theorem did_step (h : History) (a : Act) : Did h a (h.step a) := by
  cases a with
  | submit w priority =>
    simp only [step]
    split
    next i q hs =>
      obtain ⟨-, rfl, -⟩ := submit_eq_some.mp hs
      exact .submitted hs
    next hs => exact .refused hs
  | start item s =>
    simp only [step]
    split
    next hs => exact .started hs
    next x hs => exact .refused ⟨x, hs⟩
  | cancel item =>
    simp only [step]
    split
    next hs => exact .cancelled hs
    next hs => exact .refused (congrArg Prod.fst hs)
  | finish place =>
    simp only [step]
    split
    next ha => exact .finished ha
    next ha => exact .refused ha
  | setQuiet on => exact .quieted on

theorem after_keeps {P : History → Prop} (h₀ : P {}) (hP : ∀ h a h', Did h a h' → P h → P h') (as : List Act) :
    P (after as) := by
  induction as using List.reverseRecOn with
  | nil => exact h₀
  | append_singleton as a ih =>
    rw [after_concat]
    exact hP _ a _ (did_step _ a) ih

/-! ### What is kept -/

/-- The log is faithful, items and executions are numbered from one in the order in which they came, and the queue
knows the items that were not cancelled. -/
structure Kept (h : History) : Prop where
  faithful : h.Faithful
  accepted : h.items.map (·.id) = List.range' 1 h.queue.accepted
  known : h.queue.known = h.items.filter fun i => h.queue.phase? i.id ≠ some .cancelled
  issued : h.starts.map (·.execution.id) = List.range' 1 h.queue.issued

theorem kept_empty : Kept {} where
  faithful := World.Log.faithful_empty
  accepted := rfl
  known := rfl
  issued := rfl

namespace Kept

variable {h : History}

theorem numbered (hk : h.Kept) : h.queue.Numbered := hk.faithful.numbered

theorem mem_ids (hk : h.Kept) {n : Nat} : (∃ i ∈ h.items, i.id = n) ↔ 0 < n ∧ n ≤ h.queue.accepted := by
  have hm : n ∈ h.items.map (·.id) ↔ 1 ≤ n ∧ n < 1 + h.queue.accepted := by
    rw [hk.accepted, List.mem_range'_1]
  rw [List.mem_map] at hm
  rw [hm]
  omega

theorem exists_phase? (hk : h.Kept) {i : Item} (hi : i ∈ h.items) : ∃ p, h.queue.phase? i.id = some p :=
  exists_phase?_iff.mpr (hk.mem_ids.mp ⟨i, hi, rfl⟩)

theorem id_le (hk : h.Kept) {i : Item} (hi : i ∈ h.items) : i.id ≤ h.queue.accepted := (hk.mem_ids.mp ⟨i, hi, rfl⟩).2

/-- An operation that neither forgets an item nor cancels one leaves known what is not cancelled. -/
theorem known_congr (hk : h.Kept) {q : Queue} (hq : q.known = h.queue.known)
    (hp : ∀ i ∈ h.items, q.phase? i.id = some .cancelled ↔ h.queue.phase? i.id = some .cancelled) :
    q.known = h.items.filter fun i => q.phase? i.id ≠ some .cancelled := by
  rw [hq, hk.known]
  refine List.filter_congr ?_
  intro i hi
  rw [decide_not, decide_not, decide_eq_decide.mpr (hp i hi)]

theorem submitted (hk : h.Kept) {w : Work} {priority : Nat} {i : Item} {q : Queue}
    (hs : h.queue.submit w priority = some (i, q)) : Kept { h with queue := q, items := h.items ++ [i] } where
  faithful := hk.faithful.submit hs
  accepted := by
    obtain ⟨ha, hid⟩ := accepted_of_submit hs
    rw [List.map_append, hk.accepted, ha, List.range'_concat]
    simp [hid, Nat.add_comm]
  known := by
    have hid := (accepted_of_submit hs).2
    have hold : ∀ j ∈ h.items, q.phase? j.id = h.queue.phase? j.id := by
      intro j hj
      have hle := hk.id_le hj
      rw [phase?_of_submit_eq hs, if_neg (by omega)]
    have hnew : decide (q.phase? i.id ≠ some .cancelled) = true := by
      rw [phase?_of_submit hs]
      rfl
    show q.known = _
    rw [known_of_submit hs, List.filter_append, List.filter_singleton, hnew, cond_true, hk.known]
    congr 1
    refine List.filter_congr ?_
    intro j hj
    rw [hold j hj]
  issued := by
    obtain ⟨-, -, rfl⟩ := submit_eq_some.mp hs
    exact hk.issued

theorem started (hk : h.Kept) {item : Nat} {s : Slot} {e : Execution} {q : Queue}
    (hs : h.queue.start item s = .ok (e, q)) :
    Kept { h with queue := q, starts := h.starts ++ [⟨e, s, 0⟩] } where
  faithful := hk.faithful.start hs 0
  accepted := by
    rw [accepted_of_start hs]
    exact hk.accepted
  known := by
    refine hk.known_congr (known_of_start hs) ?_
    intro i _
    have hp := (start_eq_ok.mp hs).1
    rw [phase?_of_start hs]
    by_cases hi : i.id = item <;> simp [hi, hp]
  issued := by
    obtain ⟨hq, hid, -⟩ := issued_of_start hs
    rw [List.map_append, hk.issued, hq, List.range'_concat]
    simp [hid, Nat.add_comm]

theorem cancelled (hk : h.Kept) {item : Nat} {q : Queue} (hs : h.queue.cancel item = (true, q)) :
    Kept { h with queue := q, cancels := item :: h.cancels } where
  faithful := hk.faithful.cancel hs
  accepted := by
    rw [accepted_of_cancel hs]
    exact hk.accepted
  known := by
    show q.known = _
    rw [known_of_cancel hs, hk.known, List.filter_filter]
    refine List.filter_congr ?_
    intro i _
    rw [phase?_of_cancel hs]
    by_cases hi : i.id = item <;> simp [hi]
  issued := by
    obtain ⟨-, -, rfl⟩ := cancel_eq_true.mp hs
    simpa [forget] using hk.issued

theorem finished (hk : h.Kept) {a : World.Start} (ha : a ∈ h.starts) :
    Kept { h with queue := h.queue.finish a.execution, finishes := a.execution :: h.finishes } where
  faithful := hk.faithful.finish ha
  accepted := by
    rw [accepted_finish]
    exact hk.accepted
  known := by
    refine hk.known_congr (known_finish _ _) ?_
    intro i _
    rw [phase?_finish hk.numbered]
    split
    next hi =>
      -- What was started was not cancelled.
      rcases (hk.faithful.of_start ha).2 with hp | hp <;> simp [hi.1, hp]
    next => rfl
  issued := by
    rw [issued_finish]
    exact hk.issued

end Kept

theorem Did.kept {h h' : History} {a : Act} (hd : Did h a h') (hk : h.Kept) : h'.Kept := by
  cases hd with
  | submitted hs => exact hk.submitted hs
  | started hs => exact hk.started hs
  | cancelled hs => exact hk.cancelled hs
  | finished ha => exact hk.finished (List.mem_of_getElem? ha)
  | quieted on =>
    obtain ⟨hn, ht, ho, ha, hi, he⟩ := hk.faithful
    exact ⟨⟨hn.setQuiet on, ht, ho, ha, hi, he⟩, hk.accepted, hk.known, hk.issued⟩
  | refused => exact hk

theorem kept_after (as : List Act) : (after as).Kept := by
  refine after_keeps kept_empty ?_ as
  intro h a h' hd hk
  exact hd.kept hk

end History

end Rejoin.Queue
