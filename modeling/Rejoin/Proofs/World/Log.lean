import Rejoin.Proofs.World.Basic

/-!
# What the log says of an item

Runs in which the queue is told to be finished only what it started.

* `World.Log.Tells` — what the log has to say of an item in a phase: whether and where it was started, whether that
  ended, and whether it was cancelled;
* `World.Log.Faithful` — the log says so of every item, and no item is started twice;
* `World.Run.faithful` — that invariant of the runs.
-/

namespace Rejoin

namespace World

namespace Log

def Untouched (l : Log) (n : Nat) : Prop := (∀ a ∈ l.starts, a.execution.item ≠ n) ∧ n ∉ l.cancels

/-- What the log has to say of an item that is in a phase, or in none. -/
def Tells (l : Log) (n : Nat) : Option Phase → Prop
  | none | some .pending => l.Untouched n
  | some (.started e) => n ∉ l.cancels ∧
    ∃ a ∈ l.starts, a.execution = e ∧ e.item = n ∧ e ∉ l.finishes ∧ l.queue.claimed? e = some a.slot
  | some (.finished e) => n ∉ l.cancels ∧
    ∃ a ∈ l.starts, a.execution = e ∧ e.item = n ∧ e ∈ l.finishes ∧ l.queue.claimed? e = none
  | some .cancelled => (∀ a ∈ l.starts, a.execution.item ≠ n) ∧ n ∈ l.cancels

/-- What the log tells of an item is about that item's own start and cancellation alone. -/
theorem Tells.of_same {l l' : Log} {n : Nat} {p : Option Phase} (h : l.Tells n p)
    (hs : ∀ a ∈ l.starts, a ∈ l'.starts) (hs' : ∀ a ∈ l'.starts, a.execution.item = n → a ∈ l.starts)
    (hc : n ∈ l'.cancels ↔ n ∈ l.cancels)
    (hf : ∀ a ∈ l.starts, a.execution.item = n → (a.execution ∈ l'.finishes ↔ a.execution ∈ l.finishes))
    (hq : ∀ a ∈ l.starts, a.execution.item = n → l'.queue.claimed? a.execution = l.queue.claimed? a.execution) :
    l'.Tells n p := by
  have hu : (∀ a ∈ l.starts, a.execution.item ≠ n) → ∀ a ∈ l'.starts, a.execution.item ≠ n := by
    intro hu a ha hi
    exact hu a (hs' a ha hi) hi
  rcases p with _ | (_ | e | e | _)
  · exact ⟨hu h.1, mt hc.mp h.2⟩
  · exact ⟨hu h.1, mt hc.mp h.2⟩
  · obtain ⟨hn, a, ha, rfl, hi, hfin, hcl⟩ := h
    exact ⟨mt hc.mp hn, a, hs a ha, rfl, hi, mt (hf a ha hi).mp hfin, (hq a ha hi).trans hcl⟩
  · obtain ⟨hn, a, ha, rfl, hi, hfin, hcl⟩ := h
    exact ⟨mt hc.mp hn, a, hs a ha, rfl, hi, (hf a ha hi).mpr hfin, (hq a ha hi).trans hcl⟩
  · exact ⟨hu h.1, hc.mpr h.2⟩

/-- The log tells the phase of every item; no item is started twice, no execution has the number of another one, and
only what was started is finished. -/
structure Faithful (l : Log) : Prop where
  numbered : l.queue.Numbered
  tells : ∀ n, l.Tells n (l.queue.phase? n)
  once : ∀ a ∈ l.starts, ∀ b ∈ l.starts, a.execution.item = b.execution.item → a = b
  apart : ∀ a ∈ l.starts, ∀ b ∈ l.starts, a.execution.id = b.execution.id → a = b
  issued : ∀ a ∈ l.starts, a.execution.id ≤ l.queue.issued
  ended : ∀ e ∈ l.finishes, ∃ a ∈ l.starts, a.execution = e

theorem faithful_empty : Faithful {} where
  numbered := Queue.numbered_empty
  tells n := by cases n <;> exact ⟨by simp, by simp⟩
  once := by simp
  apart := by simp
  issued := by simp
  ended := by simp

namespace Faithful

variable {l : Log}

theorem of_start (h : l.Faithful) {a : Start} (ha : a ∈ l.starts) : a.execution.item ∉ l.cancels ∧
    (l.queue.phase? a.execution.item = some (.started a.execution) ∨
      l.queue.phase? a.execution.item = some (.finished a.execution)) := by
  have ht := h.tells a.execution.item
  rcases hp : l.queue.phase? a.execution.item with _ | (_ | e | e | _) <;> rw [hp] at ht
  · exact absurd rfl (ht.1 a ha)
  · exact absurd rfl (ht.1 a ha)
  · obtain ⟨hc, b, hb, rfl, hi, -⟩ := ht
    obtain rfl := h.once b hb a ha hi
    exact ⟨hc, .inl rfl⟩
  · obtain ⟨hc, b, hb, rfl, hi, -⟩ := ht
    obtain rfl := h.once b hb a ha hi
    exact ⟨hc, .inr rfl⟩
  · exact absurd rfl (ht.1 a ha)

theorem of_news_none (h : l.Faithful) {n : Nat} (hn : l.queue.news? n = none) : l.Untouched n := by
  have ht := h.tells n
  rwa [Queue.news?_eq_none.mp hn] at ht

/-- An item that was accepted and will not start was cancelled. -/
theorem of_news_error (h : l.Faithful) {n : Nat} {x : Cancelled} (hp : ∃ p, l.queue.phase? n = some p)
    (hn : l.queue.news? n = some (.error x)) : n ∈ l.cancels := by
  obtain ⟨p, hp⟩ := hp
  have ht := h.tells n
  rw [hp] at ht
  rw [Queue.news?, hp] at hn
  cases p with
  | cancelled => exact ht.2
  | _ => cases hn

/-- What is learnt of an item that was started is its execution, which has its slot as long as it was not finished. -/
theorem of_news_ok (h : l.Faithful) {n : Nat} {e : Execution} (hn : l.queue.news? n = some (.ok e)) :
    n ∉ l.cancels ∧ ∃ a ∈ l.starts, a.execution = e ∧ e.item = n ∧
      (e ∉ l.finishes ∧ l.queue.claimed? e = some a.slot ∨ e ∈ l.finishes ∧ l.queue.claimed? e = none) := by
  have ht := h.tells n
  rw [Queue.news?] at hn
  rcases hp : l.queue.phase? n with _ | (_ | e' | e' | _) <;> rw [hp] at hn ht <;> cases hn
  · obtain ⟨hc, a, ha, he, hi, hs⟩ := ht
    exact ⟨hc, a, ha, he, hi, .inl hs⟩
  · obtain ⟨hc, a, ha, he, hi, hs⟩ := ht
    exact ⟨hc, a, ha, he, hi, .inr hs⟩

theorem submit (h : l.Faithful) {w : Work} {priority : Nat} {i : Item} {q : Queue}
    (hs : l.queue.submit w priority = some (i, q)) : Faithful { l with queue := q } where
  numbered := h.numbered.of_submit hs
  tells n := by
    have hc := Queue.claimed?_of_submit hs
    have ht : Tells { l with queue := q } n (l.queue.phase? n) := by
      refine (h.tells n).of_same (fun _ ha => ha) (fun _ ha _ => ha) Iff.rfl (fun _ _ _ => Iff.rfl) ?_
      intro a _ _
      exact hc a.execution
    rw [Queue.phase?_of_submit_eq hs]
    split
    next hn =>
      have hid := (Queue.accepted_of_submit hs).2
      have hp : l.queue.phase? n = none := Queue.phase?_eq_none_of_lt (by omega)
      rwa [hp] at ht
    next => exact ht
  once := h.once
  apart := h.apart
  issued := by
    obtain ⟨-, -, rfl⟩ := Queue.submit_eq_some.mp hs
    exact h.issued
  ended := h.ended

theorem start (h : l.Faithful) {id : Nat} {s : Slot} {e : Execution} {q : Queue}
    (hs : l.queue.start id s = .ok (e, q)) (now : Nat) :
    Faithful { l with queue := q, starts := l.starts ++ [⟨e, s, now⟩] } := by
  obtain ⟨hq, hid, hitem⟩ := Queue.issued_of_start hs
  have hpend : l.Untouched id := by
    have ht := h.tells id
    rwa [(Queue.start_eq_ok.mp hs).1] at ht
  -- The number of the new execution is above those of all others, and nothing else was started of its item.
  have hnew : ∀ a ∈ l.starts, a.execution.id ≠ e.id := by
    intro a ha
    have := h.issued a ha
    omega
  have hother : ∀ a ∈ l.starts, a.execution.item ≠ e.item := by
    rw [hitem]
    exact hpend.1
  have hfin : e ∉ l.finishes := by
    intro he
    obtain ⟨a, ha, rfl⟩ := h.ended e he
    exact hnew a ha rfl
  have hmem {P : Start → Start → Prop} (hold : ∀ a ∈ l.starts, ∀ b ∈ l.starts, P a b)
      (hl : ∀ a ∈ l.starts, P a ⟨e, s, now⟩ ∧ P ⟨e, s, now⟩ a) (hself : P ⟨e, s, now⟩ ⟨e, s, now⟩) :
      ∀ a ∈ l.starts ++ [⟨e, s, now⟩], ∀ b ∈ l.starts ++ [⟨e, s, now⟩], P a b := by
    intro a ha b hb
    rcases List.mem_append.mp ha with ha | ha <;> rcases List.mem_append.mp hb with hb | hb
    · exact hold a ha b hb
    · rw [List.mem_singleton.mp hb]
      exact (hl a ha).1
    · rw [List.mem_singleton.mp ha]
      exact (hl b hb).2
    · rw [List.mem_singleton.mp ha, List.mem_singleton.mp hb]
      exact hself
  refine ⟨h.numbered.of_start hs, ?_, ?_, ?_, ?_, ?_⟩
  · intro n
    rw [Queue.phase?_of_start hs]
    split
    next hn =>
      subst hn
      refine ⟨hpend.2, ⟨e, s, now⟩, by simp, rfl, hitem, hfin, ?_⟩
      rw [Queue.claimed?_of_start hs e, if_pos rfl]
    next hn =>
      refine (h.tells n).of_same (fun a ha => List.mem_append_left _ ha) ?_ Iff.rfl (fun _ _ _ => Iff.rfl) ?_
      · intro a ha hi
        rcases List.mem_append.mp ha with ha | ha
        · exact ha
        · obtain rfl := List.mem_singleton.mp ha
          exact absurd (hi.symm.trans hitem) hn
      · intro a ha _
        rw [Queue.claimed?_of_start hs a.execution, if_neg (hnew a ha)]
  · refine hmem h.once ?_ fun _ => rfl
    intro a ha
    exact ⟨fun he => absurd he (hother a ha), fun he => absurd he.symm (hother a ha)⟩
  · refine hmem h.apart ?_ fun _ => rfl
    intro a ha
    exact ⟨fun he => absurd he (hnew a ha), fun he => absurd he.symm (hnew a ha)⟩
  · intro a ha
    show a.execution.id ≤ q.issued
    rcases List.mem_append.mp ha with ha | ha
    · have := h.issued a ha
      omega
    · obtain rfl := List.mem_singleton.mp ha
      exact Nat.le_of_eq (hid.trans hq.symm)
  · intro x hx
    obtain ⟨a, ha, he⟩ := h.ended x hx
    exact ⟨a, List.mem_append_left _ ha, he⟩

theorem cancel (h : l.Faithful) {id : Nat} {q : Queue} (hs : l.queue.cancel id = (true, q)) :
    Faithful { l with queue := q, cancels := id :: l.cancels } where
  numbered := h.numbered.of_cancel hs
  tells n := by
    have ht := h.tells n
    rw [Queue.phase?_of_cancel hs]
    split
    next hn =>
      subst hn
      rw [(Queue.cancel_eq_true.mp hs).1] at ht
      exact ⟨ht.1, List.mem_cons_self⟩
    next hn =>
      refine ht.of_same (fun _ ha => ha) (fun _ ha _ => ha) (by simp [hn]) (fun _ _ _ => Iff.rfl) ?_
      intro a _ _
      exact Queue.claimed?_of_cancel hs a.execution
  once := h.once
  apart := h.apart
  issued := by
    obtain ⟨-, -, rfl⟩ := Queue.cancel_eq_true.mp hs
    simpa [Queue.forget] using h.issued
  ended := h.ended

theorem finish (h : l.Faithful) {a : Start} (ha : a ∈ l.starts) :
    Faithful { l with queue := l.queue.finish a.execution, finishes := a.execution :: l.finishes } where
  numbered := h.numbered.finish a.execution
  tells n := by
    obtain ⟨hnc, hp⟩ := h.of_start ha
    by_cases hn : n = a.execution.item
    · subst hn
      -- The item is known, since it has a phase and was not cancelled.
      have hphase : ∃ p, l.queue.phase? a.execution.item = some p ∧ p ≠ .cancelled := by
        rcases hp with hp | hp <;> exact ⟨_, hp, by simp⟩
      obtain ⟨i, hi, hin⟩ := (h.numbered.known_iff a.execution.item).mpr hphase
      have hk : (l.queue.item? a.execution.item).isSome = true := by
        rw [h.numbered.item?_eq_some.mpr ⟨hi, hin⟩]
        rfl
      rw [Queue.phase?_finish h.numbered, if_pos ⟨rfl, hk⟩]
      refine ⟨hnc, a, ha, rfl, rfl, List.mem_cons_self, ?_⟩
      rw [Queue.claimed?_finish, if_pos rfl]
    · rw [Queue.phase?_finish h.numbered, if_neg fun e => hn e.1]
      have hne : ∀ b ∈ l.starts, b.execution.item = n → b.execution.id ≠ a.execution.id := by
        intro b hb hi he
        rw [h.apart b hb a ha he] at hi
        exact hn hi.symm
      refine (h.tells n).of_same (fun _ ha => ha) (fun _ ha _ => ha) Iff.rfl ?_ ?_
      · intro b hb hi
        have hx : b.execution ≠ a.execution := by
          intro he
          exact hne b hb hi (congrArg Execution.id he)
        simp [hx]
      · intro b hb hi
        rw [Queue.claimed?_finish, if_neg (hne b hb hi)]
  once := h.once
  apart := h.apart
  issued := by simpa using h.issued
  ended := by
    intro x hx
    rcases List.mem_cons.mp hx with rfl | hx
    · exact ⟨a, ha, rfl⟩
    · exact h.ended x hx

end Faithful

end Log

/-- Nothing is told to be finished but what was started. -/
def Honest (s : World) (e : Event) : Prop := ∀ x, e = .finish x → ∃ a ∈ s.starts, a.execution = x

theorem Move.faithful {s : World} {e : Event} {l : Log} (h : Move s e l) (hs : s.log.Faithful) (he : Honest s e) :
    l.Faithful := by
  cases h with
  | stay => exact hs
  | submit _ h => exact hs.submit h
  | start _ h => exact hs.start h _
  | cancel _ h => exact hs.cancel h
  | finish hx =>
    obtain ⟨a, ha, rfl⟩ := he _ hx
    exact hs.finish ha
  | setQuiet _ => exact ⟨hs.numbered.setQuiet _, hs.tells, hs.once, hs.apart, hs.issued, hs.ended⟩

theorem Run.faithful {s : World} (h : Reachable Honest s) : s.log.Faithful := by
  refine h.keeps (P := fun s => s.log.Faithful) ?_ Log.faithful_empty
  intro t e he ht
  exact (t.move_step e).faithful ht he

section Step

variable {s : World} {e : Event}

theorem exists_phase?_step (hs : s.queue.Numbered) {n : Nat} (hp : ∃ p, s.queue.phase? n = some p) :
    ∃ p, (s.step e).queue.phase? n = some p := by
  have h := s.move_step e
  show ∃ p, (s.step e).log.queue.phase? n = some p
  generalize (s.step e).log = l at h
  cases h with
  | stay => exact hp
  | submit _ h =>
    rw [Queue.phase?_of_submit_eq h]
    split
    exacts [⟨_, rfl⟩, hp]
  | start _ h =>
    rw [Queue.phase?_of_start h]
    split
    exacts [⟨_, rfl⟩, hp]
  | cancel _ h =>
    rw [Queue.phase?_of_cancel h]
    split
    exacts [⟨_, rfl⟩, hp]
  | finish _ =>
    rw [Queue.phase?_finish hs]
    split
    exacts [⟨_, rfl⟩, hp]
  | setQuiet _ => exact hp

/-- What was started in an event was started by it, and at its time. -/
theorem starts_step {a : Start} (ha : a ∈ (s.step e).starts) :
    a ∈ s.starts ∨ (a.time = s.now ∧ ∃ k number, e = .start a.execution.item k number) := by
  have h := s.move_step e
  have ha : a ∈ (s.step e).log.starts := ha
  generalize (s.step e).log = l at h ha
  cases h with
  | @start id k number slot x q he h =>
    rcases List.mem_append.mp ha with ha | ha
    · exact .inl ha
    · obtain rfl := List.mem_singleton.mp ha
      exact .inr ⟨rfl, k, number, (Queue.issued_of_start h).2.2.symm ▸ he⟩
  | _ => exact .inl ha

end Step

end World

end Rejoin
