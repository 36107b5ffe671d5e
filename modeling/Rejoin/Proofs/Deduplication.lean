import Rejoin.Proofs.Queue.Index
import Rejoin.Proofs.World.Calls

/-!
# One item for each token

As long as nothing but rejoinings submits work that carries a token, the index has exactly the live items that carry
one, whatever else happens to the queue and in whatever order.

* `World.Run.deduplicated` — that invariant of the runs;
* `World.rejoin_of_carried`, `World.rejoin_of_free` — a rejoining joins the item that carries its token, and submits
  one item where there is none;
* `World.token_carried_once` — both, for all runs.
-/

namespace Rejoin

/-- The index of a numbered queue has the live items that carry tokens, and nothing else. -/
structure Queue.Deduplicated (q : Queue) : Prop where
  numbered : q.Numbered
  indexed : q.Indexed
  covered : q.Covered

namespace World

/-- Nothing but rejoinings submits work that carries a token. -/
def TokensByRejoining (_ : World) (e : Event) : Prop := ∀ w priority, e = .submit w priority → w.token? = none

/-! ### The index over a run -/

theorem Move.indexed {s : World} {e : Event} {l : Log} (h : Move s e l) (hn : s.queue.Numbered)
    (hs : s.queue.Indexed) : l.queue.Indexed := by
  cases h with
  | stay => exact hs
  | submit _ h => exact hs.of_submit hn h
  | start _ h => exact hs.of_start h
  | cancel _ h => exact hs.of_cancel h
  | finish _ => exact hs.finish hn _
  | setQuiet _ => exact hs.setQuiet _

section Runs

variable {rule : World → Event → Prop} {s t : World}

theorem Run.keeps_indexed (h : Run rule s t) (hn : s.queue.Numbered) (hi : s.queue.Indexed) : t.queue.Indexed := by
  induction h with
  | refl => exact hi
  | @step t h e _ ih => exact (t.move_step e).indexed (h.keeps_numbered hn) ih

theorem Run.indexed (h : Reachable rule s) : s.queue.Indexed :=
  h.keeps_indexed Queue.numbered_empty Queue.indexed_empty

end Runs

/-- A move keeps the index: a rejoining submits a token only after it looked it up, and nothing else does. -/
theorem Move.deduplicated {s : World} {e : Event} {l : Log} (h : Move s e l) (hs : s.queue.Deduplicated)
    (he : TokensByRejoining s e) : l.queue.Deduplicated := by
  refine ⟨h.numbered hs.numbered, h.indexed hs.numbered hs.indexed, ?_⟩
  cases h with
  | stay => exact hs.covered
  | @submit w priority _ _ hw h =>
    refine hs.covered.of_submit hs.numbered h ?_
    intro t j ht hj
    rcases hw with rfl | ⟨ticket, rfl, hn⟩
    · rw [he w priority rfl] at ht
      cases ht
    · -- The token was looked up and not found, so no live item carries it.
      have ht : ticket.token = some t := ht
      rw [ht, Option.bind_some, Queue.byToken?_eq_none hs.indexed hs.covered hs.numbered] at hn
      exact hn j hj
  | start _ h => exact hs.covered.of_start h
  | cancel _ h => exact hs.covered.of_cancel h
  | finish _ => exact hs.covered.finish hs.numbered _
  | setQuiet _ => exact hs.covered.setQuiet _

theorem Run.deduplicated {s : World} (h : Reachable TokensByRejoining s) : s.queue.Deduplicated := by
  refine h.keeps (P := fun s => s.queue.Deduplicated) ?_ ?_
  · intro t e he ht
    exact (t.move_step e).deduplicated ht he
  · exact ⟨Queue.numbered_empty, Queue.indexed_empty, Queue.covered_empty⟩

/-! ### A rejoining that takes the queue -/

section Rejoin

variable {s : World} {r : Record} {scope : StepScope} {st : Settings} {console : Console}

/-- The last call of a world is the rejoining of a record, which waits for an item. -/
def Joins (s s' : World) (r : Record) (item : Nat) : Prop :=
  ∃ w : Rejoining, w.bookmark = r.bookmark ∧ w.item = item ∧ s'.calls = s.calls ++ [.waiting (.rejoining w)]

theorem joins_of_findOrSubmit (hr : r.holdings = none) (hc : scope.require s.fleet .console = .ok console) {n : Nat}
    {q : Queue} (hq : r.bookmark.findOrSubmit s.queue st.priority = .ok (n, q)) :
    (s.step (.rejoin r scope st)).queue = q ∧ Joins s (s.step (.rejoin r scope st)) r n := by
  have hb := Record.beginRejoin_eq_ok.mpr ⟨hr, console, n, q, hc, hq, rfl, rfl⟩
  simp only [step, rejoin, hb]
  refine ⟨?_, _, rfl, rfl, rfl⟩
  exact Record.queue_announced q console

/-- A rejoining whose token a live item carries submits nothing and waits for that item. -/
theorem rejoin_of_carried (hs : s.queue.Deduplicated) (hr : r.holdings = none)
    (hc : scope.require s.fleet .console = .ok console) {t : String} (ht : r.bookmark.ticket.token = some t)
    {i : Item} (hi : s.queue.Live i) (hit : i.carries t = true) :
    (s.step (.rejoin r scope st)).queue = s.queue ∧ Joins s (s.step (.rejoin r scope st)) r i.id := by
  have hfind : r.bookmark.ticket.token.bind s.queue.byToken? = some i := by
    rw [ht, Option.bind_some, Queue.byToken?_eq_some hs.indexed hs.covered hs.numbered]
    exact ⟨hi, hit⟩
  have hq : r.bookmark.findOrSubmit s.queue st.priority = .ok (i.id, s.queue) :=
    Bookmark.findOrSubmit_eq_ok.mpr (.inl ⟨i, hfind, rfl, rfl⟩)
  exact joins_of_findOrSubmit hr hc hq

/-- No live item carries the token of the record. -/
def Free (s : World) (r : Record) : Prop :=
  ∀ t i, r.bookmark.ticket.token = some t → s.queue.Live i → i.carries t = false

theorem Free.byToken? (h : Free s r) (hs : s.queue.Deduplicated) :
    r.bookmark.ticket.token.bind s.queue.byToken? = none := by
  cases ht : r.bookmark.ticket.token with
  | none => rfl
  | some t =>
    rw [Option.bind_some, Queue.byToken?_eq_none hs.indexed hs.covered hs.numbered]
    intro i hi
    exact h t i ht hi

/-- Otherwise it fails while the queue is quiet, and nothing is submitted. -/
theorem rejoin_of_quiet (hs : s.queue.Deduplicated) (hr : r.holdings = none)
    (hc : scope.require s.fleet .console = .ok console) (hf : Free s r) (hq : s.queue.quiet = true) :
    (s.step (.rejoin r scope st)).queue = s.queue ∧ (s.step (.rejoin r scope st)).calls =
      s.calls ++ [.ended (.rejoined r (.error (.refused r.bookmark.ticket.text)))] := by
  have hfind := hf.byToken? hs
  have hsub := Queue.submit_of_quiet hq (.ticket r.bookmark.ticket) st.priority
  have he := Bookmark.findOrSubmit_eq_error.mpr ⟨hfind, hsub, rfl⟩
  have hb := Record.beginRejoin_eq_error.mpr (.inr (.inr ⟨hr, console, hc, he⟩))
  simp [step, rejoin, hb]

/-- And while the queue is not, it submits one item and waits for that. -/
theorem rejoin_of_free (hs : s.queue.Deduplicated) (hr : r.holdings = none)
    (hc : scope.require s.fleet .console = .ok console) (hf : Free s r) (hq : s.queue.quiet = false) :
    ∃ i, i = ⟨s.queue.accepted + 1, .ticket r.bookmark.ticket, st.priority⟩ ∧
      (s.step (.rejoin r scope st)).queue.pending = s.queue.pending ++ [i] ∧
      (s.step (.rejoin r scope st)).queue.running = s.queue.running ∧
      (s.step (.rejoin r scope st)).queue.accepted = s.queue.accepted + 1 ∧
      Joins s (s.step (.rejoin r scope st)) r i.id := by
  obtain ⟨q, hi⟩ : ∃ q, s.queue.submit (.ticket r.bookmark.ticket) st.priority =
      some (⟨s.queue.accepted + 1, .ticket r.bookmark.ticket, st.priority⟩, q) :=
    ⟨_, Queue.submit_eq_some.mpr ⟨hq, rfl, rfl⟩⟩
  have hfind := Bookmark.findOrSubmit_eq_ok.mpr (.inr ⟨hf.byToken? hs, _, hi, rfl⟩)
  obtain ⟨hqueue, hjoins⟩ := joins_of_findOrSubmit hr hc hfind
  obtain ⟨hp, hrun⟩ := Queue.filter_known_of_submit hs.numbered hi
  refine ⟨_, rfl, ?_, ?_, ?_, hjoins⟩
  · rw [hqueue, hp]
  · rw [hqueue, hrun]
  · rw [hqueue, (Queue.accepted_of_submit hi).1]

end Rejoin

/-- **One item for each token.**  In every run no two items that are pending or running carry one token.  A rejoining
that comes to the queue joins the item that carries its token and submits nothing; where there is none it submits one
item and waits for that, or is refused by a quiet queue and submits none.  While it waits it submits nothing either,
and waits for the same item. -/
theorem token_carried_once {s : World} (h : Reachable TokensByRejoining s) :
    (∀ t i j, s.queue.Live i → s.queue.Live j → i.carries t = true → j.carries t = true → i = j) ∧
    (∀ (r : Record) (scope : StepScope) (st : Settings) (console : Console), r.holdings = none →
      scope.require s.fleet .console = .ok console →
      (∀ t i, r.bookmark.ticket.token = some t → s.queue.Live i → i.carries t = true →
        (s.step (.rejoin r scope st)).queue = s.queue ∧ Joins s (s.step (.rejoin r scope st)) r i.id) ∧
      (Free s r → s.queue.quiet = true → (s.step (.rejoin r scope st)).queue = s.queue ∧
        (s.step (.rejoin r scope st)).calls =
          s.calls ++ [.ended (.rejoined r (.error (.refused r.bookmark.ticket.text)))]) ∧
      (Free s r → s.queue.quiet = false →
        ∃ i, i = ⟨s.queue.accepted + 1, .ticket r.bookmark.ticket, st.priority⟩ ∧
          (s.step (.rejoin r scope st)).queue.pending = s.queue.pending ++ [i] ∧
          (s.step (.rejoin r scope st)).queue.running = s.queue.running ∧
          (s.step (.rejoin r scope st)).queue.accepted = s.queue.accepted + 1 ∧
          Joins s (s.step (.rejoin r scope st)) r i.id)) ∧
    ∀ n, (s.step (.turn n)).queue = s.queue ∧ ∀ t w, Run TokensByRejoining s t → n < s.calls.length →
      t.calls[n]? = some (.waiting w) → s.calls[n]? = some (.waiting w) := by
  have hs := h.deduplicated
  refine ⟨?_, ?_, ?_⟩
  · intro t i j hi hj hit hjt
    exact Queue.eq_of_carries hs.indexed hs.covered hs.numbered hi hj hit hjt
  · intro r scope st console hr hc
    refine ⟨?_, ?_, ?_⟩
    · intro t i ht hi hit
      exact rejoin_of_carried hs hr hc ht hi hit
    · intro hf hq
      exact rejoin_of_quiet hs hr hc hf hq
    · intro hf hq
      exact rejoin_of_free hs hr hc hf hq
  · intro n
    refine ⟨congrArg Log.queue (s.turn_frame n).2.2, ?_⟩
    intro t w ht hn hw
    exact ht.eq_of_waiting hn hw

/-- A step that is rejoined twice waits for one item twice. -/
theorem rejoined_twice_waits_for_first :
    let r := suspended (some "token") "node" "/ws"
    let s := fresh.step (.rejoin r mute {})
    (s.step (.rejoin r mute {})).queue = s.queue ∧ Joins s (s.step (.rejoin r mute {})) r 1 := by
  intro r s
  have h : Reachable TokensByRejoining s := by
    refine Run.refl.step ?_
    intro w priority he
    cases he
  have hi : (⟨1, .ticket r.bookmark.ticket, 0⟩ : Item) ∈ s.queue.pending := by decide
  exact ((token_carried_once h).2.1 r mute {} .silent rfl rfl).1 "token" _ rfl (Or.inl hi) (by decide)

end World

end Rejoin
