import Rejoin.Proofs.Deduplication
import Rejoin.Proofs.Outcome
import Rejoin.Proofs.World.Waking

/-!
# When time is up

A rejoining waits for its item up to a deadline.  Once the clock is there and the item is still pending, the node is
taken for removed and the rejoining is given up; nothing else is done then, so whoever rejoins the step later finds its
item where it was.

* `World.TimedOut` — a call that ended because its node was taken for removed;
* `World.timedOut_turn_iff` — a rejoining that is asked ends so exactly if it is overdue and its item pending;
* `World.Run.timedOut_iff` — if overdue rejoinings are asked first, that is settled once their time is up;
* `World.Run.leads` — the token of an item leads to it as long as only rejoinings submit work under the token;
* `World.overdue_rejoining` — all of that, from the beginning of a rejoining to a later one.
-/

namespace Rejoin

/-- The node of a step is taken for removed. -/
def RejoinError.removed (node : String) : RejoinError := .interrupted (.aborted (.removedNode node))

namespace Rejoining

/-- Given up is exactly who is overdue and waits for an item that is pending. -/
theorem poll_eq_removed_iff {w : Rejoining} {c : Controller} :
    (w.poll c).1 = some (.error (.removed w.bookmark.node)) ↔
      w.deadline ≤ c.now ∧ c.queue.phase? w.item = some .pending := by
  have hp := w.proceeds_poll c
  rw [← Queue.news?_eq_none, RejoinError.removed]
  generalize (w.poll c).1 = x at hp
  generalize (w.poll c).2 = c' at hp
  generalize c.queue.news? w.item = news at hp
  cases hp with
  | waits hd => simp [Nat.not_le.mpr hd]
  | timedOut hd => simp [hd]
  | cancelled x => simp [Interruption.aborted, Cause.taskCancelled, Cause.removedNode]
  | _ => simp

theorem poll_of_removed {w : Rejoining} {c : Controller} (h : (w.poll c).1 = some (.error (.removed w.bookmark.node))) :
    (w.poll c).2.queue = c.queue ∧ (w.poll c).2.ledger = c.ledger := by
  obtain ⟨hd, hp⟩ := poll_eq_removed_iff.mp h
  have hpoll : w.poll c = _ := congrArg (w.proceed c) (Queue.news?_eq_none.mpr hp)
  rw [hpoll, proceed, if_pos hd]
  exact ⟨Controller.queue_println _ _ _, Controller.ledger_println _ _ _⟩

theorem poll_ne_none {w : Rejoining} {c : Controller} (h : w.deadline ≤ c.now) : (w.poll c).1 ≠ none := by
  intro hn
  have hp := w.proceeds_poll c
  rw [hn] at hp
  exact Nat.not_lt.mpr h hp.waiting.2.1

end Rejoining

namespace World

def Waits (s : World) (n : Nat) (w : Rejoining) : Prop := s.calls[n]? = some (.waiting (.rejoining w))

/-- The call ended because the node of the record was taken for removed; the record is what it was. -/
def TimedOut (s : World) (n : Nat) (r : Record) : Prop :=
  s.calls[n]? = some (.ended (.rejoined r (.error (.removed r.bookmark.node))))

/-! ### Rules -/

/-- Once the rejoining of a call is overdue, it is asked before the phase of its item is replaced. -/
def AskedFirst (n : Nat) (s : World) (e : Event) : Prop :=
  ∀ w, Waits s n w → w.deadline ≤ s.now → s.replaced? e ≠ some w.item

/-- Nothing but rejoinings submits work under the token. -/
def ByRejoining (token : String) (_ : World) (e : Event) : Prop :=
  ∀ w priority, e = .submit w priority → w.token? ≠ some token

/-! ### Asking -/

section Asking

variable {s : World} {n : Nat} {w : Rejoining} {r : Record}

/-- Exactly who is overdue and waits for an item that is pending is given up when it is asked. -/
theorem timedOut_turn_iff (hw : Waits s n w) (hr : Record.ofBookmark w.bookmark = r) :
    TimedOut (s.step (.turn n)) n r ↔ w.deadline ≤ s.now ∧ s.queue.phase? w.item = some .pending := by
  have hcall := (step_turn_rejoining hw).2
  rw [hr] at hcall
  subst hr
  rw [TimedOut, hcall, ← Rejoining.poll_eq_removed_iff]
  cases (w.poll s.controller).1 with
  | none => simp
  | some x =>
    simp only [Option.some.injEq, Call.ended.injEq, WaitEnd.rejoined.injEq]
    constructor
    · rintro ⟨-, hx⟩
      exact hx
    · rintro rfl
      exact ⟨rfl, rfl⟩

theorem turn_of_timedOut (hw : Waits s n w) (hr : Record.ofBookmark w.bookmark = r)
    (h : TimedOut (s.step (.turn n)) n r) :
    (s.step (.turn n)).queue = s.queue ∧ (s.step (.turn n)).ledger = s.ledger := by
  have hpoll := Rejoining.poll_eq_removed_iff.mpr ((timedOut_turn_iff hw hr).mp h)
  have hc := (step_turn_rejoining hw).1
  rw [queue, ledger, hc]
  exact Rejoining.poll_of_removed hpoll

/-- A rejoining that is overdue ends when it is asked, so or otherwise. -/
theorem ended_turn_of_overdue (hw : Waits s n w) (hd : w.deadline ≤ s.now) :
    ∃ y, (s.step (.turn n)).calls[n]? = some (.ended y) := by
  have hcall := (step_turn_rejoining hw).2
  cases hx : (w.poll s.controller).1 with
  | none => exact absurd hx (Rejoining.poll_ne_none hd)
  | some x =>
    rw [hx] at hcall
    exact ⟨_, hcall⟩

end Asking

/-! ### From the time on that it is overdue -/

section Runs

variable {s u : World} {n : Nat} {w : Rejoining} {r : Record}

/-- While a rejoining is overdue and was not asked, the phase of its item stays what it is. -/
theorem Run.phase?_of_overdue (h : Run (AskedFirst n) s u) (hs : s.queue.Numbered) (hn : n < s.calls.length)
    (hd : w.deadline ≤ s.now) (hw : Waits u n w) {p : Phase} (hp : s.queue.phase? w.item = some p) :
    u.queue.phase? w.item = some p := by
  induction h with
  | refl => exact hp
  | @step u h e he ih =>
    have hlt : n < u.calls.length := Nat.lt_of_lt_of_le hn h.length_calls_le
    have hwu : Waits u n w := waiting_of_step hlt hw
    have hkept : u.replaced? e ≠ some w.item := he w hwu (Nat.le_trans hd h.now_le)
    exact (replaced?_of_phase? (h.keeps_numbered hs) (ih hwu)).resolve_right hkept

theorem Run.ended_in_turn {rule : World → Event → Prop} (h : Run rule s u) (hw : Waits s n w) {y : WaitEnd}
    (hy : u.calls[n]? = some (.ended y)) : ∃ t, Run rule s t ∧ Waits t n w ∧
      (t.step (.turn n)).calls[n]? = some (.ended y) ∧ Run rule (t.step (.turn n)) u := by
  have hn : n < s.calls.length := (List.getElem?_eq_some_iff.mp hw).1
  rcases h.ended_cases hn hy with he | ⟨v, t, c, hv, ht, hvt, hpoll, -, hrest⟩
  · rw [Waits, he] at hw
    cases hw
  · obtain rfl : v = .rejoining w := Call.waiting.inj (Option.some.inj (hv.symm.trans hw))
    have hcall := calls_turn hvt
    rw [hpoll] at hcall
    exact ⟨t, ht, hvt, hcall, hrest⟩

/-- If it is asked first, it is settled once its time is up how a rejoining will end. -/
theorem Run.timedOut_iff (h : Run (AskedFirst n) s u) (hs : s.queue.Numbered) (hw : Waits s n w)
    (hr : Record.ofBookmark w.bookmark = r) (hd : w.deadline ≤ s.now) (hp : ∃ p, s.queue.phase? w.item = some p)
    {y : WaitEnd} (hy : u.calls[n]? = some (.ended y)) :
    TimedOut u n r ↔ s.queue.phase? w.item = some .pending := by
  obtain ⟨p, hp⟩ := hp
  obtain ⟨t, ht, hwt, hyt, -⟩ := h.ended_in_turn hw hy
  have hn : n < s.calls.length := (List.getElem?_eq_some_iff.mp hw).1
  -- The item has the phase that it had from the time on that the rejoining was overdue to when it was asked.
  have hpt : t.queue.phase? w.item = some p := ht.phase?_of_overdue hs hn hd hwt hp
  have hturn := timedOut_turn_iff hwt hr
  rw [TimedOut, hyt, hpt, ← hp] at hturn
  rw [TimedOut, hy, hturn]
  exact and_iff_right (Nat.le_trans hd ht.now_le)

theorem Run.turn_of_timedOut {rule : World → Event → Prop} (h : Run rule s u) (hw : Waits s n w)
    (hr : Record.ofBookmark w.bookmark = r) (hu : TimedOut u n r) :
    ∃ t, Run rule s t ∧ Waits t n w ∧ w.deadline ≤ t.now ∧ t.queue.phase? w.item = some .pending ∧
      TimedOut (t.step (.turn n)) n r ∧ Run rule (t.step (.turn n)) u := by
  obtain ⟨t, ht, hwt, hturn, hrest⟩ := h.ended_in_turn hw hu
  obtain ⟨hd, hp⟩ := (timedOut_turn_iff hwt hr).mp hturn
  exact ⟨t, ht, hwt, hd, hp, hturn, hrest⟩

end Runs

/-! ### Rejoining again -/

section Again

variable {s₀ s u : World} {t : String} {n : Nat} {r : Record} {scope : StepScope} {st : Settings} {w : Rejoining}
  {c : Controller}

/-- A move keeps a token leading to its item, unless it submits other work under the token. -/
theorem Move.leads {e : Event} {l : Log} (h : Move s e l) (he : ByRejoining t s e) (hn : s.queue.Numbered)
    (hi : s.queue.Indexed) (hl : s.queue.Leads t n) : l.queue.Leads t n := by
  cases h with
  | stay => exact hl
  | @submit work priority _ _ hwork h =>
    refine hl.of_submit hi hn h ?_
    intro ht
    rcases hwork with rfl | ⟨ticket, rfl, hnone⟩
    · exact absurd ht (he work priority rfl)
    · -- A rejoining has looked the token up.
      have ht : ticket.token = some t := ht
      rwa [ht, Option.bind_some] at hnone
  | start _ h => exact hl.of_start h
  | cancel _ h => exact hl.of_cancel h
  | finish _ => exact hl.finish hn _
  | setQuiet _ => exact hl.setQuiet _

/-- A token that leads to an item goes on to do so as long as only rejoinings submit work under it. -/
theorem Run.leads (h : Run (ByRejoining t) s u) (hn : s.queue.Numbered) (hi : s.queue.Indexed)
    (hl : s.queue.Leads t n) : u.queue.Leads t n := by
  induction h with
  | refl => exact hl
  | @step u h e he ih => exact (u.move_step e).leads he (h.keeps_numbered hn) (h.keeps_indexed hn hi) ih

theorem leads_of_beginRejoin {c₀ : Controller} (hn : c₀.queue.Numbered) (hi : c₀.queue.Indexed)
    (hb : r.beginRejoin c₀ scope st = .ok (w, c)) (ht : r.bookmark.ticket.token = some t) :
    c.queue.Leads t w.item := by
  obtain ⟨-, console, m, q, -, hq, rfl, rfl⟩ := Record.beginRejoin_eq_ok.mp hb
  rw [Record.queue_announced]
  rcases Bookmark.findOrSubmit_eq_ok.mp hq with ⟨i, hfound, rfl, rfl⟩ | ⟨-, i, hs, rfl⟩
  · rw [ht, Option.bind_some] at hfound
    exact .of_byToken? hi hn hfound
  · exact .of_submit_self hs ht

/-- Whoever rejoins under a token that leads to a live item waits for that and submits nothing. -/
theorem rejoin_of_leads (hn : s.queue.Numbered) (hi : s.queue.Indexed) (hl : s.queue.Leads t n) {p : Phase}
    (hp : s.queue.phase? n = some p) (hlive : p.isLive = true) (hr : r.holdings = none)
    (ht : r.bookmark.ticket.token = some t) {console : Console} (hc : scope.require s.fleet .console = .ok console) :
    (s.step (.rejoin r scope st)).queue = s.queue ∧ Joins s (s.step (.rejoin r scope st)) r n := by
  obtain ⟨i, hfound, rfl⟩ := hl.found hi hn hp hlive
  have hq : r.bookmark.findOrSubmit s.queue st.priority = .ok (i.id, s.queue) := by
    refine Bookmark.findOrSubmit_eq_ok.mpr (.inl ⟨i, ?_, rfl, rfl⟩)
    rw [ht, Option.bind_some, hfound]
  exact joins_of_findOrSubmit hr hc hq

end Again

section Course

variable {rule : World → Event → Prop} {s₀ s₁ : World} {n : Nat} {r : Record} {scope : StepScope} {st : Settings}
  {w : Rejoining} {c : Controller}

/-- **When time is up.**  A rejoining that begins waits until its patience is over.  However long the run and whatever
happens in it, a rejoining that is asked is given up exactly if its time is up and its item still pending, and one that
is asked once its time is up ends; if it is asked then before its item goes on, it is given up exactly if its item is
pending once time is up.  Given up, it leaves the queue, with the item pending, and all leases alone, and holds nothing.
And whoever rejoins later under the same token waits for the same item and submits nothing, as long as that was neither
cancelled nor finished and nothing but rejoinings submitted work under the token. -/
theorem overdue_rejoining (h₀ : Reachable rule s₀) (hb : r.beginRejoin s₀.controller scope st = .ok (w, c))
    (hs₁ : s₁ = s₀.step (.rejoin r scope st)) (hn : n = s₀.calls.length) :
    w.deadline = s₀.now + st.patience ∧
    (∀ s, Run rule s₁ s → Waits s n w →
      (TimedOut (s.step (.turn n)) n r ↔ w.deadline ≤ s.now ∧ s.queue.phase? w.item = some .pending) ∧
      (w.deadline ≤ s.now → ∃ y, (s.step (.turn n)).calls[n]? = some (.ended y)) ∧
      ∀ u y, w.deadline ≤ s.now → Run (AskedFirst n) s u → u.calls[n]? = some (.ended y) →
        (TimedOut u n r ↔ s.queue.phase? w.item = some .pending)) ∧
    (∀ u, Run rule s₁ u → TimedOut u n r → r.holdings = none ∧ w.deadline ≤ u.now ∧
      ∃ s, Run rule s₁ s ∧ Waits s n w ∧ s.queue.phase? w.item = some .pending ∧
        (s.step (.turn n)).queue = s.queue ∧ (s.step (.turn n)).ledger = s.ledger ∧
        TimedOut (s.step (.turn n)) n r ∧ Run rule (s.step (.turn n)) u) ∧
    ∀ t u p, r.bookmark.ticket.token = some t → Run (ByRejoining t) s₁ u →
      u.queue.phase? w.item = some p → p.isLive = true →
      ∀ (r' : Record) (scope' : StepScope) (st' : Settings) (console : Console), r'.holdings = none →
        r'.bookmark.ticket.token = some t → scope'.require u.fleet .console = .ok console →
        (u.step (.rejoin r' scope' st')).queue = u.queue ∧
          Joins u (u.step (.rejoin r' scope' st')) r' w.item := by
  obtain ⟨hcalls, hc⟩ := step_rejoin_eq hb
  have hn₀ := h₀.numbered
  have hi₀ := h₀.indexed
  rw [← hs₁] at hcalls hc
  have hqueue : s₁.queue = c.queue := congrArg Controller.queue hc
  have hn₁ : s₁.queue.Numbered := hs₁ ▸ (s₀.move_step _).numbered hn₀
  have hi₁ : s₁.queue.Indexed := hs₁ ▸ (s₀.move_step _).indexed hn₀ hi₀
  have hwaits : Waits s₁ n w := by rw [Waits, hcalls, hn, List.getElem?_concat_length]
  have hphase : ∃ p, s₁.queue.phase? w.item = some p := hqueue ▸ exists_phase?_of_beginRejoin hn₀ hb
  obtain ⟨hholds, hrec, hdeadline⟩ : r.holdings = none ∧ Record.ofBookmark w.bookmark = r ∧
      w.deadline = s₀.now + st.patience := by
    obtain ⟨hr, _, _, _, -, -, rfl, -⟩ := Record.beginRejoin_eq_ok.mp hb
    exact ⟨hr, Record.ofBookmark_of_holdings hr, rfl⟩
  refine ⟨hdeadline, ?_, ?_, ?_⟩
  · intro s h hw
    refine ⟨timedOut_turn_iff hw hrec, ended_turn_of_overdue hw, ?_⟩
    intro u y hd hu hy
    exact hu.timedOut_iff (h.keeps_numbered hn₁) hw hrec hd (h.exists_phase? hn₁ hphase) hy
  · intro u h hu
    obtain ⟨s, hs, hw, hd, hp, hturn, hrest⟩ := h.turn_of_timedOut hwaits hrec hu
    obtain ⟨hq, hl⟩ := turn_of_timedOut hw hrec hturn
    have hnow : s.now ≤ u.now := Nat.le_trans (s.now_le_step _) hrest.now_le
    exact ⟨hholds, Nat.le_trans hd hnow, s, hs, hw, hp, hq, hl, hturn, hrest⟩
  · intro t u p ht h hp hlive r' scope' st' console hr' ht' hc'
    have hleads : s₁.queue.Leads t w.item := hqueue ▸ leads_of_beginRejoin hn₀ hi₀ hb ht
    have hl := h.leads hn₁ hi₁ hleads
    exact rejoin_of_leads (h.keeps_numbered hn₁) (h.keeps_indexed hn₁ hi₁) hl hp hlive hr' ht' hc'

end Course

/-- A step whose node does not come back is given up after ten milliseconds, and waits for the same item when it is
rejoined once more. -/
theorem overdue_rejoining_again :
    let r := suspended (some "token") "node" "/ws"
    let s := (fresh.step (.rejoin r mute ⟨10, 0⟩)).after [.tick 10, .turn 0]
    TimedOut s 0 r ∧ (s.step (.rejoin r mute ⟨10, 0⟩)).queue = s.queue ∧
      Joins s (s.step (.rejoin r mute ⟨10, 0⟩)) r 1 := by
  intro r s
  let s₁ := fresh.step (.rejoin r mute ⟨10, 0⟩)
  let w : Rejoining := ⟨r.bookmark, 1, 10, (⟨10, 0⟩ : Settings).span, .silent, some 0⟩
  obtain ⟨c, hb⟩ : ∃ c, r.beginRejoin fresh.controller mute ⟨10, 0⟩ = .ok (w, c) := ⟨_, rfl⟩
  have h₀ : Reachable (ByRejoining "token") fresh := .refl
  obtain ⟨-, hasked, -, hagain⟩ := overdue_rejoining h₀ hb (rfl : s₁ = _) (rfl : 0 = _)
  have hby : ∀ e ∈ [Event.tick 10, .turn 0], ∀ u, ByRejoining "token" u e := by simp [ByRejoining]
  have hlate : Run (ByRejoining "token") s₁ (s₁.step (.tick 10)) := Run.refl.step (hby _ List.mem_cons_self _)
  refine ⟨(hasked _ hlate rfl).1.mpr ⟨by decide, by decide⟩, ?_⟩
  exact hagain "token" s .pending rfl (Run.refl.after hby) (by decide) rfl r mute ⟨10, 0⟩ .silent rfl rfl rfl

end World

end Rejoin
