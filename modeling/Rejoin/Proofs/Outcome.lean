import Rejoin.Proofs.World.Calls
import Rejoin.Proofs.World.Log
import Rejoin.Proofs.World.Parts

/-!
# What a rejoining comes to

A rejoining is begun in a world `s₀` and asked in a later world `s`, whatever happened in between.

* `World.Clear` — its item was started and did not finish, the worker is online and the path free;
* `World.Hindered` — the first thing that stood in its way, with the error for it;
* `World.rejoining_settles` — the step is recovered exactly if the way is clear, and fails with what hindered it
  otherwise;
* `World.forged_and_late_starts_recover` — that needs a queue which is told to be finished only what it started, and a
  start counts that comes before the rejoining is asked, be it after the deadline.
-/

namespace Rejoin

namespace World

/-! ### Rules -/

/-- Leases come from tables, and nothing is told to be finished but what was started. -/
def Regular (s : World) (e : Event) : Prop := TablesOnly s e ∧ Honest s e

/-! ### What decides -/

/-- The item of a rejoining was started. -/
structure StartedFor (s : World) (w : Rejoining) (a : Start) : Prop where
  mem : a ∈ s.starts
  item : a.execution.item = w.item

/-- The item was neither started nor cancelled, and time is left. -/
structure Undecided (s : World) (w : Rejoining) : Prop where
  kept : w.item ∉ s.cancels
  unstarted : ¬∃ a, StartedFor s w a
  early : s.now < w.deadline

/-- The item was started and did not finish; the worker of its slot is online over the channel, and its table has the
path free. -/
structure Clear (s : World) (w : Rejoining) (a : Start) (channel t : Nat) : Prop where
  started : StartedFor s w a
  unfinished : a.execution ∉ s.finishes
  online : s.fleet.channel? a.slot.owner = some channel
  granted : s.fleet.grantor? a.slot.owner = some (.table t)
  free : w.bookmark.path ∉ s.ledger.held t

/-- The first thing in the way of a rejoining, and the error for it. -/
inductive Hindered (s : World) (w : Rejoining) : RejoinError → Prop
  | cancelled (hc : w.item ∈ s.cancels) : Hindered s w (.interrupted (.aborted .taskCancelled))
  | timedOut (hc : w.item ∉ s.cancels) (hs : ¬∃ a, StartedFor s w a) (hd : w.deadline ≤ s.now) :
    Hindered s w (.interrupted (.aborted (.removedNode w.bookmark.node)))
  | unclaimed {a : Start} (hc : w.item ∉ s.cancels) (ha : StartedFor s w a) (hf : a.execution ∈ s.finishes) :
    Hindered s w (.notClaimed a.execution.text)
  | offline {a : Start} (hc : w.item ∉ s.cancels) (ha : StartedFor s w a) (hf : a.execution ∉ s.finishes)
    (ho : s.fleet.channel? a.slot.owner = none) : Hindered s w (.workerOffline a.slot.owner.text)
  | locked {a : Start} {channel t : Nat} (hc : w.item ∉ s.cancels) (ha : StartedFor s w a)
    (hf : a.execution ∉ s.finishes) (ho : s.fleet.channel? a.slot.owner = some channel)
    (hg : s.fleet.grantor? a.slot.owner = some (.table t)) (hp : w.bookmark.path ∈ s.ledger.held t) :
    Hindered s w (.locked w.bookmark.path)

/-- What a step holds that was recovered over a channel, with the only change to the tables of the ledger `l`. -/
structure Recovered (l l' : Ledger) (w : Rejoining) (a : Start) (channel t : Nat) (y : Holdings) : Prop where
  slot : y.slot = a.slot
  dir : y.lease.dir = ⟨a.slot.owner.name, w.bookmark.path, channel⟩
  unreleased : l'.isReleased y.lease.id = false
  held : ∀ u, l'.held u = if t = u then w.bookmark.path :: l.held t else l.held u

section Decided

variable {s : World} {w : Rejoining} {e : RejoinError}

/-- Of what can be in the way exactly the first two are interruptions, also as failures of the step. -/
theorem Hindered.isInterruption (h : Hindered s w e) :
    (e.isInterruption = true ↔ w.item ∈ s.cancels ∨ ¬∃ a, StartedFor s w a) ∧
      e.failure.isInterruption = e.isInterruption := by
  refine ⟨?_, e.isInterruption_failure⟩
  cases h with
  | cancelled hc => simp [RejoinError.isInterruption, hc]
  | timedOut hc hs hd => simp [RejoinError.isInterruption, hs]
  | unclaimed hc ha => simpa [RejoinError.isInterruption, hc] using ⟨_, ha⟩
  | offline hc ha => simpa [RejoinError.isInterruption, hc] using ⟨_, ha⟩
  | locked hc ha => simpa [RejoinError.isInterruption, hc] using ⟨_, ha⟩

theorem Hindered.not_undecided (h : Hindered s w e) : ¬Undecided s w := by
  intro hu
  cases h with
  | cancelled hc => exact hu.kept hc
  | timedOut hc hs hd => exact absurd hu.early (Nat.not_lt.mpr hd)
  | unclaimed hc ha => exact hu.unstarted ⟨_, ha⟩
  | offline hc ha => exact hu.unstarted ⟨_, ha⟩
  | locked hc ha => exact hu.unstarted ⟨_, ha⟩

theorem Hindered.not_clear (h : Hindered s w e) (hl : s.log.Faithful) : ¬∃ a channel t, Clear s w a channel t := by
  rintro ⟨b, channel, t, hb⟩
  -- The item was started once, so the execution that is in the way is the one that would be taken over.
  have same : ∀ {a : Start}, StartedFor s w a → a = b := by
    intro a ha
    have hi : a.execution.item = b.execution.item := ha.item.trans hb.started.item.symm
    exact hl.once a ha.mem b hb.started.mem hi
  cases h with
  | cancelled hc =>
    have hkept : b.execution.item ∉ s.cancels := (hl.of_start hb.started.mem).1
    rw [hb.started.item] at hkept
    exact hkept hc
  | timedOut hc hs hd => exact hs ⟨b, hb.started⟩
  | unclaimed hc ha hf =>
    rw [same ha] at hf
    exact hb.unfinished hf
  | offline hc ha hf ho =>
    rw [same ha, hb.online] at ho
    cases ho
  | locked hc ha hf ho hg hp =>
    rw [same ha, hb.granted] at hg
    obtain rfl := Grantor.table.inj (Option.some.inj hg)
    exact hb.free hp

end Decided

/-! ### Asking -/

section Asking

variable {s : World} {w : Rejoining}

/-- Whoever is online grants leases from a table that exists. -/
theorem allocate_of_online (hs : s.Listed) {v : Worker} {channel : Nat} (hc : s.fleet.channel? v = some channel)
    (d : Dir) : ∃ t, s.fleet.grantor? v = some (.table t) ∧ t < s.ledger.tables.length ∧ s.controller.allocate v d =
      .ok ((s.ledger.grant t d).1, { s.controller with ledger := (s.ledger.grant t d).2 }) := by
  obtain ⟨hlast, -⟩ := Fleet.channel?_eq_some.mp hc
  obtain ⟨st, hst, -⟩ := Option.bind_eq_some_iff.mp hlast
  have hg : s.fleet.grantor? v = some st.grantor := by
    rw [Fleet.grantor?, hst]
    rfl
  have hlists : s.ledger.Lists st.grantor := hs v st.grantor hg
  cases hgr : st.grantor with
  | policy grant =>
    rw [hgr] at hlists
    exact hlists.elim
  | table t =>
    rw [hgr] at hg hlists
    refine ⟨t, hg, hlists, Controller.allocate_eq_ok.mpr ⟨st, _, hst, ?_, rfl⟩⟩
    rw [hgr]
    rfl

theorem not_startedFor (hl : s.log.Faithful) (hn : s.queue.news? w.item = none) :
    w.item ∉ s.cancels ∧ ¬∃ a, StartedFor s w a := by
  obtain ⟨hu, hc⟩ := hl.of_news_none hn
  refine ⟨hc, ?_⟩
  rintro ⟨a, ha⟩
  exact hu a ha.mem ha.item

variable (hl : s.log.Faithful)
include hl

/-- An execution that has its slot was started for the rejoining and did not finish. -/
theorem startedFor_of_claimed {e : Execution} {slot : Slot} (hn : s.queue.news? w.item = some (.ok e))
    (hs : s.queue.claimed? e = some slot) : w.item ∉ s.cancels ∧
      ∃ a, StartedFor s w a ∧ a.execution = e ∧ a.slot = slot ∧ a.execution ∉ s.finishes := by
  obtain ⟨hc, a, ha, rfl, hi, ⟨hf, hcl⟩ | ⟨-, hcl⟩⟩ := hl.of_news_ok hn
  · have hslot : a.slot = slot := Option.some.inj (hcl.symm.trans hs)
    exact ⟨hc, a, ⟨ha, hi⟩, rfl, hslot, hf⟩
  · have hcl : s.queue.claimed? a.execution = none := hcl
    rw [hcl] at hs
    cases hs

theorem startedFor_of_unclaimed {e : Execution} (hn : s.queue.news? w.item = some (.ok e))
    (hs : s.queue.claimed? e = none) : w.item ∉ s.cancels ∧
      ∃ a, StartedFor s w a ∧ a.execution = e ∧ a.execution ∈ s.finishes := by
  obtain ⟨hc, a, ha, rfl, hi, ⟨-, hcl⟩ | ⟨hf, -⟩⟩ := hl.of_news_ok hn
  · have hcl : s.queue.claimed? a.execution = some a.slot := hcl
    rw [hcl] at hs
    cases hs
  · exact ⟨hc, a, ⟨ha, hi⟩, rfl, hf⟩

/-- What comes of asking: the rejoining waits on, recovers its step, or is hindered. -/
theorem poll_settles (ho : s.Orderly) (hi : ∃ p, s.queue.phase? w.item = some p) :
    ((w.poll s.controller).1 = none ∧ Undecided s w) ∨
    (∃ y a channel t, (w.poll s.controller).1 = some (.ok y) ∧ Clear s w a channel t ∧
      Recovered s.ledger (w.poll s.controller).2.ledger w a channel t y) ∨
    ∃ e, (w.poll s.controller).1 = some (.error e) ∧ Hindered s w e := by
  have hp := w.proceeds_poll s.controller
  generalize (w.poll s.controller).1 = x at hp
  generalize (w.poll s.controller).2 = c' at hp
  generalize hn : s.controller.queue.news? w.item = news at hp
  cases hp with
  | waits hd =>
    obtain ⟨hc, hs⟩ := not_startedFor hl hn
    exact .inl ⟨rfl, hc, hs, hd⟩
  | timedOut hd =>
    obtain ⟨hc, hs⟩ := not_startedFor hl hn
    exact .inr (.inr ⟨_, rfl, .timedOut hc hs hd⟩)
  | cancelled x =>
    have hc : w.item ∈ s.cancels := hl.of_news_error hi hn
    exact .inr (.inr ⟨_, rfl, .cancelled hc⟩)
  | unclaimed hs =>
    obtain ⟨hc, a, ha, rfl, hf⟩ := startedFor_of_unclaimed hl hn hs
    exact .inr (.inr ⟨_, rfl, .unclaimed hc ha hf⟩)
  | offline hs hch =>
    obtain ⟨hc, a, ha, rfl, rfl, hf⟩ := startedFor_of_claimed hl hn hs
    exact .inr (.inr ⟨_, rfl, .offline hc ha hf hch⟩)
  | @failed e slot channel _ hs hch hx =>
    -- A table refuses nothing.
    obtain ⟨t, -, -, hok⟩ := allocate_of_online ho.listed hch (w.wanted slot channel)
    rw [hok] at hx
    cases hx
  | @locked e slot channel l _ hs hch hx hd =>
    obtain ⟨hc, a, ha, rfl, rfl, hf⟩ := startedFor_of_claimed hl hn hs
    obtain ⟨t, hg, -, hok⟩ := allocate_of_online ho.listed hch (w.wanted a.slot channel)
    obtain ⟨rfl, -⟩ := Prod.mk.inj (Except.ok.inj (hok.symm.trans hx))
    have hheld : w.bookmark.path ∈ s.ledger.held t := by
      by_contra hfree
      have hgr : Holds.granted (s.ledger.held t) (w.wanted a.slot channel).path = (w.wanted a.slot channel).path :=
        Holds.granted_of_not_mem hfree
      rw [Ledger.dir_grant, hgr, Dir.withPath_self, Dir.same_self] at hd
      cases hd
    exact .inr (.inr ⟨_, rfl, .locked hc ha hf hch hg hheld⟩)
  | @recovered e slot channel l _ hs hch hx hd =>
    obtain ⟨hc, a, ha, rfl, rfl, hf⟩ := startedFor_of_claimed hl hn hs
    obtain ⟨t, hg, htab, hok⟩ := allocate_of_online ho.listed hch (w.wanted a.slot channel)
    obtain ⟨rfl, rfl⟩ := Prod.mk.inj (Except.ok.inj (hok.symm.trans hx))
    rw [Ledger.dir_grant] at hd
    have hgr : Holds.granted (s.ledger.held t) w.bookmark.path = w.bookmark.path := (Dir.same_iff.mp hd).1
    have hfree : w.bookmark.path ∉ s.ledger.held t := Holds.granted_eq_self_iff.mp hgr
    refine .inr (.inl ⟨_, a, channel, t, rfl, ⟨ha, hf, hch, hg, hfree⟩, rfl, ?_, ?_, ?_⟩)
    · rw [Ledger.dir_grant]
      exact congrArg (w.wanted a.slot channel).withPath hgr
    · exact Ledger.isReleased_issue _ _ _
    · intro u
      show (s.ledger.grant t (w.wanted a.slot channel)).2.held u = _
      rw [Ledger.held_grant _ _ _ htab]
      exact if_congr Iff.rfl (congrArg (· :: s.ledger.held t) hgr) rfl

end Asking

/-! ### From the beginning to the end -/

section Course

variable {s₀ s : World} {r : Record} {scope : StepScope} {st : Settings} {w : Rejoining} {c : Controller}

theorem step_rejoin_eq (hb : r.beginRejoin s₀.controller scope st = .ok (w, c)) :
    (s₀.step (.rejoin r scope st)).calls = s₀.calls ++ [.waiting (.rejoining w)] ∧
      (s₀.step (.rejoin r scope st)).controller = c := by
  simp [step, rejoin, hb]

theorem regular_rejoin : Regular s₀ (.rejoin r scope st) := by
  refine ⟨trivial, ?_⟩
  intro x he
  cases he

theorem Run.exists_phase? {rule : World → Event → Prop} {s₁ : World} (h : Run rule s₁ s)
    (hs : s₁.queue.Numbered) {n : Nat} (hp : ∃ p, s₁.queue.phase? n = some p) : ∃ p, s.queue.phase? n = some p := by
  induction h with
  | refl => exact hp
  | step h _ ih => exact exists_phase?_step (h.keeps_numbered hs) ih

/-- **What a rejoining comes to.**  However long it waited and whatever happened meanwhile, a rejoining that is asked
waits on while its item is neither started nor cancelled and time is left.  Otherwise it ends: it recovers the step
exactly if the way is clear, and then the step has the slot of the start and an unreleased lease on its own path, which
is all that changed in the tables; if not, it fails with the first thing in its way, and that is an interruption
exactly if the item was cancelled or not started.  A start counts that came by then, also after the deadline. -/
theorem rejoining_settles (h₀ : Reachable Regular s₀) (hb : r.beginRejoin s₀.controller scope st = .ok (w, c))
    (h : Run Regular (s₀.step (.rejoin r scope st)) s)
    (hw : s.calls[s₀.calls.length]? = some (.waiting (.rejoining w))) :
    (Undecided s w → (s.step (.turn s₀.calls.length)).calls[s₀.calls.length]? = some (.waiting (.rejoining w))) ∧
    (¬Undecided s w →
      ∃ x, (s.step (.turn s₀.calls.length)).calls[s₀.calls.length]? = some (.ended (.rejoined (r.settled x) x)) ∧
        ((∃ y, x = .ok y) ↔ ∃ a channel t, Clear s w a channel t) ∧
        (∀ y, x = .ok y → ∃ a channel t, Clear s w a channel t ∧
          Recovered s.ledger (s.step (.turn s₀.calls.length)).ledger w a channel t y) ∧
        ∀ e, x = .error e → Hindered s w e ∧
          (e.isInterruption = true ↔ w.item ∈ s.cancels ∨ ¬∃ a, StartedFor s w a) ∧
          e.failure.isInterruption = e.isInterruption) := by
  obtain ⟨-, hc⟩ := step_rejoin_eq hb
  have h₁ : Reachable Regular (s₀.step (.rejoin r scope st)) := h₀.step regular_rejoin
  have hs : Reachable Regular s := h₁.trans h
  have hl : s.log.Faithful := (hs.mono fun _ _ hr => hr.2).faithful
  have ho : s.Orderly := (hs.mono fun _ _ hr => hr.1).orderly
  have hp₁ : ∃ p, (s₀.step (.rejoin r scope st)).controller.queue.phase? w.item = some p := by
    rw [hc]
    exact exists_phase?_of_beginRejoin h₀.numbered hb
  have hp : ∃ p, s.queue.phase? w.item = some p := h.exists_phase? h₁.numbered hp₁
  have hrec : Record.ofBookmark w.bookmark = r := by
    obtain ⟨hr, _, _, _, -, -, rfl, -⟩ := Record.beginRejoin_eq_ok.mp hb
    exact Record.ofBookmark_of_holdings hr
  obtain ⟨hctl, hcall⟩ := step_turn_rejoining hw
  have hled : (s.step (.turn s₀.calls.length)).ledger = (w.poll s.controller).2.ledger :=
    congrArg Controller.ledger hctl
  rw [hrec] at hcall
  constructor
  · intro hu
    rcases poll_settles hl ho hp with ⟨hx, -⟩ | ⟨y, a, _, _, -, hclear, -⟩ | ⟨e, -, hh⟩
    · rwa [hx] at hcall
    · exact absurd ⟨a, hclear.started⟩ hu.unstarted
    · exact absurd hu hh.not_undecided
  · intro hu
    rcases poll_settles hl ho hp with ⟨-, hu'⟩ | ⟨y, a, channel, t, hx, hclear, hrecd⟩ | ⟨e, hx, hh⟩
    · exact absurd hu' hu
    · rw [hx] at hcall
      rw [← hled] at hrecd
      refine ⟨.ok y, hcall, ?_, ?_, ?_⟩
      · exact iff_of_true ⟨y, rfl⟩ ⟨a, channel, t, hclear⟩
      · rintro _ ⟨⟩
        exact ⟨a, channel, t, hclear, hrecd⟩
      · intro e he
        cases he
    · rw [hx] at hcall
      refine ⟨.error e, hcall, ?_, ?_, ?_⟩
      · refine iff_of_false ?_ (hh.not_clear hl)
        rintro ⟨y, hy⟩
        cases hy
      · intro y hy
        cases hy
      · rintro _ ⟨⟩
        exact ⟨hh, hh.isInterruption⟩

end Course

/-! ### Runs of one step -/

/-- A step waits up to ten milliseconds for a node that was added, and its item is started there after some time. -/
def startedAfter (ms : Nat) : World :=
  ((fresh.after [.addWorker "w"]).step (.rejoin (suspended none "w" "/ws") mute ⟨10, 0⟩)).after
    [.tick ms, .start 1 1 1]

def waitingFor (node : String) : Rejoining :=
  ⟨(suspended none node "/ws").bookmark, 1, 10, (⟨10, 0⟩ : Settings).span, .silent, some 0⟩

def onFirstSlot : Holdings := ⟨⟨⟨1, "w"⟩, 1⟩, ⟨0, ⟨"w", "/ws", 2⟩⟩⟩

theorem run_startedAfter (ms : Nat) : Reachable Regular (fresh.after [.addWorker "w"]) ∧
    Run Regular ((fresh.after [.addWorker "w"]).step (.rejoin (suspended none "w" "/ws") mute ⟨10, 0⟩))
      (startedAfter ms) := by
  refine ⟨Run.refl.after ?_, Run.refl.after ?_⟩
  · simp [Regular, TablesOnly, Honest]
  · simp [Regular, TablesOnly, Honest]

theorem starts_startedAfter (ms : Nat) :
    (startedAfter ms).starts = [⟨⟨1, 1, "part of run #step"⟩, ⟨⟨1, "w"⟩, 1⟩, ms⟩] := by
  have h : (startedAfter ms).starts = [⟨⟨1, 1, "part of run #step"⟩, ⟨⟨1, "w"⟩, 1⟩, 0 + ms⟩] := rfl
  rw [h, Nat.zero_add]

theorem calls_turn_startedAfter (ms : Nat) : ((startedAfter ms).step (.turn 0)).calls[0]? =
    some (.ended (.rejoined ((suspended none "w" "/ws").settled (.ok onFirstSlot)) (.ok onFirstSlot))) := by
  have hw : (startedAfter ms).calls[0]? = some (.waiting (.rejoining (waitingFor "w"))) := rfl
  have hx : ((waitingFor "w").poll (startedAfter ms).controller).1 = some (.ok onFirstSlot) := by rfl
  rw [(step_turn_rejoining hw).2, hx]
  rfl

/-- The step is recovered on the slot of the start, whether that came before the deadline or after it. -/
theorem rejoining_settles_started :
    let w := waitingFor "w"
    let early := startedAfter 5
    let late := startedAfter 12
    (∃ a channel t, Clear early w a channel t ∧
        Recovered early.ledger (early.step (.turn 0)).ledger w a channel t onFirstSlot) ∧
      ∃ a channel t, Clear late w a channel t ∧
        Recovered late.ledger (late.step (.turn 0)).ledger w a channel t onFirstSlot := by
  intro w early late
  have hsettled (ms : Nat) : ∃ a channel t, Clear (startedAfter ms) w a channel t ∧
      Recovered (startedAfter ms).ledger ((startedAfter ms).step (.turn 0)).ledger w a channel t onFirstSlot := by
    obtain ⟨h₀, h⟩ := run_startedAfter ms
    have hu : ¬Undecided (startedAfter ms) w := by
      intro hu
      have hm := List.mem_singleton_self (⟨⟨1, 1, "part of run #step"⟩, ⟨⟨1, "w"⟩, 1⟩, ms⟩ : Start)
      rw [← starts_startedAfter] at hm
      exact hu.unstarted ⟨_, hm, rfl⟩
    obtain ⟨x, hx, -, hok, -⟩ := (rejoining_settles (w := w) h₀ rfl h rfl).2 hu
    have hend := hx.symm.trans (calls_turn_startedAfter ms)
    obtain rfl : x = .ok onFirstSlot := (WaitEnd.rejoined.inj (Call.ended.inj (Option.some.inj hend))).2
    exact hok onFirstSlot rfl
  exact ⟨hsettled 5, hsettled 12⟩

/-- As long as events keep to the rule, a rejoining that was asked and has ended recovered its step exactly if the
condition held when it was asked. -/
def RecoversIff (rule : World → Event → Prop) (cond : World → Rejoining → Prop) : Prop :=
  ∀ (s₀ s : World) (r : Record) (scope : StepScope) (st : Settings) (w : Rejoining) (c : Controller),
    Reachable rule s₀ → r.beginRejoin s₀.controller scope st = .ok (w, c) →
    Run rule (s₀.step (.rejoin r scope st)) s → s.calls[s₀.calls.length]? = some (.waiting (.rejoining w)) →
    ∀ x, (s.step (.turn s₀.calls.length)).calls[s₀.calls.length]? = some (.ended (.rejoined (r.settled x) x)) →
      ((∃ y, x = .ok y) ↔ cond s w)

/-- A queue that is told to be finished an execution that it never started takes that for the start of an item, and a
step is recovered on the slot of another one. -/
theorem not_recoversIff_clear : ¬RecoversIff TablesOnly fun s w => ∃ a channel t, Clear s w a channel t := by
  intro hall
  let s := (fresh.step (.rejoin (suspended none "" "/ws") mute ⟨10, 0⟩)).after
    [.finish ⟨1, 1, "made up"⟩, .submit (.job "other") 0, .start 2 0 1]
  let y : Holdings := ⟨⟨Fleet.controllerWorker, 1⟩, ⟨0, ⟨"", "/ws", 1⟩⟩⟩
  have h : Run TablesOnly (fresh.step (.rejoin (suspended none "" "/ws") mute ⟨10, 0⟩)) s :=
    Run.refl.after (by simp [TablesOnly])
  have hw : s.calls[0]? = some (.waiting (.rejoining (waitingFor ""))) := rfl
  have hx : ((waitingFor "").poll s.controller).1 = some (.ok y) := by decide +kernel
  have hend : (s.step (.turn 0)).calls[0]? =
      some (.ended (.rejoined ((suspended none "" "/ws").settled (.ok y)) (.ok y))) := by
    rw [(step_turn_rejoining hw).2, hx]
    rfl
  obtain ⟨a, channel, t, ha⟩ := (hall fresh s _ _ _ _ _ .refl rfl h hw (.ok y) hend).mp ⟨y, rfl⟩
  -- The only item that was started is the other one.
  have hs : s.starts = [⟨⟨1, 2, "other"⟩, ⟨Fleet.controllerWorker, 1⟩, 0⟩] := rfl
  have hm := ha.started.mem
  rw [hs] at hm
  obtain rfl := List.mem_singleton.mp hm
  exact absurd ha.started.item (by decide)

/-- A start after the deadline is as good as one before, as long as the rejoining was not asked in between. -/
theorem not_recoversIff_early :
    ¬RecoversIff Regular fun s w => ∃ a channel t, Clear s w a channel t ∧ a.time < w.deadline := by
  intro hall
  obtain ⟨h₀, h⟩ := run_startedAfter 12
  obtain ⟨a, channel, t, ha, htime⟩ :=
    (hall _ (startedAfter 12) _ _ _ (waitingFor "w") _ h₀ rfl h rfl _ (calls_turn_startedAfter 12)).mp ⟨_, rfl⟩
  have hm := ha.started.mem
  rw [starts_startedAfter] at hm
  obtain rfl := List.mem_singleton.mp hm
  exact absurd htime (by decide)

/-- **Two ways to be recovered all the same.**  By an execution that was made up, and by a start that came late. -/
theorem forged_and_late_starts_recover :
    (¬RecoversIff TablesOnly fun s w => ∃ a channel t, Clear s w a channel t) ∧
      ¬RecoversIff Regular fun s w => ∃ a channel t, Clear s w a channel t ∧ a.time < w.deadline :=
  ⟨not_recoversIff_clear, not_recoversIff_early⟩

end World

end Rejoin
