import Rejoin.Proofs.Queue.Phases
import Rejoin.Proofs.Rejoining.Cases

/-!
# Runs of a controller

A `World` is a controller with the calls that wait in it and with a log of what its queue was told.  Whatever is done
to it is an `Event`, and `World.step` is what an event does.

* `World.Run` — the worlds that events lead to, where each event may be held to a rule on the world that it meets;
  `World.Reachable` — those that are led to from the beginning;
* `World.Run.keeps` — what every event keeps, a run keeps;
* `World.move_step` — what an event does to the queue.

Workers go by their number, since the fleet has no more of them than that; so do calls.  A call that has begun is
asked by a `turn` only, in any order, as often as one likes.
-/

namespace Rejoin

/-- A wait that is under way, has ended, or was given up. -/
inductive World.Call where
  | waiting (w : Wait)
  | ended (e : WaitEnd)
  | dropped

/-- An execution that the queue handed to a slot, and when. -/
structure World.Start where
  execution : Execution
  slot : Slot
  time : Nat
deriving DecidableEq, Repr

/-- A queue with what it was told: what it started, in order, which executions it was told to be finished, and which
items it cancelled, each latest first. -/
structure World.Log where
  queue : Queue := {}
  starts : List World.Start := []
  finishes : List Execution := []
  cancels : List Nat := []

/-- A controller, the workers that were hired, the calls in the order in which they came, and what the queue was
told. -/
structure World where
  controller : Controller := .fresh
  workers : List Worker := [Fleet.controllerWorker]
  calls : List World.Call := []
  starts : List World.Start := []
  finishes : List Execution := []
  cancels : List Nat := []

inductive World.Event where
  /-- Hires a worker, offline, whose leases are granted by `g`. -/
  | hire (name : String) (g : Grantor)
  | addWorker (name : String)
  | enlist (name : String) (worker : Nat)
  | remove (name : String) (time : Timestamp)
  | connect (worker : Nat)
  | disconnect (worker : Nat) (o : Outage)
  | noteTermination (worker : Nat) (t : Termination)
  | newTable
  | allocate (g : Grantor) (d : Dir)
  | release (lease : Nat)
  | submit (w : Work) (priority : Nat)
  /-- Hands an item to a slot of a worker. -/
  | start (item worker number : Nat)
  | cancel (item : Nat)
  | finish (e : Execution)
  | setQuiet (on : Bool)
  | await (item : Nat)
  | rejoin (r : Record) (scope : StepScope) (s : Settings)
  /-- Asks a call whether it can go on. -/
  | turn (call : Nat)
  | drop (call : Nat)
  | tick (ms : Nat)

namespace World

def fresh : World := {}

abbrev now (s : World) : Nat := s.controller.now

abbrev fleet (s : World) : Fleet := s.controller.fleet

abbrev ledger (s : World) : Ledger := s.controller.ledger

abbrev queue (s : World) : Queue := s.controller.queue

/-- The queue with what it was told. -/
def log (s : World) : Log := ⟨s.queue, s.starts, s.finishes, s.cancels⟩

section Setters

variable (s : World)

def setFleet (f : Fleet) : World := { s with controller.fleet := f }

def setLedger (l : Ledger) : World := { s with controller.ledger := l }

def setQueue (q : Queue) : World := { s with controller.queue := q }

/-- Changes the fleet as far as it concerns one worker; a number that nobody has changes nothing. -/
def onWorker (k : Nat) (g : Fleet → Worker → Fleet) : World :=
  match s.workers[k]? with
  | some w => s.setFleet (g s.fleet w)
  | none => s

def allocate (g : Grantor) (d : Dir) : World :=
  match s.ledger.allocate g d with
  | .ok (_, l) => s.setLedger l
  | .error _ => s

def submit (w : Work) (priority : Nat) : World :=
  match s.queue.submit w priority with
  | some (_, q) => s.setQueue q
  | none => s

def start (item : Nat) (slot : Slot) : World :=
  match s.queue.start item slot with
  | .ok (e, q) => { s.setQueue q with starts := s.starts ++ [⟨e, slot, s.now⟩] }
  | .error _ => s

/-- Hands an item to a slot of a worker; a number that nobody has changes nothing. -/
def startOn (item k number : Nat) : World :=
  match s.workers[k]? with
  | some w => s.start item ⟨w, number⟩
  | none => s

def cancel (item : Nat) : World :=
  match s.queue.cancel item with
  | (true, q) => { s.setQueue q with cancels := item :: s.cancels }
  | (false, _) => s

def rejoin (r : Record) (scope : StepScope) (st : Settings) : World :=
  match r.beginRejoin s.controller scope st with
  | .error e => { s with calls := s.calls ++ [.ended (.rejoined r (.error e))] }
  | .ok (w, c) => { s with controller := c, calls := s.calls ++ [.waiting (.rejoining w)] }

def turn (n : Nat) : World :=
  match s.calls[n]? with
  | some (.waiting w) =>
    let (e, c) := w.poll s.controller
    { s with controller := c, calls := s.calls.set n ((e.map .ended).getD (.waiting w)) }
  | _ => s

def drop (n : Nat) : World :=
  match s.calls[n]? with
  | some (.waiting _) => { s with calls := s.calls.set n .dropped }
  | _ => s

end Setters

def step (s : World) : Event → World
  | .hire name g =>
    let (w, f) := s.fleet.hire name g
    { s.setFleet f with workers := s.workers ++ [w] }
  | .addWorker name =>
    let (w, c) := s.controller.addWorker name
    { s with controller := c, workers := s.workers ++ [w] }
  | .enlist name k => s.onWorker k (·.enlist name ·)
  | .remove name time => s.setFleet (s.fleet.remove name time).2
  | .connect k => s.onWorker k fun f w => (f.connect w).2
  | .disconnect k o => s.onWorker k (·.disconnect · o)
  | .noteTermination k t => s.onWorker k (·.noteTermination · t)
  | .newTable => s.setLedger s.ledger.newTable.2
  | .allocate g d => s.allocate g d
  | .release id => s.setLedger (s.ledger.release id)
  | .submit w priority => s.submit w priority
  | .start item k number => s.startOn item k number
  | .cancel item => s.cancel item
  | .finish e => { s.setQueue (s.queue.finish e) with finishes := e :: s.finishes }
  | .setQuiet on => s.setQueue (s.queue.setQuiet on)
  | .await item => { s with calls := s.calls ++ [.waiting (.start item)] }
  | .rejoin r scope st => s.rejoin r scope st
  | .turn n => s.turn n
  | .drop n => s.drop n
  | .tick ms => { s with controller.now := s.now + ms }

def after (s : World) (es : List Event) : World := es.foldl step s

@[simp] theorem after_nil (s : World) : s.after [] = s := rfl

@[simp] theorem after_cons (s : World) (e : Event) (es : List Event) : s.after (e :: es) = (s.step e).after es := rfl

/-- One world is led to from another by events that keep to a rule. -/
inductive Run (rule : World → Event → Prop) (s : World) : World → Prop
  | refl : Run rule s s
  | step {t : World} (h : Run rule s t) {e : Event} (he : rule t e) : Run rule s (t.step e)

/-- A world is led to from the beginning by events that keep to a rule. -/
abbrev Reachable (rule : World → Event → Prop) : World → Prop := Run rule fresh

namespace Run

variable {rule : World → Event → Prop} {s t u : World}

theorem trans (h : Run rule s t) (h' : Run rule t u) : Run rule s u := by
  induction h' with
  | refl => exact h
  | step _ he ih => exact ih.step he

theorem mono {rule' : World → Event → Prop} (hr : ∀ s e, rule s e → rule' s e) (h : Run rule s t) :
    Run rule' s t := by
  induction h with
  | refl => exact .refl
  | step _ he ih => exact ih.step (hr _ _ he)

theorem after (h : Run rule s t) {es : List Event} (he : ∀ e ∈ es, ∀ u, rule u e) : Run rule s (t.after es) := by
  induction es generalizing t with
  | nil => exact h
  | cons e es ih =>
    have hstep : Run rule s (t.step e) := h.step (he e List.mem_cons_self t)
    refine ih hstep ?_
    intro e' h'
    exact he e' (List.mem_cons_of_mem e h')

theorem keeps {P : World → Prop} (hP : ∀ t e, rule t e → P t → P (t.step e)) (h : Run rule s t) (hs : P s) : P t := by
  induction h with
  | refl => exact hs
  | step _ he ih => exact hP _ _ he ih

end Run

/-! ### Steps to try a world with -/

/-- A step that was suspended at a path of a node. -/
def suspended (token : Option String) (node path : String) : Record :=
  .ofBookmark ⟨⟨"run", "step", token⟩, node, path, 0⟩

def mute : StepScope := .root [] [⟨.console, .silent⟩] 0

/-! ### What an operation leaves alone -/

section Frames

variable (s : World) (item k number : Nat) (slot : Slot) (g : Fleet → Worker → Fleet)

theorem onWorker_eq : s.onWorker k g = s ∨
    ∃ w, s.workers[k]? = some w ∧ s.onWorker k g = s.setFleet (g s.fleet w) := by
  unfold onWorker
  cases s.workers[k]? with
  | none => exact .inl rfl
  | some w => exact .inr ⟨w, rfl, rfl⟩

theorem startOn_eq : s.startOn item k number = s ∨
    ∃ w, s.workers[k]? = some w ∧ s.startOn item k number = s.start item ⟨w, number⟩ := by
  unfold startOn
  cases s.workers[k]? with
  | none => exact .inl rfl
  | some w => exact .inr ⟨w, rfl, rfl⟩

@[simp] theorem log_onWorker : (s.onWorker k g).log = s.log := by unfold onWorker; split <;> rfl

@[simp] theorem now_onWorker : (s.onWorker k g).now = s.now := by unfold onWorker; split <;> rfl

@[simp] theorem ledger_onWorker : (s.onWorker k g).ledger = s.ledger := by unfold onWorker; split <;> rfl

@[simp] theorem calls_onWorker : (s.onWorker k g).calls = s.calls := by unfold onWorker; split <;> rfl

@[simp] theorem fleet_allocate (a : Grantor) (d : Dir) : (s.allocate a d).fleet = s.fleet := by
  unfold allocate; split <;> rfl

@[simp] theorem log_allocate (a : Grantor) (d : Dir) : (s.allocate a d).log = s.log := by
  unfold allocate; split <;> rfl

@[simp] theorem calls_allocate (a : Grantor) (d : Dir) : (s.allocate a d).calls = s.calls := by
  unfold allocate; split <;> rfl

@[simp] theorem now_allocate (a : Grantor) (d : Dir) : (s.allocate a d).now = s.now := by
  unfold allocate; split <;> rfl

@[simp] theorem fleet_submit (w : Work) (n : Nat) : (s.submit w n).fleet = s.fleet := by
  unfold submit; split <;> rfl

@[simp] theorem ledger_submit (w : Work) (n : Nat) : (s.submit w n).ledger = s.ledger := by
  unfold submit; split <;> rfl

@[simp] theorem calls_submit (w : Work) (n : Nat) : (s.submit w n).calls = s.calls := by
  unfold submit; split <;> rfl

@[simp] theorem now_submit (w : Work) (n : Nat) : (s.submit w n).now = s.now := by
  unfold submit; split <;> rfl

@[simp] theorem fleet_start : (s.start item slot).fleet = s.fleet := by unfold start; split <;> rfl

@[simp] theorem ledger_start : (s.start item slot).ledger = s.ledger := by unfold start; split <;> rfl

@[simp] theorem calls_start : (s.start item slot).calls = s.calls := by unfold start; split <;> rfl

@[simp] theorem now_start : (s.start item slot).now = s.now := by unfold start; split <;> rfl

@[simp] theorem fleet_startOn : (s.startOn item k number).fleet = s.fleet := by unfold startOn; split <;> simp

@[simp] theorem ledger_startOn : (s.startOn item k number).ledger = s.ledger := by unfold startOn; split <;> simp

@[simp] theorem calls_startOn : (s.startOn item k number).calls = s.calls := by unfold startOn; split <;> simp

@[simp] theorem now_startOn : (s.startOn item k number).now = s.now := by unfold startOn; split <;> simp

@[simp] theorem fleet_cancel : (s.cancel item).fleet = s.fleet := by unfold cancel; split <;> rfl

@[simp] theorem ledger_cancel : (s.cancel item).ledger = s.ledger := by unfold cancel; split <;> rfl

@[simp] theorem calls_cancel : (s.cancel item).calls = s.calls := by unfold cancel; split <;> rfl

@[simp] theorem now_cancel : (s.cancel item).now = s.now := by unfold cancel; split <;> rfl

@[simp] theorem fleet_drop : (s.drop k).fleet = s.fleet := by unfold drop; split <;> rfl

@[simp] theorem ledger_drop : (s.drop k).ledger = s.ledger := by unfold drop; split <;> rfl

@[simp] theorem log_drop : (s.drop k).log = s.log := by unfold drop; split <;> rfl

@[simp] theorem now_drop : (s.drop k).now = s.now := by unfold drop; split <;> rfl

/-- Beginning to rejoin changes nothing but the queue and the transcripts. -/
theorem rejoin_frame (r : Record) (scope : StepScope) (st : Settings) : (s.rejoin r scope st).now = s.now ∧
    (s.rejoin r scope st).fleet = s.fleet ∧ (s.rejoin r scope st).ledger = s.ledger := by
  unfold rejoin
  split
  next => exact ⟨rfl, rfl, rfl⟩
  next h =>
    obtain ⟨-, _, _, _, -, -, -, rfl⟩ := Record.beginRejoin_eq_ok.mp h
    exact ⟨Record.now_announced _ _, Record.fleet_announced _ _, Record.ledger_announced _ _⟩

theorem poll_frame (w : Wait) (c : Controller) :
    (w.poll c).2.now = c.now ∧ (w.poll c).2.fleet = c.fleet ∧ (w.poll c).2.queue = c.queue := by
  cases w with
  | start item => exact ⟨rfl, rfl, rfl⟩
  | rejoining r => exact (r.proceeds_poll c).frame

theorem turn_frame (n : Nat) :
    (s.turn n).now = s.now ∧ (s.turn n).fleet = s.fleet ∧ (s.turn n).log = s.log := by
  unfold turn
  split
  next w _ =>
    obtain ⟨hn, hf, hq⟩ := poll_frame w s.controller
    exact ⟨hn, hf, congrArg (Log.mk · s.starts s.finishes s.cancels) hq⟩
  next => exact ⟨rfl, rfl, rfl⟩

end Frames

theorem now_le_step (s : World) (e : Event) : s.now ≤ (s.step e).now := by
  cases e with
  | turn n => exact Nat.le_of_eq (s.turn_frame n).1.symm
  | rejoin r scope st => exact Nat.le_of_eq (s.rejoin_frame r scope st).1.symm
  | addWorker name => exact Nat.le_refl _
  | tick ms => exact Nat.le_add_right _ _
  | _ => simp [step, setFleet, setLedger, setQueue]

/-! ### The queue after an event -/

/-- What an event can do to a queue.  Work is submitted by itself, or as a ticket whose token finds nothing. -/
inductive Move (s : World) (e : Event) : Log → Prop
  | stay : Move s e s.log
  | submit {w : Work} {priority : Nat} {i : Item} {q : Queue} (he : e = .submit w priority ∨
      ∃ t : Ticket, w = .ticket t ∧ t.token.bind s.queue.byToken? = none)
    (h : s.queue.submit w priority = some (i, q)) : Move s e { s.log with queue := q }
  | start {id k number : Nat} {slot : Slot} {x : Execution} {q : Queue} (he : e = .start id k number)
    (h : s.queue.start id slot = .ok (x, q)) :
    Move s e { s.log with queue := q, starts := s.starts ++ [⟨x, slot, s.now⟩] }
  | cancel {id : Nat} {q : Queue} (he : e = .cancel id) (h : s.queue.cancel id = (true, q)) :
    Move s e { s.log with queue := q, cancels := id :: s.cancels }
  | finish {x : Execution} (he : e = .finish x) :
    Move s e { s.log with queue := s.queue.finish x, finishes := x :: s.finishes }
  | setQuiet {on : Bool} (he : e = .setQuiet on) : Move s e { s.log with queue := s.queue.setQuiet on }

theorem move_step (s : World) (e : Event) : Move s e (s.step e).log := by
  cases e with
  | submit w priority =>
    simp only [step, submit]
    split
    next h => exact .submit (Or.inl rfl) h
    next => exact .stay
  | start item k number =>
    rcases s.startOn_eq item k number with h | ⟨w, -, h⟩
    · rw [step, h]
      exact .stay
    · rw [step, h, start]
      split
      next h => exact .start rfl h
      next => exact .stay
  | cancel item =>
    simp only [step, cancel]
    split
    next h => exact .cancel rfl h
    next => exact .stay
  | finish e => exact .finish rfl
  | setQuiet on => exact .setQuiet rfl
  | rejoin r scope st =>
    simp only [step, rejoin]
    split
    next => exact .stay
    next w c h =>
      obtain ⟨-, console, n, q, -, hq, rfl, rfl⟩ := Record.beginRejoin_eq_ok.mp h
      simp only [log, queue, Record.queue_announced]
      rcases Bookmark.findOrSubmit_eq_ok.mp hq with ⟨i, -, -, rfl⟩ | ⟨hn, i, hi, -⟩
      · exact .stay
      · exact .submit (Or.inr ⟨_, rfl, hn⟩) hi
  | turn n => rw [step, (s.turn_frame n).2.2]; exact .stay
  | drop n => rw [step, log_drop]; exact .stay
  | allocate g d => rw [step, log_allocate]; exact .stay
  | enlist name k => rw [step, log_onWorker]; exact .stay
  | connect k => rw [step, log_onWorker]; exact .stay
  | disconnect k o => rw [step, log_onWorker]; exact .stay
  | noteTermination k t => rw [step, log_onWorker]; exact .stay
  | _ => exact .stay

theorem Move.numbered {s : World} {e : Event} {l : Log} (h : Move s e l) (hs : s.queue.Numbered) :
    l.queue.Numbered := by
  cases h with
  | stay => exact hs
  | submit _ h => exact hs.of_submit h
  | start _ h => exact hs.of_start h
  | cancel _ h => exact hs.of_cancel h
  | finish _ => exact hs.finish _
  | setQuiet _ => exact hs.setQuiet _

namespace Run

variable {rule : World → Event → Prop} {s t : World}

theorem keeps_numbered (h : Run rule s t) (hs : s.queue.Numbered) : t.queue.Numbered := by
  refine h.keeps (P := fun s => s.queue.Numbered) ?_ hs
  intro t e _ ht
  exact (t.move_step e).numbered ht

theorem numbered (h : Reachable rule s) : s.queue.Numbered := h.keeps_numbered Queue.numbered_empty

theorem now_le (h : Run rule s t) : s.now ≤ t.now := by
  refine h.keeps (P := fun t => s.now ≤ t.now) ?_ (Nat.le_refl _)
  intro t e _ ht
  exact Nat.le_trans ht (t.now_le_step e)

end Run

end World

end Rejoin
