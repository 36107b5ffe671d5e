import Rejoin.Fleet
import Rejoin.Ticket

/-!
# The work queue

Items are accepted under ascending numbers (`Queue.submit`), started on a slot (`Queue.start`), and then finished
(`Queue.finish`), or cancelled before they start (`Queue.cancel`).

* The index finds the live item that carries a token (`Queue.byToken?`).
* The board keeps the phase of every item ever accepted for those who wait for its start (`Queue.phase?`,
  `Queue.news?`), also when the queue knows the item no longer.
-/

namespace Rejoin

/-- What an item asks for: the work of a step, or a job of its own. -/
inductive Work where
  | ticket (t : Ticket)
  | job (name : String)
deriving DecidableEq, Repr

namespace Work

def ticket? : Work → Option Ticket
  | .ticket t => some t
  | .job _ => none

def text : Work → String
  | .ticket t => t.text
  | .job name => name

/-- The token of the work of a step. -/
def token? (w : Work) : Option String := w.ticket?.bind (·.token)

end Work

def itemText (id : Nat) : String := "#" ++ toString id

/-- An item of the queue. -/
structure Item where
  id : Nat
  work : Work
  priority : Nat
deriving DecidableEq, Repr

namespace Item

def text (i : Item) : String := "QueueItem" ++ itemText i.id ++ "[" ++ i.work.text ++ "]"

/-- The item is the work of a step and carries the token. -/
def carries (i : Item) (token : String) : Bool := i.work.token? = some token

end Item

/-- An item that was started, under a number of its own. -/
structure Execution where
  id : Nat
  item : Nat
  title : String
deriving DecidableEq, Repr

def Execution.text (e : Execution) : String := e.title ++ " (executable " ++ toString e.id ++ ")"

/-- Why an item is not started. -/
inductive QueueError where
  | notFound (item : Nat)
  | notPending (item : Nat)
deriving DecidableEq, Repr

def QueueError.message : QueueError → String
  | .notFound i => "queue item " ++ itemText i ++ " not found"
  | .notPending i => "queue item " ++ itemText i ++ " is not pending"

/-- The item that was waited for will not start. -/
structure Cancelled where
  item : Nat
deriving DecidableEq, Repr

def Cancelled.message (c : Cancelled) : String := "queue item " ++ itemText c.item ++ " was cancelled"

/-- How far an item has come. -/
inductive Phase where
  | pending
  | started (e : Execution)
  | finished (e : Execution)
  | cancelled
deriving DecidableEq, Repr

namespace Phase

def isPending : Phase → Bool
  | .pending => true
  | _ => false

def isRunning : Phase → Bool
  | .started _ => true
  | _ => false

end Phase

/-- The queue: the items it knows, in the order of their numbers, the phase of every item by its number (from
one), the items by their tokens, the slots of running executions, and how many executions there were. -/
structure Queue where
  known : List Item := []
  board : List Phase := []
  tokens : List (String × Nat) := []
  claims : List (Nat × Slot) := []
  issued : Nat := 0
  quiet : Bool := false
deriving DecidableEq, Repr

namespace Queue

def accepted (q : Queue) : Nat := q.board.length

def phase? (q : Queue) : Nat → Option Phase
  | 0 => none
  | n + 1 => q.board[n]?

/-- The item of a number, if the queue knows it. -/
def item? (q : Queue) (id : Nat) : Option Item := q.known.find? (·.id = id)

/-- The board has the item as pending. -/
def isPending (q : Queue) (i : Item) : Bool := (q.phase? i.id).any Phase.isPending

/-- The board has the item as started and not finished. -/
def isRunning (q : Queue) (i : Item) : Bool := (q.phase? i.id).any Phase.isRunning

/-- The items that wait for a slot. -/
def pending (q : Queue) : List Item := q.known.filter q.isPending

/-- The items that have started and not finished. -/
def running (q : Queue) : List Item := q.known.filter q.isRunning

/-- The item that the index has for a token. -/
def byToken? (q : Queue) (token : String) : Option Item := (q.tokens.lookup token).bind q.item?

/-- While the queue is quiet it refuses what is submitted. -/
def setQuiet (q : Queue) (on : Bool) : Queue := { q with quiet := on }

/-- The index with a token pointed at an item. -/
def indexed (q : Queue) (token : Option String) (id : Nat) : List (String × Nat) :=
  match token with
  | some t => (t, id) :: q.tokens.filter (·.1 ≠ t)
  | none => q.tokens

/-- Accepts work under the next number, unless the queue is quiet. -/
def submit (q : Queue) (w : Work) (priority : Nat) : Option (Item × Queue) :=
  if q.quiet then none
  else
    let i : Item := ⟨q.accepted + 1, w, priority⟩
    some (i, { q with
      known := q.known ++ [i]
      board := q.board ++ [.pending]
      tokens := q.indexed w.token? i.id })

theorem submit_of_quiet {q : Queue} (h : q.quiet = true) (w : Work) (priority : Nat) : q.submit w priority = none := by
  simp [submit, h]

/-- The number of an accepted item is how many were accepted up to it. -/
theorem accepted_of_submit {q q' : Queue} {w : Work} {priority : Nat} {i : Item}
    (h : q.submit w priority = some (i, q')) : q'.accepted = q.accepted + 1 ∧ i.id = q.accepted + 1 := by
  unfold submit at h
  split at h
  next => cases h
  next => cases h; simp [accepted]

/-- An accepted item is pending. -/
theorem phase?_of_submit {q q' : Queue} {w : Work} {priority : Nat} {i : Item}
    (h : q.submit w priority = some (i, q')) : q'.phase? i.id = some .pending := by
  unfold submit at h
  split at h
  next => cases h
  next => cases h; simp [phase?, accepted]

def setPhase (q : Queue) (id : Nat) (p : Phase) : Queue :=
  match id with
  | 0 => q
  | n + 1 => { q with board := q.board.set n p }

theorem phase?_setPhase_self {q : Queue} {id : Nat} (h : 0 < id) (hq : id ≤ q.accepted) (p : Phase) :
    (q.setPhase id p).phase? id = some p := by
  obtain ⟨n, rfl⟩ : ∃ n, id = n + 1 := ⟨id - 1, by omega⟩
  simp [setPhase, phase?, List.getElem?_set_self (show n < q.board.length from hq)]

theorem phase?_setPhase_of_ne (q : Queue) {id other : Nat} (h : id ≠ other) (p : Phase) :
    (q.setPhase id p).phase? other = q.phase? other := by
  cases id with
  | zero => rfl
  | succ n =>
    cases other with
    | zero => rfl
    | succ m => simp [setPhase, phase?, show n ≠ m by omega]

@[simp] theorem item?_setPhase (q : Queue) (id other : Nat) (p : Phase) :
    (q.setPhase id p).item? other = q.item? other := by
  cases id <;> rfl

@[simp] theorem accepted_setPhase (q : Queue) (id : Nat) (p : Phase) : (q.setPhase id p).accepted = q.accepted := by
  cases id <;> simp [setPhase, accepted]

/-- Takes an item out of the index. -/
def forget (q : Queue) (id : Nat) : Queue := { q with tokens := q.tokens.filter (·.2 ≠ id) }

/-- Hands a pending item to a slot. -/
def start (q : Queue) (id : Nat) (s : Slot) : Except QueueError (Execution × Queue) :=
  match q.item? id with
  | none => .error (.notFound id)
  | some i =>
    if q.isPending i then
      let e : Execution := ⟨q.issued + 1, id, i.work.text⟩
      .ok (e, { q with issued := q.issued + 1, claims := (e.id, s) :: q.claims }.setPhase id (.started e))
    else .error (.notPending id)

/-- Cancels a pending item, which the queue then knows no longer; any other is left alone. -/
def cancel (q : Queue) (id : Nat) : Bool × Queue :=
  match q.item? id with
  | none => (false, q)
  | some i =>
    if q.isPending i then
      (true, ({ q with known := q.known.filter (·.id ≠ id) }.forget id).setPhase id .cancelled)
    else (false, q)

/-- Ends an execution: its slot is free, and its item, which the queue goes on to know, leaves the index. -/
def finish (q : Queue) (e : Execution) : Queue :=
  let q := { q with claims := q.claims.filter (·.1 ≠ e.id) }.forget e.item
  if (q.item? e.item).isSome then q.setPhase e.item (.finished e) else q

/-- The slot of an execution that is running. -/
def claimed? (q : Queue) (e : Execution) : Option Slot := q.claims.lookup e.id

/-- An item that the queue does not know is not started. -/
theorem start_of_item?_eq_none {q : Queue} {id : Nat} (h : q.item? id = none) (s : Slot) :
    q.start id s = .error (.notFound id) := by
  simp [start, h]

/-- An item that the queue does not know is not cancelled. -/
theorem cancel_of_item?_eq_none {q : Queue} {id : Nat} (h : q.item? id = none) : q.cancel id = (false, q) := by
  simp [cancel, h]

/-- An item that is pending no longer is not cancelled either. -/
theorem cancel_of_not_isPending {q : Queue} {i : Item} {id : Nat} (h : q.item? id = some i)
    (hp : q.isPending i = false) : q.cancel id = (false, q) := by
  simp [cancel, h, hp]

/-! ### Waiting for a start -/

/-- What those who watch an item learn from the board; nothing while it is pending. -/
def news? (q : Queue) (id : Nat) : Option (Except Cancelled Execution) :=
  match q.phase? id with
  | some .pending => none
  | some (.started e) => some (.ok e)
  | some (.finished e) => some (.ok e)
  | some .cancelled => some (.error ⟨id⟩)
  | none => some (.error ⟨id⟩)

/-- Nothing is learnt exactly while an item is pending. -/
theorem news?_eq_none {q : Queue} {id : Nat} : q.news? id = none ↔ q.phase? id = some .pending := by
  unfold news?
  split <;> simp_all

/-- What somebody learns who comes to wait for an item now: an item that the queue does not know counts as
cancelled; of any other the board is watched. -/
def arrive (q : Queue) (id : Nat) : Option (Except Cancelled Execution) :=
  if (q.item? id).isSome then q.news? id else some (.error ⟨id⟩)

end Queue

end Rejoin
