import Rejoin.Controller
import Rejoin.Rejoining.Error
import Rejoin.Settings

/-!
# Rejoining a suspended step to its work

* `Record.beginRejoin` looks the console up, finds the queue item that carries the step's token or submits one, and
  starts to wait for it.
* `Rejoining.proceed` goes on with what became known of the item: a start is turned into a slot and a lease on
  the step's own directory (`Rejoining.takeOver`), a cancellation or the end of the wait into an interruption.

Nothing is stored in the record (`Record.settled_error`), and no lease is kept, unless all went well.
-/

namespace Rejoin

/-- A step that waits for the start of its item. -/
structure Rejoining where
  bookmark : Bookmark
  item : Nat
  deadline : Nat
  patience : Span
  console : Console
  /-- The sink of the scope that it was begun from, which it holds on to. -/
  sink : Option Nat
deriving DecidableEq, Repr

/-- How a rejoining ended: the slot and the lease, or why there are none. -/
abbrev RejoinResult := Except RejoinError Holdings

namespace Bookmark

/-- The item of the queue that carries the token, or else a new one, unless the queue refuses it. -/
def findOrSubmit (b : Bookmark) (q : Queue) (priority : Nat) : Except RejoinError (Nat × Queue) :=
  match b.ticket.token.bind q.byToken? with
  | some i => .ok (i.id, q)
  | none =>
    match q.submit (.ticket b.ticket) priority with
    | some (i, q) => .ok (i.id, q)
    | none => .error (.refused b.ticket.text)

def waitingLine (b : Bookmark) : String :=
  "Waiting for reconnection of " ++ b.node ++ " before proceeding with build"

def removedLine (b : Bookmark) (patience : Span) : String :=
  b.node ++ " has been removed for " ++ patience.text ++ ", assuming it is not coming back"

end Bookmark

namespace Rejoining

/-- Leases the step's own directory on a worker; a variant is given back at once. -/
def leaseExact (b : Bookmark) (c : Controller) (s : Slot) (channel : Nat) : RejoinResult × Controller :=
  let wanted : Dir := ⟨s.owner.name, b.path, channel⟩
  match c.allocate s.owner wanted with
  | .error e => (.error (.lease e), c)
  | .ok (l, c) =>
    if l.dir.same wanted then (.ok ⟨s, l⟩, c) else (.error (.locked wanted.path), c.release l)

/-- Takes the slot of an execution and leases the directory on its worker. -/
def takeOver (b : Bookmark) (c : Controller) (e : Execution) : RejoinResult × Controller :=
  match c.queue.claimed? e with
  | none => (.error (.notClaimed e.text), c)
  | some s =>
    match c.fleet.channel? s.owner with
    | none => (.error (.workerOffline s.owner.text), c)
    | some channel => leaseExact b c s channel

/-- Goes on with what is known of the item, if anything; the deadline counts only where nothing is. -/
def proceed (r : Rejoining) (c : Controller) (news : Option (Except Cancelled Execution)) :
    Option RejoinResult × Controller :=
  match news with
  | some (.ok e) => let (result, c) := takeOver r.bookmark c e; (some result, c)
  | some (.error _) => (some (.error (.interrupted (.aborted .taskCancelled))), c)
  | none =>
    if r.deadline ≤ c.now then
      (some (.error (.interrupted (.aborted (.removedNode r.bookmark.node)))),
        c.println r.console (r.bookmark.removedLine r.patience))
    else (none, c)

/-- A start that is known goes before a deadline that has passed. -/
theorem proceed_ok (r : Rejoining) (c : Controller) (e : Execution) :
    r.proceed c (some (.ok e)) = (some (takeOver r.bookmark c e).1, (takeOver r.bookmark c e).2) := rfl

theorem proceed_error (r : Rejoining) (c : Controller) (x : Cancelled) :
    r.proceed c (some (.error x)) = (some (.error (.interrupted (.aborted .taskCancelled))), c) := rfl

/-- Before the deadline a pending item is waited for. -/
theorem proceed_none_of_lt {r : Rejoining} {c : Controller} (h : c.now < r.deadline) :
    r.proceed c none = (none, c) := by
  simp [proceed, show ¬r.deadline ≤ c.now by omega]

/-- Looks at the board again. -/
def poll (r : Rejoining) (c : Controller) : Option RejoinResult × Controller :=
  r.proceed c (c.queue.news? r.item)

end Rejoining

namespace Record

/-- Begins to rejoin: up to the wait for the item. -/
def beginRejoin (r : Record) (c : Controller) (scope : StepScope) (s : Settings) :
    Except RejoinError (Rejoining × Controller) :=
  match r.holdings with
  | some _ => .error .alreadyRejoined
  | none =>
    match scope.require c.fleet .console with
    | .error e => .error (.lookup e)
    | .ok console =>
      match r.bookmark.findOrSubmit c.queue s.priority with
      | .error e => .error e
      | .ok (item, queue) =>
        let c := { c with queue }
        let c := if r.bookmark.node = "" then c else c.println console r.bookmark.waitingLine
        .ok (⟨r.bookmark, item, c.now + s.patience, s.span, console, scope.sink⟩, c)

/-- Rejoins a step as far as that goes at once: to its end, or to the wait for the item. -/
def rejoin (r : Record) (c : Controller) (scope : StepScope) (s : Settings) :
    (RejoinResult ⊕ Rejoining) × Controller :=
  match r.beginRejoin c scope s with
  | .error e => (.inl (.error e), c)
  | .ok (w, c) =>
    match w.proceed c (c.queue.arrive w.item) with
    | (some result, c) => (.inl result, c)
    | (none, c) => (.inr w, c)

/-- The record after a rejoining: it holds what was recovered, or is what it was. -/
def settled (r : Record) : RejoinResult → Record
  | .ok h => { r with holdings := some h }
  | .error _ => r

@[simp] theorem settled_error (r : Record) (e : RejoinError) : r.settled (.error e) = r := rfl

@[simp] theorem bookmark_settled (r : Record) (x : RejoinResult) : (r.settled x).bookmark = r.bookmark := by
  cases x <;> rfl

/-- A step that was rejoined is not rejoined again, and nothing changes. -/
theorem rejoin_of_holdings {r : Record} {h : Holdings} (hr : r.holdings = some h) (c : Controller)
    (scope : StepScope) (s : Settings) : r.rejoin c scope s = (.inl (.error .alreadyRejoined), c) := by
  simp [rejoin, beginRejoin, hr]

end Record

end Rejoin
