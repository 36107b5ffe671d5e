import Rejoin.Rejoining.Basic

/-!
# Waits that are under way

Those who wait for an item, directly or to rejoin a step, are asked one after the other in the order in which they
came (`Session.settle`); nothing else makes them go on.
-/

namespace Rejoin

/-- A wait for the start of an item, alone or as part of a rejoining. -/
inductive Wait where
  | start (item : Nat)
  | rejoining (r : Rejoining)
deriving DecidableEq, Repr

/-- How a wait ended. -/
inductive WaitEnd where
  | start (result : Except Cancelled Execution)
  | rejoined (record : Record) (result : RejoinResult)

/-- A controller with the waits under way, each under a name, in the order in which they came. -/
structure Session where
  controller : Controller := .fresh
  waits : List (String × Wait) := []

namespace Wait

/-- Asks a wait whether it can go on. -/
def poll (w : Wait) (c : Controller) : Option WaitEnd × Controller :=
  match w with
  | .start item => ((c.queue.news? item).map .start, c)
  | .rejoining r =>
    let (result, c) := r.poll c
    (result.map fun x => .rejoined ((Record.ofBookmark r.bookmark).settled x) x, c)

/-- The wait holds on to the scope of a sink. -/
def holds (sink : Nat) : Wait → Bool
  | .start _ => false
  | .rejoining r => r.sink = some sink

end Wait

namespace Session

/-- Asks every wait once: those that ended, in order, and the controller with those that go on waiting. -/
def settleWaits : List (String × Wait) → Controller →
    List (String × WaitEnd) × List (String × Wait) × Controller
  | [], c => ([], [], c)
  | (name, w) :: ws, c =>
    let (e, c) := w.poll c
    let (ends, rest, c) := settleWaits ws c
    match e with
    | some e => ((name, e) :: ends, rest, c)
    | none => (ends, (name, w) :: rest, c)

/-- Asks every wait once; those that ended leave. -/
def settle (s : Session) : List (String × WaitEnd) × Session :=
  let (ends, waits, controller) := settleWaits s.waits s.controller
  (ends, { controller, waits })

def advance (s : Session) (ms : Nat) : List (String × WaitEnd) × Session :=
  { s with controller := { s.controller with now := s.controller.now + ms } }.settle

def await (s : Session) (name : String) (item : Nat) : Option (Except Cancelled Execution) × Session :=
  match s.controller.queue.arrive item with
  | some x => (some x, s)
  | none => (none, { s with waits := s.waits ++ [(name, .start item)] })

def rejoin (s : Session) (name : String) (r : Record) (scope : StepScope) (settings : Settings) :
    Option RejoinResult × Session :=
  match r.rejoin s.controller scope settings with
  | (.inl result, controller) => (some result, { s with controller })
  | (.inr w, controller) => (none, { controller, waits := s.waits ++ [(name, .rejoining w)] })

/-- Gives up the first wait of a name, if there is one. -/
def abandon (s : Session) (name : String) : Option Session :=
  if s.waits.any (·.1 = name) then some { s with waits := s.waits.eraseP (·.1 = name) } else none

/-- A wait under way holds on to the scope of a sink. -/
def holds (s : Session) (sink : Nat) : Bool := s.waits.any (·.2.holds sink)

end Session

end Rejoin
