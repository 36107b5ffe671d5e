import Rejoin.ChangeDir

/-!
# Scripts

Bodies written down as data.  A script is a list of actions on its scope, some of which run further scripts in
scopes inside, and an ending.  Running a script (`Action.run`, `Action.runAll`) gives a reply for every action;
replies to lookups come with the controller as it was, since values are shown by what holds then.  An action may name
something that is not there (`Action.unbound`): it replies so when it is reached, and the actions after it still run.
-/

namespace Rejoin

/-- How a script ends: with an outcome, or with the value of a kind if there is one. -/
inductive Ending where
  | outcome (o : Outcome)
  | require (k : Capability)

/-- Who is told about a body: the scope around it, or a list of calls, with starts and depths or without. -/
inductive Audience where
  | around
  | calls (full : Bool)
deriving DecidableEq, Repr

/-- What a script does. -/
inductive Action where
  | get (k : Capability)
  | require (k : Capability)
  | contains (k : Capability)
  | depth
  | describe
  | print (line : String)
  | report (o : Outcome)
  | connect (w : Worker)
  | disconnect (w : Worker) (o : Outage)
  | body (values : Layer Capability.Carrier) (audience : Option Audience) (actions : List Action) (ending : Ending)
  | changeDir (path : String) (actions : List Action) (ending : Ending)
  | unbound

/-- A call that a body led to: its start, or its end, with the depth of its scope where that is kept. -/
inductive Call where
  | started (depth : Nat)
  | ended (o : Outcome) (depth : Option Nat)

/-- What comes of an action. -/
inductive Reply where
  | found (k : Capability) (a : Answer Capability k.Carrier) (seen : Controller)
  | there (b : Bool)
  | number (n : Nat)
  | text (s : String)
  | failed (e : LookupError Capability)
  | warned (b : Bool)
  | done
  | body (replies : List Reply) (calls : List Call) (warned : Bool)
  | changedDir (replies : List Reply) (warned : Bool)
  | unbound

/-- Replies and calls so far, latest first. -/
structure Log where
  replies : List Reply := []
  calls : List Call := []

/-- What scripts run in: a controller, and a log beside it. -/
abbrev Run := StateT Controller (StateM Log)

namespace Run

def reply (r : Reply) : Run Unit := StateT.lift (modify fun l => { l with replies := r :: l.replies })

def call (x : Call) : Run Unit := StateT.lift (modify fun l => { l with calls := x :: l.calls })

/-- Runs something with a log of its own, and tells whether it warned. -/
def apart {α : Type} (x : Run α) : Run (α × Log × Bool) := fun c l =>
  let ((a, c'), inside) := x c {}
  (((a, inside, decide (c.warnings < c'.warnings)), c'), l)

/-- Runs something, and tells whether it warned. -/
def warns (x : Run Unit) : Run Reply := fun c l =>
  let ((_, c'), l) := x c l
  ((.warned (decide (c.warnings < c'.warnings)), c'), l)

end Run

/-- The callback of an audience. -/
def Audience.callback (around : StepScope) : Audience → Callback Run
  | .around => .forward around
  | .calls true => {
      onStart := fun sc => Run.call (.started sc.depth)
      onSuccess := fun sc v => Run.call (.ended (.ok v) (some sc.depth))
      onFailure := fun sc f => Run.call (.ended (.error f) (some sc.depth)) }
  | .calls false => {
      onStart := fun _ => pure ()
      onSuccess := fun _ v => Run.call (.ended (.ok v) none)
      onFailure := fun _ f => Run.call (.ended (.error f) none) }

/-- How values are shown as JSON. -/
abbrev Shown := Controller → (k : Capability) → k.Carrier → Json

/-- The outcome of an ending. -/
def Ending.run (shown : Shown) (scope : StepScope) : Ending → Run Outcome
  | .outcome o => pure o
  | .require k => do
    let c ← get
    match scope.require c.fleet k with
    | .ok v => pure (.ok (shown c k v))
    | .error e => pure (.error (.error e.text))

namespace Action

mutual

/-- Does one action. -/
def run (shown : Shown) (scope : StepScope) : Action → Run Reply
  | .get k => do let c ← getThe Controller; pure (.found k (scope.get c.fleet k) c)
  | .require k => do let c ← getThe Controller; pure (.found k ((scope.require c.fleet k).map some) c)
  | .contains k => do
    match scope.contains (← getThe Controller).fleet k with
    | .ok b => pure (.there b)
    | .error e => pure (.failed e)
  | .depth => pure (.number scope.depth)
  | .describe => pure (.text (scope.text Capability.label))
  | .print line => do
    match scope.require (← getThe Controller).fleet .console with
    | .ok console => Run.warns (modify (·.println console line))
    | .error e => pure (.failed e)
  | .report o => Run.warns (modify (·.report scope o))
  | .connect w => do modify (fun c => { c with fleet := (c.fleet.connect w).2 }); pure .done
  | .disconnect w o => do modify (fun c => { c with fleet := c.fleet.disconnect w o }); pure .done
  | .body values audience actions ending => do
    let (_, log, warned) ← Run.apart (runBody scope values (audience.map (·.callback scope)) fun inner => do
      runAll shown inner actions
      ending.run shown inner)
    pure (.body log.replies.reverse log.calls.reverse warned)
  | .changeDir path actions ending => do
    let (result, log, warned) ← Run.apart ((ChangeDir.mk path).run scope fun inner => do
      runAll shown inner actions
      ending.run shown inner)
    match result with
    | .ok _ => pure (.changedDir log.replies.reverse warned)
    | .error e => pure (.failed e)
  | .unbound => pure .unbound

/-- Does actions in order and notes the replies. -/
def runAll (shown : Shown) (scope : StepScope) : List Action → Run Unit
  | [] => pure ()
  | a :: rest => do
    Run.reply (← run shown scope a)
    runAll shown scope rest

end

/-- Does one action on a controller. -/
def perform (shown : Shown) (scope : StepScope) (a : Action) (c : Controller) : Reply × Controller :=
  ((a.run shown scope c).run {}).1

end Action

end Rejoin
