import Rejoin.Capability
import Rejoin.Interruption

/-!
# The controller

Its clock, the fleet, the leases, the queue, the transcripts that steps print to, and the sinks that take the
outcomes of outermost scopes.  Only the first outcome reported to a sink counts (`Controller.report_of_none`); every
other report (`Controller.report_of_some`, `Controller.report_opened`), and every line that cannot be written, is
a warning.
-/

namespace Rejoin

/-- What a sink has: the outcome that was reported first, if one was. -/
abbrev Sink := Option Outcome

/-- The state of a controller.  The clock counts milliseconds; transcripts and sinks go by their place. -/
structure Controller where
  now : Nat := 0
  fleet : Fleet
  ledger : Ledger
  queue : Queue := {}
  transcripts : List Transcript := []
  sinks : List Sink := []
  warnings : Nat := 0

namespace Controller

/-- A controller that has just been started: nothing queued, and no worker but its own. -/
def fresh : Controller := { fleet := Fleet.start 0, ledger := { tables := [[]] } }

/-! ### Workers -/

/-- A node under a name, with a connected worker that has a hold table of its own. -/
def addWorker (c : Controller) (name : String) : Worker × Controller :=
  let (t, ledger) := c.ledger.newTable
  let (w, fleet) := c.fleet.hire name (.table t)
  (w, { c with ledger, fleet := (fleet.connect w).2.enlist name w })

/-- Leases a directory from the grantor of a worker. -/
def allocate (c : Controller) (w : Worker) (d : Dir) : Except LeaseError (Lease × Controller) :=
  match c.fleet.station? w with
  | none => .error (.registry "unknown worker")
  | some s => (c.ledger.allocate s.grantor d).map fun p => (p.1, { c with ledger := p.2 })

def release (c : Controller) (l : Lease) : Controller := { c with ledger := c.ledger.release l.id }

/-! ### Printing -/

def newTranscript (c : Controller) : Nat × Controller :=
  (c.transcripts.length, { c with transcripts := c.transcripts ++ [{}] })

/-- The transcript of a number; an empty one where there is none. -/
def transcript (c : Controller) (n : Nat) : Transcript := (c.transcripts[n]?).getD {}

/-- Prints a line; a failed write is a warning and nothing more. -/
def println (c : Controller) (console : Console) (line : String) : Controller :=
  match console with
  | .silent => c
  | .broken => { c with warnings := c.warnings + 1 }
  | .transcript n => { c with transcripts := c.transcripts.modify n (·.println line) }

section Println

variable (c : Controller) (console : Console) (line : String)

@[simp] theorem now_println : (c.println console line).now = c.now := by cases console <;> rfl

@[simp] theorem fleet_println : (c.println console line).fleet = c.fleet := by cases console <;> rfl

@[simp] theorem ledger_println : (c.println console line).ledger = c.ledger := by cases console <;> rfl

@[simp] theorem queue_println : (c.println console line).queue = c.queue := by cases console <;> rfl

end Println

/-! ### Scopes and their outcomes -/

def openRoot (c : Controller) (t : StepTable) (values : Layer Capability.Carrier) : StepScope × Controller :=
  (.root t values c.sinks.length, { c with sinks := c.sinks ++ [none] })

/-- An outcome that counts for nothing. -/
def drop (c : Controller) : Controller := { c with warnings := c.warnings + 1 }

/-- Reports an outcome to a scope. -/
def report (c : Controller) (scope : StepScope) (o : Outcome) : Controller :=
  match scope.sink with
  | none => c.drop
  | some i =>
    match c.sinks[i]? with
    | some none => { c with sinks := c.sinks.set i (some o) }
    | _ => c.drop

/-- A scope inside another one takes no outcome. -/
theorem report_opened (c : Controller) (scope : StepScope) (values : Layer Capability.Carrier) (o : Outcome) :
    c.report (scope.opened values) o = c.drop := rfl

/-- The first outcome is kept. -/
theorem report_of_none {c : Controller} {scope : StepScope} {i : Nat} (hs : scope.sink = some i)
    (hi : c.sinks[i]? = some none) (o : Outcome) : c.report scope o = { c with sinks := c.sinks.set i (some o) } := by
  simp [report, hs, hi]

/-- Any further one is dropped. -/
theorem report_of_some {c : Controller} {scope : StepScope} {i : Nat} {o : Outcome} (hs : scope.sink = some i)
    (hi : c.sinks[i]? = some (some o)) (o' : Outcome) : c.report scope o' = c.drop := by
  simp [report, hs, hi]

/-- The outcome of a scope that nobody holds any longer and that reported none. -/
def abandoned : Outcome := .error (.error "step context dropped before completing")

/-- The outcome that a sink yields to who waits for it; nothing while its scope is held and may yet report. -/
def outcome? (c : Controller) (sink : Nat) (held : Bool) : Option Outcome :=
  match c.sinks[sink]?.join with
  | some o => some o
  | none => if held then none else some abandoned

end Controller

end Rejoin
