import Rejoin.Capability
import Rejoin.Interruption

/-!
# Why a step was not rejoined

Interruptions come from the environment; the others are errors, some of them about a resource.
-/

namespace Rejoin

/-- Why a step was not rejoined. -/
inductive RejoinError where
  | alreadyRejoined
  | refused (work : String)
  | interrupted (i : Interruption)
  | notClaimed (execution : String)
  | workerOffline (worker : String)
  | locked (path : String)
  | lease (e : LeaseError)
  | lookup (e : LookupError Capability)
deriving DecidableEq, Repr

namespace RejoinError

def message : RejoinError → String
  | .alreadyRejoined => "Already resumed"
  | .refused work => "queue refused " ++ work
  | .interrupted i => i.message
  | .notClaimed e => e ++ " was scheduled but no executor claimed it"
  | .workerOffline w => w ++ " is offline"
  | .locked path => "something already locked " ++ path
  | .lease e => e.message
  | .lookup e => e.text

/-- The environment stopped the step. -/
def isInterruption : RejoinError → Bool
  | .interrupted _ => true
  | _ => false

/-- A resource failed: a slot, a worker or a lease. -/
def isResource : RejoinError → Bool
  | .notClaimed _ | .workerOffline _ | .locked _ | .lease _ => true
  | _ => false

/-- The failure of the step itself. -/
def failure : RejoinError → Failure
  | .interrupted i => .interrupted i
  | e => .error e.message

/-- An interruption stays one as the failure of the step, and nothing else becomes one. -/
@[simp] theorem isInterruption_failure (e : RejoinError) : e.failure.isInterruption = e.isInterruption := by
  cases e <;> rfl

@[simp] theorem message_failure (e : RejoinError) : e.failure.message = e.message := by
  cases e <;> rfl

end RejoinError

end Rejoin
