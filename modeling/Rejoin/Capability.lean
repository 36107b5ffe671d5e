import Rejoin.Lookup.Scope
import Rejoin.Record
import Rejoin.Transcript

/-!
# Capabilities

The kinds of values that steps look up, the types of their values (`Capability.Carrier`), and the names they go
by (`Capability.label`).  Kinds beyond the built-in ones are texts under a name of their own.
-/

namespace Rejoin

/-- A kind of value that a step can look up. -/
inductive Capability where
  | console
  | record
  | dir
  | lease
  | slot
  | worker
  | node
  | plugin (name : String)
deriving DecidableEq, Repr

namespace Capability

/-- The values of a kind. -/
abbrev Carrier : Capability → Type
  | .console => Console
  | .record => Record
  | .dir => Dir
  | .lease => Lease
  | .slot => Slot
  | .worker => Worker
  | .node => Node
  | .plugin _ => String

/-- The name that a kind goes by in messages. -/
def label : Capability → String
  | .console => "tether_kernel::kernel::listener::TaskListener"
  | .record => "tether_execution_runtime::resumption::ResumptionRecord"
  | .dir => "tether_execution_runtime::topology::DirHandle"
  | .lease => "tether_execution_runtime::lease::Lease"
  | .slot => "tether_execution_runtime::topology::ExecutorSlot"
  | .worker => "tether_execution_runtime::topology::Worker"
  | .node => "tether_execution_runtime::topology::Node"
  | .plugin name => name

end Capability

/-- The text of a lookup error of a step. -/
abbrev LookupError.text (e : LookupError Capability) : String := e.message Capability.label

/-- Resolvers of capabilities depend on the fleet as it is when they run. -/
abbrev StepResolver := Resolver Capability.Carrier Fleet

/-- Resolvers of capabilities, one at most for each. -/
abbrev StepTable := Table Capability.Carrier Fleet

abbrev StepScope := Scope Capability.Carrier Fleet

/-- What is known of a kind of step before it runs: the name it is invoked by, its title, whether it takes a
body, and the capabilities that it needs and gives. -/
structure Descriptor where
  function : String
  title : String
  takesBody : Bool := false
  required : List Capability
  provided : List Capability := []
deriving DecidableEq, Repr

end Rejoin
