import Rejoin.Json.Decoding

/-!
# Interruptions

A step stopped by its environment, with the verdict it is recorded under and the causes that a machine can tell
apart (`Interruption`); and the failures and outcomes of steps (`Failure`, `Outcome`).
-/

namespace Rejoin

/-- How a step or a run ended. -/
inductive Verdict where
  | success
  | unstable
  | failure
  | notBuilt
  | aborted
deriving DecidableEq, Repr

namespace Verdict

def all : List Verdict := [.success, .unstable, .failure, .notBuilt, .aborted]

def text : Verdict → String
  | .success => "SUCCESS"
  | .unstable => "UNSTABLE"
  | .failure => "FAILURE"
  | .notBuilt => "NOT_BUILT"
  | .aborted => "ABORTED"

def key : Verdict → String
  | .success => "Success"
  | .unstable => "Unstable"
  | .failure => "Failure"
  | .notBuilt => "NotBuilt"
  | .aborted => "Aborted"

def ofKey? (s : String) : Option Verdict := all.find? (·.key = s)

theorem mem_all (v : Verdict) : v ∈ all := by cases v <;> decide

@[simp] theorem ofKey?_key (v : Verdict) : ofKey? v.key = some v := by cases v <;> decide

def json (v : Verdict) : Json := .string v.key

def ofKey (s : String) : Except Json.Fault Verdict :=
  match ofKey? s with
  | some v => .ok v
  | none => .error (.unknownVariant s (all.map key))

@[simp] theorem ofKey_key (v : Verdict) : ofKey v.key = .ok v := by simp [ofKey]

/-- A verdict is its key, or an object with the key as its one member, over null. -/
def decode : Json.Decoder Verdict
  | _, .string s => ofKey s
  | _, .object ((k, v) :: ms) => do
    if v matches .flawed true then .error .malformed
    let verdict ← ofKey k
    match v with
    | .null => if ms.isEmpty then pure verdict else .error .malformed
    | v => Json.wrongType "unit" v
  | _, _ => .error .malformed

end Verdict

/-- Why a step was interrupted: a stable code, and what users read. -/
structure Cause where
  code : String
  description : String
deriving DecidableEq, Repr

namespace Cause

/-- The node did not come back within the wait. -/
def removedNode (node : String) : Cause := ⟨"removed-node", "Agent " ++ node ++ " was removed"⟩

/-- The queue item that a step waited for was cancelled. -/
def taskCancelled : Cause := ⟨"queue-task-cancelled", "Queue task was cancelled"⟩

def json (c : Cause) : Json := .object [("code", .string c.code), ("description", .string c.description)]

structure Fields where
  code : Option String := none
  description : Option String := none

def Fields.step (mode : Json.Mode) (s : Fields) (m : String × Json) : Except Json.Fault Fields :=
  match m.1 with
  | "code" => do pure { s with code := ← Json.fill m.1 s.code (Json.asString mode m.2) }
  | "description" => do pure { s with description := ← Json.fill m.1 s.description (Json.asString mode m.2) }
  | _ => Json.skip s m.2

def decode : Json.Decoder Cause
  | mode, .object ms => do
    let s ← ms.foldlM (Fields.step mode) {}
    pure ⟨← Json.present "code" s.code, ← Json.present "description" s.description⟩
  | mode, .array xs => do
    let code ← Json.element "InterruptionCause" 2 xs 0 (Json.asString mode)
    let description ← Json.element "InterruptionCause" 2 xs 1 (Json.asString mode)
    Json.noMore mode 2 xs
    pure ⟨code, description⟩
  | _, j => Json.wrongType "struct InterruptionCause" j

end Cause

/-- A step stopped by its environment. -/
structure Interruption where
  verdict : Verdict
  /-- Whether work that was in progress was stopped. -/
  actual : Bool
  causes : List Cause
deriving DecidableEq, Repr

namespace Interruption

/-- Work in progress aborted for one cause. -/
def aborted (c : Cause) : Interruption := ⟨.aborted, true, [c]⟩

/-- One of the causes has the code. -/
def cites (i : Interruption) (code : String) : Bool := i.causes.any (·.code = code)

/-- The descriptions of causes, joined. -/
def describe : List Cause → String
  | [] => "no cause recorded"
  | cs => String.intercalate "; " (cs.map (·.description))

/-- An interruption is told with its verdict and all of its causes. -/
def message (i : Interruption) : String :=
  "step interrupted (" ++ i.verdict.text ++ "): " ++ describe i.causes

def json (i : Interruption) : Json :=
  .object [("result", i.verdict.json), ("actually_interrupting", .bool i.actual),
    ("causes", .array (i.causes.map Cause.json))]

structure Fields where
  verdict : Option Verdict := none
  actual : Option Bool := none
  causes : Option (List Cause) := none

def Fields.step (mode : Json.Mode) (s : Fields) (m : String × Json) : Except Json.Fault Fields :=
  match m.1 with
  | "result" => do pure { s with verdict := ← Json.fill m.1 s.verdict (Verdict.decode mode m.2) }
  | "actually_interrupting" => do pure { s with actual := ← Json.fill m.1 s.actual (Json.asBool mode m.2) }
  | "causes" => do pure { s with causes := ← Json.fill m.1 s.causes (Json.asList Cause.decode mode m.2) }
  | _ => Json.skip s m.2

def decode : Json.Decoder Interruption
  | mode, .object ms => do
    let s ← ms.foldlM (Fields.step mode) {}
    pure ⟨← Json.present "result" s.verdict, ← Json.present "actually_interrupting" s.actual,
      ← Json.present "causes" s.causes⟩
  | mode, .array xs => do
    let verdict ← Json.element "StepInterrupted" 3 xs 0 (Verdict.decode mode)
    let actual ← Json.element "StepInterrupted" 3 xs 1 (Json.asBool mode)
    let causes ← Json.element "StepInterrupted" 3 xs 2 (Json.asList Cause.decode mode)
    Json.noMore mode 3 xs
    pure ⟨verdict, actual, causes⟩
  | _, j => Json.wrongType "struct StepInterrupted" j

end Interruption

/-- Why a step or a body did not end normally. -/
inductive Failure where
  | interrupted (i : Interruption)
  | error (message : String)
deriving DecidableEq, Repr

namespace Failure

def message : Failure → String
  | .interrupted i => i.message
  | .error m => m

/-- The environment stopped the step. -/
def isInterruption : Failure → Bool
  | .interrupted _ => true
  | .error _ => false

end Failure

/-- How a step or a body ended: with a value, or with a failure. -/
abbrev Outcome := Except Failure Json

end Rejoin
