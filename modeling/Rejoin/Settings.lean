import Rejoin.Text.Blank
import Rejoin.Text.Numeral
import Rejoin.Time.Span

/-!
# Settings of a rejoin

How long to wait for a node and at which priority to queue.  Each is read from an environment variable, where a
value that is blank counts as unset (`Settings.given`); a fault of the patience is reported before one of the
priority (`Settings.read_of_bad_patience`).
-/

namespace Rejoin

open Text

/-- How long a start is awaited, in milliseconds, and the priority of a submission. -/
structure Settings where
  patience : Nat := 300000
  priority : Nat := 0
deriving DecidableEq, Repr

/-- Why settings are refused. -/
inductive SettingsError where
  | badPatience (raw : String)
  | zeroPatience
  | badPriority (raw : String)
deriving DecidableEq, Repr

def SettingsError.message : SettingsError → String
  | .badPatience raw =>
    "invalid TETHER_NODE_WAIT_TIMEOUT_MS='" ++ raw ++ "'. expected a number of milliseconds"
  | .zeroPatience => "TETHER_NODE_WAIT_TIMEOUT_MS must be greater than zero"
  | .badPriority raw =>
    "invalid TETHER_QUEUE_PRIORITY='" ++ raw ++ "'. expected a non-negative integer"

namespace Settings

/-- The value of a variable, trimmed; nothing where it is unset or blank. -/
def given (v : Option String) : Option (List Char) :=
  (v.map fun s => trim s.toList).filter (· ≠ [])

/-- The patience a variable asks for. -/
def readPatience (v : Option String) : Except SettingsError Nat :=
  match given v with
  | none => .ok ({} : Settings).patience
  | some raw =>
    match numeral? (Nat.pow 2 64 - 1) raw with
    | none => .error (.badPatience (String.ofList raw))
    | some 0 => .error .zeroPatience
    | some n => .ok n

/-- The priority a variable asks for. -/
def readPriority (v : Option String) : Except SettingsError Nat :=
  match given v with
  | none => .ok ({} : Settings).priority
  | some raw =>
    match numeral? (Nat.pow 2 32 - 1) raw with
    | none => .error (.badPriority (String.ofList raw))
    | some n => .ok n

/-- Reads the settings from the values of the two variables; the patience is looked at first. -/
def read (patience priority : Option String) : Except SettingsError Settings := do
  let p ← readPatience patience
  let q ← readPriority priority
  pure ⟨p, q⟩

@[simp] theorem read_none : read none none = .ok {} := rfl

theorem read_of_bad_patience {p : Option String} {e : SettingsError} (h : readPatience p = .error e)
    (q : Option String) : read p q = .error e := by
  simp only [read, h]
  rfl

/-- The patience as a span of time. -/
def span (s : Settings) : Span := Span.ofMillis s.patience

end Settings

end Rejoin
