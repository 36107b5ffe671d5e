/-!
# Spans of time

How a span is told: the two most significant units from a minute on, seconds below that, tenths below ten seconds,
milliseconds below one.  What is told is a value of its own (`Span.Shown`), so that it has both a text
(`Span.Shown.text`) and an amount (`Span.Shown.amount`).
-/

namespace Rejoin

/-- A span of time in seconds and nanoseconds. -/
structure Span where
  seconds : Nat
  nanos : Nat
deriving DecidableEq, Repr

namespace Span

def ofMillis (ms : Nat) : Span := ⟨ms / 1000, ms % 1000 * 1000000⟩

def millis (s : Span) : Nat := s.seconds * 1000 + s.nanos / 1000000

@[simp] theorem millis_ofMillis (ms : Nat) : (ofMillis ms).millis = ms := by
  simp only [millis, ofMillis]
  omega

/-- What is told of a span. -/
inductive Shown where
  | days (d h : Nat)
  | hours (h m : Nat)
  | minutes (m s : Nat)
  | seconds (s : Nat)
  | tenths (s t : Nat)
  | millis (ms : Nat)
deriving DecidableEq, Repr

/-- The units that a span is told in, and their counts. -/
def shown (s : Span) : Shown :=
  if 86400 ≤ s.seconds then .days (s.seconds / 86400) (s.seconds / 3600 % 24)
  else if 3600 ≤ s.seconds then .hours (s.seconds / 3600) (s.seconds / 60 % 60)
  else if 60 ≤ s.seconds then .minutes (s.seconds / 60) (s.seconds % 60)
  else if 10 ≤ s.seconds then .seconds s.seconds
  else if 1 ≤ s.seconds then
    if s.millis % 1000 / 100 = 0 then .seconds s.seconds else .tenths s.seconds (s.millis % 1000 / 100)
  else .millis s.millis

/-- The text of what is told. -/
def Shown.text : Shown → String
  | .days d h => toString d ++ (if d = 1 then " day " else " days ") ++ toString h ++ " hr"
  | .hours h m => toString h ++ " hr " ++ toString m ++ " min"
  | .minutes m s => toString m ++ " min " ++ toString s ++ " sec"
  | .seconds s => toString s ++ " sec"
  | .tenths s t => toString s ++ "." ++ toString t ++ " sec"
  | .millis ms => toString ms ++ " ms"

/-- The amount that is told, in milliseconds. -/
def Shown.amount : Shown → Nat
  | .days d h => (d * 24 + h) * 3600000
  | .hours h m => (h * 60 + m) * 60000
  | .minutes m s => (m * 60 + s) * 1000
  | .seconds s => s * 1000
  | .tenths s t => s * 1000 + t * 100
  | .millis ms => ms

def text (s : Span) : String := s.shown.text

example : (ofMillis 90061000).text = "1 day 1 hr" := by decide
example : (ofMillis 9950).text = "9.9 sec" := by decide
example : (ofMillis 1050).text = "1 sec" := by decide

end Span

end Rejoin
