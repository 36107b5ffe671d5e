import Rejoin.Text.Lines
import Rejoin.Text.Utf8

/-!
# Transcripts

The bytes written to a log, their text (`Transcript.contents`) and their lines (`Transcript.lines`); and consoles,
through which steps print lines to a transcript.
-/

namespace Rejoin

/-- The bytes of a log. -/
structure Transcript where
  bytes : List UInt8 := []
deriving DecidableEq, Repr

namespace Transcript

/-- Writes bytes after those before. -/
def write (t : Transcript) (bs : List UInt8) : Transcript := ⟨t.bytes ++ bs⟩

@[simp] theorem bytes_write (t : Transcript) (bs : List UInt8) : (t.write bs).bytes = t.bytes ++ bs := rfl

/-- It makes no difference how a text is cut into writes. -/
theorem write_write (t : Transcript) (bs cs : List UInt8) : (t.write bs).write cs = t.write (bs ++ cs) := by
  simp [write]

def println (t : Transcript) (line : String) : Transcript :=
  t.write (Text.Utf8.encode (line.toList ++ ['\n']))

/-- The text written, ill-formed bytes replaced. -/
def contents (t : Transcript) : String := String.ofList (Text.Utf8.decode t.bytes)

def lines (t : Transcript) : List String := (Text.lines (Text.Utf8.decode t.bytes)).map String.ofList

end Transcript

/-- Where printed lines go: nowhere, to a log that takes no writes, or to the transcript of a number. -/
inductive Console where
  | silent
  | broken
  | transcript (n : Nat)
deriving DecidableEq, Repr

end Rejoin
