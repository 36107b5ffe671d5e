import Rejoin.Digest
import Rejoin.Json.Decoding
import Rejoin.Text.Utf8

/-!
# Tickets

The work of one step of one run, as it stands in the queue.  A ticket may carry a token; two tickets with one token
are the same work, also across a restart.  The token of a step is the digest of its run, a null byte and its
name (`Ticket.tokenBytes`).
-/

namespace Rejoin

/-- The work of a step. -/
structure Ticket where
  run : String
  step : String
  token : Option String
deriving DecidableEq, Repr

namespace Ticket

/-- The bytes whose digest is the token of a step. -/
def tokenBytes (run step : String) : List UInt8 :=
  Text.Utf8.encode run.toList ++ 0 :: Text.Utf8.encode step.toList

/-- The token of a step. -/
def tokenOf (run step : String) : String := Digest.text (tokenBytes run step)

/-- The ticket of a step, with the step's own token. -/
def ofStep (run step : String) : Ticket := ⟨run, step, some (tokenOf run step)⟩

def text (t : Ticket) : String := "part of " ++ t.run ++ " #" ++ t.step

def json (t : Ticket) : Json :=
  .object [("run_id", .string t.run), ("step_id", .string t.step), ("cookie", .string? t.token)]

structure Fields where
  run : Option String := none
  step : Option String := none
  token : Option (Option String) := none

def Fields.read (mode : Json.Mode) (s : Fields) (m : String × Json) : Except Json.Fault Fields :=
  match m.1 with
  | "run_id" => do pure { s with run := ← Json.fill m.1 s.run (Json.asString mode m.2) }
  | "step_id" => do pure { s with step := ← Json.fill m.1 s.step (Json.asString mode m.2) }
  | "cookie" => do pure { s with token := ← Json.fill m.1 s.token (Json.asString? mode m.2) }
  | _ => Json.skip s m.2

/-- A ticket may leave its token out. -/
def decode : Json.Decoder Ticket
  | mode, .object ms => do
    let s ← ms.foldlM (Fields.read mode) {}
    pure ⟨← Json.present "run_id" s.run, ← Json.present "step_id" s.step, s.token.join⟩
  | mode, .array xs => do
    let run ← Json.element "PlaceholderTask" 3 xs 0 (Json.asString mode)
    let step ← Json.element "PlaceholderTask" 3 xs 1 (Json.asString mode)
    let token ← match xs[2]? with
      | some x => Json.asString? mode x
      | none => pure none
    Json.noMore mode 3 xs
    pure ⟨run, step, token⟩
  | _, j => Json.wrongType "struct PlaceholderTask" j

end Ticket

end Rejoin
