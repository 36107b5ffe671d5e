import Rejoin.Queue.Basic

/-!
# Records of suspended steps

A bookmark names the work of a suspended step, its node, its directory and how deep it was nested.  A record is a
bookmark together with the slot and the lease that the step holds once it was rejoined; those are never stored
(`Record.json_eq`).
-/

namespace Rejoin

/-- The stored identity of a suspended step. -/
structure Bookmark where
  ticket : Ticket
  node : String
  path : String
  depth : Nat
deriving DecidableEq, Repr

namespace Bookmark

def text (b : Bookmark) : String := "ResumptionRecord[" ++ b.path ++ "@" ++ b.node ++ "]"

def json (b : Bookmark) : Json :=
  .object [("task", b.ticket.json), ("node", .string b.node), ("path", .string b.path), ("depth", .nat b.depth)]

structure Fields where
  ticket : Option Ticket := none
  node : Option String := none
  path : Option String := none
  depth : Option Nat := none

def Fields.step (mode : Json.Mode) (s : Fields) (m : String × Json) : Except Json.Fault Fields :=
  match m.1 with
  | "task" => do pure { s with ticket := ← Json.fill m.1 s.ticket (Ticket.decode mode m.2) }
  | "node" => do pure { s with node := ← Json.fill m.1 s.node (Json.asString mode m.2) }
  | "path" => do pure { s with path := ← Json.fill m.1 s.path (Json.asString mode m.2) }
  | "depth" => do pure { s with depth := ← Json.fill m.1 s.depth (Json.asWord mode m.2) }
  | _ => Json.skip s m.2

/-- The bookmark that the members of an object make. -/
def ofMembers (mode : Json.Mode) (ms : List (String × Json)) : Except Json.Fault Bookmark := do
  let s ← ms.foldlM (Fields.step mode) {}
  pure ⟨← Json.present "task" s.ticket, ← Json.present "node" s.node, ← Json.present "path" s.path,
    ← Json.present "depth" s.depth⟩

def decode : Json.Decoder Bookmark
  | mode, .object ms => ofMembers mode ms
  | mode, .array xs => do
    let ticket ← Json.element "ResumptionKey" 4 xs 0 (Ticket.decode mode)
    let node ← Json.element "ResumptionKey" 4 xs 1 (Json.asString mode)
    let path ← Json.element "ResumptionKey" 4 xs 2 (Json.asString mode)
    let depth ← Json.element "ResumptionKey" 4 xs 3 (Json.asWord mode)
    Json.noMore mode 4 xs
    pure ⟨ticket, node, path, depth⟩
  | _, j => Json.wrongType "struct ResumptionKey" j

end Bookmark

/-- What a step holds while it runs. -/
structure Holdings where
  slot : Slot
  lease : Lease
deriving DecidableEq, Repr

/-- A bookmark, and what the step holds if it runs. -/
structure Record where
  bookmark : Bookmark
  holdings : Option Holdings
deriving DecidableEq, Repr

namespace Record

def ofBookmark (b : Bookmark) : Record := ⟨b, none⟩

/-- The record of a step that was given a slot and a lease. -/
def ofHoldings (t : Ticket) (h : Holdings) (depth : Nat) : Record :=
  ⟨⟨t, h.lease.dir.node, h.lease.dir.path, depth⟩, some h⟩

def text (r : Record) : String := r.bookmark.text

/-- Only the bookmark is stored. -/
def json (r : Record) : Json := r.bookmark.json

theorem json_eq (r : Record) : r.json = (ofBookmark r.bookmark).json := rfl

@[simp] theorem bookmark_ofBookmark (b : Bookmark) : (ofBookmark b).bookmark = b := rfl

@[simp] theorem holdings_ofBookmark (b : Bookmark) : (ofBookmark b).holdings = none := rfl

/-- The names of the stored fields. -/
def fieldNames : List String := ["task", "node", "path", "depth"]

/-- A record is read from an object, which is buffered whole: its members are kept, and those that belong to a
bookmark are then read from what was kept. -/
def decode : Json.Decoder Record
  | _, .object ms =>
    if Json.sound (.object ms) then
      (Bookmark.ofMembers .buffered (ms.filter (·.1 ∈ fieldNames))).map ofBookmark
    else .error .malformed
  | _, j => Json.wrongType "struct ResumptionRecord" j

end Record

end Rejoin
