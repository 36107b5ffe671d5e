import Rejoin.Capability

/-!
# The resolvers behind a record

Without a record, or with one whose step was not rejoined, directory, lease, slot and worker are not available.
Otherwise lease, slot and worker are handed out as stored; the directory (`currentDir`) is the leased one while
its channel is open, and else the same path over the channel that the node has now.  The node needs no more
than the record.
-/

namespace Rejoin.Recovery

/-- Asks for the record, and goes on with what its step holds. -/
def held {out : Capability} (next : Record → Holdings → Enquiry Capability.Carrier out) :
    Enquiry Capability.Carrier out :=
  .need Capability.record fun r => match Record.holdings r with
    | some h => next r h
    | none => .nothing

/-- What is handed out of a record depends on that alone: there is nothing without a rejoined step. -/
theorem held_done {out : Capability} (next : Record → Holdings → Answer Capability out.Carrier) :
    held (fun r h => .done (next r h)) =
      .need Capability.record fun r => .done ((Record.holdings r).elim (.ok none) (next r)) := by
  rw [held]
  congr 1
  funext r
  cases Record.holdings r <;> rfl

/-- The error of a directory on a node that is offline or unknown. -/
def offline (f : Fleet) (node : String) : Offline :=
  let shown := ((f.worker? node).map (·.text)).getD node
  let cause := match f.outageOf node with
    | some o => "; " ++ shown ++ " was marked offline: " ++ o.text
    | none => ""
  ⟨"Unable to create live directory handle for " ++ shown ++ cause,
    (f.terminationsOf node).map Termination.text⟩

/-- The directory that a rejoined step works in. -/
def currentDir (f : Fleet) (r : Record) (h : Holdings) : Answer Capability Dir :=
  if f.isLive h.lease.dir then .ok (some h.lease.dir)
  else match f.dirOf? r.bookmark.node h.lease.dir.path with
    | some d => .ok (some d)
    | none => .error (.offline (offline f r.bookmark.node))

/-- A directory that is handed out is live. -/
theorem isLive_of_currentDir {f : Fleet} {r : Record} {h : Holdings} {d : Dir}
    (hd : currentDir f r h = .ok (some d)) : f.isLive d = true := by
  unfold currentDir at hd
  split at hd
  next hl => cases hd; exact hl
  next =>
    split at hd
    next e he =>
      cases hd
      obtain ⟨w, -, hw⟩ := Option.bind_eq_some_iff.mp he
      exact Fleet.isLive_of_dir? hw
    next => cases hd

def dir : StepResolver := ⟨.dir, fun f => held fun r h => .done (currentDir f r h)⟩

def lease : StepResolver := ⟨.lease, fun _ => held fun _ h => .give h.lease⟩

def slot : StepResolver := ⟨.slot, fun _ => held fun _ h => .give h.slot⟩

def worker : StepResolver := ⟨.worker, fun _ => held fun _ h => .give h.slot.owner⟩

/-- Hands out the node of the name that the record keeps. -/
def node : StepResolver :=
  ⟨.node, fun f => .need Capability.record fun r => .done (.ok (f.node? (Record.bookmark r).node))⟩

/-- All of them, in the order they are added to a table. -/
def all : List StepResolver := [dir, lease, slot, worker, node]

/-- Adds all of them, as far as no kind has a resolver already. -/
def register (t : StepTable) : StepTable × Except (LookupError Capability) Unit := t.addAll all

end Rejoin.Recovery
