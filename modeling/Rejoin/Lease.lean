import Rejoin.Dir

/-!
# Leases

Exclusive holds on directories.

* `Holds.granted` — a hold table grants a requested path if it is free, and its first free variant `p@2`, `p@3`, …
  otherwise;
* `Ledger` — all hold tables, and which leases were given back.  Giving back runs once
  (`Ledger.release_of_isReleased`), and a lease that is only forgotten stays held;
* `Grantor` — who grants the leases of a worker.
-/

namespace Rejoin

/-- Why no lease was granted. -/
inductive LeaseError where
  | registry (message : String)
deriving DecidableEq, Repr

def LeaseError.message : LeaseError → String
  | .registry m => "lease registry error: " ++ m

/-- A lease: its number in the ledger, and the directory that was granted. -/
structure Lease where
  id : Nat
  dir : Dir
deriving DecidableEq, Repr

/-- Who grants the leases of a worker: a hold table of the ledger, or a policy that never contends. -/
inductive Grantor where
  | table (t : Nat)
  | policy (grant : Dir → Except String Dir)

/-! ### Hold tables -/

namespace Holds

/-- The path tried after `k` others: the path itself, then its variants from the second on. -/
def variant (path : String) (k : Nat) : String :=
  if k = 0 then path else path ++ "@" ++ toString (k + 1)

@[simp] theorem variant_zero (path : String) : variant path 0 = path := rfl

theorem variant_succ (path : String) (k : Nat) : variant path (k + 1) = path ++ "@" ++ toString (k + 2) := rfl

/-- The first `k'` from `k` on whose variant is free.  Once as many variants as there are held paths
turned out held, the next one is free. -/
def firstFree (held : List String) (path : String) : Nat → Nat → Nat
  | 0, k => k
  | fuel + 1, k => if variant path k ∈ held then firstFree held path fuel (k + 1) else k

def granted (held : List String) (path : String) : String :=
  variant path (firstFree held path held.length 0)

theorem firstFree_of_not_mem {held : List String} {path : String} {k : Nat} (h : variant path k ∉ held) (fuel : Nat) :
    firstFree held path fuel k = k := by
  cases fuel <;> simp [firstFree, h]

/-- A free path is granted as it is. -/
theorem granted_of_not_mem {held : List String} {path : String} (h : path ∉ held) : granted held path = path := by
  rw [granted, firstFree_of_not_mem (by simpa using h), variant_zero]

end Holds

/-! ### The ledger -/

/-- Where a lease goes back to: the path of a hold table, or somewhere outside. -/
inductive Origin where
  | table (t : Nat) (path : String)
  | outside
deriving DecidableEq, Repr

/-- The state of a lease. -/
structure LeaseState where
  origin : Origin
  released : Bool := false
deriving DecidableEq, Repr

/-- All hold tables, the state of every lease by its number, and the leases given back, latest first. -/
structure Ledger where
  tables : List (List String) := []
  leases : List LeaseState := []
  returned : List Nat := []
deriving DecidableEq, Repr

namespace Ledger

def held (l : Ledger) (t : Nat) : List String := (l.tables[t]?).getD []

def holds (l : Ledger) (t : Nat) (path : String) : Bool := path ∈ l.held t

def holdCount (l : Ledger) (t : Nat) : Nat := (l.held t).length

def newTable (l : Ledger) : Nat × Ledger := (l.tables.length, { l with tables := l.tables ++ [[]] })

def issue (l : Ledger) (origin : Origin) (dir : Dir) : Lease × Ledger :=
  (⟨l.leases.length, dir⟩, { l with leases := l.leases ++ [⟨origin, false⟩] })

/-- A lease on the requested path of a table, or on a variant of it. -/
def grant (l : Ledger) (t : Nat) (requested : Dir) : Lease × Ledger :=
  let path := Holds.granted (l.held t) requested.path
  { l with tables := l.tables.modify t (path :: ·) }.issue (.table t path) (requested.withPath path)

def allocate (l : Ledger) (g : Grantor) (requested : Dir) : Except LeaseError (Lease × Ledger) :=
  match g with
  | .table t => .ok (l.grant t requested)
  | .policy grant =>
    match grant requested with
    | .ok d => .ok (l.issue .outside d)
    | .error m => .error (.registry m)

def isReleased (l : Ledger) (id : Nat) : Bool := (l.leases[id]?).any (·.released)

/-- Frees what a lease held. -/
def free (l : Ledger) : Origin → Ledger
  | .table t path => { l with tables := l.tables.modify t (·.erase path) }
  | .outside => l

/-- Gives a lease back; the second time nothing happens. -/
def release (l : Ledger) (id : Nat) : Ledger :=
  match l.leases[id]? with
  | none => l
  | some s =>
    if s.released then l
    else
      let l := l.free s.origin
      { l with leases := l.leases.set id { s with released := true }, returned := id :: l.returned }

theorem isReleased_eq {l : Ledger} {id : Nat} : l.isReleased id = true ↔
    ∃ s, l.leases[id]? = some s ∧ s.released = true := by
  simp [isReleased, Option.any_eq_true]

/-- A lease that was given back is left alone. -/
theorem release_of_isReleased {l : Ledger} {id : Nat} (h : l.isReleased id = true) : l.release id = l := by
  obtain ⟨s, hs, hr⟩ := isReleased_eq.mp h
  simp [release, hs, hr]

@[simp] theorem leases_free (l : Ledger) (o : Origin) : (l.free o).leases = l.leases := by
  cases o <;> rfl

/-- A lease that was not given back frees what it held, and that is written down. -/
theorem release_of_unreleased {l : Ledger} {id : Nat} {o : Origin} (h : l.leases[id]? = some ⟨o, false⟩) :
    l.release id = { l.free o with
      leases := l.leases.set id ⟨o, true⟩, returned := id :: (l.free o).returned } := by
  simp [release, h]

/-- Once given back, a lease is known to be. -/
theorem isReleased_release {l : Ledger} {id : Nat} (h : id < l.leases.length) :
    (l.release id).isReleased id = true := by
  obtain ⟨s, hs⟩ : ∃ s, l.leases[id]? = some s := ⟨_, List.getElem?_eq_getElem h⟩
  rw [isReleased_eq]
  by_cases hr : s.released = true
  · exact ⟨s, by simp [release, hs, hr], hr⟩
  · have he : (l.release id).leases = l.leases.set id { s with released := true } := by
      simp only [release, hs, hr, leases_free, Bool.false_eq_true, if_false]
    exact ⟨_, by rw [he, List.getElem?_set_self h], rfl⟩

/-- A new lease has not been given back. -/
theorem isReleased_issue (l : Ledger) (o : Origin) (d : Dir) :
    (l.issue o d).2.isReleased (l.issue o d).1.id = false := by
  simp [issue, isReleased]

/-- A table grants on the node and over the channel that were asked for. -/
theorem dir_grant (l : Ledger) (t : Nat) (d : Dir) :
    (l.grant t d).1.dir = d.withPath (Holds.granted (l.held t) d.path) := rfl

/-- How many leases from outside were given back. -/
def outsideReturns (l : Ledger) : Nat :=
  (l.returned.filter fun id => (l.leases[id]?).any (·.origin = .outside)).length

end Ledger

end Rejoin
