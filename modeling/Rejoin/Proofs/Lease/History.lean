import Mathlib.Data.List.Range
import Rejoin.Proofs.Lease.Ledger

/-!
# Histories of hold tables

Leases are granted by tables, to anybody and on any path, and given back in any order and as often as one likes.

* `Ledger.Act` — what can be done.  A lease is given back by the place of its grant in the order of grants;
* `Ledger.History` — a ledger with the leases that it granted and with every attempt to give one back;
* `Ledger.History.Kept`, `Ledger.History.kept_after` — the ledger has what that history says of every lease;
* `Ledger.History.tables_hold_open_leases` — a table holds exactly the paths of its leases that were never given back,
  and no lease is given back twice.
-/

namespace Rejoin.Ledger

inductive Act where
  | newTable
  /-- Asks a table for a lease. -/
  | grant (t : Nat) (d : Dir)
  /-- Gives the lease back whose grant has the place. -/
  | release (place : Nat)
deriving DecidableEq, Repr

/-- A ledger, the leases that it granted, in order, each with its table, and the numbers of those that were given back,
once for every time that was tried. -/
structure History where
  ledger : Ledger := {}
  granted : List (Nat × Lease) := []
  released : List Nat := []

namespace History

/-- What an act does; nobody grants a lease where there is no table, and none is given back that was not granted. -/
def step (h : History) : Act → History
  | .newTable => { h with ledger := h.ledger.newTable.2 }
  | .grant t d =>
    if t < h.ledger.tables.length then
      { h with ledger := (h.ledger.grant t d).2, granted := h.granted ++ [(t, (h.ledger.grant t d).1)] }
    else h
  | .release place =>
    match h.granted[place]? with
    | some p => { h with ledger := h.ledger.release p.2.id, released := p.2.id :: h.released }
    | none => h

def after (as : List Act) : History := as.foldl step {}

theorem after_concat (as : List Act) (a : Act) : after (as ++ [a]) = (after as).step a := by
  simp [after, List.foldl_append]

/-- The leases of a table that were never given back, in the order in which they were granted. -/
def openIn (h : History) (t : Nat) : List Lease :=
  (h.granted.filter fun p => p.1 = t ∧ p.2.id ∉ h.released).map (·.2)

/-- What a ledger has of a lease that a table granted, when those of some numbers were given back. -/
def stateOf (released : List Nat) (p : Nat × Lease) : LeaseState :=
  ⟨.table p.1 p.2.dir.path, p.2.id ∈ released⟩

variable {h : History}

/-! ### What is kept -/

/-- The ledger is sound, leases have the numbers from zero in the order in which they were granted, and the ledger has
each of them as it was granted, as given back exactly if that was tried, and then once. -/
structure Kept (h : History) : Prop where
  sound : h.ledger.Sound
  numbered : h.granted.map (·.2.id) = List.range h.granted.length
  lt_length : ∀ id ∈ h.released, id < h.granted.length
  leases : h.ledger.leases = h.granted.map (stateOf h.released)
  returned : ∀ id, h.ledger.returned.count id = if id ∈ h.released then 1 else 0

theorem kept_empty : Kept {} where
  sound := ⟨fun t => by cases t <;> exact .refl _, fun t => by cases t <;> exact List.nodup_nil⟩
  numbered := rfl
  lt_length := nofun
  leases := rfl
  returned := by simp

namespace Kept

theorem id_eq (hk : h.Kept) {place : Nat} {p : Nat × Lease} (hp : h.granted[place]? = some p) : p.2.id = place := by
  have hlt : place < h.granted.length := (List.getElem?_eq_some_iff.mp hp).1
  have hid : (h.granted.map (·.2.id))[place]? = some p.2.id := by
    rw [List.getElem?_map, hp]
    rfl
  rw [hk.numbered, List.getElem?_range hlt] at hid
  exact (Option.some.inj hid).symm

theorem getElem?_leases (hk : h.Kept) {place : Nat} {p : Nat × Lease} (hp : h.granted[place]? = some p) :
    h.ledger.leases[p.2.id]? = some (stateOf h.released p) := by
  rw [hk.leases, hk.id_eq hp, List.getElem?_map, hp]
  rfl

theorem newTable (hk : h.Kept) : Kept { h with ledger := h.ledger.newTable.2 } :=
  ⟨hk.sound.newTable, hk.numbered, hk.lt_length, hk.leases, hk.returned⟩

theorem grant (hk : h.Kept) {t : Nat} (ht : t < h.ledger.tables.length) (d : Dir) :
    Kept { h with ledger := (h.ledger.grant t d).2, granted := h.granted ++ [(t, (h.ledger.grant t d).1)] } := by
  have hid : (h.ledger.grant t d).1.id = h.granted.length := by
    show h.ledger.leases.length = h.granted.length
    rw [hk.leases, List.length_map]
  -- No lease that was given back has the new number.
  have hnew : (h.ledger.grant t d).1.id ∉ h.released := by
    intro hm
    have hlt := hk.lt_length _ hm
    omega
  refine ⟨hk.sound.grant ht d, ?_, ?_, ?_, hk.returned⟩
  · rw [List.map_append, hk.numbered, List.length_append, List.length_singleton, List.range_succ]
    simp [hid]
  · intro id hm
    have hlt := hk.lt_length id hm
    rw [List.length_append]
    omega
  · show h.ledger.leases ++ [⟨.table t (h.ledger.grant t d).1.dir.path, false⟩] = List.map (stateOf h.released) _
    rw [List.map_append, ← hk.leases]
    simp [stateOf, hnew]

section Release

variable {place : Nat} {p : Nat × Lease}

theorem release_again (hk : h.Kept) (hp : h.granted[place]? = some p) (hr : p.2.id ∈ h.released) :
    h.ledger.release p.2.id = h.ledger := by
  refine release_of_isReleased (isReleased_eq.mpr ⟨_, hk.getElem?_leases hp, ?_⟩)
  simpa [stateOf] using hr

theorem release_first (hk : h.Kept) (hp : h.granted[place]? = some p) (hr : p.2.id ∉ h.released) :
    h.ledger.release p.2.id = { h.ledger.free (.table p.1 p.2.dir.path) with
      leases := h.ledger.leases.set p.2.id ⟨.table p.1 p.2.dir.path, true⟩
      returned := p.2.id :: h.ledger.returned } := by
  refine release_of_unreleased ?_
  rw [hk.getElem?_leases hp]
  simp [stateOf, hr]

theorem mem_cons_of_released {id : Nat} (hr : p.2.id ∈ h.released) :
    id ∈ p.2.id :: h.released ↔ id ∈ h.released := by
  rw [List.mem_cons, or_iff_right_of_imp]
  rintro rfl
  exact hr

theorem leases_release (hk : h.Kept) (hp : h.granted[place]? = some p) :
    (h.ledger.release p.2.id).leases = h.granted.map (stateOf (p.2.id :: h.released)) := by
  by_cases hr : p.2.id ∈ h.released
  · rw [hk.release_again hp hr, hk.leases]
    refine List.map_congr_left ?_
    intro x _
    simp only [stateOf, mem_cons_of_released hr]
  · rw [hk.release_first hp hr]
    show h.ledger.leases.set p.2.id _ = _
    refine List.ext_getElem? ?_
    intro n
    rw [hk.leases, List.getElem?_set, List.length_map, List.getElem?_map, List.getElem?_map]
    by_cases hn : p.2.id = n
    · have hg : h.granted[n]? = some p := by rw [← hn, hk.id_eq hp, hp]
      have hlt : n < h.granted.length := (List.getElem?_eq_some_iff.mp hg).1
      rw [if_pos hn, hn, if_pos hlt, hg]
      simp [stateOf, hn]
    · rw [if_neg hn]
      cases hg : h.granted[n]? with
      | none => rfl
      | some x => simp [stateOf, hk.id_eq hg, Ne.symm hn]

theorem release (hk : h.Kept) (hp : h.granted[place]? = some p) :
    Kept { h with ledger := h.ledger.release p.2.id, released := p.2.id :: h.released } where
  sound := hk.sound.release p.2.id
  numbered := hk.numbered
  lt_length := by
    have hlt : place < h.granted.length := (List.getElem?_eq_some_iff.mp hp).1
    refine List.forall_mem_cons.mpr ⟨?_, hk.lt_length⟩
    rw [hk.id_eq hp]
    exact hlt
  leases := hk.leases_release hp
  returned := by
    intro id
    show (h.ledger.release p.2.id).returned.count id = if id ∈ p.2.id :: h.released then 1 else 0
    have hid := hk.returned id
    by_cases hr : p.2.id ∈ h.released
    · rw [hk.release_again hp hr, hid]
      exact if_congr (mem_cons_of_released hr).symm rfl rfl
    · rw [hk.release_first hp hr]
      show (p.2.id :: h.ledger.returned).count id = _
      rw [List.count_cons, hid]
      by_cases he : p.2.id = id
      · subst he
        simp [hr]
      · simp [he, Ne.symm he]

end Release

end Kept

theorem Kept.step (hk : h.Kept) (a : Act) : (h.step a).Kept := by
  cases a with
  | newTable => exact hk.newTable
  | grant t d =>
    simp only [History.step]
    split
    next ht => exact hk.grant ht d
    next => exact hk
  | release place =>
    simp only [History.step]
    split
    next hp => exact hk.release hp
    next => exact hk

theorem kept_after (as : List Act) : (after as).Kept := by
  induction as using List.reverseRecOn with
  | nil => exact kept_empty
  | append_singleton as a ih =>
    rw [after_concat]
    exact ih.step a

/-! ### What the tables hold -/

section Open

variable {t : Nat} {x : Lease}

theorem mem_openIn : x ∈ h.openIn t ↔ (t, x) ∈ h.granted ∧ x.id ∉ h.released := by
  simp only [openIn, List.mem_map, List.mem_filter, decide_eq_true_eq]
  constructor
  · rintro ⟨⟨_, _⟩, ⟨hm, rfl, hr⟩, rfl⟩
    exact ⟨hm, hr⟩
  · rintro ⟨hm, hr⟩
    exact ⟨(t, x), ⟨hm, rfl, hr⟩, rfl⟩

/-- What the leases of a table hold is what those hold that were never given back. -/
theorem Kept.unreleased_eq (hk : h.Kept) (t : Nat) : h.ledger.unreleased t = (h.openIn t).map (·.dir.path) := by
  rw [unreleased, hk.leases, List.filterMap_map, openIn, List.map_map, ← List.filterMap_eq_map, List.filterMap_filter]
  refine List.filterMap_congr ?_
  intro p _
  by_cases hr : p.2.id ∈ h.released
  · simp [stateOf, hr]
  · simp [stateOf, hr]

namespace Kept

variable (hk : h.Kept)
include hk

/-- A table holds the paths of its leases that were never given back. -/
theorem holds_iff {path : String} : h.ledger.holds t path = true ↔ ∃ x ∈ h.openIn t, x.dir.path = path := by
  rw [holds, decide_eq_true_eq, (hk.sound.perm t).mem_iff, hk.unreleased_eq, List.mem_map]

theorem pairwise_openIn : (h.openIn t).Pairwise fun x y => x.dir.path ≠ y.dir.path := by
  have hd : (h.ledger.unreleased t).Nodup := (hk.sound.perm t).nodup_iff.mp (hk.sound.nodup t)
  rw [hk.unreleased_eq] at hd
  exact List.pairwise_map.mp hd

theorem holdCount_eq : h.ledger.holdCount t = (h.openIn t).length := by
  rw [holdCount, (hk.sound.perm t).length_eq, hk.unreleased_eq, List.length_map]

end Kept

theorem mem_openIn_release {place : Nat} {p : Nat × Lease} (hp : h.granted[place]? = some p) (hx : x ∈ h.openIn t)
    (hne : x.id ≠ p.2.id) : x ∈ (h.step (.release place)).openIn t := by
  obtain ⟨hm, hr⟩ := mem_openIn.mp hx
  simp only [step, hp]
  exact mem_openIn.mpr ⟨hm, by simp [hne, hr]⟩

end Open

/-- **What a table holds.**  Whatever was granted and given back, a table holds exactly the paths of its leases that
were never given back; no two of these have one path, and their number is how many the table says it holds.  A lease
that was given back was given back once, however often that was tried.  Trying it again changes nothing, and whichever
lease is given back next, every other one of any table stays open and its path held. -/
theorem tables_hold_open_leases (as : List Act) :
    let h := after as
    (∀ t, (∀ path, h.ledger.holds t path = true ↔ ∃ x ∈ h.openIn t, x.dir.path = path) ∧
      (h.openIn t).Pairwise (fun x y => x.dir.path ≠ y.dir.path) ∧ h.ledger.holdCount t = (h.openIn t).length) ∧
    (∀ id, h.ledger.returned.count id = if id ∈ h.released then 1 else 0) ∧
    ∀ place p, h.granted[place]? = some p →
      let h' := after (as ++ [.release place])
      (p.2.id ∈ h.released → h'.ledger = h.ledger) ∧
        ∀ t x, x ∈ h.openIn t → x.id ≠ p.2.id → x ∈ h'.openIn t ∧ h'.ledger.holds t x.dir.path = true := by
  intro h
  have hk : h.Kept := kept_after as
  refine ⟨fun t => ⟨fun path => hk.holds_iff, hk.pairwise_openIn, hk.holdCount_eq⟩, hk.returned, ?_⟩
  intro place p hp h'
  have hk' : h'.Kept := kept_after (as ++ [.release place])
  have hstep : h' = h.step (.release place) := after_concat as (.release place)
  constructor
  · intro hr
    rw [hstep]
    simp only [step, hp]
    exact hk.release_again hp hr
  · intro t x hx hne
    have hx' : x ∈ h'.openIn t := by
      rw [hstep]
      exact mem_openIn_release hp hx hne
    exact ⟨hx', hk'.holds_iff.mpr ⟨x, hx', rfl⟩⟩

end History

end Rejoin.Ledger
