import Mathlib.Data.List.Nodup
import Rejoin.Proofs.Lease.Holds
import Rejoin.Proofs.Places

/-!
# Leases and what the tables hold

* `Ledger.Sound` — a table holds the paths of its leases that were not given back, each once.  Grants from tables
  that exist keep that, and so does giving back;
* `Ledger.Sound.eq_of_unreleased` — two leases that hold one path of one table are one;
* `LedgerStep` — what can happen to a ledger when all leases are granted by tables.
-/

namespace Rejoin

/-- The path that a lease holds in a table. -/
def LeaseState.heldIn? (s : LeaseState) (t : Nat) : Option String :=
  if s.released then none
  else match s.origin with
    | .table u path => if u = t then some path else none
    | .outside => none

@[simp] theorem LeaseState.heldIn?_released (o : Origin) (t : Nat) : LeaseState.heldIn? ⟨o, true⟩ t = none := rfl

@[simp] theorem LeaseState.heldIn?_table (u : Nat) (path : String) (t : Nat) :
    LeaseState.heldIn? ⟨.table u path, false⟩ t = if u = t then some path else none := rfl

namespace Ledger

def unreleased (l : Ledger) (t : Nat) : List String := l.leases.filterMap (·.heldIn? t)

/-- The table exists. -/
def Lists (l : Ledger) : Grantor → Prop
  | .table t => t < l.tables.length
  | .policy _ => False

/-! ### The tables after an operation -/

section Held

variable (l : Ledger) (t u : Nat)

theorem held_newTable : l.newTable.2.held u = l.held u := by
  simp only [newTable, held, getElem?_concat]
  split
  next h => simp [h]
  next => rfl

theorem held_grant (ht : t < l.tables.length) (d : Dir) : (l.grant t d).2.held u =
    if t = u then Holds.granted (l.held t) d.path :: l.held t else l.held u := by
  simp only [grant, issue, held, List.getElem?_modify]
  split
  next h =>
    subst h
    simp [List.getElem?_eq_getElem ht]
  next => simp

theorem held_free (path : String) : (l.free (.table t path)).held u =
    if t = u then (l.held t).erase path else l.held u := by
  simp only [free, held, List.getElem?_modify]
  split
  next h =>
    subst h
    cases l.tables[t]? <;> simp
  next => simp

@[simp] theorem held_outside : (l.free .outside).held u = l.held u := rfl

@[simp] theorem tables_length_grant (d : Dir) : (l.grant t d).2.tables.length = l.tables.length := by
  simp [grant, issue]

end Held

/-- A lease that is given back was not given back before, or nothing happens. -/
theorem release_eq (l : Ledger) (id : Nat) : l.release id = l ∨ ∃ o, l.leases[id]? = some ⟨o, false⟩ ∧
    l.release id = { l.free o with
      leases := l.leases.set id ⟨o, true⟩, returned := id :: (l.free o).returned } := by
  unfold release
  split
  next => exact .inl rfl
  next s hs =>
    obtain ⟨o, released⟩ := s
    cases released with
    | true => exact .inl rfl
    | false => exact .inr ⟨o, hs, by simp⟩

@[simp] theorem tables_length_release (l : Ledger) (id : Nat) :
    (l.release id).tables.length = l.tables.length := by
  rcases l.release_eq id with h | ⟨o, -, h⟩
  · rw [h]
  · rw [h]
    cases o <;> simp [free]

/-! ### Soundness -/

/-- Each table holds the paths of its leases that were not given back, and holds them once. -/
structure Sound (l : Ledger) : Prop where
  perm : ∀ t, (l.held t).Perm (l.unreleased t)
  nodup : ∀ t, (l.held t).Nodup

theorem perm_filterMap_set {α β : Type} {f : α → Option β} {xs : List α} {n : Nat} {x x' : α} {y : β}
    (hn : xs[n]? = some x) (hx : f x = some y) (hx' : f x' = none) :
    (xs.filterMap f).Perm (y :: (xs.set n x').filterMap f) := by
  induction xs generalizing n with
  | nil => cases hn
  | cons z xs ih =>
    cases n with
    | zero =>
      obtain rfl := Option.some.inj hn
      simp [hx, hx']
    | succ n =>
      have hp := ih hn
      cases hz : f z with
      | none => simpa [hz] using hp
      | some v =>
        simp only [List.filterMap_cons, hz, List.set_cons_succ]
        exact (hp.cons v).trans (.swap y v _)

theorem filterMap_set_of_eq {α β : Type} {f : α → Option β} {xs : List α} {n : Nat} {x x' : α}
    (hn : xs[n]? = some x) (h : f x' = f x) : (xs.set n x').filterMap f = xs.filterMap f := by
  induction xs generalizing n with
  | nil => cases hn
  | cons z xs ih =>
    cases n with
    | zero =>
      obtain rfl := Option.some.inj hn
      simp [List.filterMap_cons, h]
    | succ n => simp [List.filterMap_cons, ih hn]

namespace Sound

variable {l : Ledger}

theorem newTable (h : l.Sound) : l.newTable.2.Sound := by
  constructor
  · intro t
    rw [held_newTable]
    exact h.perm t
  · intro t
    rw [held_newTable]
    exact h.nodup t

theorem grant (h : l.Sound) {t : Nat} (ht : t < l.tables.length) (d : Dir) : (l.grant t d).2.Sound := by
  have hu : ∀ u, (l.grant t d).2.unreleased u =
      l.unreleased u ++ if t = u then [Holds.granted (l.held t) d.path] else [] := by
    intro u
    simp only [unreleased, Ledger.grant, issue, List.filterMap_append]
    by_cases e : t = u <;> simp [e]
  constructor
  · intro u
    rw [held_grant l t u ht, hu]
    by_cases e : t = u
    · subst e
      simp only [if_true]
      have hcons := (h.perm t).cons (Holds.granted (l.held t) d.path)
      exact hcons.trans (List.perm_append_singleton _ _).symm
    · simpa [e] using h.perm u
  · intro u
    rw [held_grant l t u ht]
    split
    next => exact List.nodup_cons.mpr ⟨Holds.granted_not_mem _ _, h.nodup t⟩
    next => exact h.nodup u

theorem release (h : l.Sound) (id : Nat) : (l.release id).Sound := by
  rcases l.release_eq id with he | ⟨o, hs, he⟩
  · rw [he]
    exact h
  · have hh : ∀ u, (l.release id).held u = (l.free o).held u := by
      intro u
      rw [he]
      rfl
    have hu : ∀ u, (l.release id).unreleased u = (l.leases.set id ⟨o, true⟩).filterMap (·.heldIn? u) := by
      intro u
      rw [he]
      rfl
    constructor
    · intro u
      rw [hh, hu]
      cases o with
      | outside =>
        have hf : LeaseState.heldIn? ⟨.outside, true⟩ u = LeaseState.heldIn? ⟨.outside, false⟩ u := rfl
        rw [filterMap_set_of_eq (f := (·.heldIn? u)) hs hf]
        exact h.perm u
      | table t path =>
        rw [held_free]
        split
        next e =>
          subst e
          have hf : LeaseState.heldIn? ⟨.table t path, false⟩ t = some path := by simp
          have hf' : LeaseState.heldIn? ⟨.table t path, true⟩ t = none := rfl
          have hp := perm_filterMap_set (f := (·.heldIn? t)) hs hf hf'
          have hq := ((h.perm t).trans hp).erase path
          rwa [List.erase_cons_head] at hq
        next e =>
          have hf : LeaseState.heldIn? ⟨.table t path, true⟩ u = LeaseState.heldIn? ⟨.table t path, false⟩ u := by
            simp [e]
          rw [filterMap_set_of_eq (f := (·.heldIn? u)) hs hf]
          exact h.perm u
    · intro u
      rw [hh]
      cases o with
      | outside => exact h.nodup u
      | table t path =>
        rw [held_free]
        split
        next => exact (h.nodup t).erase path
        next => exact h.nodup u

/-- Two leases that hold one path of one table are one. -/
theorem eq_of_unreleased (h : l.Sound) {m n t : Nat} {path : String}
    (hm : l.leases[m]? = some ⟨.table t path, false⟩) (hn : l.leases[n]? = some ⟨.table t path, false⟩) : m = n := by
  have hd : (l.unreleased t).Nodup := (h.perm t).nodup_iff.mp (h.nodup t)
  rw [unreleased, List.Nodup, List.pairwise_filterMap, List.pairwise_iff_getElem] at hd
  obtain ⟨hm', em⟩ := List.getElem?_eq_some_iff.mp hm
  obtain ⟨hn', en⟩ := List.getElem?_eq_some_iff.mp hn
  rcases Nat.lt_trichotomy m n with hlt | he | hlt
  · exact absurd rfl (hd m n hm' hn' hlt path (by simp [em]) path (by simp [en]))
  · exact he
  · exact absurd rfl (hd n m hn' hm' hlt path (by simp [en]) path (by simp [em]))

end Sound

end Ledger

/-! ### What can happen to a ledger -/

/-- What can happen to a ledger, one thing at a time, when all leases are granted by tables that exist. -/
inductive LedgerStep (l : Ledger) : Ledger → Prop
  | newTable : LedgerStep l l.newTable.2
  | grant {t : Nat} (ht : t < l.tables.length) (d : Dir) : LedgerStep l (l.grant t d).2
  | release (id : Nat) : LedgerStep l (l.release id)

namespace LedgerStep

variable {l l' : Ledger}

theorem sound (h : LedgerStep l l') (hl : l.Sound) : l'.Sound := by
  cases h with
  | newTable => exact hl.newTable
  | grant ht d => exact hl.grant ht d
  | release id => exact hl.release id

theorem lists (h : LedgerStep l l') {g : Grantor} (hg : l.Lists g) : l'.Lists g := by
  have hle : l.tables.length ≤ l'.tables.length := by
    cases h <;> simp [Ledger.newTable]
  cases g with
  | table t => exact Nat.lt_of_lt_of_le hg hle
  | policy grant => exact hg.elim

theorem origin (h : LedgerStep l l') {n : Nat} {o : Origin} (hs : ∃ b, l.leases[n]? = some ⟨o, b⟩) :
    ∃ b, l'.leases[n]? = some ⟨o, b⟩ := by
  obtain ⟨b, hs⟩ := hs
  have hn : n < l.leases.length := (List.getElem?_eq_some_iff.mp hs).1
  cases h with
  | newTable => exact ⟨b, hs⟩
  | grant ht d =>
    refine ⟨b, ?_⟩
    simpa [Ledger.grant, Ledger.issue, List.getElem?_append_left hn] using hs
  | release id =>
    rcases l.release_eq id with he | ⟨o', ho, he⟩
    · rw [he]
      exact ⟨b, hs⟩
    · rw [he]
      by_cases e : id = n
      · subst e
        obtain ⟨rfl, -⟩ := LeaseState.mk.inj (Option.some.inj (ho.symm.trans hs))
        exact ⟨true, List.getElem?_set_self hn⟩
      · refine ⟨b, ?_⟩
        rw [List.getElem?_set_ne e]
        exact hs

end LedgerStep

end Rejoin
