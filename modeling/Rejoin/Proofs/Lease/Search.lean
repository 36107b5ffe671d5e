import Rejoin.Proofs.Lease.Ledger

/-!
# The search of a table

A table looks at the requested path, and then at its variants one after the other, until it comes to one that is free.
The number of the next variant is kept in 32 bits, and nothing but a free path ends the search.

* `Holds.Search.look` — one look, after which the search may be over, go on, or have no number left;
* `Holds.Search.Ends` — a search that is over after so many looks;
* `Holds.Search.ends_reached` — the search from any variant on ends at the first free one, if the numbers reach to it;
* `Ledger.grant_ends_search` — how a table that is not too full grants a lease.
-/

namespace Rejoin

namespace Holds

/-- A search under way: the path to look at, and the number that the next variant gets. -/
structure Search where
  path : String
  next : UInt32

namespace Search

/-- What a search comes to when it looks at its path. -/
inductive Sight where
  | free
  | taken (s : Search)
  | overflow

def start (requested : String) : Search := ⟨requested, 2⟩

/-- A free path ends the search.  After one that is held it goes on at the variant with the next number; that one is
counted on, which the last number of all cannot be. -/
def look (held : List String) (requested : String) (s : Search) : Sight :=
  if s.path ∈ held then
    if s.next.toNat + 1 < UInt32.size then .taken ⟨requested ++ "@" ++ toString s.next, s.next + 1⟩ else .overflow
  else .free

/-- A search that is over after so many looks, none of which was left without a number; and how it ended. -/
inductive Ends (held : List String) (requested : String) : Search → Nat → Search → Prop
  | free {s : Search} (h : look held requested s = .free) : Ends held requested s 1 s
  | taken {s s' e : Search} {looks : Nat} (h : look held requested s = .taken s')
      (hs : Ends held requested s' looks e) : Ends held requested s (looks + 1) e

/-- The search that has passed so many paths. -/
def reached (requested : String) (k : Nat) : Search := ⟨variant requested k, UInt32.ofNat (k + 2)⟩

variable {held : List String} {requested : String} {k : Nat}

theorem reached_zero (requested : String) : reached requested 0 = start requested := rfl

theorem toNat_next_reached (hk : k + 2 < UInt32.size) : (reached requested k).next.toNat = k + 2 :=
  UInt32.toNat_ofNat_of_lt hk

theorem look_reached_of_not_mem (h : variant requested k ∉ held) :
    look held requested (reached requested k) = .free := if_neg h

theorem look_reached_of_mem (h : variant requested k ∈ held) (hk : k + 3 < UInt32.size) :
    look held requested (reached requested k) = .taken (reached requested (k + 1)) := by
  have hheld : (reached requested k).path ∈ held := h
  have hnext : (reached requested k).next.toNat = k + 2 := toNat_next_reached (by omega)
  have hpath : requested ++ "@" ++ toString (reached requested k).next = variant requested (k + 1) := by
    rw [variant_succ, ← hnext]
    rfl
  have hsucc : (reached requested k).next + 1 = UInt32.ofNat (k + 1 + 2) := (UInt32.ofNat_add (k + 2) 1).symm
  rw [look, if_pos hheld, if_pos (by omega), hpath, hsucc, reached]

/-- If the search passes paths that are held and comes to one that is not, it ends there. -/
theorem ends_reached {n : Nat} (hpass : ∀ m, k ≤ m → m < k + n → variant requested m ∈ held)
    (hfree : variant requested (k + n) ∉ held) (hroom : k + n + 2 < UInt32.size) :
    Ends held requested (reached requested k) (n + 1) (reached requested (k + n)) := by
  induction n generalizing k with
  | zero => exact .free (look_reached_of_not_mem hfree)
  | succ n ih =>
    have hlook := look_reached_of_mem (hpass k (Nat.le_refl k) (by omega)) (by omega)
    have hadd : k + (n + 1) = k + 1 + n := by omega
    rw [hadd] at hfree hroom ⊢
    refine .taken hlook (ih ?_ hfree hroom)
    intro m hk hm
    exact hpass m (by omega) (by omega)

end Search

/-- The first path that is free comes after no more than are held. -/
theorem firstFree_le (held : List String) (path : String) : firstFree held path held.length 0 ≤ held.length := by
  obtain ⟨hpass, -⟩ := firstFree_spec held path held.length 0
  obtain ⟨m, hm, hfree⟩ := exists_variant_not_mem held path
  by_contra hlt
  exact hfree (hpass m (Nat.zero_le m) (by omega))

/-- So a search ends there, if there are numbers enough. -/
theorem Search.ends_start {held : List String} (requested : String) (hroom : held.length + 2 < UInt32.size) :
    let n := firstFree held requested held.length 0
    Ends held requested (start requested) (n + 1) (reached requested n) := by
  intro n
  have hn : n ≤ held.length := firstFree_le held requested
  have hfree : variant requested n ∉ held := granted_not_mem held requested
  obtain ⟨hpass, -⟩ := firstFree_spec held requested held.length 0
  have hends : Ends held requested (reached requested 0) (n + 1) (reached requested (0 + n)) := by
    refine ends_reached ?_ ?_ (by omega)
    · intro m hk hm
      exact hpass m hk (by omega)
    · rwa [Nat.zero_add]
  rwa [reached_zero, Nat.zero_add] at hends

end Holds

namespace Ledger

/-- **What a table grants.**  A table with less than `2 ^ 32 - 2` paths grants a lease on whatever is requested.  Its
search ends, with one look more than it holds paths at most, and no number is too large on the way.  The lease is on the
node and over the channel that were asked for, on the first of the path and its variants that is free; then the table
holds that path and those it held before, and no other table has changed.  So the directory that was asked for is
granted exactly if its path was free. -/
theorem grant_ends_search (l : Ledger) {t : Nat} (d : Dir) (ht : t < l.tables.length)
    (hroom : l.holdCount t + 2 < UInt32.size) :
    ∃ x l' n e, l.allocate (.table t) d = .ok (x, l') ∧
      Holds.Search.Ends (l.held t) d.path (.start d.path) (n + 1) e ∧ n ≤ l.holdCount t ∧ e.next.toNat = n + 2 ∧
      (e.path = Holds.variant d.path n ∧ e.path ∉ l.held t ∧ ∀ m < n, Holds.variant d.path m ∈ l.held t) ∧
      x.dir = d.withPath e.path ∧ l'.held t = e.path :: l.held t ∧ (∀ u, t ≠ u → l'.held u = l.held u) ∧
      (x.dir.same d = true ↔ d.path ∉ l.held t) ∧ (x.dir = d ↔ d.path ∉ l.held t) := by
  let n := Holds.firstFree (l.held t) d.path (l.held t).length 0
  have hn : n ≤ (l.held t).length := Holds.firstFree_le (l.held t) d.path
  obtain ⟨hpass, -⟩ := Holds.firstFree_spec (l.held t) d.path (l.held t).length 0
  have hdir : (l.grant t d).1.dir = d.withPath (Holds.granted (l.held t) d.path) := dir_grant l t d
  have hsame : (l.grant t d).1.dir.same d = true ↔ d.path ∉ l.held t := by
    rw [hdir, Dir.same_iff, ← Holds.granted_eq_self_iff]
    exact and_iff_left rfl
  have heq : (l.grant t d).1.dir = d ↔ d.path ∉ l.held t := by
    refine ⟨fun h => hsame.mp ?_, fun h => ?_⟩
    · rw [h, Dir.same_self]
    · rw [hdir, Holds.granted_of_not_mem h, Dir.withPath_self]
  have hends := Holds.Search.ends_start d.path hroom
  have hnext : (Holds.Search.reached d.path n).next.toNat = n + 2 :=
    Holds.Search.toNat_next_reached (Nat.lt_of_le_of_lt (Nat.add_le_add_right hn 2) hroom)
  refine ⟨(l.grant t d).1, (l.grant t d).2, n, Holds.Search.reached d.path n, rfl, hends, hn, hnext,
    ⟨rfl, Holds.granted_not_mem _ _, ?_⟩, hdir, ?_, ?_, hsame, heq⟩
  · intro m hm
    exact hpass m (Nat.zero_le m) hm
  · rw [held_grant l t t ht, if_pos rfl]
    rfl
  · intro u hu
    rw [held_grant l t u ht, if_neg hu]

/-- A path whose second variant is held as well, but not the third, which has a variant of its own that is. -/
theorem grant_ends_search_contended :
    let l : Ledger := { tables := [["/ws/T@3@2", "/ws/T@2", "/ws/T"]] }
    let d : Dir := ⟨"w", "/ws/T", 2⟩
    (0 < l.tables.length ∧ l.holdCount 0 + 2 < UInt32.size) ∧
      ∃ x l' e looks, l.allocate (.table 0) d = .ok (x, l') ∧
        Holds.Search.Ends (l.held 0) d.path (.start d.path) looks e ∧ looks ≤ 4 ∧
        x.dir = ⟨"w", "/ws/T@3", 2⟩ ∧ l'.held 0 = "/ws/T@3" :: l.held 0 ∧ x.dir ≠ d := by
  intro l d
  have ht : 0 < l.tables.length := by decide
  have hroom : l.holdCount 0 + 2 < UInt32.size := by decide
  obtain ⟨x, l', n, e, hok, hends, hn, -, -, hdir, hheld, -, -, heq⟩ := grant_ends_search l d ht hroom
  have hx : x.dir = ⟨"w", "/ws/T@3", 2⟩ := by
    rw [show x = (l.grant 0 d).1 from congrArg Prod.fst (Except.ok.inj hok).symm]
    decide
  have hpath : e.path = "/ws/T@3" := congrArg Dir.path (hdir.symm.trans hx)
  refine ⟨⟨ht, hroom⟩, x, l', e, n + 1, hok, hends, Nat.succ_le_succ hn, hx, by rw [hheld, hpath], ?_⟩
  rw [Ne, heq]
  decide

end Ledger

end Rejoin
