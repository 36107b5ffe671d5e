import Rejoin.Controller
import Rejoin.Proofs.Fleet.History
import Rejoin.Proofs.Recovery

/-!
# What a record backs

Directory, lease, slot, worker and node of a step come from the record that is nearest in its scope.

* `Recovery.resolve_of_mem`, `Recovery.get_of_mem` — what the five resolvers have in common: they ask for the
  record, and for nothing else;
* `Recovery.get_of_held` — those that need a step that was rejoined;
* `Recovery.get_node` — the node, which does not;
* `Recovery.backed_by_nearest` — what is found with and without a record.
-/

namespace Rejoin

theorem Scope.bound?_of_nearest {K : Type} [DecidableEq K] {V : K → Type} {S : Type} {c : Scope V S} {k : K}
    {b : Bound V} {inner around : List (Layer V)} {l : Layer V} (hc : c.values :: c.outer = inner ++ l :: around)
    (hi : ∀ m ∈ inner, m.find? k = none) (hl : l.find? k = some b) : c.bound? k = some b := by
  rw [bound?, List.findSome?_eq_some_iff]
  exact ⟨inner, l, around, hc, hl, hi⟩

theorem Fleet.History.Kept.node?_eq {h : Fleet.History} (hk : h.Kept) (name : String) :
    h.fleet.node? name = (h.known? name).map fun _ => ⟨name⟩ := by
  rw [← hk.worker?_eq, node?, worker?]
  split
  next hn =>
    rw [hn]
    rfl
  next => rfl

namespace Recovery

open Fleet (History)

variable {scope : StepScope} {x : StepResolver}

/-! ### What the resolvers have in common -/

theorem mem_all : x ∈ all ↔ x ∈ [dir, lease, slot, worker] ∨ x = node := by
  rw [show all = [dir, lease, slot, worker] ++ [node] from rfl, List.mem_append, List.mem_singleton]

theorem out_ne_record (hx : x ∈ all) : x.out ≠ .record := by
  have h : ∀ x ∈ all, x.out ≠ .record := by decide
  exact h x hx

/-- All but the node are handed out of what a rejoined step holds. -/
theorem held_of_mem (hx : x ∈ [dir, lease, slot, worker]) (f : Fleet) :
    ∃ next : Record → Holdings → Answer Capability x.out.Carrier, x.resolve f = held fun r y => .done (next r y) := by
  simp only [List.mem_cons, List.not_mem_nil, or_false] at hx
  rcases hx with rfl | rfl | rfl | rfl
  · exact ⟨_, rfl⟩
  · exact ⟨_, rfl⟩
  · exact ⟨_, rfl⟩
  · exact ⟨_, rfl⟩

/-- Every one of them asks for the record, and makes its answer of that alone. -/
theorem resolve_of_mem (hx : x ∈ all) (f : Fleet) : ∃ next : Record → Answer Capability x.out.Carrier,
    x.resolve f = .need Capability.record fun r => .done (next r) := by
  rcases mem_all.mp hx with hx | rfl
  · obtain ⟨next, hnext⟩ := held_of_mem hx f
    exact ⟨_, hnext.trans (held_done next)⟩
  · exact ⟨_, rfl⟩

section Get

variable {f : Fleet} {r : Record}

theorem get_of_mem (hx : x ∈ all) (ht : scope.table.find? x.out = some x) (hb : scope.bound? x.out = none) (f : Fleet) :
    ∃ next, scope.get f x.out = (scope.get f .record).bind (·.elim (.ok none) next) := by
  obtain ⟨next, hnext⟩ := resolve_of_mem hx f
  exact ⟨next, Scope.get_of_need hnext ht hb (out_ne_record hx)⟩

theorem get_of_holdings_eq_none (hx : x ∈ [dir, lease, slot, worker]) (ht : scope.table.find? x.out = some x)
    (hb : scope.bound? x.out = none) (hr : scope.get f .record = .ok (some r)) (hh : r.holdings = none) :
    scope.get f x.out = .ok none := by
  obtain ⟨next, hnext⟩ := held_of_mem hx f
  rw [get_of_held hnext ht hb (out_ne_record (mem_all.mpr (.inl hx))) hr, hh]
  rfl

theorem get_node (ht : scope.table.find? .node = some node) (hb : scope.bound? .node = none)
    (hr : scope.get f .record = .ok (some r)) : scope.get f .node = .ok (f.node? r.bookmark.node) := by
  refine (Scope.get_of_need (r := node) rfl ht hb (by decide)).trans ?_
  rw [hr]
  rfl

end Get

/-- **What a record backs.**  Let a scope have the five resolvers, and let nothing bind what they work out.  Then they
see the nearest record that is bound, whatever is bound further out, and all of them see the same.  Without a record
none of the five has anything.  With the record of a step that was not rejoined there is nothing but a node.  With the
record of a rejoined step, lease, slot and worker are those that the record holds, whatever has become of them and of
the fleet.  The node is that of the controller for the empty name; for any other one it is there exactly while the
name stands for a worker, as the history of the fleet has it. -/
theorem backed_by_nearest (ht : ∀ x ∈ all, scope.table.find? x.out = some x) (hb : ∀ x ∈ all, scope.bound? x.out = none)
    (c : Controller) :
    let seen := scope.get c.fleet .record
    ((∀ l ∈ scope.values :: scope.outer, l.find? .record = none) → scope.table.find? .record = none →
        seen = .ok none) ∧
      (∀ inner l around r, scope.values :: scope.outer = inner ++ l :: around →
        (∀ m ∈ inner, m.find? .record = none) → l.find? .record = some ⟨.record, r⟩ → seen = .ok (some r)) ∧
      (seen = .ok none → ∀ x ∈ all, scope.get c.fleet x.out = .ok none) ∧
      (∀ e, seen = .error e → ∀ x ∈ all, scope.get c.fleet x.out = .error e) ∧
      ∀ r, seen = .ok (some r) →
        (r.holdings = none → ∀ x ∈ [dir, lease, slot, worker], scope.get c.fleet x.out = .ok none) ∧
        (∀ x, r.holdings = some x → scope.get c.fleet .lease = .ok (some x.lease) ∧
          scope.get c.fleet .slot = .ok (some x.slot) ∧ scope.get c.fleet .worker = .ok (some x.slot.owner)) ∧
        (r.bookmark.node = "" → scope.get c.fleet .node = .ok (some .controller)) ∧
        (r.bookmark.node ≠ "" → scope.get c.fleet .node =
          .ok ((c.fleet.listed? r.bookmark.node).map fun _ => ⟨r.bookmark.node⟩)) ∧
        ∀ acts, c.fleet = (History.after acts).fleet → scope.get c.fleet .node =
          .ok (((History.after acts).known? r.bookmark.node).map fun _ => ⟨r.bookmark.node⟩) := by
  intro seen
  have hall : ∀ x ∈ [dir, lease, slot, worker], x ∈ all := fun x hx => mem_all.mpr (.inl hx)
  have hnode : node ∈ all := mem_all.mpr (.inr rfl)
  refine ⟨?_, ?_, ?_, ?_, ?_⟩
  · intro hl hn
    have hbound : scope.bound? .record = none := List.findSome?_eq_none_iff.mpr hl
    exact Scope.get_of_find? hbound hn c.fleet
  · intro inner l around r hc hi hl
    exact Scope.get_of_bound? (Scope.bound?_of_nearest hc hi hl) c.fleet
  · intro h x hx
    obtain ⟨next, hg⟩ := get_of_mem hx (ht x hx) (hb x hx) c.fleet
    rw [hg, show scope.get c.fleet .record = .ok none from h]
    rfl
  · intro e h x hx
    obtain ⟨next, hg⟩ := get_of_mem hx (ht x hx) (hb x hx) c.fleet
    rw [hg, show scope.get c.fleet .record = .error e from h]
    rfl
  · intro r hr
    have hget : scope.get c.fleet .node = .ok (c.fleet.node? r.bookmark.node) :=
      get_node (ht node hnode) (hb node hnode) hr
    refine ⟨?_, ?_, ?_, ?_, ?_⟩
    · intro hh x hx
      exact get_of_holdings_eq_none hx (ht x (hall x hx)) (hb x (hall x hx)) hr hh
    · intro x hh
      have hheld {y : StepResolver} {next : Record → Holdings → Answer Capability y.out.Carrier} (hy : y ∈ all)
          (hnext : y.resolve c.fleet = held fun r x => .done (next r x)) : scope.get c.fleet y.out = next r x := by
        rw [get_of_held hnext (ht y hy) (hb y hy) (out_ne_record hy) hr, hh]
        rfl
      exact ⟨hheld (y := lease) (hall lease (by simp)) rfl, hheld (y := slot) (hall slot (by simp)) rfl,
        hheld (y := worker) (hall worker (by simp)) rfl⟩
    · intro hn
      rw [hget, hn, Fleet.node?_empty]
    · intro hn
      rw [hget, Fleet.node?, if_neg hn]
    · intro acts hf
      rw [hget, hf, (Fleet.History.kept_after acts).node?_eq]

/-- A step is rejoined on a worker, in a scope inside that of one that was not.  Then the lease is given back, and the
worker is removed. -/
theorem backed_by_nearest_removed :
    let x : Holdings := ⟨⟨⟨1, "w"⟩, 0⟩, ⟨0, ⟨"w", "/ws", 2⟩⟩⟩
    let outer : StepScope := .root (register []).1 [⟨.record, .ofBookmark ⟨⟨"run", "0", none⟩, "", "/", 0⟩⟩] 0
    let scope := (outer.opened [⟨.record, .ofHoldings ⟨"run", "1", none⟩ x 1⟩]).opened [⟨.console, .silent⟩]
    let c : Controller :=
      { fleet := (History.after [.add "w" (.table 1), .remove "w" ⟨90, 0⟩]).fleet
        ledger := (Ledger.grant { tables := [[], []] } 1 x.lease.dir).2.release x.lease.id }
    (c.ledger.isReleased x.lease.id = true ∧ c.fleet.isOnline x.slot.owner = false) ∧
      (outer.get c.fleet .lease = .ok none ∧ outer.get c.fleet .node = .ok (some .controller)) ∧
      scope.get c.fleet .lease = .ok (some x.lease) ∧ scope.get c.fleet .slot = .ok (some x.slot) ∧
      scope.get c.fleet .worker = .ok (some x.slot.owner) ∧ scope.get c.fleet .node = .ok none := by
  intro x outer scope c
  have hregister : register [] = (outer.table, .ok ()) := rfl
  have hregistered : ∀ x ∈ all, outer.table.find? x.out = some x := fun x hx => Table.find?_of_addAll hregister hx
  have ht : ∀ x ∈ all, scope.table.find? x.out = some x := hregistered
  have houter : ∀ x ∈ all, outer.bound? x.out = none := by decide
  have hinner : ∀ x ∈ all, scope.bound? x.out = none := by decide
  obtain ⟨-, hnear, -, -, hbacked⟩ := backed_by_nearest hregistered houter c
  obtain ⟨hnone, -, hcontroller, -⟩ := hbacked _ (hnear [] _ [] _ rfl nofun rfl)
  obtain ⟨-, hnear', -, -, hbacked'⟩ := backed_by_nearest ht hinner c
  obtain ⟨-, hheld, -, -, hnode⟩ := hbacked' _ (hnear' [_] _ [_] _ rfl (by decide) rfl)
  obtain ⟨hlease, hslot, hworker⟩ := hheld x rfl
  refine ⟨⟨rfl, rfl⟩, ⟨hnone rfl lease (by simp), hcontroller rfl⟩, hlease, hslot, hworker, ?_⟩
  exact (hnode _ rfl).trans rfl

end Recovery

end Rejoin
