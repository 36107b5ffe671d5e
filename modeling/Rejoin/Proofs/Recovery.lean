import Rejoin.Proofs.Lookup.Stack
import Rejoin.Recovery

/-!
# Looking the directory of a step up

* `Table.find?_of_addAll` — a table has every resolver that was added to it;
* `Recovery.currentDir_eq_error` — when a rejoined step has no directory;
* `Recovery.get_of_held` — what a scope finds that is handed out of the record that it has;
* `Recovery.get_dir_of_get` — a scope that has the record of a rejoined step, and no directory of its own, finds the
  directory that `Recovery.currentDir` gives.
-/

namespace Rejoin

namespace Table

variable {K : Type} [DecidableEq K] {V : K → Type} {S : Type} {t t' : Table V S}

theorem find?_addAll {k : K} {r : Resolver V S} (h : t.find? k = some r) (rs : List (Resolver V S)) :
    (t.addAll rs).1.find? k = some r := by
  induction rs generalizing t with
  | nil => exact h
  | cons x rs ih =>
    unfold addAll
    split
    next t₁ ht =>
      refine ih ?_
      rw [find?_of_add ht]
      split
      next hx =>
        -- A resolver of a kind that has one would have been refused.
        have hc : t.contains x.out = true := by
          rw [contains, hx, h]
          rfl
        rw [add_of_contains hc] at ht
        cases ht
      next => exact h
    next => exact h

theorem find?_of_addAll {rs : List (Resolver V S)} (h : t.addAll rs = (t', .ok ())) {r : Resolver V S} (hr : r ∈ rs) :
    t'.find? r.out = some r := by
  induction rs generalizing t with
  | nil => cases hr
  | cons x rs ih =>
    unfold addAll at h
    split at h
    next t₁ ht =>
      rcases List.mem_cons.mp hr with rfl | hr
      · have hf : t₁.find? r.out = some r := by rw [find?_of_add ht, if_pos rfl]
        have := find?_addAll hf rs
        rwa [h] at this
      · exact ih h hr
    next => cases h

end Table

namespace Recovery

variable {scope : StepScope} {t : StepTable} {f : Fleet} {r : Record} {x : Holdings}

/-! ### The directory of a rejoined step -/

theorem exists_of_currentDir {d : Option Dir} (h : currentDir f r x = .ok d) :
    ∃ d', d = some d' ∧ f.isLive d' = true := by
  cases d with
  | some d => exact ⟨d, rfl, isLive_of_currentDir h⟩
  | none =>
    unfold currentDir at h
    split at h
    next => cases h
    next => split at h <;> cases h

theorem currentDir_of_isLive (hl : f.isLive x.lease.dir = true) : currentDir f r x = .ok (some x.lease.dir) := by
  rw [currentDir, if_pos hl]

theorem currentDir_of_dirOf? (hl : f.isLive x.lease.dir = false) {d : Dir}
    (hd : f.dirOf? r.bookmark.node x.lease.dir.path = some d) : currentDir f r x = .ok (some d) := by
  simp [currentDir, hl, hd]

/-- There is an error exactly if the leased one is not live and the node has none now. -/
theorem currentDir_eq_error {e : LookupError Capability} : currentDir f r x = .error e ↔
    e = .offline (offline f r.bookmark.node) ∧ f.isLive x.lease.dir = false ∧
      f.dirOf? r.bookmark.node x.lease.dir.path = none := by
  cases hl : f.isLive x.lease.dir with
  | true => simp [currentDir_of_isLive hl]
  | false =>
    cases hd : f.dirOf? r.bookmark.node x.lease.dir.path with
    | some d => simp [currentDir_of_dirOf? hl hd]
    | none => simp [currentDir, hl, hd, eq_comm]

/-! ### Looking it up -/

theorem get_of_held {y : StepResolver} {f : Fleet} {next : Record → Holdings → Answer Capability y.out.Carrier}
    (hy : y.resolve f = held fun r x => .done (next r x)) (ht : scope.table.find? y.out = some y)
    (hb : scope.bound? y.out = none) (hne : y.out ≠ .record) (hr : scope.get f .record = .ok (some r)) :
    scope.get f y.out = r.holdings.elim (.ok none) (next r) := by
  rw [Scope.get_of_need (hy.trans (held_done next)) ht hb hne, hr]
  rfl

/-- With the record of a rejoined step, and no directory of its own, a scope finds the one that the step works in. -/
theorem get_dir_of_get (ht : scope.table.find? .dir = some dir) (hd : scope.bound? .dir = none) {f : Fleet}
    (hr : scope.get f .record = .ok (some r)) (hx : r.holdings = some x) : scope.get f .dir = currentDir f r x := by
  refine (get_of_held (y := dir) rfl ht hd (by decide) hr).trans ?_
  rw [hx]
  rfl

/-- Whoever binds the record, and has all resolvers behind it. -/
theorem get_dir (ht : register t = (scope.table, .ok ())) (hr : scope.bound? .record = some ⟨.record, r⟩)
    (hd : scope.bound? .dir = none) (hx : r.holdings = some x) (f : Fleet) :
    scope.get f .dir = currentDir f r x := by
  have hf : scope.table.find? .dir = some dir := Table.find?_of_addAll ht (r := dir) (by simp [all])
  exact get_dir_of_get hf hd (Scope.get_of_bound? hr f) hx

end Recovery

end Rejoin
