import Rejoin.Proofs.Recovery

/-!
# Registration

Resolvers are added to a table one after the other, up to the first of them whose kind has a resolver already.

* `Table.addAll_of_free` — resolvers of different kinds that are free are all added;
* `Table.addAll_of_refused` — the first whose kind is not free is refused, behind those that were added;
* `Recovery.register_up_to_first` — so it is with the resolvers behind a record;
* `Recovery.half_registered` — some of them can be left in a table that refuses another.
-/

namespace Rejoin

namespace Table

variable {K : Type} [DecidableEq K] {V : K → Type} {S : Type} {t : Table V S} {x : Resolver V S}

theorem find?_append (t rs : Table V S) (k : K) : find? (t ++ rs) k = (t.find? k).or (find? rs k) :=
  List.find?_append

theorem find?_eq_none {k : K} : t.find? k = none ↔ ∀ x ∈ t, x.out ≠ k := by
  simp [find?]

theorem contains_eq_false {k : K} : t.contains k = false ↔ t.find? k = none := by
  rw [contains, Option.isSome_eq_false_iff, Option.isNone_iff_eq_none]

theorem addAll_cons_of_contains (h : t.contains x.out = true) (rs : List (Resolver V S)) :
    t.addAll (x :: rs) = (t, .error (.duplicate x.out)) := by
  rw [addAll, add_of_contains h]

theorem addAll_cons_of_free (h : t.contains x.out = false) (rs : List (Resolver V S)) :
    t.addAll (x :: rs) = addAll (t ++ [x]) rs := by
  simp [addAll, add, h]

/-- Resolvers of different kinds that are free are added, and it goes on behind them. -/
theorem addAll_append_of_free {before : List (Resolver V S)} (hd : before.Pairwise fun x y => x.out ≠ y.out)
    (hf : ∀ x ∈ before, t.contains x.out = false) (later : List (Resolver V S)) :
    t.addAll (before ++ later) = addAll (t ++ before) later := by
  induction before generalizing t with
  | nil => rw [List.nil_append, List.append_nil]
  | cons x before ih =>
    obtain ⟨hx, hd⟩ := List.pairwise_cons.mp hd
    obtain ⟨hfree, hf⟩ := List.forall_mem_cons.mp hf
    -- The one that is added now is of another kind than those that follow.
    have hrest : ∀ y ∈ before, contains (t ++ [x]) y.out = false := by
      intro y hy
      rw [contains_eq_false, find?_append, contains_eq_false.mp (hf y hy), Option.none_or, find?_eq_none]
      intro z hz
      rw [List.mem_singleton.mp hz]
      exact hx y hy
    rw [List.cons_append, addAll_cons_of_free hfree, ih hd hrest, List.append_assoc, List.singleton_append]

theorem addAll_of_free {rs : List (Resolver V S)} (hd : rs.Pairwise fun x y => x.out ≠ y.out)
    (hf : ∀ x ∈ rs, t.contains x.out = false) : t.addAll rs = (t ++ rs, .ok ()) := by
  rw [← List.append_nil rs, addAll_append_of_free hd hf, List.append_nil]
  rfl

/-- Up to the first whose kind is not free. -/
theorem addAll_of_refused {before : List (Resolver V S)} (hd : before.Pairwise fun x y => x.out ≠ y.out)
    (hf : ∀ x ∈ before, t.contains x.out = false) (hx : t.contains x.out = true) (later : List (Resolver V S)) :
    t.addAll (before ++ x :: later) = (t ++ before, .error (.duplicate x.out)) := by
  have hx' : contains (t ++ before) x.out = true := by
    rw [contains] at hx
    rw [contains, find?_append, Option.isSome_or, hx, Bool.true_or]
  rw [addAll_append_of_free hd hf, addAll_cons_of_contains hx']

end Table

namespace Recovery

theorem pairwise_all : all.Pairwise fun x y => x.out ≠ y.out := by decide

theorem register_eq_self_iff {t : StepTable} : (register t).1 = t ↔ t.contains .dir = true := by
  constructor
  · intro h
    by_contra hc
    rw [Bool.not_eq_true] at hc
    have hdir : Table.find? (t ++ [dir]) .dir = some dir := by
      rw [Table.find?_append, Table.contains_eq_false.mp hc, Option.none_or]
      rfl
    have hfound : (register t).1.find? .dir = some dir := by
      rw [register, show all = dir :: [lease, slot, worker, node] from rfl, Table.addAll_cons_of_free hc]
      exact Table.find?_addAll hdir _
    rw [h, Table.contains_eq_false.mp hc] at hfound
    cases hfound
  · intro h
    rw [register, show all = dir :: [lease, slot, worker, node] from rfl, Table.addAll_cons_of_contains h]

/-- **The table with the resolvers behind a record.**  Directory, lease, slot, worker and node are taken in this order.
If each of these kinds is free, all five resolvers are in the table.  Otherwise the first whose kind is not free is
refused; the resolvers before it are in the table, and there is no other new one.  Either way every resolver that the
table had goes on to be the one of its kind, and the table is left as it was exactly if it had one of directories. -/
theorem register_up_to_first (t : StepTable) :
    let t' := (register t).1
    let result := (register t).2
    ((result = .ok () ∧ (∀ x ∈ all, t.contains x.out = false) ∧ t' = t ++ all ∧ ∀ x ∈ all, t'.find? x.out = some x) ∨
      ∃ before x later, all = before ++ x :: later ∧ (∀ y ∈ before, t.contains y.out = false) ∧
        t.contains x.out = true ∧ result = .error (.duplicate x.out) ∧ t' = t ++ before ∧
        (∀ y ∈ before, t'.find? y.out = some y) ∧ ∀ k, (∀ y ∈ before, y.out ≠ k) → t'.find? k = t.find? k) ∧
      (∀ k y, t.find? k = some y → t'.find? k = some y) ∧ (t' = t ↔ t.contains .dir = true) := by
  intro t' result
  refine ⟨?_, fun k y h => Table.find?_addAll h all, register_eq_self_iff⟩
  cases hfirst : all.find? fun x => t.contains x.out with
  | none =>
    have hf : ∀ x ∈ all, t.contains x.out = false := by simpa using hfirst
    have h : register t = (t ++ all, .ok ()) := Table.addAll_of_free pairwise_all hf
    refine .inl ⟨congrArg Prod.snd h, hf, congrArg Prod.fst h, ?_⟩
    intro x hx
    exact Table.find?_of_addAll (h.trans (Prod.ext (congrArg Prod.fst h).symm rfl)) hx
  | some x =>
    obtain ⟨hx, before, later, hall, hbefore⟩ := List.find?_eq_some_iff_append.mp hfirst
    have hf : ∀ y ∈ before, t.contains y.out = false := by simpa using hbefore
    have hd : before.Pairwise fun x y => x.out ≠ y.out := by
      have hpair := pairwise_all
      rw [hall, List.pairwise_append] at hpair
      exact hpair.1
    have h : register t = (t ++ before, .error (.duplicate x.out)) := by
      rw [register, hall, Table.addAll_of_refused hd hf hx]
    have ht : t' = t ++ before := congrArg Prod.fst h
    refine .inr ⟨before, x, later, hall, hf, hx, congrArg Prod.snd h, ht, ?_, ?_⟩
    · intro y hy
      rw [ht]
      exact Table.find?_of_addAll (Table.addAll_of_free hd hf) hy
    · intro k hk
      rw [ht, Table.find?_append, Table.find?_eq_none.mpr hk, Option.or_none]

/-- A table with a resolver of leases alone refuses another one, and keeps the resolver of directories that was added
before it. -/
theorem half_registered :
    let t : StepTable := [lease]
    ((register t).2 = .error (.duplicate .lease) ∧ t.find? .dir = none ∧ (register t).1.find? .dir = some dir) ∧
      ¬ ∀ t : StepTable, (register t).2 = .ok () ∨ (register t).1 = t := by
  intro t
  refine ⟨⟨rfl, rfl, rfl⟩, ?_⟩
  intro hall
  rcases hall t with h | h
  · cases h
  · have hdir : (register t).1.find? .dir = t.find? .dir := by rw [h]
    cases hdir

end Recovery

end Rejoin
