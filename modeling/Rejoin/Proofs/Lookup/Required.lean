import Rejoin.Proofs.Lookup.Stack

/-!
# What is required

Whether a kind has a value can be asked without looking at the value.

* `Scope.kind_of_lookupWithin` — what a lookup finds is of the kind that was looked up, be it bound or worked out;
* `Scope.contains_eq` — so a kind has a value exactly if that can be had;
* `Scope.requireAll_cons` — to check several kinds is to require one after the other;
* `Scope.requireAll_like_require` — the check passes if every one of them is there, and else fails as the first does
  that is not.
-/

namespace Rejoin

variable {K : Type} [DecidableEq K] {V : K → Type} {S : Type}

omit [DecidableEq K] in
theorem Bound.exists_eq_mk {b : Bound V} {k : K} (h : b.1 = k) : ∃ v, b = ⟨k, v⟩ := by
  subst h
  exact ⟨b.2, rfl⟩

theorem Layer.kind_of_find? {l : Layer V} {k : K} {b : Bound V} (h : l.find? k = some b) : b.1 = k := by
  simpa using List.find?_some h

namespace Scope

variable {c : Scope V S} {s : S} {k : K} {b : Bound V}

/-! ### Kinds of values -/

theorem kind_of_bound? (h : c.bound? k = some b) : b.1 = k := by
  obtain ⟨l, -, hl⟩ := List.exists_of_findSome?_eq_some h
  exact Layer.kind_of_find? hl

/-- What a lookup finds is of the kind that was looked up, whatever runs. -/
theorem kind_of_lookupWithin {budget : Nat} {running : List K} (h : c.lookupWithin s budget running k = .ok (some b)) :
    b.1 = k := by
  cases hb : c.bound? k with
  | some x =>
    rw [lookupWithin_of_bound? hb] at h
    cases h
    exact kind_of_bound? hb
  | none =>
    cases hf : c.table.find? k with
    | none =>
      rw [lookupWithin_of_find? hb hf] at h
      cases h
    | some r =>
      by_cases hr : k ∈ running
      · rw [lookupWithin_of_mem hb hr] at h
        cases h
      · cases budget with
        | zero => simp [lookupWithin, hb, hf, hr] at h
        | succ budget =>
          -- The resolver's own kind goes with what it works out, and it was found under that kind.
          rw [lookupWithin_of_resolver hb hf hr] at h
          generalize (r.resolve s).run _ = a at h
          rcases a with e | _ | v <;> cases h
          exact (Table.mem_kinds hf).2

/-! ### Asking for values and asking whether there are any -/

theorem contains_eq (c : Scope V S) (s : S) (k : K) : c.contains s k = (c.get s k).map (·.isSome) := by
  rw [contains, get]
  cases h : c.lookup s k with
  | error e => rfl
  | ok found =>
    cases found with
    | none => rfl
    | some b =>
      obtain ⟨v, rfl⟩ := Bound.exists_eq_mk (kind_of_lookupWithin h)
      simp [Except.map]

theorem requireAll_cons (c : Scope V S) (s : S) (k : K) (ks : List K) :
    c.requireAll s (k :: ks) = c.require s k >>= fun _ => c.requireAll s ks := by
  rw [requireAll, contains_eq, require]
  rcases c.get s k with e | _ | v <;> rfl

variable {ks : List K}

theorem requireAll_eq_ok : c.requireAll s ks = .ok () ↔ ∀ k ∈ ks, ∃ v, c.require s k = .ok v := by
  induction ks with
  | nil => exact iff_of_true rfl nofun
  | cons k ks ih =>
    rw [requireAll_cons, List.forall_mem_cons, ← ih]
    cases c.require s k with
    | error e => exact iff_of_false nofun nofun
    | ok v => exact ⟨fun h => ⟨⟨v, rfl⟩, h⟩, And.right⟩

theorem requireAll_eq_error {e : LookupError K} : c.requireAll s ks = .error e ↔ ∃ before k later,
    ks = before ++ k :: later ∧ (∀ j ∈ before, ∃ v, c.require s j = .ok v) ∧ c.require s k = .error e := by
  induction ks with
  | nil =>
    refine iff_of_false nofun ?_
    rintro ⟨before, k, later, h, -⟩
    exact List.cons_ne_nil _ _ (List.append_eq_nil_iff.mp h.symm).2
  | cons k ks ih =>
    rw [requireAll_cons]
    cases hk : c.require s k with
    | error x =>
      -- Nothing can come before the kind that fails, since this one fails already.
      show Except.error x = .error e ↔ _
      constructor
      · rintro ⟨⟩
        exact ⟨[], k, ks, rfl, nofun, hk⟩
      · rintro ⟨_ | ⟨j, before⟩, i, later, h, hbefore, hi⟩
        · obtain ⟨rfl, -⟩ := List.cons.inj h
          rw [Except.error.inj (hk.symm.trans hi)]
        · obtain ⟨rfl, -⟩ := List.cons.inj h
          obtain ⟨v, hv⟩ := hbefore k List.mem_cons_self
          cases hk.symm.trans hv
    | ok v =>
      refine ih.trans ⟨?_, ?_⟩
      · rintro ⟨before, i, later, rfl, hbefore, hi⟩
        exact ⟨k :: before, i, later, rfl, List.forall_mem_cons.mpr ⟨⟨v, hk⟩, hbefore⟩, hi⟩
      · rintro ⟨_ | ⟨j, before⟩, i, later, h, hbefore, hi⟩
        · obtain ⟨rfl, -⟩ := List.cons.inj h
          cases hk.symm.trans hi
        · exact ⟨before, i, later, (List.cons.inj h).2, (List.forall_mem_cons.mp hbefore).2, hi⟩

/-- **What is required.**  The check of several kinds passes exactly if each of them can be required, and it fails
exactly as the first of them does that cannot.  A kind is said to have a value exactly if that can be had, with the same
error otherwise, since whatever is found for a kind is a value of that kind: at the scope itself, and for every resolver
that looks further kinds up, whatever runs already. -/
theorem requireAll_like_require (c : Scope V S) (s : S) (ks : List K) :
    (c.requireAll s ks = .ok () ↔ ∀ k ∈ ks, ∃ v, c.require s k = .ok v) ∧
      (∀ e, c.requireAll s ks = .error e ↔ ∃ before k later, ks = before ++ k :: later ∧
        (∀ j ∈ before, ∃ v, c.require s j = .ok v) ∧ c.require s k = .error e) ∧
      (∀ k, c.contains s k = (c.get s k).map (·.isSome)) ∧
      ∀ running k b, c.lookupWhile s running k = .ok (some b) → ∃ v, b = ⟨k, v⟩ := by
  refine ⟨requireAll_eq_ok, fun _ => requireAll_eq_error, contains_eq c s, ?_⟩
  intro running k b h
  exact Bound.exists_eq_mk (kind_of_lookupWithin h)

end Scope

end Rejoin
