import Mathlib.Data.List.Nodup
import Mathlib.Data.List.Perm.Subperm
import Std.Data.String.ToNat
import Rejoin.Lease

/-!
# What a hold table grants

* `Holds.variant_injective` — the variants of a path are all different;
* `Holds.firstFree_spec` — the search passes held variants only, and stops at the first that is free if it comes to
  one;
* `Holds.granted_not_mem` — what is granted was free.
-/

namespace Rejoin.Holds

variable {held : List String} {path : String}

theorem variant_injective (path : String) : Function.Injective (variant path) := by
  -- The first variant is told apart by its length, all others by the number that they end with.
  have hlen (k : Nat) : path.length < (variant path (k + 1)).length := by
    simp only [variant_succ, String.length_append]
    have : "@".length = 1 := rfl
    omega
  intro k m h
  match k, m with
  | 0, 0 => rfl
  | 0, m + 1 =>
    have := hlen m
    rw [← h, variant_zero] at this
    omega
  | k + 1, 0 =>
    have := hlen k
    rw [h, variant_zero] at this
    omega
  | k + 1, m + 1 =>
    have hr : toString (k + 2) = toString (m + 2) := String.append_right_inj _ |>.mp h
    have := Nat.repr_injective hr
    omega

/-- The search passes held variants only; it gives up on the last one, or stops at one that is free. -/
theorem firstFree_spec (held : List String) (path : String) (fuel k : Nat) :
    (∀ m, k ≤ m → m < firstFree held path fuel k → variant path m ∈ held) ∧
      (variant path (firstFree held path fuel k) ∉ held ∨ firstFree held path fuel k = k + fuel) := by
  induction fuel generalizing k with
  | zero =>
    refine ⟨?_, Or.inr rfl⟩
    intro m hk hm
    simp only [firstFree] at hm
    omega
  | succ fuel ih =>
    unfold firstFree
    split
    next hv =>
      obtain ⟨hp, hs⟩ := ih (k + 1)
      constructor
      · intro m hk hm
        rcases Nat.eq_or_lt_of_le hk with rfl | hk
        · exact hv
        · exact hp m hk hm
      · rcases hs with hs | hs
        · exact Or.inl hs
        · exact Or.inr (by omega)
    next hv =>
      refine ⟨?_, Or.inl hv⟩
      intro m hk hm
      omega

/-- One variant more than there are held paths cannot all be held. -/
theorem exists_variant_not_mem (held : List String) (path : String) :
    ∃ m, m ≤ held.length ∧ variant path m ∉ held := by
  by_contra hn
  have hs : (List.range (held.length + 1)).map (variant path) ⊆ held := by
    intro p hp
    obtain ⟨m, hm, rfl⟩ := List.mem_map.mp hp
    by_contra hv
    exact hn ⟨m, by simpa [Nat.lt_succ_iff] using hm, hv⟩
  have hd : ((List.range (held.length + 1)).map (variant path)).Nodup :=
    List.nodup_range.map (variant_injective path)
  have := (List.subperm_of_subset hd hs).length_le
  simp only [List.length_map, List.length_range] at this
  omega

theorem granted_not_mem (held : List String) (path : String) : granted held path ∉ held := by
  obtain ⟨hp, hs⟩ := firstFree_spec held path held.length 0
  rcases hs with h | h
  · exact h
  · obtain ⟨m, hm, hv⟩ := exists_variant_not_mem held path
    rcases Nat.eq_or_lt_of_le hm with rfl | hm
    · rwa [granted, h, Nat.zero_add]
    · exact absurd (hp m (Nat.zero_le m) (by omega)) hv

theorem granted_eq_self_iff : granted held path = path ↔ path ∉ held := by
  refine ⟨?_, granted_of_not_mem⟩
  intro h
  have hfree := granted_not_mem held path
  rwa [h] at hfree

end Rejoin.Holds
