/-!
# Places in lists

Workers, items, calls and scopes go by their place in the list they were added to.

* `getElem?_concat` — what is at a place after one was added;
* `eq_of_getElem?_concat`, `eq_of_getElem?_set` — where what is at a place can have come from.
-/

namespace Rejoin

universe u

variable {α : Type u}

theorem getElem?_concat (xs : List α) (x : α) (n : Nat) :
    (xs ++ [x])[n]? = if n = xs.length then some x else xs[n]? := by
  split
  next h => rw [h, List.getElem?_concat_length]
  next h =>
    rcases Nat.lt_or_gt_of_ne h with hl | hg
    · rw [List.getElem?_append_left hl]
    · rw [List.getElem?_eq_none (by simp; omega), List.getElem?_eq_none (by omega)]

theorem eq_of_getElem?_concat {xs : List α} {x y : α} {n : Nat} (h : (xs ++ [y])[n]? = some x) :
    xs[n]? = some x ∨ (n = xs.length ∧ x = y) := by
  rw [getElem?_concat] at h
  split at h
  next hn => exact .inr ⟨hn, (Option.some.inj h).symm⟩
  next => exact .inl h

/-- What is in a list after one was set is another than before only at the place of that. -/
theorem eq_of_getElem?_set {xs : List α} {x y : α} {m n : Nat} (h : (xs.set m y)[n]? = some x) :
    xs[n]? = some x ∨ (n = m ∧ x = y) := by
  rw [List.getElem?_set] at h
  split at h
  next hm =>
    split at h
    · exact .inr ⟨hm.symm, (Option.some.inj h).symm⟩
    · cases h
  next => exact .inl h

end Rejoin
