import Rejoin.Lookup.Enquiry
import Rejoin.Text.Quoted

/-!
# Tables of resolvers

A resolver works a value out by an enquiry that may depend on a state `S`.  A table has one resolver at most for
each kind: `Table.add` refuses a second one, and leaves those of other kinds alone (`Table.find?_of_add`).
-/

namespace Rejoin

/-- A resolver: the kind it produces, and the enquiry that produces it. -/
structure Resolver {K : Type} (V : K → Type) (S : Type) where
  out : K
  resolve : S → Enquiry V out

/-- Resolvers in the order they were added. -/
abbrev Table {K : Type} (V : K → Type) (S : Type) := List (Resolver V S)

namespace Table

variable {K : Type} [DecidableEq K] {V : K → Type} {S : Type}

def find? (t : Table V S) (k : K) : Option (Resolver V S) := List.find? (fun r => r.out = k) t

def contains (t : Table V S) (k : K) : Bool := (t.find? k).isSome

/-- Adds a resolver, unless its kind has one. -/
def add (t : Table V S) (r : Resolver V S) : Except (LookupError K) (Table V S) :=
  if t.contains r.out then .error (.duplicate r.out) else .ok (t ++ [r])

/-- What a table finds after a resolver was added. -/
theorem find?_of_add {t t' : Table V S} {r : Resolver V S} (h : t.add r = .ok t') (k : K) :
    t'.find? k = if r.out = k then some r else t.find? k := by
  unfold add at h
  split at h
  next => cases h
  next hc =>
    cases h
    have hn : t.find? r.out = none := by simpa [contains] using hc
    by_cases hk : r.out = k
    · subst hk
      simp only [find?, List.find?_append, if_true] at hn ⊢
      simp [hn]
    · simp [find?, List.find?_append, hk]

theorem add_of_contains {t : Table V S} {r : Resolver V S} (h : t.contains r.out = true) :
    t.add r = .error (.duplicate r.out) := by
  simp [add, h]

/-- Adds resolvers in order up to the first that is refused; those before it stay. -/
def addAll (t : Table V S) : List (Resolver V S) → Table V S × Except (LookupError K) Unit
  | [] => (t, .ok ())
  | r :: rs =>
    match t.add r with
    | .ok t => addAll t rs
    | .error e => (t, .error e)

def labels (label : K → String) (t : Table V S) : List String :=
  (List.map (fun r => label r.out) t).mergeSort (fun a b => decide (a ≤ b))

def text (label : K → String) (t : Table V S) : String :=
  "ResolverRegistry \x7b types: " ++ Text.quotedList (t.labels label) ++ " \x7d"

end Table

end Rejoin
