import Rejoin.Lookup.Table

/-!
# Scopes and lookups

A scope is a stack of layers of bound values, innermost first, over a table of resolvers.

* `Scope.lookup` takes the innermost bound value of a kind (`Scope.lookup_of_bound?`), or else runs the kind's
  resolver, which looks further kinds up from the same scope.  A resolver that is already running in a lookup counts
  as having nothing to offer.
* `Scope.get` takes the kind off the value that was found; values travel with their kind (`Bound`).
* `Scope.require` insists on a value, `Scope.requireAll` on the values of several kinds.
-/

namespace Rejoin

/-- A value together with its kind. -/
abbrev Bound {K : Type} (V : K → Type) := (k : K) × V k

/-- Values of one scope, at most one for each kind. -/
abbrev Layer {K : Type} (V : K → Type) := List (Bound V)

/-- The value, if it is of kind `k`. -/
def Bound.as? {K : Type} [DecidableEq K] {V : K → Type} (k : K) (b : Bound V) : Option (V k) :=
  if h : b.1 = k then some (h ▸ b.2) else none

@[simp] theorem Bound.as?_mk {K : Type} [DecidableEq K] {V : K → Type} (k : K) (v : V k) :
    Bound.as? k (⟨k, v⟩ : Bound V) = some v := by
  simp [Bound.as?]

namespace Layer

variable {K : Type} [DecidableEq K] {V : K → Type}

/-- Binds a value in place of one of its kind. -/
def insert (l : Layer V) (b : Bound V) : Layer V := b :: List.filter (fun c => c.1 ≠ b.1) l

/-- The layer of values bound one after the other. -/
def ofList (bs : List (Bound V)) : Layer V := bs.foldl insert []

/-- The value that a layer binds for a kind. -/
def find? (l : Layer V) (k : K) : Option (Bound V) := List.find? (fun b => b.1 = k) l

def contains (l : Layer V) (k : K) : Bool := (l.find? k).isSome

/-- What a layer finds after a value was bound. -/
theorem find?_insert (l : Layer V) (b : Bound V) (k : K) :
    (l.insert b).find? k = if b.1 = k then some b else l.find? k := by
  by_cases h : b.1 = k
  · simp [insert, find?, h]
  · have hf : ∀ c : Bound V, (decide (c.1 ≠ b.1) && decide (c.1 = k)) = decide (c.1 = k) := by
      intro c
      by_cases hc : c.1 = k
      · simp [hc, show k ≠ b.1 from fun e => h e.symm]
      · simp [hc]
    simp only [insert, find?, List.find?_cons, h, decide_false, List.find?_filter, if_false]
    congr 1
    funext c
    simpa using hf c

def text (l : Layer V) : String := "ContextValues \x7b len: " ++ toString l.length ++ " \x7d"

end Layer

/-- Layers, innermost first, over resolvers; and the sink that takes the outcome of an outermost scope. -/
structure Scope {K : Type} (V : K → Type) (S : Type) where
  values : Layer V
  outer : List (Layer V)
  table : Table V S
  sink : Option Nat

namespace Scope

variable {K : Type} [DecidableEq K] {V : K → Type} {S : Type}

def root (table : Table V S) (values : Layer V) (sink : Nat) : Scope V S := ⟨values, [], table, some sink⟩

/-- A scope inside another one; it has no sink. -/
def opened (c : Scope V S) (values : Layer V) : Scope V S := ⟨values, c.values :: c.outer, c.table, none⟩

def depth (c : Scope V S) : Nat := c.outer.length

/-- The innermost value bound for a kind. -/
def bound? (c : Scope V S) (k : K) : Option (Bound V) := (c.values :: c.outer).findSome? (·.find? k)

omit [DecidableEq K] in
@[simp] theorem depth_root (table : Table V S) (values : Layer V) (sink : Nat) :
    (root table values sink).depth = 0 := rfl

omit [DecidableEq K] in
@[simp] theorem depth_opened (c : Scope V S) (values : Layer V) : (c.opened values).depth = c.depth + 1 := rfl

/-- A scope inside another one hides what that binds of the same kinds. -/
theorem bound?_opened (c : Scope V S) (values : Layer V) (k : K) :
    (c.opened values).bound? k = (values.find? k).or (c.bound? k) := by
  simp only [bound?, opened, List.findSome?_cons]
  cases values.find? k <;> rfl

/-- A lookup while the resolvers of the kinds `running` run.  The budget counts the resolvers that may
still be entered; none is left to enter when it is used up, so the lookup has nothing to offer then. -/
def lookupWithin (c : Scope V S) (s : S) : Nat → List K → K → Answer K (Bound V)
  | budget, running, k =>
    match c.bound? k with
    | some b => .ok (some b)
    | none =>
      match c.table.find? k with
      | none => .ok none
      | some r =>
        if k ∈ running then .ok none
        else match budget with
          | 0 => .ok none
          | budget + 1 =>
            let answer (k' : K) : Answer K (V k') :=
              (lookupWithin c s budget (k :: running) k').map (·.bind (Bound.as? k'))
            ((r.resolve s).run answer).map (·.map fun v => ⟨r.out, v⟩)

/-- A bound value is found, whatever runs. -/
theorem lookupWithin_of_bound? {c : Scope V S} {k : K} {b : Bound V} (h : c.bound? k = some b) (s : S) (budget : Nat)
    (running : List K) : c.lookupWithin s budget running k = .ok (some b) := by
  cases budget <;> simp [lookupWithin, h]

/-- A kind without a bound value and without a resolver has nothing to offer. -/
theorem lookupWithin_of_find? {c : Scope V S} {k : K} (h : c.bound? k = none) (ht : c.table.find? k = none) (s : S)
    (budget : Nat) (running : List K) : c.lookupWithin s budget running k = .ok none := by
  cases budget <;> simp [lookupWithin, h, ht]

/-- Nor has a kind whose resolver is running. -/
theorem lookupWithin_of_mem {c : Scope V S} {k : K} {running : List K} (h : c.bound? k = none) (hr : k ∈ running)
    (s : S) (budget : Nat) : c.lookupWithin s budget running k = .ok none := by
  cases ht : c.table.find? k with
  | none => exact lookupWithin_of_find? h ht s budget running
  | some r => cases budget <;> simp [lookupWithin, h, ht, hr]

/-- A kind without a bound value is what its resolver makes of it, as long as that is not running. -/
theorem lookupWithin_of_resolver {c : Scope V S} {k : K} {r : Resolver V S} {running : List K} (hb : c.bound? k = none)
    (hf : c.table.find? k = some r) (hr : k ∉ running) (s : S) (budget : Nat) :
    c.lookupWithin s (budget + 1) running k =
      ((r.resolve s).run fun k' => (c.lookupWithin s budget (k :: running) k').map (·.bind (Bound.as? k'))).map
        (·.map fun v => ⟨r.out, v⟩) := by
  rw [lookupWithin, hb]
  simp only [hf, hr, if_false]

/-- A lookup while the resolvers of the kinds `running` run. -/
def lookupWhile (c : Scope V S) (s : S) (running : List K) (k : K) : Answer K (Bound V) :=
  c.lookupWithin s c.table.length running k

def lookup (c : Scope V S) (s : S) (k : K) : Answer K (Bound V) := c.lookupWhile s [] k

theorem lookup_of_bound? {c : Scope V S} {k : K} {b : Bound V} (h : c.bound? k = some b) (s : S) :
    c.lookup s k = .ok (some b) := lookupWithin_of_bound? h s _ _

def get (c : Scope V S) (s : S) (k : K) : Answer K (V k) := (c.lookup s k).map (·.bind (Bound.as? k))

/-- A bound value is had as it is. -/
theorem get_of_bound? {c : Scope V S} {k : K} {v : V k} (h : c.bound? k = some ⟨k, v⟩) (s : S) :
    c.get s k = .ok (some v) := by
  rw [get, lookup_of_bound? h]
  simp [Except.map]

/-- A kind without a bound value and without a resolver is not there. -/
theorem get_of_find? {c : Scope V S} {k : K} (h : c.bound? k = none) (ht : c.table.find? k = none) (s : S) :
    c.get s k = .ok none := by
  rw [get, lookup, lookupWhile, lookupWithin_of_find? h ht]
  rfl

/-- The value of a kind, which has to be there. -/
def require (c : Scope V S) (s : S) (k : K) : Except (LookupError K) (V k) :=
  match c.get s k with
  | .ok (some v) => .ok v
  | .ok none => .error (.missing k)
  | .error e => .error e

theorem require_eq_ok {c : Scope V S} {s : S} {k : K} {v : V k} :
    c.require s k = .ok v ↔ c.get s k = .ok (some v) := by
  rw [require]
  rcases c.get s k with e | _ | w <;> simp

def contains (c : Scope V S) (s : S) (k : K) : Except (LookupError K) Bool := (c.lookup s k).map (·.isSome)

/-- Every one of the kinds has a value; the first that has not is reported. -/
def requireAll (c : Scope V S) (s : S) : List K → Except (LookupError K) Unit
  | [] => .ok ()
  | k :: ks =>
    match c.contains s k with
    | .ok true => requireAll c s ks
    | .ok false => .error (.missing k)
    | .error e => .error e

def text (label : K → String) (c : Scope V S) : String :=
  "StepContext \x7b depth: " ++ toString c.depth ++ ", values: " ++ c.values.text
    ++ ", resolvers: " ++ c.table.text label ++ " \x7d"

end Scope

end Rejoin
