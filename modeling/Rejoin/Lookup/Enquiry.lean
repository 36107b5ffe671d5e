/-!
# Enquiries

How the value of one kind is worked out from values of other kinds.  An `Enquiry` is a finite tree: it ends with an
answer, or asks for a kind and goes on as the answer to that tells it, be it a value, none, or an error.
`Enquiry.run` follows it with given answers.
-/

namespace Rejoin

/-- A value is out of reach because its node is offline. -/
structure Offline where
  message : String
  reasons : List String
deriving DecidableEq, Repr

/-- Why a lookup failed; `K` are the kinds of values. -/
inductive LookupError (K : Type) where
  | offline (o : Offline)
  | missing (k : K)
  | duplicate (k : K)
  | failed (k : K) (message : String)
deriving DecidableEq, Repr

/-- The text of an error, kinds shown by `label`. -/
def LookupError.message {K : Type} (label : K → String) : LookupError K → String
  | .offline o => o.message
  | .missing k => "required context " ++ label k ++ " is not available"
  | .duplicate k => "a resolver for " ++ label k ++ " is already registered"
  | .failed k m => "resolver for " ++ label k ++ " failed: " ++ m

/-- What comes of a lookup: a value, nothing, or an error. -/
abbrev Answer (K : Type) (α : Type) := Except (LookupError K) (Option α)

/-- A way to a value of kind `out`, where values of kind `k` have type `V k`. -/
inductive Enquiry {K : Type} (V : K → Type) (out : K) where
  | done (a : Answer K (V out))
  | ask (k : K) (next : Answer K (V k) → Enquiry V out)

namespace Enquiry

variable {K : Type} {V : K → Type} {out : K}

/-- Follows an enquiry with the given answers. -/
def run (answer : (k : K) → Answer K (V k)) : Enquiry V out → Answer K (V out)
  | .done a => a
  | .ask k next => (next (answer k)).run answer

def give (v : V out) : Enquiry V out := .done (.ok (some v))

def nothing : Enquiry V out := .done (.ok none)

def fail (e : LookupError K) : Enquiry V out := .done (.error e)

/-- Asks for a kind; an error ends the enquiry. -/
def seek (k : K) (next : Option (V k) → Enquiry V out) : Enquiry V out :=
  .ask k fun
    | .ok v => next v
    | .error e => .fail e

/-- Asks for a kind; an error or no value ends the enquiry. -/
def need (k : K) (next : V k → Enquiry V out) : Enquiry V out :=
  seek k fun
    | some v => next v
    | none => .nothing

section Run

variable (answer : (k : K) → Answer K (V k))

@[simp] theorem run_done (a : Answer K (V out)) : (done a).run answer = a := rfl

@[simp] theorem run_ask (k : K) (next : Answer K (V k) → Enquiry V out) :
    (ask k next).run answer = (next (answer k)).run answer := rfl

@[simp] theorem run_give (v : V out) : (give v).run answer = .ok (some v) := rfl

@[simp] theorem run_nothing : (nothing : Enquiry V out).run answer = .ok none := rfl

@[simp] theorem run_fail (e : LookupError K) : (fail e : Enquiry V out).run answer = .error e := rfl

/-- An error of what is sought is the error of the whole. -/
theorem run_seek_of_error {k : K} {e : LookupError K} (h : answer k = .error e)
    (next : Option (V k) → Enquiry V out) : (seek k next).run answer = .error e := by
  simp [seek, h]

theorem run_seek_of_ok {k : K} {v : Option (V k)} (h : answer k = .ok v) (next : Option (V k) → Enquiry V out) :
    (seek k next).run answer = (next v).run answer := by
  simp [seek, h]

/-- What is not there ends the enquiry without a value. -/
theorem run_need_of_none {k : K} (h : answer k = .ok none) (next : V k → Enquiry V out) :
    (need k next).run answer = .ok none := by
  simp [need, run_seek_of_ok answer h]

theorem run_need_of_some {k : K} {v : V k} (h : answer k = .ok (some v)) (next : V k → Enquiry V out) :
    (need k next).run answer = (next v).run answer := by
  simp [need, run_seek_of_ok answer h]

/-- An enquiry that asks for one kind alone makes its answer of what it is told of that. -/
theorem run_need_done {k : K} (next : V k → Answer K (V out)) :
    (need k fun v => .done (next v)).run answer = (answer k).bind (·.elim (.ok none) next) := by
  rw [need, seek, run_ask]
  rcases answer k with e | _ | v <;> rfl

end Run

end Enquiry

end Rejoin
