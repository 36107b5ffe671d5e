import Rejoin.Proofs.Lookup.Stack

/-!
# Scopes inside others

A scope is opened inside another one, maybe through further ones, and binds some values.

* `Scope.inside` — the scope inside another one through some layers, and `Layer.among?`, what the layers bind;
* `Scope.consulted` — the kinds that are looked up in the course of a lookup;
* `Scope.lookupWithin_inside` — a lookup that comes to none of the bound kinds is the same inside as outside;
* `Scope.chain` — a scope and all those around it;
* `Scope.inside_lookup` — what inner scopes find, what resolvers find that run for them, and what outer scopes find.
-/

namespace Rejoin

variable {K : Type} {V : K → Type} {S : Type} {out : K}

/-! ### What is asked for -/

namespace Enquiry

/-- The kinds that an enquiry asks for when it is followed with the given answers. -/
def asked (answer : (k : K) → Answer K (V k)) : Enquiry V out → List K
  | .done _ => []
  | .ask k next => k :: (next (answer k)).asked answer

/-- Only the answers to what is asked for count. -/
theorem run_congr {answer answer' : (k : K) → Answer K (V k)} {q : Enquiry V out}
    (h : ∀ k ∈ q.asked answer, answer' k = answer k) : q.run answer' = q.run answer := by
  induction q with
  | done a => rfl
  | ask k next ih =>
    obtain ⟨hk, hnext⟩ := List.forall_mem_cons.mp h
    rw [run_ask, run_ask, hk]
    exact ih (answer k) hnext

end Enquiry

variable [DecidableEq K]

def Layer.among? (ls : List (Layer V)) (k : K) : Option (Bound V) := ls.findSome? (·.find? k)

theorem Layer.among?_cons (l : Layer V) (ls : List (Layer V)) (k : K) :
    among? (l :: ls) k = (l.find? k).or (among? ls k) := by
  rw [among?, among?, List.findSome?_cons]
  cases l.find? k <;> rfl

namespace Scope

open Layer (among?)

/-- What a resolver is answered that runs for a lookup, on top of what `running` lists. -/
def answer (c : Scope V S) (s : S) (budget : Nat) (running : List K) (k : K) : Answer K (V k) :=
  (c.lookupWithin s budget running k).map (·.bind (Bound.as? k))

/-- The kinds that are looked up in the course of a lookup, which comes first. -/
def consultedWithin (c : Scope V S) (s : S) : Nat → List K → K → List K
  | budget, running, k =>
    k :: match c.bound? k with
      | some _ => []
      | none =>
        match c.table.find? k with
        | none => []
        | some r =>
          if k ∈ running then []
          else match budget with
            | 0 => []
            | budget + 1 =>
              ((r.resolve s).asked (c.answer s budget (k :: running))).flatMap
                (consultedWithin c s budget (k :: running))

/-- The kinds that are looked up in the course of a lookup while the resolvers of the kinds `running` run. -/
def consulted (c : Scope V S) (s : S) (running : List K) (k : K) : List K :=
  c.consultedWithin s c.table.length running k

/-- The scope that is inside another one through layers, innermost first. -/
def inside (c : Scope V S) : List (Layer V) → Scope V S
  | [] => c
  | l :: ls => (c.inside ls).opened l

variable {c : Scope V S} {ls : List (Layer V)} {s : S} {k : K}

omit [DecidableEq K] in
@[simp] theorem table_inside (c : Scope V S) (ls : List (Layer V)) : (c.inside ls).table = c.table := by
  induction ls with
  | nil => rfl
  | cons l ls ih => exact ih

theorem bound?_inside (c : Scope V S) (ls : List (Layer V)) (k : K) :
    (c.inside ls).bound? k = (among? ls k).or (c.bound? k) := by
  induction ls with
  | nil => rfl
  | cons l ls ih => rw [inside, bound?_opened, ih, Layer.among?_cons, Option.or_assoc]

theorem bound?_inside_of_none (h : among? ls k = none) : (c.inside ls).bound? k = c.bound? k := by
  rw [bound?_inside, h, Option.none_or]

theorem bound?_inside_of_some {b : Bound V} (h : among? ls k = some b) : (c.inside ls).bound? k = some b := by
  rw [bound?_inside, h, Option.some_or]

theorem mem_consultedWithin_self (c : Scope V S) (s : S) (budget : Nat) (running : List K) (k : K) :
    k ∈ c.consultedWithin s budget running k := by
  rw [consultedWithin]
  exact List.mem_cons_self

theorem consultedWithin_of_resolver {r : Resolver V S} {running : List K} (hb : c.bound? k = none)
    (hf : c.table.find? k = some r) (hr : k ∉ running) (s : S) (budget : Nat) :
    c.consultedWithin s (budget + 1) running k =
      k :: ((r.resolve s).asked (c.answer s budget (k :: running))).flatMap
        (c.consultedWithin s budget (k :: running)) := by
  rw [consultedWithin, hb]
  simp only [hf, hr, if_false]

/-- A lookup that comes to none of the kinds that the layers bind is the same inside as outside. -/
theorem lookupWithin_inside {budget : Nat} {running : List K}
    (h : ∀ j ∈ c.consultedWithin s budget running k, among? ls j = none) :
    (c.inside ls).lookupWithin s budget running k = c.lookupWithin s budget running k := by
  induction budget generalizing running k with
  | zero =>
    have hbound := bound?_inside_of_none (c := c) (h k (mem_consultedWithin_self c s 0 running k))
    simp only [lookupWithin, hbound, table_inside]
  | succ budget ih =>
    have hbound := bound?_inside_of_none (c := c) (h k (mem_consultedWithin_self c s (budget + 1) running k))
    cases hb : c.bound? k with
    | some b => rw [lookupWithin_of_bound? hb, lookupWithin_of_bound? (hbound.trans hb)]
    | none =>
      cases hf : c.table.find? k with
      | none =>
        have hf' : (c.inside ls).table.find? k = none := by rwa [table_inside]
        rw [lookupWithin_of_find? hb hf, lookupWithin_of_find? (hbound.trans hb) hf']
      | some r =>
        have hf' : (c.inside ls).table.find? k = some r := by rwa [table_inside]
        by_cases hr : k ∈ running
        · rw [lookupWithin_of_mem hb hr, lookupWithin_of_mem (hbound.trans hb) hr]
        · -- The resolver asks the same, and is answered the same.
          have hsame : ∀ j ∈ (r.resolve s).asked (c.answer s budget (k :: running)),
              (c.inside ls).answer s budget (k :: running) j = c.answer s budget (k :: running) j := by
            intro j hj
            rw [answer, answer, ih]
            intro i hi
            refine h i ?_
            rw [consultedWithin_of_resolver hb hf hr]
            exact List.mem_cons_of_mem k (List.mem_flatMap.mpr ⟨j, hj, hi⟩)
          rw [lookupWithin_of_resolver hb hf hr, lookupWithin_of_resolver (hbound.trans hb) hf' hr]
          exact congrArg _ (Enquiry.run_congr hsame)

/-! ### Scopes around -/

/-- The scopes that layers make with those around them, from the inside out. -/
def chainOf (table : Table V S) : List (Layer V) → List (Scope V S)
  | [] => []
  | l :: ls => ⟨l, ls, table, none⟩ :: chainOf table ls

def chain (c : Scope V S) : List (Scope V S) := c :: chainOf c.table c.outer

/-- Every lookup on a scope, whatever runs already. -/
def lookups (s : S) (c : Scope V S) : List K → (k : K) → Answer K (Bound V) := c.lookupWhile s

theorem lookupWithin_sink (c : Scope V S) (sink : Option Nat) (s : S) (budget : Nat) (running : List K) (k : K) :
    Scope.lookupWithin { c with sink } s budget running k = c.lookupWithin s budget running k := by
  have hbound (k : K) : Scope.bound? { c with sink } k = c.bound? k := rfl
  induction budget generalizing running k with
  | zero => rw [lookupWithin, lookupWithin, hbound]
  | succ budget ih =>
    rw [lookupWithin, lookupWithin, hbound]
    simp only [ih]

/-- Every lookup on the scopes around an opened one is as it was. -/
theorem lookups_chain_opened (c : Scope V S) (l : Layer V) (s : S) :
    ((c.opened l).chain.map (lookups s)).tail = c.chain.map (lookups s) := by
  have hc : lookups s ⟨c.values, c.outer, c.table, none⟩ = lookups s c := by
    funext running k
    exact lookupWithin_sink c none s c.table.length running k
  exact congrArg (· :: (chainOf c.table c.outer).map (lookups s)) hc

theorem lookups_chain_inside (c : Scope V S) (ls : List (Layer V)) (s : S) :
    ((c.inside ls).chain.map (lookups s)).drop ls.length = c.chain.map (lookups s) := by
  induction ls with
  | nil => rfl
  | cons l ls ih => rw [inside, List.length_cons, ← List.drop_tail, lookups_chain_opened, ih]

/-! ### Inner scopes -/

/-- **What scopes inside others find.**  Let a scope lie inside another one through any layers, and let any resolvers
run.  Whatever the layers bind is found, the innermost value of a kind.  A kind is looked up inside with the same result
as outside, a value, nothing or an error, if the layers bind nothing that the outer scope looks up on the way.
Resolvers that run for lookups from inside are handed what the layers bind, whenever they ask for it.  And every lookup
on the scopes around, from the outer one on, is as it was. -/
theorem inside_lookup (c : Scope V S) (ls : List (Layer V)) (s : S) (running : List K) (k : K) :
    let inner := c.inside ls
    (∀ v, among? ls k = some ⟨k, v⟩ → inner.lookupWhile s running k = .ok (some ⟨k, v⟩)) ∧
      ((∀ j ∈ c.consulted s running k, among? ls j = none) →
        inner.lookupWhile s running k = c.lookupWhile s running k) ∧
      (∀ out j v callers stack, ∀ next : Answer K (V j) → Enquiry V out, among? ls j = some ⟨j, v⟩ →
        Search.Steps inner s ⟨.follow out (.ask j next), callers, stack⟩
          ⟨.follow out (next (.ok (some v))), callers, stack⟩) ∧
      (inner.chain.map (lookups s)).drop ls.length = c.chain.map (lookups s) := by
  intro inner
  refine ⟨?_, ?_, ?_, lookups_chain_inside c ls s⟩
  · intro v hv
    exact lookupWithin_of_bound? (bound?_inside_of_some hv) s _ running
  · intro h
    rw [lookupWhile, table_inside]
    exact lookupWithin_inside h
  · intro out j v callers stack next hv
    have hask : Search.Steps inner s ⟨.follow out (.ask j next), callers, stack⟩
        ⟨.look j, ⟨out, j, next⟩ :: callers, stack⟩ := .single rfl
    have hfind : Search.Steps inner s ⟨.look j, ⟨out, j, next⟩ :: callers, stack⟩
        ⟨.reply (.ok (some ⟨j, v⟩)), ⟨out, j, next⟩ :: callers, stack⟩ := by
      refine .single ?_
      simp only [Search.step, inner, bound?_inside_of_some hv]
    have hback : Search.Steps inner s ⟨.reply (.ok (some ⟨j, v⟩)), ⟨out, j, next⟩ :: callers, stack⟩
        ⟨.follow out (next (.ok (some v))), callers, stack⟩ := by
      refine .single ?_
      simp only [Search.step, Except.map, Option.bind_some, Bound.as?_mk]
    exact (hask.trans hfind).trans hback

/-- Two scopes inside one whose resolver asks for what they bind or do not bind. -/
theorem inside_lookup_resolved :
    let c : StepScope := .root [Recipe.resolver "top" (.sum [.plugin "left", .plugin "right"]),
      Recipe.resolver "right" (.value "r")] [⟨.plugin "left", "l"⟩] 0
    let beside : List (Layer Capability.Carrier) := [[⟨.plugin "side", "1"⟩], [⟨.plugin "side", "2"⟩]]
    let shadow : List (Layer Capability.Carrier) := [[⟨.plugin "side", "1"⟩], [⟨.plugin "left", "m"⟩]]
    (c.inside beside).lookup (.start 0) (.plugin "side") = .ok (some ⟨.plugin "side", "1"⟩) ∧
      (c.inside beside).lookup (.start 0) (.plugin "top") = .ok (some ⟨.plugin "top", "l+r"⟩) ∧
      (∀ next, Search.Steps (c.inside shadow) (.start 0) ⟨.follow (.plugin "top") (.ask (.plugin "left") next), [], []⟩
        ⟨.follow (.plugin "top") (next (.ok (some "m"))), [], []⟩) ∧
      (c.inside shadow).lookup (.start 0) (.plugin "top") = .ok (some ⟨.plugin "top", "m+r"⟩) := by
  intro c beside shadow
  have hnone : ∀ j ∈ c.consulted (.start 0) [] (.plugin "top"), among? beside j = none := by
    have hc : c.consulted (.start 0) [] (.plugin "top") = [.plugin "top", .plugin "left", .plugin "right"] := rfl
    rw [hc]
    decide
  refine ⟨?_, ?_, ?_, rfl⟩
  · exact (inside_lookup c beside (.start 0) [] (.plugin "side")).1 "1" rfl
  · exact ((inside_lookup c beside (.start 0) [] (.plugin "top")).2.1 hnone).trans rfl
  · intro next
    exact (inside_lookup c shadow (.start 0) [] (.plugin "top")).2.2.1 _ (.plugin "left") "m" [] [] next rfl

end Scope

end Rejoin
