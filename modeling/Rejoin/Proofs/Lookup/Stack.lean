import Mathlib.Data.List.Dedup
import Mathlib.Data.List.Perm.Subperm
import Mathlib.Logic.Relation
import Rejoin.Recipe

/-!
# The stack of running resolvers

A lookup step by step.  Resolvers and lookups call each other, and all of them use one stack, onto which a kind is
pushed when its resolver is entered and from which one is popped when a resolver is left.

* `Scope.Covers` — a budget that is enough for every resolver that does not run;
* `Search` — a lookup under way, and `Search.step`, what it does next;
* `Search.Balanced`, `Search.Balanced.step` — the stack has the resolvers at work, over those that were at work
  before, and no kind twice; every step keeps that;
* `Search.steps_look` — a lookup comes to the answer that `Scope.lookupWithin` gives, whoever waits for it, and leaves
  the stack as it was;
* `Scope.lookup_ends` — so every lookup ends, without ever entering a resolver that is at work;
* `Scope.get_of_need` — what comes of a resolver that asks for one kind alone.
-/

namespace Rejoin

open Relation (ReflTransGen)

variable {K : Type} {V : K → Type} {S : Type}

def Table.kinds [DecidableEq K] (t : Table V S) : List K := (List.map (·.out) t).dedup

theorem Table.mem_kinds [DecidableEq K] {t : Table V S} {k : K} {r : Resolver V S} (h : t.find? k = some r) :
    k ∈ t.kinds ∧ r.out = k := by
  have hk : r.out = k := by simpa using List.find?_some h
  refine ⟨?_, hk⟩
  rw [kinds, List.mem_dedup, List.mem_map]
  exact ⟨r, List.mem_of_find?_eq_some h, hk⟩

theorem Table.length_kinds_le [DecidableEq K] (t : Table V S) : t.kinds.length ≤ t.length := by
  have h := (List.dedup_sublist (List.map (·.out) t)).length_le
  rwa [List.length_map] at h

theorem Table.length_le_of_nodup [DecidableEq K] {t : Table V S} {ks : List K} (hd : ks.Nodup)
    (hk : ∀ k ∈ ks, k ∈ t.kinds) : ks.length ≤ t.kinds.length := (List.subperm_of_subset hd hk).length_le

/-! ### Budgets -/

/-- The budget is enough to enter every resolver that does not run; what runs are resolvers, each of them once. -/
structure Scope.Covers [DecidableEq K] (c : Scope V S) (budget : Nat) (running : List K) : Prop where
  nodup : running.Nodup
  known : ∀ k ∈ running, k ∈ c.table.kinds
  le : c.table.kinds.length ≤ budget + running.length

namespace Scope.Covers

variable [DecidableEq K] {c : Scope V S} {budget : Nat} {running : List K}

theorem of_nodup (hd : running.Nodup) (hk : ∀ k ∈ running, k ∈ c.table.kinds) : c.Covers c.table.length running :=
  ⟨hd, hk, Nat.le_add_right_of_le c.table.length_kinds_le⟩

/-- Where a resolver is entered, the budget is not used up, and what is left is enough. -/
theorem enter (h : c.Covers budget running) {k : K} {r : Resolver V S} (hf : c.table.find? k = some r)
    (hr : k ∉ running) : ∃ b, budget = b + 1 ∧ c.Covers b (k :: running) := by
  have hd : (k :: running).Nodup := List.nodup_cons.mpr ⟨hr, h.nodup⟩
  have hk : ∀ j ∈ k :: running, j ∈ c.table.kinds := List.forall_mem_cons.mpr ⟨(Table.mem_kinds hf).1, h.known⟩
  have hlen := Table.length_le_of_nodup hd hk
  have hle := h.le
  rw [List.length_cons] at hlen
  refine ⟨budget - 1, by omega, hd, hk, ?_⟩
  rw [List.length_cons]
  omega

end Scope.Covers

/-! ### A lookup under way -/

/-- A resolver that waits for the answer to what it asked. -/
structure Search.Caller (V : K → Type) where
  out : K
  asked : K
  next : Answer K (V asked) → Enquiry V out

/-- What is done next: a kind is looked up, a resolver goes on, or an answer is handed over. -/
inductive Search.Task (V : K → Type) where
  | look (k : K)
  | follow (out : K) (q : Enquiry V out)
  | reply (a : Answer K (Bound V))

/-- A lookup under way: the resolvers that wait, innermost first, and the stack of kinds. -/
structure Search (V : K → Type) where
  task : Search.Task V
  callers : List (Search.Caller V)
  stack : List K

namespace Search

/-- The resolver that goes on, if that is what is done next. -/
def Task.atWork : Task V → List K
  | .follow out _ => [out]
  | _ => []

/-- The resolvers that were entered and not left, innermost first. -/
def atWork (m : Search V) : List K := m.task.atWork ++ m.callers.map (·.out)

variable [DecidableEq K]

/-- One step; none is left when an answer is there and nobody waits for it. -/
def step (c : Scope V S) (s : S) : Search V → Option (Search V)
  | ⟨.look k, callers, stack⟩ =>
    match c.bound? k with
    | some b => some ⟨.reply (.ok (some b)), callers, stack⟩
    | none =>
      match c.table.find? k with
      | none => some ⟨.reply (.ok none), callers, stack⟩
      | some r =>
        if k ∈ stack then some ⟨.reply (.ok none), callers, stack⟩
        else some ⟨.follow r.out (r.resolve s), callers, k :: stack⟩
  | ⟨.follow out (.ask k next), callers, stack⟩ => some ⟨.look k, ⟨out, k, next⟩ :: callers, stack⟩
  | ⟨.follow out (.done a), callers, stack⟩ => some ⟨.reply (a.map (·.map fun v => ⟨out, v⟩)), callers, stack.tail⟩
  | ⟨.reply a, x :: callers, stack⟩ =>
    some ⟨.follow x.out (x.next (a.map (·.bind (Bound.as? x.asked)))), callers, stack⟩
  | ⟨.reply _, [], _⟩ => none

abbrev Steps (c : Scope V S) (s : S) : Search V → Search V → Prop := ReflTransGen fun m m' => m.step c s = some m'

variable {c : Scope V S} {s : S} {entry : List K} {m m' : Search V}

/-! ### What every step keeps -/

/-- The stack has the resolvers at work, over those at work on entry, and each kind once. -/
structure Balanced (c : Scope V S) (entry : List K) (m : Search V) : Prop where
  stack_eq : m.stack = m.atWork ++ entry
  nodup : m.stack.Nodup
  known : ∀ k ∈ m.stack, k ∈ c.table.kinds

/-- A step that neither enters a resolver nor leaves one keeps the stack. -/
theorem Balanced.of_atWork (h : Balanced c entry m) (hs : m'.stack = m.stack) (hw : m'.atWork = m.atWork) :
    Balanced c entry m' := by
  obtain ⟨heq, hn, hk⟩ := h
  refine ⟨?_, ?_, ?_⟩
  · rw [hs, hw, heq]
  · rwa [hs]
  · rwa [hs]

theorem Balanced.step (h : Balanced c entry m) (hs : m.step c s = some m') : Balanced c entry m' := by
  rcases m with ⟨k | ⟨out, a | ⟨k, next⟩⟩ | a, callers, stack⟩
  · simp only [Search.step] at hs
    split at hs
    next => cases hs; exact h.of_atWork rfl rfl
    next =>
      split at hs
      next => cases hs; exact h.of_atWork rfl rfl
      next r hr =>
        obtain ⟨hk, rfl⟩ := Table.mem_kinds hr
        split at hs
        next => cases hs; exact h.of_atWork rfl rfl
        next hnot =>
          -- The resolver is entered, and its kind is on top of the stack.
          cases hs
          refine ⟨congrArg (r.out :: ·) h.stack_eq, List.nodup_cons.mpr ⟨hnot, h.nodup⟩, ?_⟩
          intro j hj
          rcases List.mem_cons.mp hj with rfl | hj
          · exact hk
          · exact h.known j hj
  · -- The resolver is left, and its own kind is what is popped.
    cases hs
    have htail : stack.tail = callers.map (·.out) ++ entry := by
      rw [show stack = out :: (callers.map (·.out) ++ entry) from h.stack_eq, List.tail_cons]
    refine ⟨htail, h.nodup.tail, ?_⟩
    intro j hj
    exact h.known j (List.mem_of_mem_tail hj)
  · cases hs
    exact h.of_atWork rfl rfl
  · rcases callers with _ | ⟨x, callers⟩
    · cases hs
    · cases hs
      exact h.of_atWork rfl rfl

theorem Balanced.steps (h : Balanced c entry m) (hs : Steps c s m m') : Balanced c entry m' := by
  induction hs with
  | refl => exact h
  | tail _ hstep ih => exact ih.step hstep

/-! ### The answer -/

/-- A resolver that is followed answers with what its enquiry comes to, if lookups answer so. -/
theorem steps_follow {out : K} {stack : List K} {answer : (k : K) → Answer K (Bound V)}
    (hl : ∀ k callers, Steps c s ⟨.look k, callers, out :: stack⟩ ⟨.reply (answer k), callers, out :: stack⟩)
    (q : Enquiry V out) (callers : List (Caller V)) : Steps c s ⟨.follow out q, callers, out :: stack⟩
      ⟨.reply ((q.run fun k => (answer k).map (·.bind (Bound.as? k))).map (·.map fun v => ⟨out, v⟩)), callers,
        stack⟩ := by
  induction q with
  | done a => exact .single rfl
  | ask k next ih =>
    have hask : Steps c s ⟨.follow out (.ask k next), callers, out :: stack⟩
        ⟨.look k, ⟨out, k, next⟩ :: callers, out :: stack⟩ := .single rfl
    have hback : Steps c s ⟨.reply (answer k), ⟨out, k, next⟩ :: callers, out :: stack⟩
        ⟨.follow out (next ((answer k).map (·.bind (Bound.as? k)))), callers, out :: stack⟩ := .single rfl
    exact ((hask.trans (hl k _)).trans hback).trans (ih _)

/-- A lookup answers as `Scope.lookupWithin` does with a budget for every resolver that does not run, and leaves the
stack as it was. -/
theorem steps_look (s : S) {budget : Nat} {stack : List K} (h : c.Covers budget stack) (k : K)
    (callers : List (Caller V)) :
    Steps c s ⟨.look k, callers, stack⟩ ⟨.reply (c.lookupWithin s budget stack k), callers, stack⟩ := by
  induction hn : budget using Nat.strongRecOn generalizing budget stack k callers with
  | ind n ih =>
  subst hn
  cases hbound : c.bound? k with
  | some b =>
    rw [Scope.lookupWithin_of_bound? hbound]
    exact .single (by simp [step, hbound])
  | none =>
    cases hfind : c.table.find? k with
    | none =>
      rw [Scope.lookupWithin_of_find? hbound hfind]
      exact .single (by simp [step, hbound, hfind])
    | some r =>
      by_cases hmem : k ∈ stack
      · rw [Scope.lookupWithin_of_mem hbound hmem]
        exact .single (by simp [step, hbound, hfind, hmem])
      · obtain ⟨budget, rfl, hc⟩ := h.enter hfind hmem
        obtain ⟨-, rfl⟩ := Table.mem_kinds hfind
        have henter : Steps c s ⟨.look r.out, callers, stack⟩
            ⟨.follow r.out (r.resolve s), callers, r.out :: stack⟩ :=
          .single (by simp [step, hbound, hfind, hmem])
        rw [Scope.lookupWithin_of_resolver hbound hfind hmem]
        refine henter.trans (steps_follow ?_ (r.resolve s) callers)
        intro j callers
        exact ih budget (Nat.lt_succ_self budget) hc j callers rfl

/-- Whatever has been reached leads on to where no step is left. -/
theorem Steps.ends {f : Search V} (h : Steps c s m f) (hf : f.step c s = none) (h' : Steps c s m m') :
    Steps c s m' f := by
  have hu : Relator.RightUnique fun m m' : Search V => m.step c s = some m' := by
    intro a b b' hb hb'
    rw [hb] at hb'
    exact Option.some.inj hb'
  rcases ReflTransGen.total_of_right_unique hu h h' with hle | hle
  · -- No step is left from the end, so this is the end.
    rcases ReflTransGen.cases_head hle with rfl | ⟨x, hx, -⟩
    · exact .refl
    · rw [hf] at hx
      cases hx
  · exact hle

end Search

namespace Scope

variable [DecidableEq K]

/-- Where a kind is looked up, or its resolver runs, a resolver that comes to nothing without that kind may as well be
running. -/
theorem lookupWithin_of_need {c : Scope V S} {s : S} {need d k : K} {r : Resolver V S} (hd : c.table.find? d = some r)
    (hn : ∀ answer : (k : K) → Answer K (V k), answer need = .ok none → (r.resolve s).run answer = .ok none)
    (hne : d ≠ need) {budget budget' : Nat} {running running' : List K} (h : c.Covers budget running)
    (h' : c.Covers budget' running') (hs : ∀ j, j ∈ running' ↔ j = d ∨ j ∈ running)
    (hk : k = need ∨ need ∈ running ∧ c.bound? need = none) :
    c.lookupWithin s budget running k = c.lookupWithin s budget' running' k := by
  induction hb : budget using Nat.strongRecOn generalizing budget budget' running running' k with
  | ind n ih =>
  subst hb
  cases hbound : c.bound? k with
  | some b => rw [lookupWithin_of_bound? hbound, lookupWithin_of_bound? hbound]
  | none =>
    cases hfind : c.table.find? k with
    | none => rw [lookupWithin_of_find? hbound hfind, lookupWithin_of_find? hbound hfind]
    | some x =>
      by_cases hmem : k ∈ running
      · have hmem' : k ∈ running' := (hs k).mpr (.inr hmem)
        rw [lookupWithin_of_mem hbound hmem, lookupWithin_of_mem hbound hmem']
      · obtain ⟨b, rfl, hc⟩ := h.enter hfind hmem
        rw [lookupWithin_of_resolver hbound hfind hmem]
        by_cases hkd : k = d
        · -- Here the resolver runs, but the kind that it needs has nothing to offer.
          subst hkd
          obtain ⟨hneed, hnone⟩ := hk.resolve_left hne
          have hmem' : k ∈ running' := (hs k).mpr (.inl rfl)
          obtain rfl := Option.some.inj (hfind.symm.trans hd)
          have ha : (c.lookupWithin s b (k :: running) need).map (·.bind (Bound.as? need)) = .ok none := by
            rw [lookupWithin_of_mem hnone (List.mem_cons_of_mem k hneed)]
            rfl
          rw [lookupWithin_of_mem hbound hmem', hn _ ha]
          rfl
        · have hmem' : k ∉ running' := fun e => hmem (((hs k).mp e).resolve_left hkd)
          obtain ⟨b', rfl, hc'⟩ := h'.enter hfind hmem'
          have hs' : ∀ j, j ∈ k :: running' ↔ j = d ∨ j ∈ k :: running := by
            intro j
            rw [List.mem_cons, List.mem_cons, hs]
            exact or_left_comm
          have hneed : need ∈ k :: running ∧ c.bound? need = none := by
            rcases hk with rfl | ⟨hm, hnone⟩
            · exact ⟨List.mem_cons_self, hbound⟩
            · exact ⟨List.mem_cons_of_mem k hm, hnone⟩
          have hsame : ∀ j, c.lookupWithin s b (k :: running) j = c.lookupWithin s b' (k :: running') j := by
            intro j
            exact ih b (Nat.lt_succ_self b) hc hc' hs' (.inr hneed) rfl
          rw [lookupWithin_of_resolver hbound hfind hmem']
          simp only [hsame]

/-- A resolver that asks for one kind alone, and comes to nothing without it, makes its answer of what the scope itself
finds of that kind. -/
theorem get_of_need {c : Scope V S} {s : S} {need : K} {r : Resolver V S} {next : V need → Answer K (V r.out)}
    (hr : r.resolve s = .need need fun v => .done (next v)) (hf : c.table.find? r.out = some r)
    (hb : c.bound? r.out = none) (hne : r.out ≠ need) :
    c.get s r.out = (c.get s need).bind (·.elim (.ok none) next) := by
  have hc : c.Covers c.table.length [] := .of_nodup .nil (by simp)
  obtain ⟨b, hlen, hcb⟩ := hc.enter hf List.not_mem_nil
  have hn : ∀ answer : (k : K) → Answer K (V k), answer need = .ok none → (r.resolve s).run answer = .ok none := by
    intro answer ha
    rw [hr, Enquiry.run_need_of_none answer ha]
  have hs : ∀ j, j ∈ [r.out] ↔ j = r.out ∨ j ∈ [] := by simp
  have hneed : (c.lookupWithin s b [r.out] need).map (·.bind (Bound.as? need)) = c.get s need := by
    rw [get, lookup, lookupWhile, lookupWithin_of_need hf hn hne hc hcb hs (.inl rfl)]
  rw [get, lookup, lookupWhile, hlen, lookupWithin_of_resolver hb hf List.not_mem_nil, hr, Enquiry.run_need_done, hneed]
  generalize (c.get s need).bind _ = a
  rcases a with e | _ | v
  · rfl
  · rfl
  · simp [Except.map]

/-- **Lookups end.**  Whatever resolvers there are, whatever runs already and whatever is looked up: wherever the lookup
has come to, it goes on to an answer, with the stack that it found.  On the way the resolvers at work, with those that
were at work before, are all different; the stack has exactly them, and so no more than there are kinds with a
resolver. -/
theorem lookup_ends (c : Scope V S) (s : S) (k : K) {entry : List K} (hd : entry.Nodup)
    (hr : ∀ j ∈ entry, j ∈ c.table.kinds) :
    Search.step c s ⟨.reply (c.lookupWhile s entry k), [], entry⟩ = none ∧
    ∀ m, Search.Steps c s ⟨.look k, [], entry⟩ m →
      Search.Steps c s m ⟨.reply (c.lookupWhile s entry k), [], entry⟩ ∧
        (m.atWork ++ entry).Nodup ∧ m.stack = m.atWork ++ entry ∧ m.stack.length ≤ c.table.kinds.length := by
  have hend := Search.steps_look s (.of_nodup hd hr) k []
  have hstart : Search.Balanced c entry ⟨.look k, [], entry⟩ := ⟨rfl, hd, hr⟩
  refine ⟨rfl, ?_⟩
  intro m hm
  have hb : Search.Balanced c entry m := hstart.steps hm
  refine ⟨hend.ends rfl hm, ?_, hb.stack_eq, Table.length_le_of_nodup hb.nodup hb.known⟩
  rw [← hb.stack_eq]
  exact hb.nodup

/-- A resolver that swallows the error of another one, and goes on to a third, which asks for the first and for itself
before it settles for a fourth; a fifth runs already. -/
theorem lookup_ends_in_cycle :
    let swallow : StepResolver :=
      ⟨.plugin "a", fun _ => .ask (.plugin "e") fun _ => .ask (.plugin "b") fun (x : Answer _ String) => .done x⟩
    let c : StepScope := .root [swallow, Recipe.resolver "e" (.error (.failed (.plugin "e") "broken")),
      Recipe.resolver "b" (.first [.plugin "a", .plugin "b", .plugin "r", .plugin "v"]),
      Recipe.resolver "r" .absent, Recipe.resolver "v" (.value "found")] [] 0
    let entry : List Capability := [.plugin "r"]
    (entry.Nodup ∧ ∀ j ∈ entry, j ∈ c.table.kinds) ∧
      Search.Steps c (.start 0) ⟨.look (.plugin "a"), [], entry⟩
        ⟨.reply (.ok (some ⟨.plugin "a", "found"⟩)), [], entry⟩ := by
  intro swallow c entry
  have hd : entry.Nodup := by decide
  have hr : ∀ j ∈ entry, j ∈ c.table.kinds := by decide
  have ha : c.lookupWhile (.start 0) entry (.plugin "a") = .ok (some ⟨.plugin "a", "found"⟩) := rfl
  refine ⟨⟨hd, hr⟩, ?_⟩
  rw [← ha]
  exact ((lookup_ends c (.start 0) (.plugin "a") hd hr).2 _ .refl).1

end Scope

end Rejoin
