import Rejoin.Proofs.Lookup.Stack

/-!
# Lookups without a stack

A plain lookup takes no notice of what runs: it enters every resolver that it comes to, and need not end.

* `Scope.Plain` — what an enquiry comes to if every kind that it asks for is looked up plainly;
* `Scope.Asks` — the kinds that it asks for on the way;
* `Scope.Ranked` — every resolver that can run asks only for what is bound, has no resolver, or has one of lower rank;
* `Scope.get_iff_plain` — then a lookup and a plain one come to the same.
-/

namespace Rejoin

namespace Scope

variable {K : Type} [DecidableEq K] {V : K → Type} {S : Type} {c : Scope V S} {s : S} {out : K}

/-! ### Plain lookups -/

/-- What an enquiry comes to when every kind is looked up plainly: its innermost bound value, or else whatever its
resolver comes to. -/
inductive Plain (c : Scope V S) (s : S) : {out : K} → Enquiry V out → Answer K (V out) → Prop
  | done {out : K} (a : Answer K (V out)) : Plain c s (.done a) a
  | bound {out k : K} {next : Answer K (V k) → Enquiry V out} {b : Bound V} {a : Answer K (V out)}
    (hb : c.bound? k = some b) (h : Plain c s (next (.ok (b.as? k))) a) : Plain c s (.ask k next) a
  | absent {out k : K} {next : Answer K (V k) → Enquiry V out} {a : Answer K (V out)} (hb : c.bound? k = none)
    (ht : c.table.find? k = none) (h : Plain c s (next (.ok none)) a) : Plain c s (.ask k next) a
  | resolved {out k : K} {next : Answer K (V k) → Enquiry V out} {r : Resolver V S} {x : Answer K (V r.out)}
    {a : Answer K (V out)} (hb : c.bound? k = none) (ht : c.table.find? k = some r) (hr : Plain c s (r.resolve s) x)
    (h : Plain c s (next (x.map (·.bind fun v => Bound.as? k ⟨r.out, v⟩))) a) : Plain c s (.ask k next) a

abbrev PlainGet (c : Scope V S) (s : S) (k : K) (a : Answer K (V k)) : Prop := c.Plain s (.ask k .done) a

namespace Plain

theorem eq_of_done {a a' : Answer K (V out)} (h : c.Plain s (.done a) a') : a' = a := by
  cases h
  rfl

theorem unique {q : Enquiry V out} {a a' : Answer K (V out)} (h : c.Plain s q a) (h' : c.Plain s q a') : a = a' := by
  induction h with
  | done a => exact h'.eq_of_done.symm
  | bound hb _ ih =>
    cases h' with
    | bound hb' h' =>
      rw [hb] at hb'
      cases hb'
      exact ih h'
    | absent hb' => rw [hb] at hb'; cases hb'
    | resolved hb' => rw [hb] at hb'; cases hb'
  | absent hb ht _ ih =>
    cases h' with
    | bound hb' => rw [hb] at hb'; cases hb'
    | absent _ _ h' => exact ih h'
    | resolved _ ht' => rw [ht] at ht'; cases ht'
  | resolved hb ht _ _ ihr ih =>
    cases h' with
    | bound hb' => rw [hb] at hb'; cases hb'
    | absent _ ht' => rw [ht] at ht'; cases ht'
    | resolved _ ht' hr' h' =>
      rw [ht] at ht'
      cases ht'
      rw [← ihr hr'] at h'
      exact ih h'

/-- An enquiry that asks for a kind goes on with what the lookup of that kind comes to. -/
theorem ask {k : K} {next : Answer K (V k) → Enquiry V out} {x : Answer K (V k)} {a : Answer K (V out)}
    (hx : c.PlainGet s k x) (h : c.Plain s (next x) a) : c.Plain s (.ask k next) a := by
  cases hx with
  | bound hb hx => exact .bound hb (hx.eq_of_done ▸ h)
  | absent hb ht hx => exact .absent hb ht (hx.eq_of_done ▸ h)
  | resolved hb ht hr hx => exact .resolved hb ht hr (hx.eq_of_done ▸ h)

end Plain

/-! ### What is asked for -/

/-- The kinds that an enquiry asks for, one after the other, as plain lookups answer it. -/
inductive Asks (c : Scope V S) (s : S) : Enquiry V out → K → Prop
  | here {k : K} {next : Answer K (V k) → Enquiry V out} : Asks c s (.ask k next) k
  | later {k j : K} {next : Answer K (V k) → Enquiry V out} {x : Answer K (V k)} (hx : c.PlainGet s k x)
    (h : Asks c s (next x) j) : Asks c s (.ask k next) j

/-- A resolver that needs a kind asks for that, and goes on only with a value of it. -/
theorem Asks.of_need {k j : K} {next : V k → Enquiry V out} (h : c.Asks s (.need k next) j) :
    j = k ∨ ∃ v, c.Asks s (next v) j := by
  cases h with
  | here => exact .inl rfl
  | @later _ _ _ x _ h =>
    rcases x with e | _ | v
    · cases h
    · cases h
    · exact .inr ⟨v, h⟩

/-- Every resolver that can run asks only for kinds that are bound, have no resolver, or have one of lower rank. -/
def Ranked (c : Scope V S) (s : S) (rank : K → Nat) : Prop := ∀ k r, c.bound? k = none → c.table.find? k = some r →
  ∀ j, c.Asks s (r.resolve s) j → (c.bound? j).isSome ∨ c.table.find? j = none ∨ rank j < rank k

/-- An enquiry comes to what it comes to with given answers, if those are what plain lookups of the kinds that it asks
for come to. -/
theorem plain_run {answer : (k : K) → Answer K (V k)} {q : Enquiry V out}
    (h : ∀ k, c.Asks s q k → c.PlainGet s k (answer k)) : c.Plain s q (q.run answer) := by
  induction q with
  | done a => exact .done a
  | ask k next ih =>
    have hk : c.PlainGet s k (answer k) := h k .here
    have hnext : ∀ j, c.Asks s (next (answer k)) j → c.PlainGet s j (answer j) := by
      intro j hj
      exact h j (.later hk hj)
    exact hk.ask (ih (answer k) hnext)

/-! ### The stack is invisible -/

theorem plainGet_of_settled {k : K} (h : (c.bound? k).isSome ∨ c.table.find? k = none) (budget : Nat)
    (running : List K) : c.PlainGet s k ((c.lookupWithin s budget running k).map (·.bind (Bound.as? k))) := by
  cases hb : c.bound? k with
  | some b =>
    rw [lookupWithin_of_bound? hb]
    exact .bound hb (.done _)
  | none =>
    have ht : c.table.find? k = none := by simpa [hb] using h
    rw [lookupWithin_of_find? hb ht]
    exact .absent hb ht (.done _)

theorem plainGet_of_resolver {k : K} {r : Resolver V S} {budget : Nat} {running : List K} (hb : c.bound? k = none)
    (ht : c.table.find? k = some r) (hr : k ∉ running) (h : ∀ j, c.Asks s (r.resolve s) j →
      c.PlainGet s j ((c.lookupWithin s budget (k :: running) j).map (·.bind (Bound.as? j)))) :
    c.PlainGet s k ((c.lookupWithin s (budget + 1) running k).map (·.bind (Bound.as? k))) := by
  have hrun := plain_run h
  rw [lookupWithin_of_resolver hb ht hr]
  refine .resolved hb ht hrun ?_
  generalize (r.resolve s).run _ = x
  rcases x with e | _ | v <;> exact .done _

/-- As long as whatever runs is of higher rank, a lookup comes to what a plain one comes to. -/
theorem Ranked.plainGet {rank : K → Nat} (h : c.Ranked s rank) {budget : Nat} {running : List K}
    (hc : c.Covers budget running) {k : K} (hr : ∀ j ∈ running, rank k < rank j) :
    c.PlainGet s k ((c.lookupWithin s budget running k).map (·.bind (Bound.as? k))) := by
  -- The rank of what is looked up falls from each resolver that is entered to the next.
  induction hn : rank k using Nat.strongRecOn generalizing k budget running with
  | ind n ih =>
  subst hn
  by_cases hs : (c.bound? k).isSome ∨ c.table.find? k = none
  · exact plainGet_of_settled hs budget running
  · have hbound : c.bound? k = none := by simpa using fun e => hs (.inl e)
    obtain ⟨r, hfind⟩ : ∃ r, c.table.find? k = some r := Option.ne_none_iff_exists'.mp fun e => hs (.inr e)
    have hnot : k ∉ running := fun hm => Nat.lt_irrefl _ (hr k hm)
    obtain ⟨budget, rfl, hc'⟩ := hc.enter hfind hnot
    refine plainGet_of_resolver hbound hfind hnot ?_
    intro j hj
    rcases h k r hbound hfind j hj with hs | hs | hlt
    · exact plainGet_of_settled (.inl hs) budget _
    · exact plainGet_of_settled (.inr hs) budget _
    · have hr' : ∀ i ∈ k :: running, rank j < rank i :=
        List.forall_mem_cons.mpr ⟨hlt, fun i hi => Nat.lt_trans hlt (hr i hi)⟩
      exact ih (rank j) hlt hc' hr' rfl

/-- **The stack of what runs is invisible without cycles.**  If the resolvers have ranks, so that each of them asks
only for kinds that are bound, have no resolver, or have one of lower rank, a lookup that keeps a stack and a plain one
come to the same: a value, nothing, or an error. -/
theorem get_iff_plain {rank : K → Nat} (h : c.Ranked s rank) (k : K) (a : Answer K (V k)) :
    c.PlainGet s k a ↔ c.get s k = a := by
  have hplain : c.PlainGet s k (c.get s k) := h.plainGet (.of_nodup .nil (by simp)) (by simp)
  constructor
  · intro ha
    exact hplain.unique ha
  · rintro rfl
    exact hplain

/-- One resolver is asked for by two that a third needs; what would close a cycle is bound. -/
theorem get_iff_plain_diamond :
    let c : StepScope := .root [Recipe.resolver "top" (.sum [.plugin "left", .plugin "right"]),
      Recipe.resolver "left" (.sum [.plugin "bottom", .plugin "cut"]),
      Recipe.resolver "right" (.sum [.plugin "bottom"]), Recipe.resolver "bottom" (.value "b"),
      Recipe.resolver "cut" (.sum [.plugin "top"])] [⟨.plugin "cut", "c"⟩] 0
    let rank : Capability → Nat := fun k => if k = .plugin "top" then 2 else if k = .plugin "bottom" then 0 else 1
    c.Ranked (.start 0) rank ∧ c.PlainGet (.start 0) (.plugin "top") (.ok (some "b+c+b")) := by
  intro c rank
  have hr : c.Ranked (.start 0) rank := by
    intro k r hb ht j hj
    have hm : r ∈ c.table := List.mem_of_find?_eq_some ht
    obtain rfl := (Table.mem_kinds ht).2
    simp only [c, root, List.mem_cons, List.not_mem_nil, or_false] at hm
    rcases hm with rfl | rfl | rfl | rfl | rfl
    · rcases Asks.of_need hj with rfl | ⟨_, hj⟩
      · decide
      · rcases Asks.of_need hj with rfl | ⟨_, hj⟩
        · decide
        · cases hj
    · rcases Asks.of_need hj with rfl | ⟨_, hj⟩
      · decide
      · rcases Asks.of_need hj with rfl | ⟨_, hj⟩
        · decide
        · cases hj
    · rcases Asks.of_need hj with rfl | ⟨_, hj⟩
      · decide
      · cases hj
    · cases hj
    · cases hb
  exact ⟨hr, (get_iff_plain hr (.plugin "top") _).mpr rfl⟩

end Scope

end Rejoin
