import Mathlib.Data.Finset.Card
import Mathlib.Data.Finset.Insert
import Rejoin.Body
import Rejoin.Proofs.Places

/-!
# Outcomes of scopes

Scopes of steps are opened, bodies run in scopes inside them to any depth, and outcomes are reported to all of them
in any order.

* `runBody_forward` — a body with a callback that forwards reports its outcome, once it has ended;
* `Controller.Act` — what can happen, and `Controller.History`, a controller with the scopes and what they were told;
* `Controller.History.Kept`, `Controller.History.kept_after` — sinks belong to outermost scopes, to one each, and have
  what those were told first;
* `Controller.History.first_outcome_counts` — what comes of an outcome, whoever it is reported to.
-/

namespace Rejoin

universe u

section Forward

variable {m : Type → Type u} [Monad m] [MonadStateOf Controller m]

theorem Callback.finish_forward (outer inner : StepScope) (o : Outcome) :
    (Callback.forward (m := m) outer).finish inner o = modifyThe Controller (·.report outer o) := by
  cases o <;> rfl

/-- A body that forwards its outcome reports it once it has ended, and nothing before. -/
theorem runBody_forward [LawfulMonad m] (outer target : StepScope) (values : Layer Capability.Carrier)
    (body : Body m) :
    runBody outer values (some (.forward target)) body =
      body (outer.opened values) >>= fun o => modifyThe Controller (·.report target o) := by
  simp only [runBody, Callback.finish_forward]
  exact pure_bind ..

end Forward

namespace Controller

/-- What can happen to scopes; they go by their place in the order in which they were opened. -/
inductive Act where
  /-- Opens the scope of a step. -/
  | openRoot (t : StepTable) (values : Layer Capability.Carrier)
  /-- Opens the scope of a body inside another one. -/
  | openBody (outer : Nat) (values : Layer Capability.Carrier)
  /-- Reports an outcome to a scope. -/
  | report (place : Nat) (o : Outcome)
  /-- Ends the body of a scope, whose callback forwards to another scope. -/
  | finish (inner outer : Nat) (o : Outcome)

/-- A controller with the scopes that were opened, and the outcomes that were reported, each with the place of the scope
that it was reported to. -/
structure History where
  controller : Controller
  scopes : List StepScope := []
  told : List (Nat × Outcome) := []

namespace History

/-- What an act does; one on a scope that does not exist does nothing. -/
def step (h : History) : Act → History
  | .openRoot t values =>
    let (scope, c) := h.controller.openRoot t values
    { h with controller := c, scopes := h.scopes ++ [scope] }
  | .openBody outer values =>
    match h.scopes[outer]? with
    | some scope => { h with scopes := h.scopes ++ [scope.opened values] }
    | none => h
  | .report place o =>
    match h.scopes[place]? with
    | some scope => { h with controller := h.controller.report scope o, told := h.told ++ [(place, o)] }
    | none => h
  | .finish inner outer o =>
    match h.scopes[inner]?, h.scopes[outer]? with
    | some scope, some target =>
      let callback : Callback (StateM Controller) := .forward target
      { h with controller := ((callback.finish scope o).run h.controller).2, told := h.told ++ [(outer, o)] }
    | _, _ => h

def after (c : Controller) (as : List Act) : History := as.foldl step { controller := c }

/-- The first outcome that was reported to a scope itself. -/
def first? (told : List (Nat × Outcome)) (place : Nat) : Option Outcome := (told.find? (·.1 = place)).map (·.2)

def isOutermost (h : History) (place : Nat) : Bool := h.scopes[place]?.any (·.depth = 0)

/-- The outermost scopes that an outcome was reported to. -/
def heard (h : History) : Finset Nat := (h.told.map (·.1)).toFinset.filter (h.isOutermost ·)

/-- The act reports an outcome to a scope, be it directly or at the end of a body. -/
inductive Tells (h : History) (place : Nat) (o : Outcome) : Act → Prop
  | report : Tells h place o (.report place o)
  | finish {inner : Nat} (hi : inner < h.scopes.length) : Tells h place o (.finish inner place o)

inductive Did (h : History) : Act → History → Prop
  | openedRoot (t : StepTable) (values : Layer Capability.Carrier) :
    Did h (.openRoot t values) { h with
      controller := { h.controller with sinks := h.controller.sinks ++ [none] }
      scopes := h.scopes ++ [.root t values h.controller.sinks.length] }
  | openedBody {outer : Nat} {scope : StepScope} (hs : h.scopes[outer]? = some scope)
      (values : Layer Capability.Carrier) :
    Did h (.openBody outer values) { h with scopes := h.scopes ++ [scope.opened values] }
  | told {a : Act} {place : Nat} {scope : StepScope} {o : Outcome} (hs : h.scopes[place]? = some scope)
      (ha : h.Tells place o a) :
    Did h a { h with controller := h.controller.report scope o, told := h.told ++ [(place, o)] }
  | missed {a : Act} : Did h a h

theorem step_of_tells {h : History} {a : Act} {place : Nat} {scope : StepScope} {o : Outcome}
    (hs : h.scopes[place]? = some scope) (ha : h.Tells place o a) :
    h.step a = { h with controller := h.controller.report scope o, told := h.told ++ [(place, o)] } := by
  cases ha with
  | report => simp only [step, hs]
  | finish hi => simp only [step, hs, List.getElem?_eq_getElem hi, Callback.finish_forward]; rfl

theorem did_step (h : History) (a : Act) : Did h a (h.step a) := by
  cases a with
  | openRoot t values => exact .openedRoot t values
  | openBody outer values =>
    simp only [step]
    split
    next hs => exact .openedBody hs values
    next => exact .missed
  | report place o =>
    cases hs : h.scopes[place]? with
    | some scope =>
      rw [step_of_tells hs .report]
      exact .told hs .report
    | none =>
      simp only [step, hs]
      exact .missed
  | finish inner outer o =>
    by_cases hi : inner < h.scopes.length
    · cases hs : h.scopes[outer]? with
      | some scope =>
        rw [step_of_tells hs (.finish hi)]
        exact .told hs (.finish hi)
      | none =>
        simp only [step, hs, List.getElem?_eq_getElem hi]
        exact .missed
    · simp only [step, List.getElem?_eq_none (Nat.le_of_not_lt hi)]
      exact .missed

theorem after_keeps {c : Controller} {P : History → Prop} (hP : ∀ h a h', Did h a h' → P h → P h') {as : List Act}
    (h : P (after c as)) (later : List Act) : P (after c (as ++ later)) := by
  rw [after, List.foldl_append]
  exact List.foldlRecOn later step h fun h hp a _ => hP h a _ (did_step h a) hp

/-! ### What was told first -/

theorem first?_concat (told : List (Nat × Outcome)) (p place : Nat) (o : Outcome) :
    first? (told ++ [(place, o)]) p = (first? told p).or (if place = p then some o else none) := by
  rw [first?, first?, List.find?_append]
  cases told.find? (·.1 = p) with
  | some x => rfl
  | none => by_cases hp : place = p <;> simp [hp]

theorem first?_concat_of_some {told : List (Nat × Outcome)} {p : Nat} {o : Outcome} (h : first? told p = some o)
    (x : Nat × Outcome) : first? (told ++ [x]) p = some o := by
  rw [first?_concat, h, Option.some_or]

theorem first?_concat_of_ne {p place : Nat} (h : place ≠ p) (told : List (Nat × Outcome)) (o : Outcome) :
    first? (told ++ [(place, o)]) p = first? told p := by
  rw [first?_concat, if_neg h, Option.or_none]

theorem first?_eq_none {told : List (Nat × Outcome)} {p : Nat} :
    first? told p = none ↔ p ∉ (told.map (·.1)).toFinset := by
  simp only [first?, Option.map_eq_none_iff, List.find?_eq_none, decide_eq_true_eq, List.mem_toFinset, List.mem_map,
    not_exists, not_and]

theorem did_first? {h h' : History} {a : Act} (hd : Did h a h') {p : Nat} {o : Outcome}
    (hf : first? h.told p = some o) : first? h'.told p = some o := by
  cases hd with
  | told => exact first?_concat_of_some hf _
  | _ => exact hf

theorem did_scope {h h' : History} {a : Act} (hd : Did h a h') {p : Nat} {s : StepScope}
    (hs : h.scopes[p]? = some s) : h'.scopes[p]? = some s := by
  have hl := (List.getElem?_eq_some_iff.mp hs).1
  cases hd with
  | openedRoot | openedBody => exact (List.getElem?_append_left hl).trans hs
  | _ => exact hs

/-! ### What is kept -/

/-- Outermost scopes have a sink each, with what they were told first, and other scopes have none.  All that was told
was told to scopes, and all but what was told first to outermost ones was a warning. -/
structure Kept (c : Controller) (h : History) : Prop where
  outermost : ∀ (p : Nat) (s : StepScope), h.scopes[p]? = some s → s.depth = 0 →
    ∃ i, s.sink = some i ∧ h.controller.sinks[i]? = some (first? h.told p)
  inner : ∀ (p : Nat) (s : StepScope), h.scopes[p]? = some s → s.depth ≠ 0 → s.sink = none
  apart : ∀ (p q : Nat) (s t : StepScope), h.scopes[p]? = some s → h.scopes[q]? = some t → s.depth = 0 →
    s.sink = t.sink → p = q
  placed : ∀ x ∈ h.told, x.1 < h.scopes.length
  warned : h.controller.warnings + h.heard.card = c.warnings + h.told.length

theorem kept_start (c : Controller) : Kept c { controller := c } where
  outermost _ _ hs := nomatch hs
  inner _ _ hs := nomatch hs
  apart _ _ _ _ hs := nomatch hs
  placed _ hx := nomatch hx
  warned := rfl

namespace Kept

variable {c : Controller} {h : History}

theorem sink_lt (hk : h.Kept c) {p i : Nat} {s : StepScope} (hs : h.scopes[p]? = some s) (hi : s.sink = some i) :
    i < h.controller.sinks.length := by
  by_cases hd : s.depth = 0
  · obtain ⟨j, hj, hsink⟩ := hk.outermost p s hs hd
    obtain rfl : i = j := Option.some.inj (hi.symm.trans hj)
    exact (List.getElem?_eq_some_iff.mp hsink).1
  · rw [hk.inner p s hs hd] at hi
    cases hi

theorem first?_length (hk : h.Kept c) : first? h.told h.scopes.length = none := by
  rw [first?_eq_none, List.mem_toFinset, List.mem_map]
  rintro ⟨x, hx, he⟩
  have hlt := hk.placed x hx
  omega

theorem heard_opened (hk : h.Kept c) (c' : Controller) (s : StepScope) :
    heard ⟨c', h.scopes ++ [s], h.told⟩ = h.heard := by
  refine Finset.filter_congr fun p hp => ?_
  obtain ⟨x, hx, rfl⟩ := List.mem_map.mp (List.mem_toFinset.mp hp)
  simp only [isOutermost, List.getElem?_append_left (hk.placed x hx)]

theorem openedRoot (hk : h.Kept c) (t : StepTable) (values : Layer Capability.Carrier) :
    Kept c { h with
      controller := { h.controller with sinks := h.controller.sinks ++ [none] }
      scopes := h.scopes ++ [.root t values h.controller.sinks.length] } where
  outermost p s hs hd := by
    rcases eq_of_getElem?_concat hs with hs | ⟨rfl, rfl⟩
    · obtain ⟨i, hi, hsink⟩ := hk.outermost p s hs hd
      exact ⟨i, hi, (List.getElem?_append_left (hk.sink_lt hs hi)).trans hsink⟩
    · refine ⟨h.controller.sinks.length, rfl, ?_⟩
      rw [hk.first?_length]
      exact List.getElem?_concat_length
  inner p s hs hd := by
    rcases eq_of_getElem?_concat hs with hs | ⟨rfl, rfl⟩
    · exact hk.inner p s hs hd
    · exact absurd rfl hd
  apart p q s t hs ht hd he := by
    rcases eq_of_getElem?_concat hs with hs | ⟨rfl, rfl⟩ <;> rcases eq_of_getElem?_concat ht with ht | ⟨rfl, rfl⟩
    · exact hk.apart p q s t hs ht hd he
    · exact absurd (hk.sink_lt hs he) (Nat.lt_irrefl _)
    · exact absurd (hk.sink_lt ht he.symm) (Nat.lt_irrefl _)
    · rfl
  placed x hx := by
    have := hk.placed x hx
    simp only [List.length_append]
    omega
  warned := by
    rw [hk.heard_opened]
    exact hk.warned

theorem openedBody (hk : h.Kept c) (s : StepScope) (values : Layer Capability.Carrier) :
    Kept c { h with scopes := h.scopes ++ [s.opened values] } where
  outermost p s hs hd := by
    rcases eq_of_getElem?_concat hs with hs | ⟨rfl, rfl⟩
    · exact hk.outermost p s hs hd
    · cases hd
  inner p s hs hd := by
    rcases eq_of_getElem?_concat hs with hs | ⟨rfl, rfl⟩
    · exact hk.inner p s hs hd
    · rfl
  apart p q s t hs ht hd he := by
    rcases eq_of_getElem?_concat hs with hs | ⟨rfl, rfl⟩
    · rcases eq_of_getElem?_concat ht with ht | ⟨rfl, rfl⟩
      · exact hk.apart p q s t hs ht hd he
      · obtain ⟨i, hi, -⟩ := hk.outermost p s hs hd
        cases hi.symm.trans he
    · cases hd
  placed x hx := by
    have := hk.placed x hx
    simp only [List.length_append]
    omega
  warned := by
    rw [hk.heard_opened]
    exact hk.warned

/-! ### What comes of a report -/

/-- An outermost scope keeps the first outcome that it is told. -/
theorem report_of_first (hk : h.Kept c) {place : Nat} {s : StepScope} (hs : h.scopes[place]? = some s)
    (hd : s.depth = 0) (hf : first? h.told place = none) {i : Nat} (hi : s.sink = some i) (o : Outcome) :
    h.controller.report s o = { h.controller with sinks := h.controller.sinks.set i (some o) } := by
  obtain ⟨j, hj, hsink⟩ := hk.outermost place s hs hd
  obtain rfl : i = j := Option.some.inj (hi.symm.trans hj)
  exact report_of_none hi (hf ▸ hsink) o

/-- Any other outcome is dropped. -/
theorem report_of_late (hk : h.Kept c) {place : Nat} {s : StepScope} (hs : h.scopes[place]? = some s)
    (hl : ¬ (s.depth = 0 ∧ first? h.told place = none)) (o : Outcome) :
    h.controller.report s o = h.controller.drop := by
  by_cases hd : s.depth = 0
  · obtain ⟨i, hi, hsink⟩ := hk.outermost place s hs hd
    obtain ⟨o', ho'⟩ := Option.ne_none_iff_exists'.mp fun hn => hl ⟨hd, hn⟩
    exact report_of_some hi (ho' ▸ hsink) o
  · simp only [report, hk.inner place s hs hd]

theorem mem_heard {p : Nat} {s : StepScope} (hs : h.scopes[p]? = some s) :
    p ∈ h.heard ↔ s.depth = 0 ∧ first? h.told p ≠ none := by
  rw [heard, Finset.mem_filter, ne_eq, first?_eq_none, not_not, isOutermost, hs, Option.any_some, decide_eq_true_eq,
    and_comm]

theorem heard_told {place : Nat} {s : StepScope} (hs : h.scopes[place]? = some s) (c' : Controller) (o : Outcome) :
    heard ⟨c', h.scopes, h.told ++ [(place, o)]⟩ = if s.depth = 0 then insert place h.heard else h.heard := by
  have hp : isOutermost ⟨c', h.scopes, h.told ++ [(place, o)]⟩ place = decide (s.depth = 0) := by
    rw [isOutermost, hs, Option.any_some]
  rw [heard, List.map_append, List.toFinset_append, List.map_singleton, List.toFinset_cons, List.toFinset_nil,
    insert_empty_eq, Finset.union_comm, ← Finset.insert_eq, Finset.filter_insert, hp]
  simp only [decide_eq_true_eq]
  rfl

theorem told (hk : h.Kept c) {place : Nat} {s : StepScope} (hs : h.scopes[place]? = some s) (o : Outcome) :
    Kept c { h with controller := h.controller.report s o, told := h.told ++ [(place, o)] } := by
  have hplaced : ∀ x ∈ h.told ++ [(place, o)], x.1 < h.scopes.length := by
    intro x hx
    rcases List.mem_append.mp hx with hx | hx
    · exact hk.placed x hx
    · cases List.mem_singleton.mp hx
      exact (List.getElem?_eq_some_iff.mp hs).1
  by_cases hl : s.depth = 0 ∧ first? h.told place = none
  · obtain ⟨hd, hf⟩ := hl
    obtain ⟨i, hi, -⟩ := hk.outermost place s hs hd
    rw [hk.report_of_first hs hd hf hi]
    refine ⟨?_, hk.inner, hk.apart, hplaced, ?_⟩
    · intro p u hu hdu
      by_cases hp : place = p
      · subst hp
        cases hs.symm.trans hu
        refine ⟨i, hi, ?_⟩
        rw [first?_concat, hf, if_pos rfl]
        exact List.getElem?_set_self (hk.sink_lt hs hi)
      · obtain ⟨j, hj, hsink⟩ := hk.outermost p u hu hdu
        refine ⟨j, hj, ?_⟩
        have hne : i ≠ j := by
          rintro rfl
          exact hp (hk.apart place p s u hs hu hd (hi.trans hj.symm))
        rw [first?_concat_of_ne hp]
        exact (List.getElem?_set_ne hne).trans hsink
    · have hnew : place ∉ h.heard := fun hm => ((mem_heard hs).mp hm).2 hf
      rw [heard_told hs, if_pos hd, Finset.card_insert_of_notMem hnew, List.length_append]
      have := hk.warned
      simp only [List.length_singleton]
      omega
  · rw [hk.report_of_late hs hl]
    refine ⟨?_, hk.inner, hk.apart, hplaced, ?_⟩
    · intro p u hu hdu
      obtain ⟨j, hj, hsink⟩ := hk.outermost p u hu hdu
      refine ⟨j, hj, hsink.trans (congrArg some ?_)⟩
      by_cases hp : place = p
      · -- An outermost scope that keeps nothing has been told something before.
        subst hp
        cases hs.symm.trans hu
        obtain ⟨o', ho'⟩ := Option.ne_none_iff_exists'.mp fun hn => hl ⟨hdu, hn⟩
        rw [first?_concat_of_some ho', ho']
      · rw [first?_concat_of_ne hp]
    · have hold : (if s.depth = 0 then insert place h.heard else h.heard) = h.heard := by
        split
        next hd => exact Finset.insert_eq_of_mem ((mem_heard hs).mpr ⟨hd, fun hn => hl ⟨hd, hn⟩⟩)
        next => rfl
      rw [heard_told hs, hold, List.length_append]
      have := hk.warned
      simp only [drop, List.length_singleton]
      omega

theorem did {h' : History} {a : Act} (hk : h.Kept c) (hd : Did h a h') : h'.Kept c := by
  cases hd with
  | openedRoot t values => exact hk.openedRoot t values
  | openedBody hs values => exact hk.openedBody _ values
  | told hs ha => exact hk.told hs _
  | missed => exact hk

/-- What comes of an outermost scope: what it was told first, for good or for the time being. -/
theorem outcome?_eq (hk : h.Kept c) {p : Nat} {s : StepScope} (hs : h.scopes[p]? = some s) (hd : s.depth = 0) {i : Nat}
    (hi : s.sink = some i) (held : Bool) :
    h.controller.outcome? i held = (first? h.told p).or (if held then none else some abandoned) := by
  obtain ⟨j, hj, hsink⟩ := hk.outermost p s hs hd
  obtain rfl : i = j := Option.some.inj (hi.symm.trans hj)
  simp only [outcome?, hsink, Option.join_some]
  cases first? h.told p <;> rfl

end Kept

theorem kept_after (c : Controller) (as : List Act) : Kept c (after c as) := by
  have hstart : Kept c (after c []) := kept_start c
  exact after_keeps (fun _ _ _ hd hk => hk.did hd) hstart as

/-- **Only the first outcome that is reported to an outermost scope itself counts.**  Let scopes be opened, outermost
ones and ones of bodies inside others, and outcomes be reported to them, directly or at the end of bodies, all in any
order.  What an outermost scope was told first is what it yields, unchanged, now and whatever happens later; as long as
it was told nothing it yields nothing, and that it was abandoned once nobody holds it.  What it is told first goes to
its sink, with nothing else changed.  Every other report, later ones and all that are made to scopes of bodies, is one
warning more and changes nothing else; so there are as many warnings as reports, but one less for each outermost scope
that was told something. -/
theorem first_outcome_counts (c : Controller) (as : List Act) :
    let h := after c as
    (∀ p (s : StepScope), h.scopes[p]? = some s → s.depth = 0 → ∃ i, s.sink = some i ∧
      (∀ held, h.controller.outcome? i held = (first? h.told p).or (if held then none else some abandoned)) ∧
      (∀ o, first? h.told p = some o → ∀ later held, (after c (as ++ later)).controller.outcome? i held = some o) ∧
      ∀ a o, h.Tells p o a → first? h.told p = none →
        (h.step a).controller = { h.controller with sinks := h.controller.sinks.set i (some o) }) ∧
      (∀ p (s : StepScope) a o, h.scopes[p]? = some s → h.Tells p o a →
        ¬ (s.depth = 0 ∧ first? h.told p = none) → (h.step a).controller = h.controller.drop) ∧
      h.controller.warnings + h.heard.card = c.warnings + h.told.length := by
  intro h
  have hk : Kept c h := kept_after c as
  refine ⟨?_, ?_, hk.warned⟩
  · intro p s hs hd
    obtain ⟨i, hi, -⟩ := hk.outermost p s hs hd
    refine ⟨i, hi, hk.outcome?_eq hs hd hi, ?_, ?_⟩
    · intro o hf later held
      have hs' := after_keeps (P := fun h => h.scopes[p]? = some s) (fun _ _ _ hd hp => did_scope hd hp) hs later
      have hf' := after_keeps (P := fun h => first? h.told p = some o) (fun _ _ _ hd hp => did_first? hd hp) hf later
      rw [(kept_after c (as ++ later)).outcome?_eq hs' hd hi, hf', Option.some_or]
    · intro a o ha hf
      rw [step_of_tells hs ha, hk.report_of_first hs hd hf hi]
  · intro p s a o hs ha hl
    rw [step_of_tells hs ha, hk.report_of_late hs hl]

/-- A step with a body in a body.  The inner one ends first, the outer one ends when the step has failed already. -/
theorem first_outcome_counts_nested :
    let early : List Act := [.openRoot [] [], .openBody 0 [], .openBody 1 [], .finish 2 1 (.ok .null)]
    let late : List Act := [.report 0 (.error (.error "lost")), .finish 1 0 (.ok .null), .report 0 (.ok .null)]
    (∀ held, (after fresh early).controller.outcome? 0 held = if held then none else some abandoned) ∧
      (∀ held, (after fresh (early ++ late)).controller.outcome? 0 held = some (.error (.error "lost"))) ∧
      (after fresh (early ++ late)).controller.warnings = 3 := by
  intro early late
  have hearly := first_outcome_counts fresh early
  have hlate := first_outcome_counts fresh (early ++ late)
  refine ⟨?_, ?_, ?_⟩
  · obtain ⟨i, hi, h, -⟩ := hearly.1 0 (.root [] [] 0) rfl rfl
    cases hi
    exact h
  · obtain ⟨i, hi, h, -⟩ := hlate.1 0 (.root [] [] 0) rfl rfl
    cases hi
    exact h
  · have hheard : (after fresh (early ++ late)).heard.card = 1 := rfl
    have h := hlate.2.2
    rw [hheard] at h
    exact Nat.add_right_cancel h

end History

end Controller

end Rejoin
