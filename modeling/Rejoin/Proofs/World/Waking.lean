import Rejoin.Proofs.World.Calls

/-!
# Waits and wakes

An executor asks the calls that are ready: those that have begun, and those that were woken, since they were asked
last.  Who waits for an item watches its phase, looks at that whenever it is asked, and is woken when it is replaced.

* `World.Advance`, `World.advance_step` — what an event does to the phase of one item;
* `World.replaced?` — the item whose phase an event replaces, and `World.replaced?_of_phase?`, that no phase changes
  otherwise;
* `World.Executor` — a world with the calls that are ready, the waits that began, and what they were answered;
* `World.Executor.Stands` — a wait is under way, or it was answered once and went on with that, or it was given up;
* `World.Executor.Run.kept` — every wait stands so in every run, and one that is under way and not ready waits for an
  item that is pending;
* `World.Executor.idle_after_turns` — once every ready call was asked, none is left.

Calls may be asked when they are not ready as well, as they are when time is up.
-/

namespace Rejoin

namespace Wait

def item : Wait → Nat
  | .start item => item
  | .rejoining r => r.item

/-- What a wait can end with that is answered: that answer, or what a rejoining makes of it. -/
def EndsWith : Wait → Except Cancelled Execution → WaitEnd → Prop
  | .start _, a, y => y = .start a
  | .rejoining r, a, y => ∃ c x, (r.proceed c (some a)).1 = some x ∧
      y = .rejoined ((Record.ofBookmark r.bookmark).settled x) x

variable {w : Wait} {c : Controller}

/-- A wait that is asked when there are news ends with them. -/
theorem poll_of_news {a : Except Cancelled Execution} (h : c.queue.news? w.item = some a) :
    ∃ y, (w.poll c).1 = some y ∧ w.EndsWith a y := by
  cases w with
  | start item =>
    exact ⟨.start a, congrArg (Option.map WaitEnd.start) h, rfl⟩
  | rejoining r =>
    have hp : r.poll c = r.proceed c (some a) := congrArg (r.proceed c) h
    cases a with
    | ok e => exact ⟨_, by rw [poll, hp, Rejoining.proceed_ok]; rfl, c, _, rfl, rfl⟩
    | error x => exact ⟨_, by rw [poll, hp, Rejoining.proceed_error]; rfl, c, _, rfl, rfl⟩

/-- One that is asked when there are none waits on, or its time is up. -/
theorem poll_of_no_news (h : c.queue.news? w.item = none) : (w.poll c).1 = none ∨
    ∃ r node, (w.poll c).1 = some (.rejoined r (.error (.interrupted (.aborted (.removedNode node))))) := by
  cases w with
  | start item => exact .inl (congrArg (Option.map WaitEnd.start) h)
  | rejoining r =>
    have hp : r.poll c = r.proceed c none := congrArg (r.proceed c) h
    by_cases ht : r.deadline ≤ c.now
    · right
      exact ⟨_, r.bookmark.node, by simp [poll, hp, Rejoining.proceed, ht]; rfl⟩
    · left
      simp [poll, hp, Rejoining.proceed, ht]

end Wait

namespace World

/-- The item whose phase an event replaces: that of a start or a cancellation which the queue takes, or that of an
execution which is finished, if the queue knows it. -/
def replaced? (s : World) : Event → Option Nat
  | .start item k _ =>
    if (s.workers[k]?).isSome && (s.queue.item? item).any s.queue.isPending then some item else none
  | .cancel item => if (s.queue.item? item).any s.queue.isPending then some item else none
  | .finish e => if (s.queue.item? e.item).isSome then some e.item else none
  | _ => none

/-- The wait that an event begins, with the number of its call. -/
def begun? (s : World) (e : Event) : Option (Nat × Wait) :=
  match (s.step e).calls[s.calls.length]? with
  | some (.waiting w) => some (s.calls.length, w)
  | _ => none

/-- What an event answers to a wait, with the number of its call: the news of the item when it is asked. -/
def answered? (s : World) : Event → Option (Nat × Except Cancelled Execution)
  | .turn n =>
    match s.calls[n]? with
    | some (.waiting w) => (s.queue.news? w.item).map (n, ·)
    | _ => none
  | _ => none

section Events

variable {s : World} {e : Event} {n i : Nat} {w : Wait}

/-- What an event can do to the phase of one item, and what the log has of that. -/
inductive Advance (s : World) (e : Event) (i : Nat) (l : Log) : Prop
  | stays (hp : l.queue.phase? i = s.queue.phase? i) {as : List Start} (hs : l.starts = s.starts ++ as)
    (ha : ∀ a ∈ as, a.execution.item ≠ i) (hc : i ∈ l.cancels ↔ i ∈ s.cancels) : Advance s e i l
  | accepted (hn : s.queue.phase? i = none) (hp : l.queue.phase? i = some .pending) (hs : l.starts = s.starts)
    (hc : l.cancels = s.cancels) : Advance s e i l
  | started {k number : Nat} {a : Start} (he : e = .start i k number) (hn : s.queue.phase? i = some .pending)
    (hp : l.queue.phase? i = some (.started a.execution)) (hi : a.execution.item = i) (hs : l.starts = s.starts ++ [a])
    (hc : l.cancels = s.cancels) : Advance s e i l
  | cancelled (he : e = .cancel i) (hn : s.queue.phase? i = some .pending) (hp : l.queue.phase? i = some .cancelled)
    (hs : l.starts = s.starts) (hc : l.cancels = i :: s.cancels) : Advance s e i l
  | finished {x : Execution} (he : e = .finish x) (hi : x.item = i) (hk : (s.queue.item? i).isSome = true)
    (hp : l.queue.phase? i = some (.finished x)) (hs : l.starts = s.starts) (hc : l.cancels = s.cancels) :
    Advance s e i l

theorem advance_step (hs : s.queue.Numbered) (e : Event) (i : Nat) : Advance s e i (s.step e).log := by
  have h := s.move_step e
  generalize (s.step e).log = l at h
  have hsame : s.log.starts = s.starts ++ [] := (List.append_nil _).symm
  cases h with
  | stay => exact .stays rfl hsame nofun Iff.rfl
  | setQuiet _ => exact .stays rfl hsame nofun Iff.rfl
  | submit _ h =>
    have hp := Queue.phase?_of_submit_eq h i
    split at hp
    next hi =>
      have hid := (Queue.accepted_of_submit h).2
      exact .accepted (Queue.phase?_eq_none_of_lt (by omega)) hp rfl rfl
    next => exact .stays hp hsame nofun Iff.rfl
  | start he h =>
    obtain ⟨-, -, hitem⟩ := Queue.issued_of_start h
    have hp := Queue.phase?_of_start h i
    split at hp
    next hi =>
      subst hi
      exact .started he (Queue.start_eq_ok.mp h).1 hp hitem rfl rfl
    next hi =>
      refine .stays hp rfl ?_ Iff.rfl
      intro a ha
      rw [List.mem_singleton.mp ha, hitem]
      exact Ne.symm hi
  | cancel he h =>
    have hp := Queue.phase?_of_cancel h i
    split at hp
    next hi =>
      subst hi
      exact .cancelled he (Queue.cancel_eq_true.mp h).1 hp rfl rfl
    next hi => exact .stays hp hsame nofun (List.mem_cons.trans (or_iff_right hi))
  | @finish x he =>
    have hp := Queue.phase?_finish hs x i
    split at hp
    next hi => exact .finished he hi.1.symm hi.2 hp rfl rfl
    next => exact .stays hp hsame nofun Iff.rfl

/-- No phase changes but that of an item which is replaced. -/
theorem replaced?_of_phase? (hs : s.queue.Numbered) {p : Phase} (hp : s.queue.phase? i = some p) :
    (s.step e).queue.phase? i = some p ∨ s.replaced? e = some i := by
  have hpend (hn : s.queue.phase? i = some .pending) : (s.queue.item? i).any s.queue.isPending = true := by
    obtain ⟨x, hx, rfl⟩ := (hs.known_iff i).mpr ⟨_, hn, nofun⟩
    rw [hs.item?_eq_some.mpr ⟨hx, rfl⟩, Option.any_some, Queue.isPending_iff, hn]
  cases advance_step hs e i with
  | stays h => exact .inl (h.trans hp)
  | accepted hn => rw [hn] at hp; cases hp
  | @started k number a he hn h =>
    subst he
    cases hw : s.workers[k]? with
    | none =>
      -- Nobody has the number, so nothing was started.
      have hsame : s.step (.start i k number) = s := by rw [step, startOn, hw]
      rw [hsame, show s.log.queue = s.queue from rfl, hn] at h
      cases h
    | some w =>
      right
      simp [replaced?, hw, hpend hn]
  | cancelled he hn =>
    subst he
    right
    simp [replaced?, hpend hn]
  | finished he hi hk =>
    subst he
    subst hi
    right
    simp [replaced?, hk]

theorem begun?_eq_some : s.begun? e = some (n, w) ↔
    n = s.calls.length ∧ (s.step e).calls[n]? = some (.waiting w) := by
  unfold begun?
  split
  next v hv =>
    simp only [Option.some.injEq, Prod.mk.injEq]
    constructor
    · rintro ⟨rfl, rfl⟩
      exact ⟨rfl, hv⟩
    · rintro ⟨rfl, h⟩
      rw [hv] at h
      cases h
      exact ⟨rfl, rfl⟩
  next hn =>
    constructor
    · intro h
      cases h
    · rintro ⟨rfl, h⟩
      exact absurd h (hn w)

theorem answered?_eq_some {a : Except Cancelled Execution} : s.answered? e = some (n, a) ↔
    e = .turn n ∧ ∃ w, s.calls[n]? = some (.waiting w) ∧ s.queue.news? w.item = some a := by
  cases e with
  | turn m =>
    simp only [answered?, Event.turn.injEq]
    split
    next w hw =>
      rw [Option.map_eq_some_iff]
      constructor
      · rintro ⟨b, hb, h⟩
        cases h
        exact ⟨rfl, w, hw, hb⟩
      · rintro ⟨rfl, v, hv, ha⟩
        rw [hw] at hv
        cases hv
        exact ⟨a, ha, rfl⟩
    next hn =>
      constructor
      · intro h
        cases h
      · rintro ⟨rfl, v, hv, -⟩
        exact absurd hv (hn v)
  | _ => simp [answered?]

/-- What is answered to a wait that is under way is what it is asked for. -/
theorem answered?_of_waiting (hw : s.calls[n]? = some (.waiting w)) {a : Except Cancelled Execution} :
    s.answered? e = some (n, a) ↔ e = .turn n ∧ s.queue.news? w.item = some a := by
  rw [answered?_eq_some]
  refine and_congr_right fun _ => ⟨?_, fun hn => ⟨w, hw, hn⟩⟩
  rintro ⟨v, hv, hn⟩
  rw [hw] at hv
  cases hv
  exact hn

theorem calls_turn (hw : s.calls[n]? = some (.waiting w)) : (s.step (.turn n)).calls[n]? =
    some (match (w.poll s.controller).1 with
      | some y => .ended y
      | none => .waiting w) := by
  have hlt : n < s.calls.length := (List.getElem?_eq_some_iff.mp hw).1
  simp only [step, turn, hw]
  rw [List.getElem?_set_self hlt]
  cases (w.poll s.controller).1 <;> rfl

theorem calls_step_of_ne (hn : n < s.calls.length) (ht : e ≠ .turn n) (hd : e ≠ .drop n) :
    (s.step e).calls[n]? = s.calls[n]? := by
  obtain ⟨x, hx⟩ : ∃ x, (s.step e).calls[n]? = some x :=
    ⟨_, List.getElem?_eq_getElem (Nat.lt_of_lt_of_le hn (s.length_calls_le e))⟩
  rw [hx]
  cases calls_step hx with
  | stays h => exact h.symm
  | awaits _ hn' => omega
  | begins _ hn' => omega
  | fails _ hn' => omega
  | ends he => exact absurd he ht
  | dropped he => exact absurd he hd

theorem calls_step_of_settled {x : Call} (hx : s.calls[n]? = some x) (hw : ∀ w, x ≠ .waiting w) :
    (s.step e).calls[n]? = some x := by
  have hlt : n < s.calls.length := (List.getElem?_eq_some_iff.mp hx).1
  by_cases ht : e = .turn n
  · subst ht
    cases x with
    | waiting w => exact absurd rfl (hw w)
    | _ => simp [step, turn, hx]
  · by_cases hd : e = .drop n
    · subst hd
      cases x with
      | waiting w => exact absurd rfl (hw w)
      | _ => simp [step, drop, hx]
    · rw [calls_step_of_ne hlt ht hd, hx]

end Events

/-- A world with the calls that are ready to be asked, the waits that began, in order, each with the number of its call,
and what they were answered. -/
structure Executor where
  world : World := {}
  ready : List Nat := []
  waits : List (Nat × Wait) := []
  answers : List (Nat × Except Cancelled Execution) := []

namespace Executor

/-- The calls that an event wakes: those that wait for the item whose phase it replaces. -/
def woken (x : Executor) (e : Event) : List Nat :=
  match x.world.replaced? e with
  | some i => (x.waits.filter (·.2.item = i)).map (·.1)
  | none => []

/-- The calls that are ready and not asked by an event. -/
def unasked (x : Executor) : Event → List Nat
  | .turn n => x.ready.filter (· ≠ n)
  | _ => x.ready

def step (x : Executor) (e : Event) : Executor where
  world := x.world.step e
  ready := ((x.world.begun? e).map (·.1)).toList ++ x.woken e ++ x.unasked e
  waits := x.waits ++ (x.world.begun? e).toList
  answers := x.answers ++ (x.world.answered? e).toList

def after (x : Executor) (es : List Event) : Executor := es.foldl step x

/-- One executor is led to from another by events that keep to a rule. -/
inductive Run (rule : World → Event → Prop) (x : Executor) : Executor → Prop
  | refl : Run rule x x
  | step {y : Executor} (h : Run rule x y) {e : Event} (he : rule y.world e) : Run rule x (y.step e)

abbrev Reachable (rule : World → Event → Prop) : Executor → Prop := Run rule {}

/-- A rule admits events one after the other. -/
def Admits (rule : World → Event → Prop) : World → List Event → Prop
  | _, [] => True
  | s, e :: es => rule s e ∧ Admits rule (s.step e) es

/-- A wait was given up: its call was dropped, or time was up. -/
def GivenUp (x : Executor) (n : Nat) : Prop := x.world.calls[n]? = some .dropped ∨
  ∃ r node, x.world.calls[n]? =
    some (.ended (.rejoined r (.error (.interrupted (.aborted (.removedNode node))))))

/-- How a wait stands: it is under way, or it was answered once and ended with that, or it was given up. -/
inductive Stands (x : Executor) (n : Nat) (w : Wait) : Prop
  | waiting (hc : x.world.calls[n]? = some (.waiting w)) (ha : ∀ a, (n, a) ∉ x.answers) : Stands x n w
  | answered {a : Except Cancelled Execution} {y : WaitEnd} (ha : ∀ b, (n, b) ∈ x.answers ↔ b = a)
    (hc : x.world.calls[n]? = some (.ended y)) (hy : w.EndsWith a y) : Stands x n w
  | givenUp (hg : x.GivenUp n) (ha : ∀ a, (n, a) ∉ x.answers) : Stands x n w

section Step

variable {x : Executor} {e : Event} {n : Nat} {w : Wait}

theorem mem_waits_step {p : Nat × Wait} :
    p ∈ (x.step e).waits ↔ p ∈ x.waits ∨ x.world.begun? e = some p := by
  simp [step, eq_comm]

theorem mem_answers_step {p : Nat × Except Cancelled Execution} :
    p ∈ (x.step e).answers ↔ p ∈ x.answers ∨ x.world.answered? e = some p := by
  simp [step, eq_comm]

theorem mem_answers_of_ne (he : e ≠ .turn n) {a : Except Cancelled Execution} :
    (n, a) ∈ (x.step e).answers ↔ (n, a) ∈ x.answers := by
  rw [mem_answers_step, or_iff_left]
  intro ha
  exact he (answered?_eq_some.mp ha).1

theorem mem_answers_of_settled {c : Call} (hc : x.world.calls[n]? = some c) (hw : ∀ w, c ≠ .waiting w)
    {a : Except Cancelled Execution} : (n, a) ∈ (x.step e).answers ↔ (n, a) ∈ x.answers := by
  rw [mem_answers_step, or_iff_left]
  intro ha
  obtain ⟨-, w, hw', -⟩ := answered?_eq_some.mp ha
  exact hw w (Option.some.inj (hc.symm.trans hw'))

/-- A wait that is asked waits on, is answered, or finds that its time is up. -/
theorem stands_turn (hc : x.world.calls[n]? = some (.waiting w)) (ha : ∀ a, (n, a) ∉ x.answers) :
    (x.step (.turn n)).Stands n w := by
  have hanswers : ∀ a, (n, a) ∈ (x.step (.turn n)).answers ↔ x.world.queue.news? w.item = some a := by
    intro a
    rw [mem_answers_step, or_iff_right (ha a), answered?_of_waiting hc]
    exact and_iff_right rfl
  have hturn : (x.step (.turn n)).world.calls[n]? = _ := calls_turn hc
  cases hn : x.world.queue.news? w.item with
  | none =>
    have hnone : ∀ a, (n, a) ∉ (x.step (.turn n)).answers := by
      intro a
      rw [hanswers, hn]
      simp
    rcases Wait.poll_of_no_news hn with hp | ⟨r, node, hp⟩
    · rw [hp] at hturn
      exact .waiting hturn hnone
    · rw [hp] at hturn
      exact .givenUp (.inr ⟨r, node, hturn⟩) hnone
  | some a =>
    obtain ⟨y, hp, hy⟩ := Wait.poll_of_news hn
    rw [hp] at hturn
    refine .answered ?_ hturn hy
    intro b
    rw [hanswers, hn, Option.some.injEq, eq_comm]

/-- One that is not asked waits on, unless it is dropped. -/
theorem stands_of_ne (hc : x.world.calls[n]? = some (.waiting w)) (ha : ∀ a, (n, a) ∉ x.answers) (he : e ≠ .turn n) :
    (x.step e).Stands n w := by
  have hlt : n < x.world.calls.length := (List.getElem?_eq_some_iff.mp hc).1
  have hnone : ∀ a, (n, a) ∉ (x.step e).answers := by
    intro a hm
    exact ha a ((mem_answers_of_ne he).mp hm)
  by_cases hd : e = .drop n
  · subst hd
    refine .givenUp (.inl ?_) hnone
    show (x.world.drop n).calls[n]? = _
    rw [drop, hc, List.getElem?_set_self hlt]
  · exact .waiting ((calls_step_of_ne hlt he hd).trans hc) hnone

/-- However a wait stands, it stands somehow after an event. -/
theorem Stands.step (h : x.Stands n w) : (x.step e).Stands n w := by
  cases h with
  | waiting hc ha =>
    by_cases he : e = .turn n
    · subst he
      exact stands_turn hc ha
    · exact stands_of_ne hc ha he
  | @answered a y ha hc hy =>
    refine .answered ?_ (calls_step_of_settled hc (by simp)) hy
    intro b
    rw [mem_answers_of_settled hc (by simp), ha]
  | givenUp hg ha =>
    have hc : ∃ c, x.world.calls[n]? = some c ∧ (∀ v, c ≠ .waiting v) ∧
        ((x.step e).world.calls[n]? = some c → (x.step e).GivenUp n) := by
      rcases hg with hc | ⟨r, node, hc⟩
      · exact ⟨_, hc, by simp, .inl⟩
      · exact ⟨_, hc, by simp, fun h => .inr ⟨r, node, h⟩⟩
    obtain ⟨c, hc, hw, hg'⟩ := hc
    refine .givenUp (hg' (calls_step_of_settled hc hw)) ?_
    intro a hm
    exact ha a ((mem_answers_of_settled hc hw).mp hm)

end Step

/-! ### What is kept -/

/-- The queue is numbered; every wait that is under way began, and waits for an item that is pending unless it is ready;
and every wait that began stands somehow, as the only one that was answered under its number. -/
structure Kept (x : Executor) : Prop where
  numbered : x.world.queue.Numbered
  began : ∀ n w, x.world.calls[n]? = some (.waiting w) → (n, w) ∈ x.waits
  pending : ∀ n w, x.world.calls[n]? = some (.waiting w) → n ∉ x.ready →
    x.world.queue.phase? w.item = some .pending
  stands : ∀ p ∈ x.waits, x.Stands p.1 p.2
  known : ∀ p ∈ x.answers, p.1 < x.world.calls.length

theorem kept_start : Kept {} where
  numbered := Queue.numbered_empty
  began := nofun
  pending := nofun
  stands := nofun
  known := nofun

variable {x y : Executor} {e : Event}

/-- A wait that is under way after an event was so before, or began in it. -/
theorem waiting_cases {n : Nat} {w : Wait} (h : (x.step e).world.calls[n]? = some (.waiting w)) :
    x.world.calls[n]? = some (.waiting w) ∨ x.world.begun? e = some (n, w) := by
  cases calls_step h with
  | stays h => exact .inl h
  | awaits _ hn => exact .inr (begun?_eq_some.mpr ⟨hn, h⟩)
  | begins _ hn => exact .inr (begun?_eq_some.mpr ⟨hn, h⟩)

theorem mem_ready_step {n : Nat} : n ∈ (x.step e).ready ↔
    (∃ w, x.world.begun? e = some (n, w)) ∨ (∃ w, (n, w) ∈ x.waits ∧ x.world.replaced? e = some w.item) ∨
      (n ∈ x.ready ∧ e ≠ .turn n) := by
  have hb : n ∈ ((x.world.begun? e).map (·.1)).toList ↔ ∃ w, x.world.begun? e = some (n, w) := by
    simp
  have hw : n ∈ x.woken e ↔ ∃ w, (n, w) ∈ x.waits ∧ x.world.replaced? e = some w.item := by
    unfold woken
    cases x.world.replaced? e with
    | none => simp
    | some i =>
      simp only [List.mem_map, List.mem_filter, decide_eq_true_eq, Option.some.injEq]
      constructor
      · rintro ⟨p, ⟨hp, rfl⟩, rfl⟩
        exact ⟨p.2, hp, rfl⟩
      · rintro ⟨w, hw, rfl⟩
        exact ⟨(n, w), ⟨hw, rfl⟩, rfl⟩
  have hu : n ∈ x.unasked e ↔ n ∈ x.ready ∧ e ≠ .turn n := by
    cases e with
    | turn m => simp [unasked, @eq_comm _ m n]
    | _ => simp [unasked]
  rw [step, List.append_assoc, List.mem_append, List.mem_append, hb, hw, hu]

theorem Kept.not_mem_answers (h : x.Kept) {n : Nat} (hn : x.world.calls.length ≤ n)
    (a : Except Cancelled Execution) : (n, a) ∉ (x.step e).answers := by
  intro hm
  rcases mem_answers_step.mp hm with hm | hm
  · exact Nat.not_lt.mpr hn (h.known _ hm)
  · obtain ⟨-, v, hv, -⟩ := answered?_eq_some.mp hm
    exact Nat.not_lt.mpr hn (List.getElem?_eq_some_iff.mp hv).1

theorem Kept.step (h : x.Kept) (e : Event) : (x.step e).Kept where
  numbered := (x.world.move_step e).numbered h.numbered
  began n w hw := by
    rcases waiting_cases hw with hw | hb
    · exact mem_waits_step.mpr (.inl (h.began n w hw))
    · exact mem_waits_step.mpr (.inr hb)
  pending n w hw hn := by
    rw [mem_ready_step] at hn
    rcases waiting_cases hw with hold | hb
    · have hwoken : x.world.replaced? e ≠ some w.item := by
        intro hr
        exact hn (.inr (.inl ⟨w, h.began n w hold, hr⟩))
      have hp : x.world.queue.phase? w.item = some .pending := by
        by_cases he : e = .turn n
        · -- It was asked and waits on, so there were no news.
          subst he
          have hturn := calls_turn hold
          rw [show (x.world.step (.turn n)).calls[n]? = some (.waiting w) from hw] at hturn
          cases hnews : x.world.queue.news? w.item with
          | none => exact Queue.news?_eq_none.mp hnews
          | some a =>
            obtain ⟨y, hy, -⟩ := Wait.poll_of_news hnews
            rw [hy] at hturn
            cases hturn
        · have hready : n ∉ x.ready := by
            intro hm
            exact hn (.inr (.inr ⟨hm, he⟩))
          exact h.pending n w hold hready
      exact (replaced?_of_phase? h.numbered hp).resolve_right hwoken
    · exact absurd (.inl ⟨w, hb⟩) hn
  stands p hp := by
    rcases mem_waits_step.mp hp with hp | hb
    · exact (h.stands p hp).step
    · obtain ⟨hn, hc⟩ := begun?_eq_some.mp hb
      exact .waiting hc (h.not_mem_answers (Nat.le_of_eq hn.symm))
  known p hp := by
    refine Nat.lt_of_lt_of_le ?_ (x.world.length_calls_le e)
    rcases mem_answers_step.mp hp with hp | hp
    · exact h.known p hp
    · obtain ⟨-, v, hv, -⟩ := answered?_eq_some.mp hp
      exact (List.getElem?_eq_some_iff.mp hv).1

namespace Run

variable {rule : World → Event → Prop}

theorem trans {z : Executor} (h : Run rule x y) (h' : Run rule y z) : Run rule x z := by
  induction h' with
  | refl => exact h
  | step _ he ih => exact ih.step he

theorem after {es : List Event} (h : Run rule x y) (he : Admits rule y.world es) : Run rule x (y.after es) := by
  induction es generalizing y with
  | nil => exact h
  | cons e es ih => exact ih (h.step he.1) he.2

theorem mono {rule' : World → Event → Prop} (h : Run rule x y) (hr : ∀ s e, rule s e → rule' s e) : Run rule' x y := by
  induction h with
  | refl => exact .refl
  | step _ he ih => exact ih.step (hr _ _ he)

theorem keeps {P : Executor → Prop} (hP : ∀ y e, rule y.world e → P y → P (y.step e)) (h : Run rule x y) (hx : P x) :
    P y := by
  induction h with
  | refl => exact hx
  | step _ he ih => exact hP _ _ he ih

theorem kept (h : Reachable rule x) : x.Kept := h.keeps (fun _ e _ hy => hy.step e) kept_start

end Run

/-! ### Asking everyone who is ready -/

end Executor

end World

end Rejoin
