import Rejoin.Proofs.Queue.Lifecycle
import Rejoin.Proofs.Queue.Lookup

/-!
# What an operation leaves alone

* `Queue.finish_of_finished` — an execution that is finished once more changes nothing;
* `Queue.byToken?_of_filter` — an item that leaves the index takes no token along that finds another one;
* `Queue.History.Spares` — nothing has changed about the items but one, whoever asks: their phases, what those who wait
  for them learn, their slots, and the tokens that find them;
* `Queue.History.spares_of_start`, `Queue.History.spares_of_cancel`, `Queue.History.spares_finish` — so it is with each
  operation on an item;
* `Queue.History.others_left_alone` — what a queue refuses changes nothing, and what it does to an item spares
  the others;
* `Queue.History.made_up_finish_frees_slot` — which an execution that the queue did not start need not.
-/

namespace Rejoin.Queue

variable {q q' : Queue}

/-! ### Writing what is there already -/

theorem setPhase_self {n : Nat} {p : Phase} (h : q.phase? n = some p) : q.setPhase n p = q := by
  cases n with
  | zero => rfl
  | succ n =>
    obtain ⟨hn, rfl⟩ := List.getElem?_eq_some_iff.mp h
    simp [setPhase]

theorem filter_claims_of_unclaimed {e : Execution} (h : q.claimed? e = none) :
    q.claims.filter (·.1 ≠ e.id) = q.claims := by
  rw [List.filter_eq_self]
  intro c hc
  have hne : (e.id == c.1) = false := by simpa using List.lookup_eq_none_iff.mp h c hc
  exact decide_eq_true (Ne.symm (ne_of_beq_false hne))

theorem Indexed.filter_tokens (h : q.Indexed) {n : Nat} {p : Phase} (hp : q.phase? n = some p)
    (hended : p.isLive = false) : q.tokens.filter (·.2 ≠ n) = q.tokens := by
  rw [List.filter_eq_self]
  rintro ⟨t, m⟩ hm
  obtain ⟨i, hi, rfl, -⟩ := h.live t m hm
  obtain ⟨-, p', hp', hlive⟩ := live_iff.mp hi
  have hne : i.id ≠ n := by
    rintro rfl
    rw [hp] at hp'
    rw [Option.some.inj hp', hlive] at hended
    cases hended
  exact decide_eq_true hne

/-- An execution that is finished once more changes nothing. -/
theorem finish_of_finished (h : q.Indexed) {e : Execution} (hp : q.phase? e.item = some (.finished e))
    (hc : q.claimed? e = none) : q.finish e = q := by
  have hkeep : Queue.forget { q with claims := q.claims.filter (·.1 ≠ e.id) } e.item = q := by
    rw [filter_claims_of_unclaimed hc, forget, h.filter_tokens hp rfl]
  unfold finish
  dsimp only
  rw [hkeep, setPhase_self hp, ite_self]

/-! ### The other items -/

theorem item?_of_cancel {n m : Nat} (h : q.cancel n = (true, q')) (hm : m ≠ n) : q'.item? m = q.item? m := by
  rw [item?, known_of_cancel h, List.find?_filter, item?]
  congr 1
  funext i
  by_cases hi : i.id = m <;> simp [hi, hm]

theorem learnt_congr {m : Nat} (hi : q'.item? m = q.item? m) (hp : q'.phase? m = q.phase? m) :
    q'.news? m = q.news? m ∧ q'.arrive m = q.arrive m := by
  have hn : q'.news? m = q.news? m := by rw [news?, hp, news?]
  exact ⟨hn, by rw [arrive, hi, hn, arrive]⟩

theorem byToken?_of_filter {n : Nat} (hi : q.Indexed) (hn : q.Numbered) (hi' : q'.Indexed) (hn' : q'.Numbered)
    (ht : q'.tokens = q.tokens.filter (·.2 ≠ n)) (hl : ∀ j, q'.Live j ↔ q.Live j ∧ j.id ≠ n) {t : String} {i : Item} :
    q'.byToken? t = some i ↔ q.byToken? t = some i ∧ i.id ≠ n := by
  rw [hi'.byToken?_iff_mem hn', hi.byToken?_iff_mem hn, hl, ht, List.mem_filter, decide_eq_true_eq]
  constructor
  · rintro ⟨⟨hlive, hne⟩, hm, -⟩
    exact ⟨⟨hlive, hm⟩, hne⟩
  · rintro ⟨⟨hlive, hm⟩, hne⟩
    exact ⟨⟨hlive, hne⟩, hm, hne⟩

theorem byToken?_of_start {n : Nat} {s : Slot} {e : Execution} (h : q.start n s = .ok (e, q')) (t : String) :
    q'.byToken? t = q.byToken? t := by
  have hitem : q'.item? = q.item? := by
    funext m
    rw [item?, known_of_start h, item?]
  rw [byToken?, tokens_of_start h, hitem, byToken?]

theorem filter_congr_of_ne {n : Nat} {l l' : List Item} {f f' : Item → Bool}
    (hl : l'.filter (·.id ≠ n) = l.filter (·.id ≠ n)) (hf : ∀ i : Item, i.id ≠ n → f' i = f i) :
    (l'.filter f').filter (·.id ≠ n) = (l.filter f).filter (·.id ≠ n) := by
  have hcomm : ∀ (k : List Item) (g : Item → Bool),
      (k.filter g).filter (·.id ≠ n) = (k.filter (·.id ≠ n)).filter g := by
    intro k g
    rw [List.filter_filter, List.filter_filter]
    exact List.filter_congr fun i _ => Bool.and_comm _ _
  rw [hcomm, hcomm, hl]
  refine List.filter_congr ?_
  intro i hi
  exact hf i (by simpa using (List.mem_filter.mp hi).2)

namespace History

/-- Nothing has changed about the items but one, whoever asks. -/
structure Spares (h : History) (n : Nat) (q : Queue) : Prop where
  phase : ∀ m, m ≠ n → q.phase? m = h.queue.phase? m
  item : ∀ m, m ≠ n → q.item? m = h.queue.item? m
  learnt : ∀ m, m ≠ n → q.news? m = h.queue.news? m ∧ q.arrive m = h.queue.arrive m
  slot : ∀ a ∈ h.starts, a.execution.item ≠ n → q.claimed? a.execution = h.queue.claimed? a.execution
  token : ∀ t i, i.id ≠ n → (q.byToken? t = some i ↔ h.queue.byToken? t = some i)
  pending : q.pending.filter (·.id ≠ n) = h.queue.pending.filter (·.id ≠ n)
  running : q.running.filter (·.id ≠ n) = h.queue.running.filter (·.id ≠ n)

variable {h : History}

/-- Phases, known items, slots and tokens are all that there is to it. -/
theorem Spares.of_phase {n : Nat} {q : Queue} (hp : ∀ m, m ≠ n → q.phase? m = h.queue.phase? m)
    (hi : ∀ m, m ≠ n → q.item? m = h.queue.item? m)
    (hk : q.known.filter (·.id ≠ n) = h.queue.known.filter (·.id ≠ n))
    (hs : ∀ a ∈ h.starts, a.execution.item ≠ n → q.claimed? a.execution = h.queue.claimed? a.execution)
    (ht : ∀ t i, i.id ≠ n → (q.byToken? t = some i ↔ h.queue.byToken? t = some i)) : h.Spares n q where
  phase := hp
  item := hi
  learnt m hm := learnt_congr (hi m hm) (hp m hm)
  slot := hs
  token := ht
  pending := filter_congr_of_ne hk fun i hne => by rw [isPending, hp i.id hne, isPending]
  running := filter_congr_of_ne hk fun i hne => by rw [isRunning, hp i.id hne, isRunning]

section Operations

variable {n : Nat} {q : Queue}

theorem spares_of_start (hk : h.Kept) {s : Slot} {e : Execution} (hs : h.queue.start n s = .ok (e, q)) :
    h.Spares n q := by
  have hknown := known_of_start hs
  refine .of_phase ?_ ?_ (by rw [hknown]) ?_ ?_
  · intro m hm
    rw [phase?_of_start hs, if_neg hm]
  · intro m _
    rw [item?, hknown, item?]
  · intro a ha _
    -- The number of the new execution is above those of all others.
    have hle := hk.faithful.issued a ha
    have hid := (issued_of_start hs).2.1
    rw [claimed?_of_start hs, if_neg (by omega)]
  · intro t i _
    rw [byToken?_of_start hs]

theorem spares_of_cancel (hk : h.Kept) (hi : h.queue.Indexed) (hs : h.queue.cancel n = (true, q)) :
    h.Spares n q := by
  refine .of_phase ?_ (fun m hm => item?_of_cancel hs hm) ?_ ?_ ?_
  · intro m hm
    rw [phase?_of_cancel hs, if_neg hm]
  · rw [known_of_cancel hs, List.filter_filter]
    simp only [Bool.and_self]
  · intro a _ _
    exact claimed?_of_cancel hs a.execution
  · intro t i hne
    rw [byToken?_of_filter hi hk.numbered (hi.of_cancel hs) (hk.numbered.of_cancel hs) (tokens_of_cancel hs)
      (live_of_cancel hs), and_iff_left hne]

/-- What the queue started itself is finished without harm to any other item. -/
theorem spares_finish (hk : h.Kept) (hi : h.queue.Indexed) {a : World.Start} (ha : a ∈ h.starts) :
    h.Spares a.execution.item (h.queue.finish a.execution) := by
  refine .of_phase ?_ ?_ (by rw [known_finish]) ?_ ?_
  · intro m hm
    rw [phase?_finish hk.numbered, if_neg fun hc => hm hc.1]
  · intro m _
    rw [item?, known_finish, item?]
  · intro b hb hne
    -- No two executions have one number.
    have hid : b.execution.id ≠ a.execution.id := by
      intro he
      rw [hk.faithful.apart b hb a ha he] at hne
      exact hne rfl
    rw [claimed?_finish, if_neg hid]
  · intro t i hne
    rw [byToken?_of_filter hi hk.numbered (hi.finish hk.numbered _) (hk.numbered.finish _) (tokens_finish _ _)
      (live_finish hk.numbered _), and_iff_left hne]

end Operations

/-! ### What is refused -/

/-- No item was accepted under the number, or it was cancelled. -/
def Unknown (h : History) (n : Nat) : Prop := n ∉ h.items.map (·.id) ∨ n ∈ h.cancels

/-- The item was started, and may have been finished since. -/
def Begun (h : History) (n : Nat) : Prop := ∃ a ∈ h.starts, a.execution.item = n

namespace Kept

variable {n : Nat}

theorem item?_of_unknown (hk : h.Kept) (hu : h.Unknown n) : h.queue.item? n = none := by
  rw [hk.numbered.item?_eq_none]
  rcases hu with hn | hc
  · left
    by_contra hp
    obtain ⟨i, hi, hid⟩ := hk.mem_ids.mpr (exists_phase?_iff.mp (Option.ne_none_iff_exists'.mp hp))
    exact hn (List.mem_map.mpr ⟨i, hi, hid⟩)
  · right
    have ht := hk.faithful.tells n
    cases hp : h.queue.phase? n with
    | none =>
      rw [hp] at ht
      exact absurd hc ht.2
    | some p =>
      rw [hp] at ht
      exact congrArg some (World.Log.Tells.mem_cancels_iff ht |>.mp hc)

theorem refuses_unknown (hk : h.Kept) (hu : h.Unknown n) :
    (∀ s, h.queue.start n s = .error (.notFound n)) ∧ h.queue.cancel n = (false, h.queue) := by
  have hi := hk.item?_of_unknown hu
  exact ⟨start_of_item?_eq_none hi, cancel_of_item?_eq_none hi⟩

theorem refuses_begun (hk : h.Kept) (hb : h.Begun n) :
    (∀ s, h.queue.start n s = .error (.notPending n)) ∧ h.queue.cancel n = (false, h.queue) := by
  obtain ⟨a, ha, rfl⟩ := hb
  obtain ⟨hnc, hp⟩ := hk.faithful.of_start ha
  obtain ⟨i, hi⟩ : ∃ i, h.queue.item? a.execution.item = some i := by
    rw [← Option.ne_none_iff_exists', Ne, hk.numbered.item?_eq_none]
    rcases hp with hp | hp <;> simp [hp]
  have hnot : h.queue.isPending i = false := by
    rw [isPending, id_of_item? hi]
    rcases hp with hp | hp <;> simp [hp, Phase.isPending]
  refine ⟨?_, cancel_of_not_isPending hi hnot⟩
  intro s
  simp [start, hi, hnot]

theorem finish_again (hk : h.Kept) (hi : h.queue.Indexed) {e : Execution} (he : e ∈ h.finishes) :
    h.queue.finish e = h.queue := by
  obtain ⟨a, ha, rfl⟩ := hk.faithful.ended e he
  have ht := hk.faithful.tells a.execution.item
  rcases (hk.faithful.of_start ha).2 with hp | hp
  · rw [hp] at ht
    obtain ⟨-, _, -, -, -, hunfinished, -⟩ := ht
    exact absurd he hunfinished
  · rw [hp] at ht
    obtain ⟨-, _, -, -, -, -, hc⟩ := ht
    exact finish_of_finished hi hp hc

theorem accepts_other (hk : h.Kept) (hu : ¬h.Unknown n) (hb : ¬h.Begun n) :
    (∀ s, ∃ e q', h.queue.start n s = .ok (e, q')) ∧ ∃ q', h.queue.cancel n = (true, q') := by
  obtain ⟨hmem, hc⟩ := not_or.mp hu
  obtain ⟨i, hi, rfl⟩ := List.mem_map.mp (not_not.mp hmem)
  have hp : h.queue.phase? i.id = some .pending := by
    refine (hk.tells_iff hi).mp ⟨?_, hc⟩
    intro a ha he
    exact hb ⟨a, ha, he⟩
  have hknown : i ∈ h.queue.known := by simp [hk.mem_known, hi, hp]
  have hitem : h.queue.item? i.id = some i := hk.numbered.item?_eq_some.mpr ⟨hknown, rfl⟩
  constructor
  · intro s
    exact ⟨_, _, start_eq_ok (s := s) |>.mpr ⟨hp, i, hitem, rfl, rfl⟩⟩
  · exact ⟨_, cancel_eq_true.mpr ⟨hp, by rw [hitem]; rfl, rfl⟩⟩

end Kept

/-! ### Whatever is done to a queue -/

/-- **What an operation leaves alone.**  Whatever was done to a queue: it refuses to start and to cancel what it does
not know and what was started already, it refuses what is submitted while it is quiet, and neither these nor the end of
an execution that has ended change anything about it.  Every other item it starts and cancels, and it finishes what it
has started; and then nothing changes about the other items, not their phases, nor what those learn who wait for them,
nor the slots of their executions, nor the tokens that find them. -/
theorem others_left_alone (as : List Act) :
    let h := after as
    let q := h.queue
    ((∀ n, h.Unknown n → (∀ s, q.start n s = .error (.notFound n)) ∧ q.cancel n = (false, q)) ∧
      (∀ n, h.Begun n → (∀ s, q.start n s = .error (.notPending n)) ∧ q.cancel n = (false, q)) ∧
      (q.quiet = true → ∀ w priority, q.submit w priority = none) ∧
      ∀ e ∈ h.finishes, q.finish e = q) ∧
    (∀ n, ¬h.Unknown n → ¬h.Begun n →
      (∀ s, ∃ e q', q.start n s = .ok (e, q') ∧ h.Spares n q') ∧ ∃ q', q.cancel n = (true, q') ∧ h.Spares n q') ∧
    ∀ a ∈ h.starts, h.Spares a.execution.item (q.finish a.execution) := by
  intro h q
  have hk : h.Kept := kept_after as
  have hi : q.Indexed := (pointed_after as).indexed
  refine ⟨⟨?_, ?_, ?_, ?_⟩, ?_, ?_⟩
  · intro n hu
    exact hk.refuses_unknown hu
  · intro n hb
    exact hk.refuses_begun hb
  · intro hq w priority
    exact submit_of_quiet hq w priority
  · intro e he
    exact hk.finish_again hi he
  · intro n hu hb
    obtain ⟨hstart, q', hcancel⟩ := hk.accepts_other hu hb
    refine ⟨?_, q', hcancel, spares_of_cancel hk hi hcancel⟩
    intro s
    obtain ⟨e, q₁, hs⟩ := hstart s
    exact ⟨e, q₁, hs, spares_of_start hk hs⟩
  · intro a ha
    exact spares_finish hk hi ha

/-- An execution that is finished for the second time, when its token has been submitted and started again. -/
theorem finished_again_left_alone :
    let s : Slot := ⟨Fleet.controllerWorker, 1⟩
    let as : List Act := [.submit placeholder 0, .start 1 s, .finish 0, .submit placeholder 0, .start 2 s]
    let h := after as
    let e : Execution := ⟨1, 1, placeholder.text⟩
    (e ∈ h.finishes ∧ h.queue.byToken? "token" = some ⟨2, placeholder, 0⟩) ∧ h.queue.finish e = h.queue := by
  intro s as h e
  have he : e ∈ h.finishes := by decide
  exact ⟨⟨he, by decide⟩, (others_left_alone as).1.2.2.2 e he⟩

/-- A made-up execution that names one item and has the number of another item's execution, which goes on to run
without its slot. -/
theorem made_up_finish_frees_slot :
    let s : Slot := ⟨Fleet.controllerWorker, 1⟩
    let h := after [.submit (.job "one") 0, .submit (.job "two") 0, .start 1 s, .start 2 s]
    let e : Execution := ⟨1, 1, "one"⟩
    let forged : Execution := ⟨1, 2, "made up"⟩
    (h.queue.claimed? e = some s ∧ (h.queue.finish forged).phase? 1 = some (.started e) ∧
      (h.queue.finish forged).claimed? e = none) ∧ ¬h.Spares forged.item (h.queue.finish forged) := by
  intro s h e forged
  have hs : h.queue.claimed? e = some s := by decide
  have hf : (h.queue.finish forged).claimed? e = none := by decide
  refine ⟨⟨hs, by decide, hf⟩, ?_⟩
  intro hspares
  have hsame := hspares.slot ⟨e, s, 0⟩ (by decide) (by decide)
  rw [hf, hs] at hsame
  cases hsame

end History

end Rejoin.Queue
