import Rejoin.Proofs.Queue.Phases

/-!
# The index of tokens

* `Queue.Indexed` — the index has one entry at most for each token, which points at a live item that carries it.
  Every operation keeps that;
* `Queue.Covered` — every live item is found under its token.  A submission keeps that when no live item carries
  its token yet;
* `Queue.byToken?_eq_some` — of a queue that is indexed and covered, a token finds the one live item that carries
  it;
* `Queue.Leads` — a token leads to one item for as long as that is live, whoever carries it.  Every operation keeps
  that but a submission of other work under the token.
-/

namespace Rejoin.Queue

variable {q q' : Queue}

/-! ### Live items after an operation -/

theorem live_of_submit (hn : q.Numbered) {w : Work} {priority : Nat} {i : Item}
    (h : q.submit w priority = some (i, q')) (j : Item) : q'.Live j ↔ q.Live j ∨ j = i := by
  have hid := (accepted_of_submit h).2
  simp only [live_iff, phase?_of_submit_eq h, known_of_submit h, List.mem_append, List.mem_singleton]
  by_cases hj : j = i
  · simp [hj]
  · have hne : j ∈ q.known → j.id ≠ i.id := by
      intro hm e
      have hle := hn.id_le hm
      omega
    by_cases hm : j ∈ q.known
    · simp [hj, hm, hne hm]
    · simp [hj, hm]

theorem live_of_start {id : Nat} {s : Slot} {e : Execution} (h : q.start id s = .ok (e, q')) (j : Item) :
    q'.Live j ↔ q.Live j := by
  have hp := (start_eq_ok.mp h).1
  simp only [live_iff, phase?_of_start h, known_of_start h]
  by_cases hj : j.id = id <;> simp [hj, hp]

theorem live_of_cancel {id : Nat} (h : q.cancel id = (true, q')) (j : Item) :
    q'.Live j ↔ q.Live j ∧ j.id ≠ id := by
  simp only [live_iff, phase?_of_cancel h, known_of_cancel h, List.mem_filter]
  by_cases hj : j.id = id <;> simp [hj]

theorem live_finish (hn : q.Numbered) (e : Execution) (j : Item) :
    (q.finish e).Live j ↔ q.Live j ∧ j.id ≠ e.item := by
  simp only [live_iff, phase?_finish hn, known_finish]
  by_cases hj : j ∈ q.known
  · have hi : q.item? j.id = some j := hn.item?_eq_some.mpr ⟨hj, rfl⟩
    by_cases he : j.id = e.item
    · simp [hj, he, he ▸ hi]
    · simp [hj, he]
  · simp [hj]

@[simp] theorem live_setQuiet (on : Bool) (j : Item) : (q.setQuiet on).Live j ↔ q.Live j := Iff.rfl

/-! ### The index after an operation -/

theorem mem_indexed {token : Option String} {id n : Nat} {t : String} : (t, n) ∈ q.indexed token id ↔
    (token = some t ∧ n = id) ∨ (token ≠ some t ∧ (t, n) ∈ q.tokens) := by
  unfold indexed
  cases token with
  | none => simp
  | some u =>
    by_cases hu : u = t
    · subst hu
      simp
    · simp [hu, Ne.symm hu]

theorem tokens_of_submit {w : Work} {priority : Nat} {i : Item} (h : q.submit w priority = some (i, q')) :
    q'.tokens = q.indexed w.token? i.id := by
  obtain ⟨-, rfl, rfl⟩ := submit_eq_some.mp h
  rfl

theorem tokens_of_start {id : Nat} {s : Slot} {e : Execution} (h : q.start id s = .ok (e, q')) :
    q'.tokens = q.tokens := by
  obtain ⟨-, i, -, -, rfl⟩ := start_eq_ok.mp h
  simp

theorem tokens_of_cancel {id : Nat} (h : q.cancel id = (true, q')) :
    q'.tokens = q.tokens.filter (·.2 ≠ id) := by
  obtain ⟨-, -, rfl⟩ := cancel_eq_true.mp h
  simp [forget]

theorem carries_of_submit {w : Work} {priority : Nat} {i : Item} (h : q.submit w priority = some (i, q'))
    (t : String) : i.carries t = true ↔ w.token? = some t := by
  obtain ⟨-, rfl, -⟩ := submit_eq_some.mp h
  simp [Item.carries]

/-! ### Entries point at live items -/

/-- The index has one entry at most for each token, and it points at a live item that carries the token. -/
structure Indexed (q : Queue) : Prop where
  live : ∀ t n, (t, n) ∈ q.tokens → ∃ i, q.Live i ∧ i.id = n ∧ i.carries t = true
  functional : ∀ t m n, (t, m) ∈ q.tokens → (t, n) ∈ q.tokens → m = n

theorem indexed_empty : Indexed {} := ⟨by simp, by simp⟩

namespace Indexed

/-- An operation that only takes entries out, and those of every item that it ends, keeps the index. -/
theorem of_filter (h : q.Indexed) {id : Nat} (ht : q'.tokens = q.tokens.filter (·.2 ≠ id))
    (hl : ∀ j, q'.Live j ↔ q.Live j ∧ j.id ≠ id) : q'.Indexed := by
  constructor
  · intro t n hm
    simp only [ht, List.mem_filter, decide_eq_true_eq] at hm
    obtain ⟨i, hi, rfl, hc⟩ := h.live t n hm.1
    exact ⟨i, (hl i).mpr ⟨hi, hm.2⟩, rfl, hc⟩
  · intro t m n hm hn
    simp only [ht, List.mem_filter] at hm hn
    exact h.functional t m n hm.1 hn.1

theorem of_submit (h : q.Indexed) (hn : q.Numbered) {w : Work} {priority : Nat} {i : Item}
    (hs : q.submit w priority = some (i, q')) : q'.Indexed := by
  have hl := live_of_submit hn hs
  have hc := carries_of_submit hs
  constructor
  · intro t n hm
    rw [tokens_of_submit hs, mem_indexed] at hm
    rcases hm with ⟨hw, rfl⟩ | ⟨-, hm⟩
    · exact ⟨i, (hl i).mpr (Or.inr rfl), rfl, (hc t).mpr hw⟩
    · obtain ⟨j, hj, rfl, hjc⟩ := h.live t n hm
      exact ⟨j, (hl j).mpr (Or.inl hj), rfl, hjc⟩
  · intro t m n hm hm'
    rw [tokens_of_submit hs, mem_indexed] at hm hm'
    rcases hm with ⟨hw, rfl⟩ | ⟨hw, hm⟩ <;> rcases hm' with ⟨hw', rfl⟩ | ⟨hw', hm'⟩
    · rfl
    · exact absurd hw hw'
    · exact absurd hw' hw
    · exact h.functional t m n hm hm'

theorem of_start (h : q.Indexed) {id : Nat} {s : Slot} {e : Execution} (hs : q.start id s = .ok (e, q')) :
    q'.Indexed := by
  have hl := live_of_start hs
  constructor
  · intro t n hm
    rw [tokens_of_start hs] at hm
    obtain ⟨i, hi, rfl, hc⟩ := h.live t n hm
    exact ⟨i, (hl i).mpr hi, rfl, hc⟩
  · rw [tokens_of_start hs]
    exact h.functional

theorem of_cancel (h : q.Indexed) {id : Nat} (hs : q.cancel id = (true, q')) : q'.Indexed :=
  h.of_filter (tokens_of_cancel hs) (live_of_cancel hs)

theorem finish (h : q.Indexed) (hn : q.Numbered) (e : Execution) : (q.finish e).Indexed :=
  h.of_filter (tokens_finish q e) (live_finish hn e)

theorem setQuiet (h : q.Indexed) (on : Bool) : (q.setQuiet on).Indexed := ⟨h.live, h.functional⟩

end Indexed

/-! ### Every live item is found -/

/-- Every live item has an entry under each token that it carries. -/
def Covered (q : Queue) : Prop := ∀ t i, q.Live i → i.carries t = true → (t, i.id) ∈ q.tokens

theorem covered_empty : Covered {} := by
  intro t i hi
  simp [live_iff] at hi

namespace Covered

theorem of_filter (h : q.Covered) {id : Nat} (ht : q'.tokens = q.tokens.filter (·.2 ≠ id))
    (hl : ∀ j, q'.Live j ↔ q.Live j ∧ j.id ≠ id) : q'.Covered := by
  intro t i hi hc
  obtain ⟨hi, hne⟩ := (hl i).mp hi
  simp only [ht, List.mem_filter, decide_eq_true_eq]
  exact ⟨h t i hi hc, hne⟩

/-- A submission keeps the index covered when no live item carries its token. -/
theorem of_submit (h : q.Covered) (hn : q.Numbered) {w : Work} {priority : Nat} {i : Item}
    (hs : q.submit w priority = some (i, q')) (hw : ∀ t j, w.token? = some t → q.Live j → j.carries t = false) :
    q'.Covered := by
  intro t j hj hc
  rw [tokens_of_submit hs, mem_indexed]
  rcases (live_of_submit hn hs j).mp hj with hj | rfl
  · by_cases hwt : w.token? = some t
    · simp [hw t j hwt hj] at hc
    · exact Or.inr ⟨hwt, h t j hj hc⟩
  · exact Or.inl ⟨(carries_of_submit hs t).mp hc, rfl⟩

theorem of_start (h : q.Covered) {id : Nat} {s : Slot} {e : Execution} (hs : q.start id s = .ok (e, q')) :
    q'.Covered := by
  intro t i hi hc
  rw [tokens_of_start hs]
  exact h t i ((live_of_start hs i).mp hi) hc

theorem of_cancel (h : q.Covered) {id : Nat} (hs : q.cancel id = (true, q')) : q'.Covered :=
  h.of_filter (tokens_of_cancel hs) (live_of_cancel hs)

theorem finish (h : q.Covered) (hn : q.Numbered) (e : Execution) : (q.finish e).Covered :=
  h.of_filter (tokens_finish q e) (live_finish hn e)

theorem setQuiet (h : q.Covered) (on : Bool) : (q.setQuiet on).Covered := h

end Covered

/-! ### Looking a token up -/

theorem Indexed.lookup_eq_some (h : q.Indexed) {t : String} {n : Nat} :
    q.tokens.lookup t = some n ↔ (t, n) ∈ q.tokens := by
  have hfirst : ∀ m, q.tokens.lookup t = some m → (t, m) ∈ q.tokens := by
    intro m hl
    obtain ⟨l₁, l₂, hm, -⟩ := List.lookup_eq_some_iff.mp hl
    rw [hm]
    simp
  refine ⟨hfirst n, ?_⟩
  intro hm
  obtain ⟨m, hl⟩ : ∃ m, q.tokens.lookup t = some m := by
    rw [← Option.isSome_iff_exists, List.lookup_isSome_iff]
    exact ⟨(t, n), hm, by simp⟩
  rw [hl, h.functional t m n (hfirst m hl) hm]

theorem Indexed.byToken?_iff_mem (h : q.Indexed) (hn : q.Numbered) {t : String} {i : Item} :
    q.byToken? t = some i ↔ q.Live i ∧ (t, i.id) ∈ q.tokens := by
  constructor
  · intro hi
    obtain ⟨n, hl, hi⟩ := Option.bind_eq_some_iff.mp hi
    have hm : (t, n) ∈ q.tokens := h.lookup_eq_some.mp hl
    obtain ⟨j, hj, rfl, -⟩ := h.live t n hm
    have hji : q.item? j.id = some j := hn.item?_eq_some.mpr ⟨(live_iff.mp hj).1, rfl⟩
    obtain rfl : j = i := Option.some.inj (hji.symm.trans hi)
    exact ⟨hj, hm⟩
  · rintro ⟨hi, hm⟩
    rw [byToken?, h.lookup_eq_some.mpr hm, Option.bind_some]
    exact hn.item?_eq_some.mpr ⟨(live_iff.mp hi).1, rfl⟩

/-- A token finds a live item that carries it, and nothing else. -/
theorem Indexed.live_of_byToken? (h : q.Indexed) (hn : q.Numbered) {t : String} {i : Item}
    (hi : q.byToken? t = some i) : q.Live i ∧ i.carries t = true := by
  obtain ⟨hi, hm⟩ := (h.byToken?_iff_mem hn).mp hi
  obtain ⟨j, hj, hid, hc⟩ := h.live t i.id hm
  obtain rfl := hn.eq_of_id_eq (live_iff.mp hj).1 (live_iff.mp hi).1 hid
  exact ⟨hi, hc⟩

theorem byToken?_eq_some (h : q.Indexed) (hc : q.Covered) (hn : q.Numbered) {t : String} {i : Item} :
    q.byToken? t = some i ↔ q.Live i ∧ i.carries t = true := by
  refine ⟨h.live_of_byToken? hn, ?_⟩
  rintro ⟨hi, hit⟩
  exact (h.byToken?_iff_mem hn).mpr ⟨hi, hc t i hi hit⟩

theorem byToken?_eq_none (h : q.Indexed) (hc : q.Covered) (hn : q.Numbered) {t : String} :
    q.byToken? t = none ↔ ∀ i, q.Live i → i.carries t = false := by
  rw [Option.eq_none_iff_forall_ne_some]
  apply forall_congr'
  intro i
  rw [Ne, byToken?_eq_some h hc hn, not_and, Bool.not_eq_true]

theorem eq_of_carries (h : q.Indexed) (hc : q.Covered) (hn : q.Numbered) {t : String} {i j : Item} (hi : q.Live i)
    (hj : q.Live j) (hit : i.carries t = true) (hjt : j.carries t = true) : i = j := by
  have hid : i.id = j.id := h.functional t i.id j.id (hc t i hi hit) (hc t j hj hjt)
  exact hn.eq_of_id_eq (live_iff.mp hi).1 (live_iff.mp hj).1 hid

/-! ### A token that leads to one item -/

/-- The index has a token lead to an item that was accepted, if that is live. -/
structure Leads (q : Queue) (t : String) (n : Nat) : Prop where
  accepted : n ≤ q.accepted
  mem : ∀ i, q.Live i → i.id = n → (t, n) ∈ q.tokens

namespace Leads

variable {t : String} {n : Nat}

theorem of_filter (h : q.Leads t n) (ha : q'.accepted = q.accepted) {id : Nat}
    (ht : q'.tokens = q.tokens.filter (·.2 ≠ id)) (hl : ∀ j, q'.Live j ↔ q.Live j ∧ j.id ≠ id) : q'.Leads t n where
  accepted := ha ▸ h.accepted
  mem i hi hin := by
    obtain ⟨hi, hne⟩ := (hl i).mp hi
    rw [hin] at hne
    simp only [ht, List.mem_filter, decide_eq_true_eq]
    exact ⟨h.mem i hi hin, hne⟩

/-- A submission keeps it, unless it is one of other work under the token, which does not look for that first. -/
theorem of_submit (h : q.Leads t n) (hi : q.Indexed) (hn : q.Numbered) {w : Work} {priority : Nat} {i : Item}
    (hs : q.submit w priority = some (i, q')) (hw : w.token? = some t → q.byToken? t = none) : q'.Leads t n where
  accepted := by
    rw [(accepted_of_submit hs).1]
    exact Nat.le_succ_of_le h.accepted
  mem j hj hjn := by
    rcases (live_of_submit hn hs j).mp hj with hj | rfl
    · have hm : (t, n) ∈ q.tokens := h.mem j hj hjn
      rw [tokens_of_submit hs, mem_indexed]
      refine Or.inr ⟨?_, hm⟩
      intro hwt
      have hfound : q.byToken? t = some j := (hi.byToken?_iff_mem hn).mpr ⟨hj, hjn ▸ hm⟩
      rw [hw hwt] at hfound
      cases hfound
    · -- The new item has a number that none had before.
      have hnew := (accepted_of_submit hs).2
      have hle := h.accepted
      omega

theorem of_start (h : q.Leads t n) {id : Nat} {s : Slot} {e : Execution} (hs : q.start id s = .ok (e, q')) :
    q'.Leads t n where
  accepted := accepted_of_start hs ▸ h.accepted
  mem i hi hin := by
    rw [tokens_of_start hs]
    exact h.mem i ((live_of_start hs i).mp hi) hin

theorem of_cancel (h : q.Leads t n) {id : Nat} (hs : q.cancel id = (true, q')) : q'.Leads t n :=
  h.of_filter (accepted_of_cancel hs) (tokens_of_cancel hs) (live_of_cancel hs)

theorem finish (h : q.Leads t n) (hn : q.Numbered) (e : Execution) : (q.finish e).Leads t n :=
  h.of_filter (accepted_finish q e) (tokens_finish q e) (live_finish hn e)

theorem setQuiet (h : q.Leads t n) (on : Bool) : (q.setQuiet on).Leads t n := ⟨h.accepted, h.mem⟩

theorem of_submit_self {w : Work} {priority : Nat} {i : Item} (hs : q.submit w priority = some (i, q'))
    (hw : w.token? = some t) : q'.Leads t i.id where
  accepted := by
    obtain ⟨ha, hid⟩ := accepted_of_submit hs
    exact Nat.le_of_eq (hid.trans ha.symm)
  mem _ _ _ := by
    rw [tokens_of_submit hs, mem_indexed]
    exact Or.inl ⟨hw, rfl⟩

theorem of_byToken? (hi : q.Indexed) (hn : q.Numbered) {i : Item} (h : q.byToken? t = some i) : q.Leads t i.id := by
  obtain ⟨hl, hm⟩ := (hi.byToken?_iff_mem hn).mp h
  exact ⟨hn.id_le (live_iff.mp hl).1, fun _ _ _ => hm⟩

/-- An item that is live is found by the token that leads to it. -/
theorem found (h : q.Leads t n) (hi : q.Indexed) (hn : q.Numbered) {p : Phase} (hp : q.phase? n = some p)
    (hlive : p.isLive = true) : ∃ i, q.byToken? t = some i ∧ i.id = n := by
  obtain ⟨i, hk, rfl⟩ := (hn.known_iff n).mpr ⟨p, hp, by rintro rfl; cases hlive⟩
  have hl : q.Live i := live_iff.mpr ⟨hk, by simp [hp, hlive]⟩
  exact ⟨i, (hi.byToken?_iff_mem hn).mpr ⟨hl, h.mem i hl rfl⟩, rfl⟩

end Leads

end Rejoin.Queue
