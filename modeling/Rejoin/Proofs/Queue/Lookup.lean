import Rejoin.Proofs.Queue.History
import Rejoin.Proofs.Queue.Index
import Rejoin.Queue.Scan

/-!
# The index and the search

A submission points the index at its own item, whatever carried the token before.

* `Queue.History.latest?` — the item that was submitted last of those that carry a token;
* `Queue.History.byToken?_eq_some` — that item is what the index finds while it is pending or running, and afterwards
  the index finds nothing;
* `Queue.History.AcceptedLast`, `Queue.History.Kept.live_iff` — which item that is and how long it is there, told from
  what was done to the queue, and `Queue.History.byToken?_after_eq_some_iff`, what the index finds in these terms;
* `Queue.History.index_finds_latest` — the index agrees with the search where the search comes to that item;
* `Queue.History.resubmitted_hides_first` — and not where an earlier item of the token is still there.
-/

namespace Rejoin.Queue

/-! ### What the search finds -/

section Scan

variable {q : Queue} {t : String} {i : Item}

theorem live_of_scan (h : q.scan t = some i) : q.Live i ∧ i.carries t = true := by
  rw [scan, scanFor] at h
  have hm : i ∈ q.pending ++ q.running := List.mem_of_find?_eq_some h
  have hc : i.carries t = true := by simpa using List.find?_some h
  exact ⟨List.mem_append.mp hm, hc⟩

theorem scan_eq_none : q.scan t = none ↔ ∀ i, q.Live i → i.carries t = false := by
  rw [scan, scanFor, List.find?_eq_none]
  simp only [List.mem_append, Bool.not_eq_true]
  exact Iff.rfl

end Scan

namespace History

/-- The item that was submitted last of those that carry a token. -/
def latest? (h : History) (t : String) : Option Item := (h.items.filter (·.carries t)).getLast?

variable {h h' : History} {a : Act} {t : String} {i : Item}

theorem carries_of_latest? (hl : h.latest? t = some i) : i.carries t = true := by
  have hm : i ∈ h.items.filter (·.carries t) := List.mem_of_getLast? hl
  exact (List.mem_filter.mp hm).2

theorem latest?_of_items (hi : h'.items = h.items ++ [i]) :
    h'.latest? t = if i.carries t then some i else h.latest? t := by
  rw [latest?, hi, List.filter_append, List.filter_singleton, latest?]
  cases i.carries t <;> simp

/-! ### Entries point at the latest items -/

/-- The index has the latest item of a token, as long as that is pending or running, and nothing else. -/
def Pointed (h : History) : Prop :=
  ∀ t n, (t, n) ∈ h.queue.tokens ↔ ∃ i, h.latest? t = some i ∧ h.queue.Live i ∧ i.id = n

namespace Pointed

theorem indexed (hp : h.Pointed) : h.queue.Indexed := by
  constructor
  · intro t n hm
    obtain ⟨i, hl, hi, hid⟩ := (hp t n).mp hm
    exact ⟨i, hi, hid, carries_of_latest? hl⟩
  · intro t m n hm hn
    obtain ⟨i, hl, -, rfl⟩ := (hp t m).mp hm
    obtain ⟨j, hl', -, rfl⟩ := (hp t n).mp hn
    rw [Option.some.inj (hl.symm.trans hl')]

/-- An operation that ends an item and takes its entries out keeps that. -/
theorem of_filter (hp : h.Pointed) {id : Nat} (hi : h'.items = h.items)
    (ht : h'.queue.tokens = h.queue.tokens.filter (·.2 ≠ id))
    (hl : ∀ j, h'.queue.Live j ↔ h.queue.Live j ∧ j.id ≠ id) : h'.Pointed := by
  intro t n
  have hlat : h'.latest? t = h.latest? t := by rw [latest?, hi, latest?]
  simp only [ht, List.mem_filter, decide_eq_true_eq, hp t n, hlat, hl]
  constructor
  · rintro ⟨⟨i, hi, hlive, rfl⟩, hne⟩
    exact ⟨i, hi, ⟨hlive, hne⟩, rfl⟩
  · rintro ⟨i, hi, ⟨hlive, hne⟩, rfl⟩
    exact ⟨⟨i, hi, hlive, rfl⟩, hne⟩

theorem submitted (hp : h.Pointed) (hn : h.queue.Numbered) {w : Work} {priority : Nat} {i : Item} {q : Queue}
    (hs : h.queue.submit w priority = some (i, q)) : Pointed { h with queue := q, items := h.items ++ [i] } := by
  intro t n
  have hl := live_of_submit hn hs
  have hc := carries_of_submit hs t
  show (t, n) ∈ q.tokens ↔ ∃ j, latest? { h with queue := q, items := h.items ++ [i] } t = some j ∧ q.Live j ∧ j.id = n
  rw [tokens_of_submit hs, mem_indexed, latest?_of_items rfl]
  by_cases hit : i.carries t = true
  · rw [if_pos hit]
    constructor
    · rintro (⟨-, rfl⟩ | ⟨hw, -⟩)
      · exact ⟨i, rfl, (hl i).mpr (.inr rfl), rfl⟩
      · exact absurd (hc.mp hit) hw
    · rintro ⟨j, hj, -, rfl⟩
      exact .inl ⟨hc.mp hit, by rw [Option.some.inj hj]⟩
  · rw [if_neg hit]
    have hw : w.token? ≠ some t := mt hc.mpr hit
    constructor
    · rintro (⟨hw', -⟩ | ⟨-, hm⟩)
      · exact absurd hw' hw
      · obtain ⟨j, hj, hlive, rfl⟩ := (hp t n).mp hm
        exact ⟨j, hj, (hl j).mpr (.inl hlive), rfl⟩
    · rintro ⟨j, hj, hlive, rfl⟩
      -- The latest item carries the token, so it is not the new one.
      have hji : j ≠ i := by
        rintro rfl
        exact hit (carries_of_latest? hj)
      have hold : h.queue.Live j := ((hl j).mp hlive).resolve_right hji
      exact .inr ⟨hw, (hp t j.id).mpr ⟨j, hj, hold, rfl⟩⟩

theorem started (hp : h.Pointed) {item : Nat} {s : Slot} {e : Execution} {q : Queue}
    (hs : h.queue.start item s = .ok (e, q)) :
    Pointed { h with queue := q, starts := h.starts ++ [⟨e, s, 0⟩] } := by
  intro t n
  show (t, n) ∈ q.tokens ↔ ∃ j, h.latest? t = some j ∧ q.Live j ∧ j.id = n
  simp only [tokens_of_start hs, live_of_start hs, hp t n]

end Pointed

theorem Did.pointed (hd : Did h a h') (hk : h.Kept) (hp : h.Pointed) : h'.Pointed := by
  cases hd with
  | submitted hs => exact hp.submitted hk.numbered hs
  | started hs => exact hp.started hs
  | cancelled hs => exact hp.of_filter rfl (tokens_of_cancel hs) (live_of_cancel hs)
  | finished _ => exact hp.of_filter rfl (tokens_finish _ _) (live_finish hk.numbered _)
  | quieted => exact hp
  | refused => exact hp

theorem pointed_after (as : List Act) : (after as).Pointed := by
  have hempty : Pointed {} := by simp [Pointed, latest?]
  -- Numbering is what makes a new item differ from the live ones, so both are kept together.
  have hk : (after as).Kept ∧ (after as).Pointed := by
    refine after_keeps (P := fun h => h.Kept ∧ h.Pointed) ⟨kept_empty, hempty⟩ ?_ as
    rintro h a h' hd ⟨hk, hp⟩
    exact ⟨hd.kept hk, hd.pointed hk hp⟩
  exact hk.2

/-- The index finds the latest item of a token while that is pending or running, and nothing afterwards. -/
theorem byToken?_eq_some (hk : h.Kept) (hp : h.Pointed) :
    h.queue.byToken? t = some i ↔ h.latest? t = some i ∧ h.queue.Live i := by
  rw [hp.indexed.byToken?_iff_mem hk.numbered, hp t i.id]
  constructor
  · rintro ⟨hi, j, hl, hj, hid⟩
    obtain rfl := hk.numbered.eq_of_id_eq (live_iff.mp hj).1 (live_iff.mp hi).1 hid
    exact ⟨hl, hi⟩
  · rintro ⟨hl, hi⟩
    exact ⟨hi, i, hl, hi, rfl⟩

/-- The index and the search agree exactly where the search comes to the latest item, or to none. -/
theorem byToken?_eq_scan (hk : h.Kept) (hp : h.Pointed) :
    h.queue.byToken? t = h.queue.scan t ↔ ∀ i, h.queue.scan t = some i → h.latest? t = some i := by
  constructor
  · intro he i hi
    rw [← he, byToken?_eq_some hk hp] at hi
    exact hi.1
  · intro hl
    cases hs : h.queue.scan t with
    | none =>
      rw [Option.eq_none_iff_forall_ne_some]
      intro i hi
      obtain ⟨hi, hlive⟩ := (byToken?_eq_some hk hp).mp hi
      have hc := scan_eq_none.mp hs i hlive
      rw [carries_of_latest? hi] at hc
      cases hc
    | some i => exact (byToken?_eq_some hk hp).mpr ⟨hl i hs, (live_of_scan hs).1⟩

/-! ### What was done to the queue tells what the index finds -/

theorem Kept.live_iff (hk : h.Kept) (hi : i ∈ h.items) :
    h.queue.Live i ↔ i.id ∉ h.cancels ∧ ∀ x ∈ h.finishes, x.item ≠ i.id := by
  obtain ⟨p, hp⟩ := hk.exists_phase? hi
  have ht := hk.faithful.tells i.id
  rw [hp] at ht
  have hknown : i ∈ h.queue.known ↔ p ≠ .cancelled := by
    rw [hk.known, List.mem_filter, decide_eq_true_eq, hp, and_iff_right hi, Ne, Option.some.injEq]
  have hlive : h.queue.Live i ↔ p.isLive = true := by
    rw [Queue.live_iff, hknown, hp]
    cases p <;> simp
  -- What was finished was started, and nothing is started twice.
  have hstart : ∀ x ∈ h.finishes, ∃ a ∈ h.starts, a.execution = x := hk.faithful.ended
  rw [hlive]
  cases p with
  | pending =>
    refine iff_of_true rfl ⟨ht.2, ?_⟩
    intro x hx hxi
    obtain ⟨a, ha, rfl⟩ := hstart x hx
    exact ht.1 a ha hxi
  | started e =>
    obtain ⟨hc, a, ha, rfl, hai, hunfinished, -⟩ := ht
    refine iff_of_true rfl ⟨hc, ?_⟩
    intro x hx hxi
    obtain ⟨b, hb, rfl⟩ := hstart x hx
    obtain rfl := hk.faithful.once b hb a ha (hxi.trans hai.symm)
    exact hunfinished hx
  | finished e =>
    obtain ⟨-, -, -, -, hei, he, -⟩ := ht
    exact iff_of_false nofun fun hu => hu.2 e he hei
  | cancelled => exact iff_of_false nofun fun hu => hu.1 ht.2

theorem carries_iff : i.carries t = true ↔ ∃ ticket : Ticket, i.work = .ticket ticket ∧ ticket.token = some t := by
  cases hw : i.work <;> simp [Item.carries, hw, Work.token?, Work.ticket?]

/-- The item is the work of a step under the token, and no item that carries the token was accepted after it. -/
def AcceptedLast (h : History) (t : String) (i : Item) : Prop :=
  (∃ ticket : Ticket, i.work = .ticket ticket ∧ ticket.token = some t) ∧
    ∃ before later, h.items = before ++ i :: later ∧ ∀ j ∈ later, j.carries t = false

theorem latest?_eq_some : h.latest? t = some i ↔ h.AcceptedLast t i := by
  rw [latest?, List.getLast?_eq_some_iff, AcceptedLast, ← carries_iff]
  constructor
  · rintro ⟨carrying, hs⟩
    obtain ⟨before, rest, hi, -, hrest⟩ := List.filter_eq_append_iff.mp hs
    obtain ⟨between, later, rfl, -, hc, hl⟩ := List.filter_eq_cons_iff.mp hrest
    refine ⟨hc, before ++ between, later, by simp [hi], ?_⟩
    simpa using hl
  · rintro ⟨hc, before, later, hi, hl⟩
    have hnone : later.filter (·.carries t) = [] := by simpa using hl
    refine ⟨before.filter (·.carries t), ?_⟩
    rw [hi, List.filter_append, List.filter_cons, if_pos hc, hnone]

theorem AcceptedLast.mem_items (hl : h.AcceptedLast t i) : i ∈ h.items := by
  obtain ⟨-, before, later, hi, -⟩ := hl
  rw [hi]
  exact List.mem_append_right _ List.mem_cons_self

/-- **What a token finds.**  Whatever was done to a queue, and however often a token was submitted, the token finds an
item exactly if no other of the token was accepted after it and it is pending or running; in other words, if it was
not cancelled and no execution of it was finished.  So a token finds the work of a step that carries it, no job and
nothing that has ended; and whatever is done late or again to an earlier item of the token, it finds the last. -/
theorem byToken?_after_eq_some_iff (as : List Act) (t : String) (i : Item) :
    let h := after as
    (h.queue.byToken? t = some i ↔ h.AcceptedLast t i ∧ (i ∈ h.queue.pending ∨ i ∈ h.queue.running)) ∧
    (h.queue.byToken? t = some i ↔ h.AcceptedLast t i ∧ i.id ∉ h.cancels ∧ ∀ x ∈ h.finishes, x.item ≠ i.id) := by
  intro h
  have hk : h.Kept := kept_after as
  have hfind : h.queue.byToken? t = some i ↔ h.AcceptedLast t i ∧ h.queue.Live i := by
    rw [byToken?_eq_some hk (pointed_after as), latest?_eq_some]
  refine ⟨hfind, ?_⟩
  rw [hfind]
  refine and_congr_right fun hl => ?_
  exact hk.live_iff hl.mem_items

/-- A token that was submitted again finds the second item, also when the first one is finished late, and again. -/
example :
    let w : Work := .ticket ⟨"run", "step", some "token"⟩
    let h := after [.submit w 0, .start 1 ⟨Fleet.controllerWorker, 1⟩, .submit w 0, .finish 0, .finish 0]
    h.queue.byToken? "token" = some ⟨2, w, 0⟩ := by decide

/-! ### Tokens that are submitted singly -/

/-- The token is submitted only while no item that is pending or running carries it. -/
def Singly (t : String) (as : List Act) : Prop := ∀ n w priority, as[n]? = some (.submit w priority) →
  w.token? = some t → ∀ i, (after (as.take n)).queue.Live i → i.carries t = false

section Singly

variable {as : List Act}

theorem Singly.init (h : Singly t (as ++ [a])) : Singly t as := by
  intro n w priority hn hw
  have hlt : n < as.length := (List.getElem?_eq_some_iff.mp hn).1
  have hs := h n w priority (by rw [List.getElem?_append_left hlt, hn]) hw
  rwa [List.take_append_of_le_length (Nat.le_of_lt hlt)] at hs

theorem Singly.last {w : Work} {priority : Nat} (h : Singly t (as ++ [.submit w priority])) (hw : w.token? = some t)
    (i : Item) (hi : (after as).queue.Live i) : i.carries t = false := by
  have hs := h as.length w priority List.getElem?_concat_length hw i
  rw [List.take_left] at hs
  exact hs hi

/-- Then an item that carries the token and is pending or running is the latest that does. -/
theorem Singly.latest? (h : Singly t as) (hi : (after as).queue.Live i) (hc : i.carries t = true) :
    (after as).latest? t = some i := by
  induction as using List.reverseRecOn generalizing i with
  | nil => simp [live_iff] at hi
  | append_singleton as a ih =>
    have hn := (kept_after as).numbered
    have hd := did_step (after as) a
    rw [after_concat] at hi ⊢
    generalize (after as).step a = h' at hd hi
    cases hd with
    | @submitted w priority j q hs =>
      rw [latest?_of_items rfl]
      rcases (live_of_submit hn hs i).mp hi with hold | rfl
      · have hj : ¬j.carries t = true := by
          intro hj
          have hf := h.last ((carries_of_submit hs t).mp hj) i hold
          rw [hc] at hf
          cases hf
        rw [if_neg hj]
        exact ih h.init hold hc
      · rw [if_pos hc]
    | started hs => exact ih h.init ((live_of_start hs i).mp hi) hc
    | cancelled hs => exact ih h.init ((live_of_cancel hs i).mp hi).1 hc
    | finished _ => exact ih h.init ((live_finish hn _ i).mp hi).1 hc
    | quieted => exact ih h.init hi hc
    | refused => exact ih h.init hi hc

end Singly

/-- **What the index finds.**  Whatever was done to a queue, the index finds the item of a token that was submitted
last, as long as that is pending or running, and nothing otherwise.  So it agrees with a search through the lists
exactly where that finds the last item, or none: always, if the token is submitted only while no item carries it. -/
theorem index_finds_latest (as : List Act) (t : String) :
    (∀ i, (after as).queue.byToken? t = some i ↔ (after as).latest? t = some i ∧ (after as).queue.Live i) ∧
    ((after as).queue.byToken? t = (after as).queue.scan t ↔
      ∀ i, (after as).queue.scan t = some i → (after as).latest? t = some i) ∧
    (Singly t as → (after as).queue.byToken? t = (after as).queue.scan t) := by
  have hk := kept_after as
  have hp := pointed_after as
  refine ⟨fun i => byToken?_eq_some hk hp, byToken?_eq_scan hk hp, ?_⟩
  intro hs
  rw [byToken?_eq_scan hk hp]
  intro i hi
  obtain ⟨hlive, hc⟩ := live_of_scan hi
  exact hs.latest? hlive hc

def placeholder : Work := .ticket ⟨"run", "step", some "token"⟩

/-- A token that is submitted again when its item has finished finds the new item, as the search does. -/
theorem resubmitted_when_finished :
    let as : List Act := [.submit placeholder 0, .start 1 ⟨Fleet.controllerWorker, 1⟩, .finish 0, .submit placeholder 0]
    Singly "token" as ∧ (after as).queue.byToken? "token" = (after as).queue.scan "token" := by
  intro as
  -- Nothing is pending or running when the token is submitted for the second time.
  have hp : (after (as.take 3)).queue.pending = [] := by decide
  have hr : (after (as.take 3)).queue.running = [] := by decide
  have hs : Singly "token" as := by
    intro n w priority hn _ i hi
    match n, hn with
    | 0, _ => simp [live_iff] at hi
    | 3, _ => simp [Live, hp, hr] at hi
  exact ⟨hs, (index_finds_latest as "token").2.2 hs⟩

/-- A token that is submitted again while its item is pending hides that item: the index finds the second one, and
when that is cancelled nothing, while the search goes on to find the first. -/
theorem resubmitted_hides_first :
    ((after [.submit placeholder 0, .submit placeholder 0]).queue.byToken? "token" = some ⟨2, placeholder, 0⟩ ∧
      (after [.submit placeholder 0, .submit placeholder 0]).queue.scan "token" = some ⟨1, placeholder, 0⟩) ∧
    (after [.submit placeholder 0, .submit placeholder 0, .cancel 2]).queue.byToken? "token" = none ∧
      (after [.submit placeholder 0, .submit placeholder 0, .cancel 2]).queue.scan "token" =
        some ⟨1, placeholder, 0⟩ := by
  decide

end History

end Rejoin.Queue
