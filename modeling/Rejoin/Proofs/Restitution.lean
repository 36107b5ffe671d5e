import Mathlib.Data.List.Basic
import Rejoin.Proofs.World.Basic

/-!
# A rejoining that fails gives everything back

* `Ledger.SettledSince` — every lease since then was given back, each of them once, and the tables are as they were;
* `Record.Course` — a rejoining from its beginning to its end, with the controllers before and after each of its own
  steps; whatever happens between two of them is left open;
* `Record.Course.restitution` — a rejoining that fails leaves the record as it was and keeps no lease.
-/

namespace Rejoin

/-! ### Leases that were given back -/

namespace Ledger

/-- Every lease that was granted since was given back, each of them once, and the tables hold what they held. -/
structure SettledSince (old l : Ledger) : Prop where
  tables : l.tables = old.tables
  leases : ∃ new, l.leases = old.leases ++ new ∧ (∀ s ∈ new, s.released = true) ∧
    l.returned.Perm (List.range' old.leases.length new.length ++ old.returned)

@[simp] theorem SettledSince.refl (l : Ledger) : l.SettledSince l := ⟨rfl, [], by simp, by simp, by simp⟩

theorem allocate_eq_ok {l l' : Ledger} {g : Grantor} {d : Dir} {x : Lease} (h : l.allocate g d = .ok (x, l')) :
    x.id = l.leases.length ∧ ∃ o, l'.leases = l.leases ++ [⟨o, false⟩] ∧ l'.returned = l.returned ∧
      (l'.free o).tables = l.tables := by
  unfold allocate at h
  split at h
  next t =>
    cases h
    refine ⟨rfl, _, rfl, rfl, ?_⟩
    have he : (fun held : List String => held.erase (Holds.granted (l.held t) d.path)) ∘
        (Holds.granted (l.held t) d.path :: ·) = id := by
      funext held
      simp
    show (l.tables.modify t _).modify t _ = l.tables
    rw [List.modify_modify_eq, he, List.modify_id]
  next f =>
    split at h
    next => cases h; exact ⟨rfl, .outside, rfl, rfl, rfl⟩
    next => cases h

theorem settledSince_release {l l' : Ledger} {g : Grantor} {d : Dir} {x : Lease} (h : l.allocate g d = .ok (x, l')) :
    l.SettledSince (l'.release x.id) := by
  obtain ⟨hid, o, hl, hr, ht⟩ := allocate_eq_ok h
  have hs : l'.leases[x.id]? = some ⟨o, false⟩ := by simp [hl, hid]
  have he := release_of_unreleased hs
  have hfr : (l'.free o).returned = l.returned := by cases o <;> exact hr
  rw [he]
  refine ⟨ht, [⟨o, true⟩], ?_, by simp, ?_⟩
  · simp [hl, hid]
  · simp [hfr, hid]

end Ledger

/-! ### A rejoining from its beginning to its end -/

/-- A wait is asked until it ends; each step has the controller that it meets and the one that it leaves. -/
inductive Wait.Asked (w : Wait) : List (Controller × Controller) → WaitEnd → Prop
  | ends {c c' : Controller} {x : WaitEnd} (h : w.poll c = (some x, c')) : Asked w [(c, c')] x
  | again {c c' : Controller} {steps : List (Controller × Controller)} {x : WaitEnd} (h : w.poll c = (none, c'))
    (hs : Asked w steps x) : Asked w ((c, c') :: steps) x

namespace Record

/-- A rejoining that came to its end, at once or after a wait, with the record and the result. -/
inductive Course (r : Record) (scope : StepScope) (st : Settings) :
    List (Controller × Controller) → Record → RejoinResult → Prop
  | atOnce {c c' : Controller} {x : RejoinResult} (h : r.rejoin c scope st = (.inl x, c')) :
    Course r scope st [(c, c')] (r.settled x) x
  | later {c c' : Controller} {w : Rejoining} {steps : List (Controller × Controller)} {r' : Record}
    {x : RejoinResult} (h : r.rejoin c scope st = (.inr w, c'))
    (hs : Wait.Asked (.rejoining w) steps (.rejoined r' x)) : Course r scope st ((c, c') :: steps) r' x

end Record

/-! ### What the steps keep -/

/-- Going on keeps no lease unless the step was recovered. -/
theorem Rejoining.Proceeds.settledSince {r : Rejoining} {c c' : Controller}
    {news : Option (Except Cancelled Execution)} {x : Option RejoinResult} (h : r.Proceeds c news x c')
    (hx : ∀ y, x ≠ some (.ok y)) : c.ledger.SettledSince c'.ledger := by
  cases h with
  | timedOut => simp
  | locked hs hc hl hd =>
    obtain ⟨_, l', _, ha, rfl⟩ := Controller.allocate_eq_ok.mp hl
    exact Ledger.settledSince_release ha
  | recovered => exact absurd rfl (hx _)
  | _ => exact .refl _

theorem Wait.Asked.settledSince {w : Rejoining} {steps : List (Controller × Controller)} {r' : Record}
    {e : RejoinError} (h : Wait.Asked (.rejoining w) steps (.rejoined r' (.error e))) :
    r' = .ofBookmark w.bookmark ∧ ∀ p ∈ steps, p.1.ledger.SettledSince p.2.ledger := by
  generalize hy : WaitEnd.rejoined r' (.error e) = y at h
  induction h with
  | @ends c c' x h =>
    subst hy
    have hp := w.proceeds_poll c
    simp only [Wait.poll, Prod.mk.injEq, Option.map_eq_some_iff, WaitEnd.rejoined.injEq] at h
    obtain ⟨⟨x, hx, hr, rfl⟩, rfl⟩ := h
    have hs := hp.settledSince (by simp [hx])
    exact ⟨hr.symm, by simpa using hs⟩
  | @again c c' steps x h _ ih =>
    have hp := w.proceeds_poll c
    simp only [Wait.poll, Prod.mk.injEq, Option.map_eq_none_iff] at h
    obtain ⟨hx, rfl⟩ := h
    have hs := hp.settledSince (by simp [hx])
    obtain ⟨hr, hrest⟩ := ih hy
    exact ⟨hr, List.forall_mem_cons.mpr ⟨hs, hrest⟩⟩

/-- Beginning to rejoin keeps no lease. -/
theorem Record.ledger_of_beginRejoin {r : Record} {c c' : Controller} {scope : StepScope} {st : Settings}
    {w : Rejoining} (h : r.beginRejoin c scope st = .ok (w, c')) : c'.ledger = c.ledger := by
  obtain ⟨-, _, _, _, -, -, -, rfl⟩ := beginRejoin_eq_ok.mp h
  simp

namespace Record

variable {r : Record} {c c' : Controller} {scope : StepScope} {st : Settings}

/-- A rejoining that fails at once keeps no lease. -/
theorem settledSince_of_rejoin_error {e : RejoinError} (h : r.rejoin c scope st = (.inl (.error e), c')) :
    c.ledger.SettledSince c'.ledger := by
  unfold rejoin at h
  split at h
  next => cases h; exact .refl _
  next w c₁ hb =>
    have hp := w.proceeds c₁ (c₁.queue.arrive w.item)
    split at h
    next x c₂ hx =>
      cases h
      rw [hx] at hp
      rw [← ledger_of_beginRejoin hb]
      exact hp.settledSince (by simp)
    next => cases h

theorem waits_of_rejoin {w : Rejoining} (h : r.rejoin c scope st = (.inr w, c')) :
    r.holdings = none ∧ w.bookmark = r.bookmark ∧ c'.ledger = c.ledger := by
  unfold rejoin at h
  split at h
  next => cases h
  next w' c₁ hb =>
    have hp := w'.proceeds c₁ (c₁.queue.arrive w'.item)
    split at h
    next => cases h
    next c₂ hx =>
      cases h
      rw [hx] at hp
      have hc : c' = c₁ := hp.waiting.2.2
      have hl := ledger_of_beginRejoin hb
      rw [← hc] at hl
      obtain ⟨hr, _, _, _, -, -, rfl, -⟩ := beginRejoin_eq_ok.mp hb
      exact ⟨hr, rfl, hl⟩

/-- **A rejoining that fails gives everything back.**  Whatever happens while it waits, and whoever grants the leases,
the record is as it was, and of each step of the rejoining every lease that was granted was given back once.  One of a
step that was rejoined already is a single step that changes nothing. -/
theorem Course.restitution {steps : List (Controller × Controller)} {r' : Record} {e : RejoinError}
    (h : Course r scope st steps r' (.error e)) :
    r' = r ∧ (∀ p ∈ steps, p.1.ledger.SettledSince p.2.ledger) ∧
      (r.holdings.isSome = true → e = .alreadyRejoined ∧ ∃ c, steps = [(c, c)]) := by
  cases h with
  | @atOnce c c' x h =>
    refine ⟨rfl, ?_, ?_⟩
    · have hs := settledSince_of_rejoin_error h
      simpa using hs
    · intro hr
      obtain ⟨y, hy⟩ := Option.isSome_iff_exists.mp hr
      rw [rejoin_of_holdings hy] at h
      cases h
      exact ⟨rfl, c, rfl⟩
  | @later c c' w steps _ _ h hs =>
    obtain ⟨hr, hb, hl⟩ := waits_of_rejoin h
    obtain ⟨hr', hss⟩ := hs.settledSince
    have hfirst : c.ledger.SettledSince c'.ledger := by
      rw [hl]
      exact .refl _
    refine ⟨?_, List.forall_mem_cons.mpr ⟨hfirst, hss⟩, ?_⟩
    · rw [hr', hb, ofBookmark_of_holdings hr]
    · simp [hr]

/-- A rejoining that waited finds its path held by then, and gives the variant that it was granted back. -/
theorem contended_course_restitution :
    let r := World.suspended none "" "/ws"
    let s := World.fresh.step (.rejoin r World.mute {})
    let t := s.after [.start 1 0 1, .allocate (.table 0) ⟨"", "/ws", 1⟩]
    let steps := [(World.fresh.controller, s.controller), (t.controller, (t.step (.turn 0)).controller)]
    Course r World.mute {} steps r (.error (.locked "/ws")) ∧ ∀ p ∈ steps, p.1.ledger.SettledSince p.2.ledger := by
  intro r s t steps
  have h : Course r World.mute {} steps r (.error (.locked "/ws")) := .later rfl (.ends rfl)
  exact ⟨h, h.restitution.2.1⟩

end Record

end Rejoin
