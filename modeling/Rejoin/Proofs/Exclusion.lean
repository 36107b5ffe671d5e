import Rejoin.Proofs.Recovery
import Rejoin.Proofs.World.Calls
import Rejoin.Proofs.World.Parts

/-!
# Leases and the directories that steps work in

A lease is exclusive within the table that granted it, and a directory is handed out over the channel of the lease or,
when that is closed, over the channel of whoever the node's name stands for by then.

* `Controller.Backs` — what a step that was rejoined holds, at any later time;
* `World.WorksIn` — a step that was rejoined, and whose lease was not given back, works in a directory;
* `World.dirs_apart` — two of them never work in one directory if one table granted both leases, nor if two tables did
  and neither step strayed to another one;
* `World.strayed_dirs_collide` — with two tables one that strayed can.
-/

namespace Rejoin

def Fleet.table? (f : Fleet) (w : Worker) : Option Nat :=
  match f.grantor? w with
  | some (.table t) => some t
  | _ => none

theorem Fleet.table?_eq_some {f : Fleet} {w : Worker} {t : Nat} :
    f.table? w = some t ↔ f.grantor? w = some (.table t) := by
  unfold Fleet.table?
  constructor
  · intro h
    split at h
    next t' ht => rw [ht, Option.some.inj h]
    next => cases h
  · intro h
    rw [h]

def Ledger.grantedBy? (l : Ledger) (id : Nat) : Option Nat :=
  match l.leases[id]? with
  | some ⟨.table t _, _⟩ => some t
  | _ => none

/-! ### What a step that was rejoined holds -/

/-- The lease was granted by the table of the slot's worker, over a channel to that worker. -/
structure Controller.Backs (c : Controller) (x : Holdings) : Prop where
  reaches : c.fleet.Reaches x.lease.dir.channel x.slot.owner
  granted : ∃ t, c.fleet.grantor? x.slot.owner = some (.table t) ∧
    ∃ released, c.ledger.leases[x.lease.id]? = some ⟨.table t x.lease.dir.path, released⟩

namespace World

section Backs

variable {s : World} {e : Event} {x : Holdings}

theorem backs_step (h : s.controller.Backs x) (hs : s.Orderly) (he : TablesOnly s e) :
    (s.step e).controller.Backs x := by
  obtain ⟨hr, t, hg, hl⟩ := h
  have hf := fleet_steps_listed he
  refine ⟨?_, t, ?_, ?_⟩
  · refine keeps_of_steps (P := fun f => f.Reaches x.lease.dir.channel x.slot.owner) ?_ hf hr
    intro _ _ h
    exact h.reaches
  · refine keeps_of_steps (P := fun f => f.grantor? x.slot.owner = some (.table t)) ?_ hf hg
    intro _ _ h
    exact h.grantor?_eq_some.1
  · have hsteps := ledger_steps hs.listed he
    refine keeps_of_steps (P := fun l => ∃ b, l.leases[x.lease.id]? = some ⟨.table t x.lease.dir.path, b⟩) ?_ hsteps hl
    intro _ _ h
    exact h.origin

theorem backs_of_poll (hs : s.Orderly) {w : Rejoining} (h : (w.poll s.controller).1 = some (.ok x)) :
    (w.poll s.controller).2.Backs x := by
  have hp := w.proceeds_poll s.controller
  rw [h] at hp
  generalize (w.poll s.controller).2 = c at hp
  generalize s.controller.queue.news? w.item = news at hp
  cases hp with
  | @recovered e v channel l _ hv hc hl hd =>
    obtain ⟨st, l', hst, ha, rfl⟩ := Controller.allocate_eq_ok.mp hl
    have hg : s.fleet.grantor? v.owner = some st.grantor := by
      rw [Fleet.grantor?, hst]
      rfl
    obtain ⟨t, ht, -, hgrant⟩ := ledger_allocate (hs.listed _ _ hg) ha
    obtain ⟨rfl, rfl⟩ := Prod.mk.inj hgrant
    rw [ht] at hg
    obtain ⟨hlast, ho⟩ := Fleet.channel?_eq_some.mp hc
    have hreach : s.fleet.Reaches channel v.owner := ⟨(Fleet.le_of_isOpen ho).2, fun _ => hlast⟩
    exact ⟨hreach, t, hg, false, List.getElem?_concat_length⟩

end Backs

def AllBacked (s : World) : Prop := ∀ (n : Nat) (r : Record) (x : Holdings),
  s.calls[n]? = some (.ended (.rejoined r (.ok x))) → r.holdings = some x ∧ s.controller.Backs x

theorem allBacked_step {s : World} {e : Event} (hs : s.Orderly) (h : s.AllBacked) (he : TablesOnly s e) :
    (s.step e).AllBacked := by
  intro n r x hn
  cases calls_step hn with
  | stays hn =>
    obtain ⟨hr, hb⟩ := h n r x hn
    exact ⟨hr, backs_step hb hs he⟩
  | @ends w _ c he' hw hp =>
    subst he'
    obtain ⟨w, rfl, hp, hr⟩ := poll_eq_rejoined hp
    have hb := backs_of_poll hs (congrArg Prod.fst hp)
    refine ⟨by rw [hr]; rfl, ?_⟩
    simp only [step, turn, hw]
    exact hb

theorem Run.allBacked {s : World} (h : Reachable TablesOnly s) : s.AllBacked := by
  have hfresh : fresh.AllBacked := by
    intro n r x hn
    cases hn
  -- What a step holds is backed only in an orderly world, so the two are kept together.
  have hk := h.keeps (P := fun s => s.Orderly ∧ s.AllBacked) ?_ ⟨orderly_fresh, hfresh⟩
  · exact hk.2
  · rintro t e he ⟨ho, ha⟩
    exact ⟨orderly_step ho he, allBacked_step ho ha he⟩

/-! ### The directory of a step -/

/-- A step that was rejoined, and whose lease was not given back, looks its directory up: in a scope that has the
record, and no directory of its own, through the resolvers that were registered. -/
structure WorksIn (s : World) (r : Record) (x : Holdings) (d : Dir) : Prop where
  rejoined : ∃ n : Nat, s.calls[n]? = some (.ended (.rejoined r (.ok x)))
  unreleased : s.ledger.isReleased x.lease.id = false
  resolved : ∃ (scope : StepScope) (t : StepTable), Recovery.register t = (scope.table, .ok ()) ∧
    scope.bound? .record = some ⟨.record, r⟩ ∧ scope.bound? .dir = none ∧ scope.get s.fleet .dir = .ok (some d)

/-- The channel of the lease is closed, and the node's name stands for a worker whose leases are not granted by the
table that granted this one. -/
def Strayed (s : World) (r : Record) (x : Holdings) : Prop :=
  s.fleet.isLive x.lease.dir = false ∧
    (s.fleet.worker? r.bookmark.node).bind s.fleet.table? ≠ s.ledger.grantedBy? x.lease.id

instance (s : World) (r : Record) (x : Holdings) : Decidable (s.Strayed r x) :=
  inferInstanceAs (Decidable (_ ∧ _))

section Dirs

variable {s : World} {r : Record} {x : Holdings} {d : Dir}

/-- A step works at the path of its lease, over the channel of a worker; unless it strayed, the table of that worker
granted the lease. -/
theorem WorksIn.held (h : s.WorksIn r x d) (ha : s.AllBacked) :
    ∃ w t, s.fleet.lastChannel w = some d.channel ∧ s.ledger.leases[x.lease.id]? = some ⟨.table t d.path, false⟩ ∧
      (s.Strayed r x ∨ s.fleet.grantor? w = some (.table t)) := by
  obtain ⟨⟨n, hn⟩, hu, scope, t, ht, hb, hd, hg⟩ := h
  obtain ⟨hx, hback⟩ := ha n r x hn
  obtain ⟨hreach, t, hgr, released, hl⟩ := hback
  have hl : s.ledger.leases[x.lease.id]? = some ⟨.table t x.lease.dir.path, released⟩ := hl
  obtain rfl : released = false := by
    rw [Ledger.isReleased, hl] at hu
    exact hu
  rw [Recovery.get_dir ht hb hd hx, Recovery.currentDir] at hg
  split at hg
  next hlive =>
    cases hg
    exact ⟨x.slot.owner, t, hreach.last hlive, hl, .inr hgr⟩
  next hlive =>
    split at hg
    next d' hd' =>
      cases hg
      obtain ⟨w, hw, hdir⟩ := Option.bind_eq_some_iff.mp hd'
      obtain ⟨c, hc, rfl⟩ := Option.map_eq_some_iff.mp hdir
      have hlast : s.fleet.lastChannel w = some c := (Fleet.channel?_eq_some.mp hc).1
      refine ⟨w, t, hlast, hl, ?_⟩
      -- The handle is the one of whoever the name stands for, and that may be a worker of another table.
      by_cases htab : s.fleet.table? w = some t
      · exact .inr (Fleet.table?_eq_some.mp htab)
      · refine .inl ⟨Bool.eq_false_iff.mpr hlive, ?_⟩
        rw [hw, Option.bind_some, Ledger.grantedBy?, hl]
        exact htab
    next => cases hg

/-- **Directories stay apart.**  In every run two steps that hold leases of their own work in different directories,
after whatever happened to their nodes.  If one table granted the leases, that is so in any case; if there were two, as
long as neither step works on a worker of another table, which takes that its handle was made anew. -/
theorem dirs_apart (h : Reachable TablesOnly s) {r₁ r₂ : Record} {x₁ x₂ : Holdings} {d₁ d₂ : Dir}
    (h₁ : s.WorksIn r₁ x₁ d₁) (h₂ : s.WorksIn r₂ x₂ d₂) (hne : x₁.lease.id ≠ x₂.lease.id)
    (hs : s.ledger.grantedBy? x₁.lease.id ≠ s.ledger.grantedBy? x₂.lease.id →
      ¬s.Strayed r₁ x₁ ∧ ¬s.Strayed r₂ x₂) : d₁.same d₂ = false := by
  have ho := h.orderly
  obtain ⟨w₁, t₁, hc₁, hl₁, ht₁⟩ := h₁.held h.allBacked
  obtain ⟨w₂, t₂, hc₂, hl₂, ht₂⟩ := h₂.held h.allBacked
  rw [← Bool.not_eq_true, Dir.same_iff]
  rintro ⟨hp, hc⟩
  by_cases ht : t₁ = t₂
  · -- One table has granted a path to one lease at most.
    rw [ht, hp] at hl₁
    exact hne (ho.sound.eq_of_unreleased hl₁ hl₂)
  · have hgranted : s.ledger.grantedBy? x₁.lease.id ≠ s.ledger.grantedBy? x₂.lease.id := by
      simpa [Ledger.grantedBy?, hl₁, hl₂] using ht
    obtain ⟨hs₁, hs₂⟩ := hs hgranted
    have hg₁ := ht₁.resolve_left hs₁
    have hg₂ := ht₂.resolve_left hs₂
    -- One channel leads to one worker, and that has one table.
    rw [hc] at hc₁
    have hw : w₁.id = w₂.id := ho.wired.apart w₁ w₂ d₂.channel hc₁ hc₂
    rw [Fleet.grantor?_congr hw, hg₂] at hg₁
    exact ht (Grantor.table.inj (Option.some.inj hg₁)).symm

end Dirs

/-! ### Runs of some steps -/

def slotOf (worker lease : Nat) (path : String) (channel : Nat) : Holdings :=
  ⟨⟨⟨worker, "w"⟩, 1⟩, ⟨lease, ⟨"w", path, channel⟩⟩⟩

/-- The record of a step that was suspended in the directory in which it holds something again. -/
def rejoinedBy (x : Holdings) : Record := { suspended none x.lease.dir.node x.lease.dir.path with holdings := some x }

def scopeOf (r : Record) : StepScope := .root (Recovery.register []).1 [⟨.record, r⟩] 0

theorem worksIn_rejoinedBy {s : World} {x : Holdings} {d : Dir} (n : Nat)
    (hn : s.calls[n]? = some (.ended (.rejoined (rejoinedBy x) (.ok x))))
    (hu : s.ledger.isReleased x.lease.id = false)
    (hg : (scopeOf (rejoinedBy x)).get s.fleet .dir = .ok (some d)) : s.WorksIn (rejoinedBy x) x d :=
  ⟨⟨n, hn⟩, hu, scopeOf (rejoinedBy x), [], rfl, rfl, rfl, hg⟩

/-- Two steps are rejoined on a worker, and one on the controller. -/
def rejoined : World := fresh.after [.addWorker "w", .rejoin (suspended none "w" "/a") mute {}, .start 1 1 1,
  .turn 0, .rejoin (suspended none "w" "/b") mute {}, .start 2 1 1, .turn 1,
  .rejoin (suspended none "" "/a") mute {}, .start 3 0 1, .turn 2]

def reconnected : World := rejoined.after [.disconnect 1 ⟨"lost", ⟨0, 0⟩⟩, .connect 1]

def readded : World := rejoined.after [.remove "w" ⟨0, 0⟩, .addWorker "w"]

/-- Steps stay apart that work over a new channel of their worker, that strayed together when their node was removed
and added again, and that have one path on two workers. -/
theorem dirs_apart_renewed :
    let a := slotOf 1 0 "/a" 2
    let b := slotOf 1 1 "/b" 2
    let c : Holdings := ⟨⟨Fleet.controllerWorker, 1⟩, ⟨2, ⟨"", "/a", 1⟩⟩⟩
    (∀ s ∈ [reconnected, readded], Reachable TablesOnly s ∧ s.WorksIn (rejoinedBy a) a ⟨"w", "/a", 3⟩ ∧
        s.WorksIn (rejoinedBy b) b ⟨"w", "/b", 3⟩ ∧ Dir.same ⟨"w", "/a", 3⟩ ⟨"w", "/b", 3⟩ = false) ∧
      (readded.Strayed (rejoinedBy a) a ∧ readded.Strayed (rejoinedBy b) b) ∧
      reconnected.WorksIn (rejoinedBy c) c ⟨"", "/a", 1⟩ ∧ Dir.same ⟨"w", "/a", 3⟩ ⟨"", "/a", 1⟩ = false := by
  intro a b c
  have hreached : Reachable TablesOnly rejoined := Run.refl.after (by simp [TablesOnly])
  have h₁ : Reachable TablesOnly reconnected := hreached.after (by simp [TablesOnly])
  have h₂ : Reachable TablesOnly readded := hreached.after (by simp [TablesOnly])
  have ha₁ : reconnected.WorksIn (rejoinedBy a) a ⟨"w", "/a", 3⟩ := worksIn_rejoinedBy 0 rfl rfl rfl
  have hb₁ : reconnected.WorksIn (rejoinedBy b) b ⟨"w", "/b", 3⟩ := worksIn_rejoinedBy 1 rfl rfl rfl
  have hc₁ : reconnected.WorksIn (rejoinedBy c) c ⟨"", "/a", 1⟩ := worksIn_rejoinedBy 2 rfl rfl rfl
  have ha₂ : readded.WorksIn (rejoinedBy a) a ⟨"w", "/a", 3⟩ := worksIn_rejoinedBy 0 rfl rfl rfl
  have hb₂ : readded.WorksIn (rejoinedBy b) b ⟨"w", "/b", 3⟩ := worksIn_rejoinedBy 1 rfl rfl rfl
  refine ⟨?_, ⟨by decide, by decide⟩, hc₁, dirs_apart h₁ ha₁ hc₁ (by decide) fun _ => ⟨by decide, by decide⟩⟩
  intro s hs
  rcases List.mem_pair.mp hs with rfl | rfl
  · exact ⟨h₁, ha₁, hb₁, dirs_apart h₁ ha₁ hb₁ (by decide) fun hne => absurd rfl hne⟩
  · exact ⟨h₂, ha₂, hb₂, dirs_apart h₂ ha₂ hb₂ (by decide) fun hne => absurd rfl hne⟩

/-- A step is rejoined on a worker, whose node is removed and added again, and then another one at the same path. -/
def replaced : World := fresh.after [.addWorker "w", .rejoin (suspended none "w" "/ws") mute {}, .start 1 1 1,
  .turn 0, .remove "w" ⟨0, 0⟩, .addWorker "w", .rejoin (suspended none "w" "/ws") mute {}, .start 2 2 1, .turn 1]

/-- The first step strayed to the table of the second one, and works in its directory. -/
theorem strayed_dirs_collide : ¬ ∀ s : World, Reachable TablesOnly s → ∀ (r₁ r₂ : Record) (x₁ x₂ : Holdings)
    (d₁ d₂ : Dir), s.WorksIn r₁ x₁ d₁ → s.WorksIn r₂ x₂ d₂ → x₁.lease.id ≠ x₂.lease.id → d₁.same d₂ = false := by
  intro hall
  have h : Reachable TablesOnly replaced := Run.refl.after (by simp [TablesOnly])
  have h₁ : replaced.WorksIn (rejoinedBy (slotOf 1 0 "/ws" 2)) (slotOf 1 0 "/ws" 2) ⟨"w", "/ws", 3⟩ :=
    worksIn_rejoinedBy 0 rfl rfl rfl
  have h₂ : replaced.WorksIn (rejoinedBy (slotOf 2 1 "/ws" 3)) (slotOf 2 1 "/ws" 3) ⟨"w", "/ws", 3⟩ :=
    worksIn_rejoinedBy 1 rfl rfl rfl
  have hd := hall replaced h _ _ _ _ _ _ h₁ h₂ (by decide)
  simp at hd

end World

end Rejoin
