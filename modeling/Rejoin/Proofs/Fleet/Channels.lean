import Rejoin.Fleet
import Rejoin.Proofs.Places

/-!
# Channels over a run

* `FleetStep` — what can happen to a fleet, one thing at a time;
* `Fleet.Wired` — the channel that a worker was last given is open, and no two workers were given one channel;
* `Fleet.Reaches` — a channel that is still open is the one that its worker was last given.

All of them are kept whatever happens.
-/

namespace Rejoin

/-- What can happen to a fleet, one thing at a time.  Workers are hired only with grantors that `may` allows. -/
inductive FleetStep (may : Grantor → Prop) (f : Fleet) : Fleet → Prop
  | hire (name : String) {g : Grantor} (hg : may g) : FleetStep may f (f.hire name g).2
  | enlist (name : String) (w : Worker) : FleetStep may f (f.enlist name w)
  | delist (name : String) : FleetStep may f { f with roster := f.roster.filter (·.1 ≠ name) }
  | connect (w : Worker) : FleetStep may f (f.connect w).2
  | disconnect (w : Worker) (o : Outage) : FleetStep may f (f.disconnect w o)
  | noteTermination (w : Worker) (t : Termination) : FleetStep may f (f.noteTermination w t)

namespace Fleet

variable {f : Fleet} {w v : Worker} {c : Nat}

def grantor? (f : Fleet) (w : Worker) : Option Grantor := (f.station? w).map (·.grantor)

/-! ### What is stationed after an operation -/

theorem station?_congr (h : w.id = v.id) : f.station? w = f.station? v := by rw [station?, station?, h]

theorem lastChannel_congr (h : w.id = v.id) : f.lastChannel w = f.lastChannel v := by
  rw [lastChannel, lastChannel, station?_congr h]

theorem grantor?_congr (h : w.id = v.id) : f.grantor? w = f.grantor? v := by rw [grantor?, grantor?, station?_congr h]

theorem station?_update (f : Fleet) (w v : Worker) (g : Station → Station) :
    (f.update w g).station? v = if w.id = v.id then (f.station? v).map g else f.station? v := by
  split
  next h => rw [← station?_congr h, station?_update_self, station?_congr h]
  next h => exact station?_update_of_ne f h g

theorem station?_connect (f : Fleet) (w v : Worker) : (f.connect w).2.station? v =
    if w.id = v.id then (f.station? v).map fun s => { s with channel := some (f.channels.length + 1), outage := none }
    else f.station? v := by
  have h : Fleet.station? { f.close (f.lastChannel w) with
      channels := (f.close (f.lastChannel w)).channels ++ [true] } v = f.station? v := station?_close f _ v
  simp only [connect, station?_update, h]

theorem station?_disconnect (f : Fleet) (w v : Worker) (o : Outage) : (f.disconnect w o).station? v =
    if w.id = v.id then (f.station? v).map fun s => { s with channel := none, outage := some o }
    else f.station? v := by
  simp only [disconnect, station?_update, station?_close]

theorem station?_hire (f : Fleet) (name : String) (g : Grantor) (w : Worker) : (f.hire name g).2.station? w =
    if w.id = f.stations.length then some { grantor := g } else f.station? w := by
  simp only [hire, station?, getElem?_concat]

/-! ### The grantor after an operation -/

theorem grantor?_hire (f : Fleet) (name : String) (g : Grantor) (w : Worker) : (f.hire name g).2.grantor? w =
    if w.id = f.stations.length then some g else f.grantor? w := by
  rw [grantor?, station?_hire]
  split <;> rfl

theorem grantor?_update (f : Fleet) (w v : Worker) {k : Station → Station} (hk : ∀ s, (k s).grantor = s.grantor) :
    (f.update w k).grantor? v = f.grantor? v := by
  rw [grantor?, station?_update]
  split
  · rw [Option.map_map, grantor?]
    congr 1
    funext s
    exact hk s
  · rfl

@[simp] theorem grantor?_close (f : Fleet) (c : Option Nat) (w : Worker) : (f.close c).grantor? w = f.grantor? w := by
  rw [grantor?, station?_close, grantor?]

@[simp] theorem grantor?_noteTermination (f : Fleet) (w v : Worker) (t : Termination) :
    (f.noteTermination w t).grantor? v = f.grantor? v := grantor?_update f w v fun _ => rfl

@[simp] theorem grantor?_connect (f : Fleet) (w v : Worker) : (f.connect w).2.grantor? v = f.grantor? v := by
  rw [connect, grantor?_update]
  · exact grantor?_close f _ v
  · exact fun _ => rfl

@[simp] theorem grantor?_disconnect (f : Fleet) (w v : Worker) (o : Outage) :
    (f.disconnect w o).grantor? v = f.grantor? v := by
  rw [disconnect, grantor?_update]
  · exact grantor?_close f _ v
  · exact fun _ => rfl

/-! ### Open channels after an operation -/

theorem le_of_isOpen (h : f.isOpen c = true) : 0 < c ∧ c ≤ f.channels.length := by
  cases c with
  | zero => cases h
  | succ c =>
    simp only [isOpen, decide_eq_true_eq] at h
    obtain ⟨hc, -⟩ := List.getElem?_eq_some_iff.mp h
    omega

@[simp] theorem length_channels_close (f : Fleet) (c : Option Nat) :
    (f.close c).channels.length = f.channels.length := by
  rcases c with _ | _ | c <;> simp [close]

theorem isOpen_close_iff (f : Fleet) (o : Option Nat) (c : Nat) :
    (f.close o).isOpen c = true ↔ f.isOpen c = true ∧ o ≠ some c := by
  cases o with
  | none => simp [close]
  | some d =>
    by_cases h : d = c
    · subst h
      simp [isOpen_close_self]
    · simp [isOpen_close_of_ne f h, h]

theorem isOpen_connect_iff (f : Fleet) (w : Worker) (c : Nat) : (f.connect w).2.isOpen c = true ↔
    c = f.channels.length + 1 ∨ (f.isOpen c = true ∧ f.lastChannel w ≠ some c) := by
  rw [← isOpen_close_iff f (f.lastChannel w) c]
  cases c with
  | zero => simp
  | succ c =>
    have hl := length_channels_close f (f.lastChannel w)
    simp only [connect, isOpen_update]
    simp only [isOpen, Nat.add_right_cancel_iff, decide_eq_true_eq]
    rw [getElem?_concat, hl]
    split
    next h => simp [h]
    next h => simp [h]

theorem isOpen_disconnect_iff (f : Fleet) (w : Worker) (o : Outage) (c : Nat) :
    (f.disconnect w o).isOpen c = true ↔ f.isOpen c = true ∧ f.lastChannel w ≠ some c := by
  rw [← isOpen_close_iff, disconnect, isOpen_update]

@[simp] theorem length_channels_connect (f : Fleet) (w : Worker) :
    (f.connect w).2.channels.length = f.channels.length + 1 := by
  simp [connect, update]

@[simp] theorem length_channels_disconnect (f : Fleet) (w : Worker) (o : Outage) :
    (f.disconnect w o).channels.length = f.channels.length := by
  simp [disconnect, update]

/-! ### The last channel after an operation -/

theorem lastChannel_connect_eq_some (h : (f.connect w).2.lastChannel v = some c) :
    (w.id = v.id ∧ c = f.channels.length + 1) ∨ (w.id ≠ v.id ∧ f.lastChannel v = some c) := by
  rw [lastChannel, station?_connect] at h
  split at h
  next hv =>
    obtain ⟨s, hs, hc⟩ := Option.bind_eq_some_iff.mp h
    obtain ⟨s', -, rfl⟩ := Option.map_eq_some_iff.mp hs
    exact .inl ⟨hv, (Option.some.inj hc).symm⟩
  next hv => exact .inr ⟨hv, h⟩

theorem lastChannel_connect_of_ne (h : w.id ≠ v.id) : (f.connect w).2.lastChannel v = f.lastChannel v := by
  rw [lastChannel, station?_connect, if_neg h, lastChannel]

theorem lastChannel_disconnect_of_ne (h : w.id ≠ v.id) (o : Outage) :
    (f.disconnect w o).lastChannel v = f.lastChannel v := by
  rw [lastChannel, station?_disconnect, if_neg h, lastChannel]

theorem lastChannel_disconnect_eq_some {o : Outage} (h : (f.disconnect w o).lastChannel v = some c) :
    w.id ≠ v.id ∧ f.lastChannel v = some c := by
  by_cases hv : w.id = v.id
  · rw [← lastChannel_congr hv, lastChannel_disconnect] at h
    cases h
  · rw [lastChannel_disconnect_of_ne hv] at h
    exact ⟨hv, h⟩

@[simp] theorem lastChannel_noteTermination (f : Fleet) (w v : Worker) (t : Termination) :
    (f.noteTermination w t).lastChannel v = f.lastChannel v := by
  rw [lastChannel, noteTermination, station?_update, lastChannel]
  split <;> cases f.station? v <;> rfl

theorem ne_of_lastChannel (hv : f.lastChannel v ≠ some c) (hw : f.lastChannel w = some c) : v.id ≠ w.id := by
  intro e
  rw [lastChannel_congr e] at hv
  exact hv hw

theorem lt_of_lastChannel (h : f.lastChannel w = some c) : w.id < f.stations.length := by
  obtain ⟨s, hs, -⟩ := Option.bind_eq_some_iff.mp h
  exact (List.getElem?_eq_some_iff.mp hs).1

theorem lastChannel_hire (f : Fleet) (name : String) (g : Grantor) (w : Worker) :
    (f.hire name g).2.lastChannel w = f.lastChannel w := by
  rw [lastChannel, station?_hire]
  split
  next h =>
    have hn : f.station? w = none := List.getElem?_eq_none (Nat.le_of_eq h.symm)
    rw [lastChannel, hn]
    rfl
  next => rfl

/-! ### Wiring -/

/-- The channel that a worker was last given is open, and no two workers were given one channel. -/
structure Wired (f : Fleet) : Prop where
  isOpen_last : ∀ w c, f.lastChannel w = some c → f.isOpen c = true
  apart : ∀ w v c, f.lastChannel w = some c → f.lastChannel v = some c → w.id = v.id

theorem wired_start (t : Nat) : (start t).Wired := by
  have h : ∀ w c, (start t).lastChannel w = some c → w.id = 0 ∧ c = 1 := by
    intro w c hc
    have hw : w.id < 1 := lt_of_lastChannel hc
    have h0 : w.id = controllerWorker.id := Nat.lt_one_iff.mp hw
    rw [lastChannel_congr h0] at hc
    exact ⟨h0, (Option.some.inj hc).symm⟩
  constructor
  · intro w c hc
    obtain rfl := (h w c hc).2
    rfl
  · intro w v c hw hv
    rw [(h w c hw).1, (h v c hv).1]

/-- A worker that was given a channel and did not lose it is online. -/
theorem Wired.channel?_eq (h : f.Wired) (w : Worker) : f.channel? w = f.lastChannel w := by
  cases hc : f.lastChannel w with
  | none => simp [channel?, hc]
  | some c => exact channel?_eq_some.mpr ⟨hc, h.isOpen_last w c hc⟩

end Fleet

namespace FleetStep

open Fleet

variable {may : Grantor → Prop} {f f' : Fleet}

theorem wired (h : FleetStep may f f') (hf : f.Wired) : f'.Wired := by
  cases h with
  | hire name hg =>
    constructor
    · intro w c hc
      rw [lastChannel_hire] at hc
      exact hf.isOpen_last w c hc
    · intro w v c hw hv
      rw [lastChannel_hire] at hw hv
      exact hf.apart w v c hw hv
  | enlist => exact ⟨hf.isOpen_last, hf.apart⟩
  | delist => exact ⟨hf.isOpen_last, hf.apart⟩
  | noteTermination w t =>
    constructor
    · intro v c hc
      rw [lastChannel_noteTermination] at hc
      exact hf.isOpen_last v c hc
    · intro u v c hu hv
      rw [lastChannel_noteTermination] at hu hv
      exact hf.apart u v c hu hv
  | connect w =>
    -- The new channel is open and was nobody's; the one that was closed was nobody else's.
    have hnew : ∀ v, f.lastChannel v ≠ some (f.channels.length + 1) := by
      intro v hv
      have hle := (le_of_isOpen (hf.isOpen_last v _ hv)).2
      omega
    constructor
    · intro v c hc
      rw [isOpen_connect_iff]
      rcases lastChannel_connect_eq_some hc with ⟨-, rfl⟩ | ⟨hv, hc⟩
      · exact .inl rfl
      · have hne : f.lastChannel w ≠ some c := by
          intro hw
          exact hv (hf.apart w v c hw hc)
        exact .inr ⟨hf.isOpen_last v c hc, hne⟩
    · intro u v c hu hv
      rcases lastChannel_connect_eq_some hu with ⟨hu, hc'⟩ | ⟨hu, hcu⟩ <;>
        rcases lastChannel_connect_eq_some hv with ⟨hv, hc⟩ | ⟨hv, hcv⟩
      · exact hu.symm.trans hv
      · rw [hc'] at hcv
        exact absurd hcv (hnew v)
      · rw [hc] at hcu
        exact absurd hcu (hnew u)
      · exact hf.apart u v c hcu hcv
  | disconnect w o =>
    constructor
    · intro v c hc
      obtain ⟨hv, hc⟩ := lastChannel_disconnect_eq_some hc
      rw [isOpen_disconnect_iff]
      refine ⟨hf.isOpen_last v c hc, ?_⟩
      intro hw
      exact hv (hf.apart w v c hw hc)
    · intro u v c hu hv
      have hu := (lastChannel_disconnect_eq_some hu).2
      have hv := (lastChannel_disconnect_eq_some hv).2
      exact hf.apart u v c hu hv

/-- Who grants the leases of a worker never changes; a worker that has a grantor now had it before, or was hired with
it. -/
theorem grantor?_eq_some (h : FleetStep may f f') {w : Worker} {g : Grantor} :
    (f.grantor? w = some g → f'.grantor? w = some g) ∧
      (f'.grantor? w = some g → f.grantor? w = some g ∨ may g) := by
  cases h with
  | hire name hg =>
    rw [grantor?_hire]
    split
    next hw =>
      have hn : f.grantor? w = none := by
        rw [grantor?, station?, List.getElem?_eq_none (Nat.le_of_eq hw.symm)]
        rfl
      rw [hn]
      constructor
      · intro e
        cases e
      · intro e
        rw [Option.some.inj e] at hg
        exact .inr hg
    next => exact ⟨id, .inl⟩
  | enlist => exact ⟨id, .inl⟩
  | delist => exact ⟨id, .inl⟩
  | noteTermination v t => rw [grantor?_noteTermination]; exact ⟨id, .inl⟩
  | connect v => rw [grantor?_connect]; exact ⟨id, .inl⟩
  | disconnect v o => rw [grantor?_disconnect]; exact ⟨id, .inl⟩

end FleetStep

/-! ### Channels that are still open -/

/-- The channel was opened to the worker, and is the one it was last given if it is still open. -/
structure Fleet.Reaches (f : Fleet) (c : Nat) (w : Worker) : Prop where
  le : c ≤ f.channels.length
  last : f.isOpen c = true → f.lastChannel w = some c

namespace FleetStep

open Fleet

variable {may : Grantor → Prop} {f f' : Fleet} {c : Nat} {w : Worker}

theorem reaches (h : FleetStep may f f') (hf : f.Reaches c w) : f'.Reaches c w := by
  cases h with
  | hire name hg =>
    refine ⟨hf.le, ?_⟩
    intro ho
    rw [lastChannel_hire]
    exact hf.last ho
  | enlist => exact ⟨hf.le, hf.last⟩
  | delist => exact ⟨hf.le, hf.last⟩
  | noteTermination v t =>
    refine ⟨hf.le, ?_⟩
    intro ho
    rw [lastChannel_noteTermination]
    exact hf.last ho
  | connect v =>
    have hle := hf.le
    constructor
    · rw [length_channels_connect]
      omega
    · intro ho
      rcases (isOpen_connect_iff f v c).mp ho with rfl | ⟨ho, hv⟩
      · omega
      · have hne := ne_of_lastChannel hv (hf.last ho)
        rw [lastChannel_connect_of_ne hne, hf.last ho]
  | disconnect v o =>
    constructor
    · rw [length_channels_disconnect]
      exact hf.le
    · intro ho
      obtain ⟨ho, hv⟩ := (isOpen_disconnect_iff f v o c).mp ho
      have hne := ne_of_lastChannel hv (hf.last ho)
      rw [lastChannel_disconnect_of_ne hne, hf.last ho]

end FleetStep

end Rejoin
