import Mathlib.Logic.Relation
import Rejoin.Proofs.Fleet.Channels
import Rejoin.Proofs.Lease.Ledger
import Rejoin.Proofs.World.Basic

/-!
# The fleet and the ledger over a run

Runs in which every lease is granted by a hold table.

* `World.TablesOnly` — the rule of those runs;
* `World.fleet_steps`, `World.ledger_steps` — an event changes the fleet and the ledger by steps of their own;
* `World.Run.fleet_keeps` — what the steps of a fleet keep, every run keeps;
* `World.Orderly`, `World.Run.orderly` — the tables of all workers exist, the fleet is wired and the ledger is sound.
-/

namespace Rejoin

open Relation (ReflTransGen)

theorem keeps_of_steps {α : Type} {r : α → α → Prop} {P : α → Prop} (hP : ∀ a b, r a b → P a → P b) {a b : α}
    (h : ReflTransGen r a b) (ha : P a) : P b := by
  induction h with
  | refl => exact ha
  | tail _ hs ih => exact hP _ _ hs ih

namespace World

/-- All leases are granted by tables that exist. -/
def TablesOnly (s : World) : Event → Prop
  | .hire _ g => s.ledger.Lists g
  | .allocate g _ => s.ledger.Lists g
  | _ => True

/-- The tables that the workers' leases are granted by exist. -/
def Listed (s : World) : Prop := ∀ w g, s.fleet.grantor? w = some g → s.ledger.Lists g

section Steps

variable {s : World} {e : Event}

theorem fleet_onWorker {may : Grantor → Prop} (s : World) (k : Nat) {g : Fleet → Worker → Fleet}
    (hg : ∀ w, FleetStep may s.fleet (g s.fleet w)) :
    ReflTransGen (FleetStep may) s.fleet (s.onWorker k g).fleet := by
  rcases s.onWorker_eq k g with h | ⟨w, -, h⟩
  · rw [h]
  · rw [h]
    exact .single (hg w)

theorem fleet_remove {may : Grantor → Prop} (f : Fleet) (name : String) (time : Timestamp) :
    ReflTransGen (FleetStep may) f (f.remove name time).2 := by
  unfold Fleet.remove
  split
  next => exact .refl
  next w _ => exact .tail (.single (.disconnect w _)) (.delist name)

/-- An event changes the fleet by steps, and hires only whom it says. -/
theorem fleet_steps {may : Grantor → Prop} (s : World) (e : Event) (he : ∀ name g, e = .hire name g → may g)
    (ha : ∀ name, e = .addWorker name → may (.table s.ledger.tables.length)) :
    ReflTransGen (FleetStep may) s.fleet (s.step e).fleet := by
  cases e with
  | hire name g => exact .single (.hire name (he name g rfl))
  | addWorker name => exact .tail (.tail (.single (.hire name (ha name rfl))) (.connect _)) (.enlist name _)
  | enlist name k => exact fleet_onWorker s k fun w => .enlist name w
  | remove name time => exact fleet_remove s.fleet name time
  | connect k => exact fleet_onWorker s k fun w => .connect w
  | disconnect k o => exact fleet_onWorker s k fun w => .disconnect w o
  | noteTermination k t => exact fleet_onWorker s k fun w => .noteTermination w t
  | turn n => rw [step, (s.turn_frame n).2.1]
  | rejoin r scope st => rw [step, (s.rejoin_frame r scope st).2.1]
  | drop n => rw [step, fleet_drop]
  | allocate g d => rw [step, fleet_allocate]
  | submit w priority => rw [step, fleet_submit]
  | start item k number => rw [step, fleet_startOn]
  | cancel item => rw [step, fleet_cancel]
  | _ => exact .refl

/-- A lease of a worker whose table exists is granted by that. -/
theorem ledger_allocate {l l' : Ledger} {g : Grantor} {d : Dir} {x : Lease} (hg : l.Lists g)
    (h : l.allocate g d = .ok (x, l')) : ∃ t, g = .table t ∧ t < l.tables.length ∧ (x, l') = l.grant t d := by
  cases g with
  | table t => exact ⟨t, rfl, hg, (Except.ok.inj h).symm⟩
  | policy grant => exact hg.elim

/-- Going on grants one lease at most, and gives it back if that is a variant. -/
theorem ledger_poll {w : Wait} {c : Controller} (hc : ∀ w g, c.fleet.grantor? w = some g → c.ledger.Lists g) :
    ReflTransGen LedgerStep c.ledger (w.poll c).2.ledger := by
  have grants {v : Worker} {d : Dir} {l : Lease} {c' : Controller} (h : c.allocate v d = .ok (l, c')) :
      ReflTransGen LedgerStep c.ledger c'.ledger := by
    obtain ⟨s, l', hs, ha, rfl⟩ := Controller.allocate_eq_ok.mp h
    have hg : c.fleet.grantor? v = some s.grantor := by
      rw [Fleet.grantor?, hs]
      rfl
    obtain ⟨t, -, ht, hl⟩ := ledger_allocate (hc v s.grantor hg) ha
    obtain rfl := (Prod.mk.inj hl).2
    exact .single (.grant ht d)
  cases w with
  | start item => exact .refl
  | rejoining r =>
    have hp := r.proceeds_poll c
    simp only [Wait.poll]
    generalize (r.poll c).1 = x at hp
    generalize (r.poll c).2 = c' at hp
    generalize c.queue.news? r.item = news at hp
    cases hp with
    | timedOut => rw [Controller.ledger_println]
    | locked hs hc' hl hd => exact (grants hl).tail (.release _)
    | recovered hs hc' hl hd => exact grants hl
    | _ => exact .refl

theorem ledger_steps (hs : s.Listed) (he : TablesOnly s e) : ReflTransGen LedgerStep s.ledger (s.step e).ledger := by
  cases e with
  | newTable => exact .single .newTable
  | addWorker name => exact .single .newTable
  | release id => exact .single (.release id)
  | allocate g d =>
    simp only [step, allocate]
    split
    next x l h =>
      obtain ⟨t, -, ht, hl⟩ := ledger_allocate he h
      obtain rfl := (Prod.mk.inj hl).2
      exact .single (.grant ht d)
    next => exact .refl
  | turn n =>
    simp only [step, turn]
    split
    next w _ => exact ledger_poll (w := w) hs
    next => exact .refl
  | rejoin r scope st => rw [step, (s.rejoin_frame r scope st).2.2]
  | drop n => rw [step, ledger_drop]
  | submit w priority => rw [step, ledger_submit]
  | start item k number => rw [step, ledger_startOn]
  | cancel item => rw [step, ledger_cancel]
  | enlist name k => rw [step, ledger_onWorker]
  | connect k => rw [step, ledger_onWorker]
  | disconnect k o => rw [step, ledger_onWorker]
  | noteTermination k t => rw [step, ledger_onWorker]
  | _ => exact .refl

end Steps

/-! ### What is kept -/

/-- The tables of all workers exist, the fleet is wired and the ledger is sound. -/
structure Orderly (s : World) : Prop where
  listed : s.Listed
  wired : s.fleet.Wired
  sound : s.ledger.Sound

theorem orderly_fresh : fresh.Orderly := by
  refine ⟨?_, Fleet.wired_start 0, ?_, ?_⟩
  · intro w g hg
    obtain ⟨s, hs, rfl⟩ := Option.map_eq_some_iff.mp hg
    have hm : s ∈ fresh.fleet.stations := List.mem_of_getElem? hs
    obtain rfl := List.mem_singleton.mp hm
    exact Nat.zero_lt_one
  · intro t
    cases t <;> exact .refl _
  · intro t
    cases t <;> exact List.nodup_nil

section Keeping

variable {s : World} {e : Event}

theorem fleet_steps_listed (he : TablesOnly s e) :
    ReflTransGen (FleetStep (s.step e).ledger.Lists) s.fleet (s.step e).fleet := by
  refine s.fleet_steps e ?_ ?_
  · rintro name g rfl
    exact he
  · rintro name rfl
    simp [step, Controller.addWorker, Ledger.newTable, Ledger.Lists]

theorem orderly_step (hs : s.Orderly) (he : TablesOnly s e) : (s.step e).Orderly := by
  have hl := ledger_steps hs.listed he
  have hf := fleet_steps_listed he
  -- A worker has the grantor that it had before, whose table is still there, or is new, with a table of now.
  have hold : ∀ w g, s.fleet.grantor? w = some g → (s.step e).ledger.Lists g := by
    intro w g hg
    refine keeps_of_steps (P := fun l => l.Lists g) ?_ hl (hs.listed w g hg)
    intro _ _ h
    exact h.lists
  refine ⟨?_, ?_, ?_⟩
  · refine keeps_of_steps (P := fun f => ∀ w g, f.grantor? w = some g → (s.step e).ledger.Lists g) ?_ hf hold
    intro f f' h hp w g hg
    rcases h.grantor?_eq_some.2 hg with hg | hnew
    · exact hp w g hg
    · exact hnew
  · exact keeps_of_steps (fun _ _ h => h.wired) hf hs.wired
  · exact keeps_of_steps (fun _ _ h => h.sound) hl hs.sound

end Keeping

theorem Run.orderly {s : World} (h : Reachable TablesOnly s) : s.Orderly := by
  refine h.keeps (P := Orderly) ?_ orderly_fresh
  intro t e he ht
  exact orderly_step ht he

end World

end Rejoin
