import Mathlib.Data.List.Nodup
import Mathlib.Data.List.Range
import Mathlib.Logic.Relation
import Rejoin.Proofs.Fleet.History

/-!
# Connections of workers

A connection lasts from when its channel is opened until the worker is connected again or disconnected.

* `Fleet.History.Does` — one thing that an act does, and `Fleet.History.Kept.does`, an act as such things;
* `Fleet.History.opened` — the channels that were opened, in order, each of them once (`Fleet.History.Counted`);
* `Fleet.History.touches`, `Fleet.History.lasts` — acts that end a connection, and acts through which it lasts;
* `Fleet.Taken` — directories taken from a worker, or from such directories;
* `Fleet.History.connections_apart` — channels, outages, and the life and sameness of directories, told by connections.
-/

namespace Rejoin.Fleet

open Relation (ReflTransGen)

/-- A directory of a worker that is online, or one taken from such a directory. -/
inductive Taken (f : Fleet) (w : Worker) : Dir → Prop
  | dir {path : String} {d : Dir} (hd : f.dir? w path = some d) : Taken f w d
  | child {d : Dir} (h : Taken f w d) (rel : String) : Taken f w (d.child rel)
  | withPath {d : Dir} (h : Taken f w d) (path : String) : Taken f w (d.withPath path)

theorem Taken.channel?_eq {f : Fleet} {w : Worker} {d : Dir} (h : Taken f w d) : f.channel? w = some d.channel := by
  induction h with
  | dir hd =>
    obtain ⟨c, hc, rfl⟩ := Option.map_eq_some_iff.mp hd
    exact hc
  | child _ _ ih => exact ih
  | withPath _ _ ih => exact ih

namespace History

variable {h h' : History} {w v : Worker} {a : Act} {c : Nat}

theorem mem_of_noted? {α β : Type} [DecidableEq α] {log : List (α × β)} {k : α} {b : β} (h : noted? log k = some b) :
    (k, b) ∈ log := by
  obtain ⟨p, hp, rfl⟩ := List.mem_map.mp (List.mem_of_getLast? h)
  obtain ⟨hl, hk⟩ := List.mem_filter.mp hp
  rw [← of_decide_eq_true hk]
  exact hl

/-! ### What an act does -/

/-- One thing that an act does, with workers that were hired. -/
inductive Does (h : History) : History → Prop
  | hire (name : String) (g : Grantor) : Does h (h.hire name g)
  | connect {w : Worker} (hw : w ∈ h.workers) : Does h (h.connect w)
  | disconnect {w : Worker} (hw : w ∈ h.workers) (o : Outage) : Does h (h.disconnect w o)
  | enlist {w : Worker} (hw : w ∈ h.workers) (name : String) : Does h (h.enlist name w)
  | delist (name : String) : Does h (h.delist name)
  | request {w : Worker} (hw : w ∈ h.workers) (t : Termination) : Does h (h.request w t)

theorem does_withWorker (h : History) (place : Nat) {next : Worker → History}
    (hn : ∀ w ∈ h.workers, h.Does (next w)) : ReflTransGen Does h (h.withWorker place next) := by
  rw [withWorker]
  split
  next w hw => exact .single (hn w (List.mem_of_getElem? hw))
  next => exact .refl

theorem Kept.does (hk : h.Kept) (a : Act) : ReflTransGen Does h (h.step a) := by
  cases a with
  | hire name g => exact .single (.hire name g)
  | add name g =>
    let w := (h.fleet.hire name g).1
    have hw : w ∈ (h.hire name g).workers := List.mem_append_right _ (List.mem_singleton_self _)
    have hw' : w ∈ ((h.hire name g).connect w).workers := hw
    exact .tail (.tail (.single (.hire name g)) (.connect hw)) (.enlist hw' name)
  | enlist name place => exact h.does_withWorker place fun w hw => .enlist hw name
  | remove name now =>
    rw [History.step]
    cases hl : h.fleet.listed? name with
    | some w =>
      rw [remove_of_listed hl]
      exact .tail (.single (.disconnect (hk.listed name w hl) _)) (.delist name)
    | none => rw [remove_of_unlisted hl]
  | connect place => exact h.does_withWorker place fun w hw => .connect hw
  | disconnect place o => exact h.does_withWorker place fun w hw => .disconnect hw o
  | request place t => exact h.does_withWorker place fun w hw => .request hw t

theorem Kept.keeps {P : History → Prop} (hk : h.Kept) (hP : ∀ h h', Does h h' → P h → P h') (hh : P h) (a : Act) :
    P (h.step a) := by
  have hsteps := hk.does a
  generalize h.step a = h' at hsteps
  induction hsteps with
  | refl => exact hh
  | tail _ hd ih => exact hP _ _ hd ih

/-! ### Numbers -/

/-- The channels that were opened, in order. -/
def opened (h : History) : List Nat := h.links.filterMap (·.2.channel?)

/-- Workers and channels are numbered in order, and no channel was opened to two workers. -/
structure Counted (h : History) : Prop where
  places : h.workers.map (·.id) = List.range h.fleet.stations.length
  opened : h.opened = List.range' 1 h.fleet.channels.length
  apart : ∀ i j c, (i, .up c) ∈ h.links → (j, .up c) ∈ h.links → i = j

namespace Counted

theorem mem_opened {i : Nat} (hl : (i, Link.up c) ∈ h.links) : c ∈ h.opened := List.mem_filterMap.mpr ⟨_, hl, rfl⟩

theorem le (hc : h.Counted) {i : Nat} (hl : (i, Link.up c) ∈ h.links) : c ≤ h.fleet.channels.length := by
  have hm := mem_opened hl
  rw [hc.opened, List.mem_range'_1] at hm
  omega

theorem nodup (hc : h.Counted) : h.opened.Nodup := by
  rw [hc.opened]
  exact List.nodup_range'

theorem eq_of_id_eq (hc : h.Counted) (hw : w ∈ h.workers) (hv : v ∈ h.workers) (hi : w.id = v.id) : w = v := by
  have hn : (h.workers.map (·.id)).Nodup := by
    rw [hc.places]
    exact List.nodup_range
  exact List.inj_on_of_nodup_map hn hw hv hi

theorem start : Counted {} where
  places := rfl
  opened := rfl
  apart i j c hi hj := by
    rw [List.mem_singleton] at hi hj
    exact congrArg Prod.fst (hi.trans hj.symm)

theorem does (hc : h.Counted) (hd : h.Does h') : h'.Counted := by
  cases hd with
  | hire name g =>
    refine ⟨?_, hc.opened, hc.apart⟩
    show (h.workers ++ [(h.fleet.hire name g).1]).map (·.id) = List.range (h.fleet.hire name g).2.stations.length
    rw [List.map_append, hc.places, length_stations_hire, List.range_succ]
    rfl
  | @connect w hw =>
    refine ⟨?_, ?_, ?_⟩
    · show h.workers.map (·.id) = List.range (h.fleet.connect w).2.stations.length
      rw [hc.places, length_stations_connect]
    · show (h.links ++ [(w.id, Link.up (h.fleet.connect w).1)]).filterMap (·.2.channel?) =
        List.range' 1 (h.fleet.connect w).2.channels.length
      rw [List.filterMap_append, length_channels_connect, List.range'_concat, Nat.one_mul, Nat.add_comm 1]
      exact congrArg (· ++ [h.fleet.channels.length + 1]) hc.opened
    · intro i j c hi hj
      -- What was opened before is of a lower number than what is opened now.
      rcases List.mem_append.mp hi with hi | hi <;> rcases List.mem_append.mp hj with hj | hj
      · exact hc.apart i j c hi hj
      · have hle := hc.le hi
        rw [List.mem_singleton] at hj
        cases hj
        exact absurd hle (Nat.not_succ_le_self _)
      · have hle := hc.le hj
        rw [List.mem_singleton] at hi
        cases hi
        exact absurd hle (Nat.not_succ_le_self _)
      · rw [List.mem_singleton] at hi hj
        exact congrArg Prod.fst (hi.trans hj.symm)
  | @disconnect w hw o =>
    have hl {i c : Nat} (hi : (i, Link.up c) ∈ (h.disconnect w o).links) : (i, Link.up c) ∈ h.links := by
      rcases List.mem_append.mp hi with hi | hi
      · exact hi
      · rw [List.mem_singleton] at hi
        cases hi
    refine ⟨?_, ?_, ?_⟩
    · show h.workers.map (·.id) = List.range (h.fleet.disconnect w o).stations.length
      rw [hc.places, length_stations_disconnect]
    · show (h.links ++ [(w.id, Link.down o)]).filterMap (·.2.channel?) =
        List.range' 1 (h.fleet.disconnect w o).channels.length
      rw [List.filterMap_append, length_channels_disconnect, ← hc.opened]
      exact List.append_nil _
    · intro i j c hi hj
      exact hc.apart i j c (hl hi) (hl hj)
  | enlist hw name => exact ⟨hc.places, hc.opened, hc.apart⟩
  | delist name => exact ⟨hc.places, hc.opened, hc.apart⟩
  | @request w hw t =>
    refine ⟨?_, hc.opened, hc.apart⟩
    show h.workers.map (·.id) = List.range (h.fleet.noteTermination w t).stations.length
    rw [hc.places, length_stations_noteTermination]

end Counted

theorem counted_after (as : List Act) : (after as).Counted := by
  induction as using List.reverseRecOn with
  | nil => exact Counted.start
  | append_singleton as a ih =>
    rw [after_concat]
    exact (kept_after as).keeps (fun _ _ hd hc => hc.does hd) ih a

/-! ### How long a connection lasts -/

/-- The act connects or disconnects a worker: by itself, or because a name is removed that stands for the worker. -/
def touches (h : History) (w : Worker) : Act → Bool
  | .connect place | .disconnect place _ => h.workers[place]? = some w
  | .remove name _ => h.fleet.listed? name = some w
  | _ => false

/-- A connection of the worker lasts through the acts. -/
def lasts (w : Worker) : History → List Act → Bool
  | _, [] => true
  | h, a :: as => !h.touches w a && lasts w (h.step a) as

/-- A worker keeps its channel through an act that does not touch it. -/
theorem lastChannel_step (hk : h.Kept) (hc : h.Counted) (hw : w ∈ h.workers) (ha : h.touches w a = false) :
    (h.step a).fleet.lastChannel w = h.fleet.lastChannel w := by
  -- Whoever else is connected or disconnected is another worker, and so has another number.
  have hne {o : Option Worker} {v : Worker} (ho : o = some v) (hv : v ∈ h.workers) (hnot : o ≠ some w) :
      v.id ≠ w.id := by
    intro e
    exact hnot (ho.trans (congrArg some (hc.eq_of_id_eq hv hw e)))
  cases a with
  | hire name g => exact lastChannel_hire h.fleet name g w
  | add name g =>
    have hnew : (h.fleet.hire name g).1.id ≠ w.id := Nat.ne_of_gt (hk.hired w hw)
    exact (lastChannel_connect_of_ne hnew).trans (lastChannel_hire h.fleet name g w)
  | enlist name place =>
    simp only [step, withWorker]
    split <;> rfl
  | remove name now =>
    rw [step]
    cases hl : h.fleet.listed? name with
    | some v =>
      rw [remove_of_listed hl]
      exact lastChannel_disconnect_of_ne (hne hl (hk.listed name v hl) (of_decide_eq_false ha)) _
    | none => rw [remove_of_unlisted hl]
  | connect place =>
    simp only [step, withWorker]
    split
    next v hv => exact lastChannel_connect_of_ne (hne hv (List.mem_of_getElem? hv) (of_decide_eq_false ha))
    next => rfl
  | disconnect place o =>
    simp only [step, withWorker]
    split
    next v hv => exact lastChannel_disconnect_of_ne (hne hv (List.mem_of_getElem? hv) (of_decide_eq_false ha)) o
    next => rfl
  | request place t =>
    simp only [step, withWorker]
    split
    next v _ => exact lastChannel_noteTermination h.fleet v w t
    next => rfl

/-! ### Closed channels -/

structure Closed (c : Nat) (h : History) : Prop where
  le : c ≤ h.fleet.channels.length
  shut : h.fleet.isOpen c = false

theorem closed_connect (hle : c ≤ h.fleet.channels.length)
    (hc : h.fleet.isOpen c = false ∨ h.fleet.lastChannel w = some c) : (h.connect w).Closed c := by
  refine ⟨?_, Bool.eq_false_iff.mpr ?_⟩
  · show c ≤ (h.fleet.connect w).2.channels.length
    rw [length_channels_connect]
    exact Nat.le_succ_of_le hle
  · intro ho
    rcases (isOpen_connect_iff h.fleet w c).mp ho with rfl | ⟨ho, hne⟩
    · exact Nat.not_succ_le_self _ hle
    · rcases hc with hc | hc
      · exact Bool.eq_false_iff.mp hc ho
      · exact hne hc

theorem closed_disconnect (hle : c ≤ h.fleet.channels.length)
    (hc : h.fleet.isOpen c = false ∨ h.fleet.lastChannel w = some c) (o : Outage) : (h.disconnect w o).Closed c := by
  refine ⟨?_, Bool.eq_false_iff.mpr ?_⟩
  · show c ≤ (h.fleet.disconnect w o).channels.length
    rw [length_channels_disconnect]
    exact hle
  · intro ho
    obtain ⟨ho, hne⟩ := (isOpen_disconnect_iff h.fleet w o c).mp ho
    rcases hc with hc | hc
    · exact Bool.eq_false_iff.mp hc ho
    · exact hne hc

theorem Closed.does (hc : h.Closed c) (hd : h.Does h') : h'.Closed c := by
  cases hd with
  | connect hw => exact closed_connect hc.le (.inl hc.shut)
  | disconnect hw o => exact closed_disconnect hc.le (.inl hc.shut) o
  | hire name g => exact ⟨hc.le, hc.shut⟩
  | enlist hw name => exact ⟨hc.le, hc.shut⟩
  | delist name => exact ⟨hc.le, hc.shut⟩
  | request hw t => exact ⟨hc.le, hc.shut⟩

theorem Closed.foldl (hc : h.Closed c) (hk : h.Kept) (bs : List Act) : (bs.foldl step h).Closed c := by
  induction bs generalizing h with
  | nil => exact hc
  | cons b bs ih => exact ih (hk.keeps (fun _ _ hd hc => hc.does hd) hc b) (hk.step b)

theorem closed_of_touches (hle : c ≤ h.fleet.channels.length) (hc : h.fleet.lastChannel w = some c)
    (ha : h.touches w a = true) : (h.step a).Closed c := by
  cases a with
  | connect place =>
    have hw : h.workers[place]? = some w := of_decide_eq_true ha
    simp only [step, withWorker, hw]
    exact closed_connect hle (.inr hc)
  | disconnect place o =>
    have hw : h.workers[place]? = some w := of_decide_eq_true ha
    simp only [step, withWorker, hw]
    exact closed_disconnect hle (.inr hc) o
  | remove name now =>
    have hw : h.fleet.listed? name = some w := of_decide_eq_true ha
    have hdown := closed_disconnect hle (.inr hc) ⟨shownName name ++ " was removed", now⟩
    rw [step, remove_of_listed hw]
    exact ⟨hdown.le, hdown.shut⟩
  | _ => cases ha

/-! ### The life of a directory -/

theorem Does.mem_workers (hd : h.Does h') (hw : w ∈ h.workers) : w ∈ h'.workers := by
  cases hd with
  | hire name g => exact List.mem_append_left _ hw
  | _ => exact hw

/-- What is known of a worker that has a channel: the history is as it should be, and the channel is its last one. -/
structure Connected (w : Worker) (c : Nat) (h : History) : Prop where
  kept : h.Kept
  counted : h.Counted
  hired : w ∈ h.workers
  last : h.fleet.lastChannel w = some c

namespace Connected

theorem of_channel?_eq (as : List Act) (hw : w ∈ (after as).workers) (hc : (after as).fleet.channel? w = some c) :
    (after as).Connected w c :=
  ⟨kept_after as, counted_after as, hw, (channel?_eq_some.mp hc).1⟩

theorem isOpen (hc : h.Connected w c) : h.fleet.isOpen c = true := hc.kept.wired.isOpen_last w c hc.last

theorem step (hc : h.Connected w c) (ha : h.touches w a = false) : (h.step a).Connected w c where
  kept := hc.kept.step a
  counted := hc.kept.keeps (fun _ _ hd hc => hc.does hd) hc.counted a
  hired := hc.kept.keeps (fun _ _ hd hw => hd.mem_workers hw) hc.hired a
  last := (lastChannel_step hc.kept hc.counted hc.hired ha).trans hc.last

theorem foldl (hc : h.Connected w c) {bs : List Act} (hb : h.lasts w bs = true) :
    (bs.foldl History.step h).Connected w c := by
  induction bs generalizing h with
  | nil => exact hc
  | cons b bs ih =>
    obtain ⟨ht, hrest⟩ : h.touches w b = false ∧ (h.step b).lasts w bs = true := by simpa [lasts] using hb
    exact ih (hc.step ht) hrest

/-- Once it has not lasted, its channel is closed for good. -/
theorem closed (hc : h.Connected w c) {bs : List Act} (hb : h.lasts w bs = false) :
    (bs.foldl History.step h).Closed c := by
  induction bs generalizing h with
  | nil => cases hb
  | cons b bs ih =>
    cases ht : h.touches w b with
    | false =>
      have hrest : (h.step b).lasts w bs = false := by simpa [lasts, ht] using hb
      exact ih (hc.step ht) hrest
    | true =>
      have hle := (le_of_isOpen hc.isOpen).2
      exact (closed_of_touches hle hc.last ht).foldl (hc.kept.step b) bs

end Connected

theorem after_append (as bs : List Act) : after (as ++ bs) = bs.foldl step (after as) := List.foldl_append

theorem Connected.append {as bs : List Act} (hc : (after as).Connected w c) (hb : (after as).lasts w bs = true) :
    (after (as ++ bs)).Connected w c := by
  rw [after_append]
  exact hc.foldl hb

/-- A channel is open exactly as long as its connection lasts. -/
theorem Connected.isOpen_append {as : List Act} (hc : (after as).Connected w c) (bs : List Act) :
    (after (as ++ bs)).fleet.isOpen c = (after as).lasts w bs := by
  cases hb : (after as).lasts w bs with
  | true => exact (hc.append hb).isOpen
  | false =>
    rw [after_append]
    exact (hc.closed hb).shut

/-- **Connections are kept apart.**  Whatever is done to a fleet: no channel is opened twice.  Of the channels that were
opened to a worker the one that it is online over is open, and no other.  Who is online has no outage.  A directory
taken from a worker is live exactly as long as the connection of the worker lasts that it was taken over: until the
worker is connected or disconnected, a removal of a name that it goes by included.  Two directories, one taken at some
time and one then or later, are the same exactly if they are of one path, and of one worker, whose connection has lasted
from the one time to the other. -/
theorem connections_apart (acts : List Act) :
    let h := after acts
    h.opened.Nodup ∧
      (∀ w c, (w.id, Link.up c) ∈ h.links → (h.fleet.isOpen c = true ↔ h.fleet.channel? w = some c)) ∧
      (∀ w, h.fleet.isOnline w = true → h.fleet.outage? w = none ∧ ∃ c, (w.id, Link.up c) ∈ h.links ∧
        h.fleet.channel? w = some c) ∧
      ∀ w ∈ h.workers, ∀ d, Taken h.fleet w d → ∀ later,
        let h' := after (acts ++ later)
        h'.fleet.isLive d = h.lasts w later ∧
          ∀ v ∈ h'.workers, ∀ e, Taken h'.fleet v e →
            (d.same e = true ↔ d.path = e.path ∧ v = w ∧ h.lasts w later = true) := by
  intro h
  have hk : h.Kept := kept_after acts
  have hc : h.Counted := counted_after acts
  refine ⟨hc.nodup, ?_, ?_, ?_⟩
  · intro w c hl
    constructor
    · intro ho
      obtain ⟨v, hv⟩ := (hk.isOpen_iff c).mp ho
      have hi : v.id = w.id := hc.apart v.id w.id c (mem_of_noted? hv) hl
      refine hk.channel?_eq_some_iff.mpr ?_
      rw [link?, ← hi]
      exact hv
    · intro ho
      exact (channel?_eq_some.mp ho).2
  · intro w ho
    obtain ⟨c, ho⟩ := Option.isSome_iff_exists.mp ho
    have hl : h.link? w = some (.up c) := hk.channel?_eq_some_iff.mp ho
    refine ⟨?_, c, mem_of_noted? hl, ho⟩
    rw [hk.causes, hl]
    rfl
  · intro w hw d hd later h'
    have hconn : h.Connected w d.channel := .of_channel?_eq acts hw hd.channel?_eq
    have hlive : h'.fleet.isLive d = h.lasts w later := hconn.isOpen_append later
    refine ⟨hlive, ?_⟩
    intro v hv e he
    have hconn' : h'.Connected v e.channel := .of_channel?_eq (acts ++ later) hv he.channel?_eq
    rw [Dir.same_iff]
    constructor
    · rintro ⟨hp, hce⟩
      have hl : h.lasts w later = true := by
        rw [← hlive, Fleet.isLive, hce]
        exact hconn'.isOpen
      have hlast := (hconn.append hl).last
      rw [hce] at hlast
      have hi : v.id = w.id := hconn'.kept.wired.apart v w e.channel hconn'.last hlast
      exact ⟨hp, hconn'.counted.eq_of_id_eq hv (hconn.append hl).hired hi, hl⟩
    · rintro ⟨hp, rfl, hl⟩
      exact ⟨hp, Option.some.inj ((hconn.append hl).last.symm.trans hconn'.last)⟩

/-- A worker goes by two names.  A directory on it stays live when another worker goes offline, but not when the second
name is removed; once the worker is connected again, the same path is another directory, and the channel from before
stays closed. -/
theorem connections_apart_two_names :
    let acts : List Act := [.add "w" (.table 1), .enlist "x" 1]
    let away : List Act := [.disconnect 0 ⟨"lost", ⟨0, 0⟩⟩, .hire "v" (.table 2)]
    let back : List Act := [.remove "x" ⟨0, 0⟩, .connect 1]
    let w : Worker := ⟨1, "w"⟩
    let d : Dir := Dir.child ⟨"w", "/ws", 2⟩ "sub"
    let e : Dir := ⟨"w", "/ws/sub", 3⟩
    let f := (after (acts ++ back)).fleet
    (w ∈ (after acts).workers ∧ Taken (after acts).fleet w d ∧ (w.id, Link.up 2) ∈ (after (acts ++ back)).links ∧
        f.isOnline w = true) ∧
      (after (acts ++ away)).fleet.isLive d = true ∧ f.isLive d = false ∧ d.path = e.path ∧ d.same e = false ∧
      f.isOpen 2 = false ∧ f.outage? w = none := by
  intro acts away back w d e f
  have hw : w ∈ (after acts).workers := by decide
  have hd : Taken (after acts).fleet w d := .child (.dir rfl) "sub"
  have hv : w ∈ (after (acts ++ back)).workers := by decide
  have he : Taken f w e := .dir rfl
  have hp : d.path = e.path := by decide
  have hl : (w.id, Link.up 2) ∈ (after (acts ++ back)).links := by decide
  obtain ⟨-, -, -, hlife⟩ := connections_apart acts
  obtain ⟨-, hopen, honline, -⟩ := connections_apart (acts ++ back)
  obtain ⟨hlive, hsame⟩ := hlife w hw d hd back
  have hapart : d.same e = false := by
    refine Bool.eq_false_iff.mpr fun hs => ?_
    cases ((hsame w hv e he).mp hs).2.2
  have hshut : f.isOpen 2 = false := by
    refine Bool.eq_false_iff.mpr fun ho => ?_
    cases (hopen w 2 hl).mp ho
  exact ⟨⟨hw, hd, hl, rfl⟩, (hlife w hw d hd away).1, hlive, hp, hapart, hshut, (honline w rfl).1⟩

end History

end Rejoin.Fleet
