import Mathlib.Data.List.Induction
import Rejoin.Proofs.Fleet.Channels

/-!
# Histories of a fleet

What can be done to a fleet that stands by itself, and what is known of it afterwards.

* `Fleet.Act` — what can be done.  A worker goes by the place in which it was hired; the controller's has place zero;
* `Fleet.History` — a fleet with its workers and with everything that it was told of names, connections and requests;
* `Fleet.History.link?`, `Fleet.History.known?`, `Fleet.History.requestsTo` — what that comes to;
* `Fleet.History.Kept`, `Fleet.History.kept_after` — the fleet has what its history says, whatever is done to it.
-/

namespace Rejoin.Fleet

inductive Act where
  | hire (name : String) (g : Grantor)
  /-- Hires a worker, connects it, and makes it the one that its name stands for. -/
  | add (name : String) (g : Grantor)
  | enlist (name : String) (place : Nat)
  | remove (name : String) (now : Timestamp)
  | connect (place : Nat)
  | disconnect (place : Nat) (o : Outage)
  | request (place : Nat) (t : Termination)

/-- What a worker was told of its connection. -/
inductive Link where
  | up (channel : Nat)
  | down (cause : Outage)
deriving DecidableEq, Repr

namespace Link

def channel? : Link → Option Nat
  | up c => some c
  | down _ => none

def cause? : Link → Option Outage
  | up _ => none
  | down o => some o

theorem channel?_eq_some {l : Link} {c : Nat} : l.channel? = some c ↔ l = up c := by cases l <;> simp [channel?]

end Link

/-- A fleet, its workers, in the order in which they were hired, and what was noted, in order: the worker that a name
stands for or that it stands for none, connections by the numbers of workers, and requests to terminate them. -/
structure History where
  fleet : Fleet := .start 0
  workers : List Worker := [controllerWorker]
  posts : List (String × Option Worker) := []
  links : List (Nat × Link) := [(controllerWorker.id, .up 1)]
  requests : List (Nat × Termination) := []

/-- The last that was noted under a key. -/
def noted? {α β : Type} [DecidableEq α] (log : List (α × β)) (k : α) : Option β :=
  ((log.filter (·.1 = k)).map (·.2)).getLast?

theorem noted?_concat {α β : Type} [DecidableEq α] (log : List (α × β)) (j k : α) (b : β) :
    noted? (log ++ [(j, b)]) k = if j = k then some b else noted? log k := by
  rw [noted?, List.filter_append]
  by_cases h : j = k <;> simp [h, noted?]

namespace History

def link? (h : History) (w : Worker) : Option Link := noted? h.links w.id

/-- The worker that a name stands for; the empty name stands for the controller's. -/
def known? (h : History) (name : String) : Option Worker :=
  if name = "" then some controllerWorker else (noted? h.posts name).join

def requestsTo (h : History) (w : Worker) : List Termination := (h.requests.filter (·.1 = w.id)).map (·.2)

def hire (h : History) (name : String) (g : Grantor) : History :=
  { h with fleet := (h.fleet.hire name g).2, workers := h.workers ++ [(h.fleet.hire name g).1] }

def connect (h : History) (w : Worker) : History :=
  { h with fleet := (h.fleet.connect w).2, links := h.links ++ [(w.id, .up (h.fleet.connect w).1)] }

def disconnect (h : History) (w : Worker) (o : Outage) : History :=
  { h with fleet := h.fleet.disconnect w o, links := h.links ++ [(w.id, .down o)] }

def enlist (h : History) (name : String) (w : Worker) : History :=
  { h with fleet := h.fleet.enlist name w, posts := h.posts ++ [(name, some w)] }

/-- Removes a name; if it stood for a worker, it now stands for none, and the worker was disconnected. -/
def remove (h : History) (name : String) (now : Timestamp) : History :=
  let gone := (h.fleet.listed? name).toList
  { h with
    fleet := (h.fleet.remove name now).2
    posts := h.posts ++ gone.map fun _ => (name, none)
    links := h.links ++ gone.map fun w => (w.id, .down ⟨shownName name ++ " was removed", now⟩) }

def request (h : History) (w : Worker) (t : Termination) : History :=
  { h with fleet := h.fleet.noteTermination w t, requests := h.requests ++ [(w.id, t)] }

/-- Goes on with the worker of a place, if somebody was hired in it. -/
def withWorker (h : History) (place : Nat) (next : Worker → History) : History :=
  match h.workers[place]? with
  | some w => next w
  | none => h

/-- What an act does; nothing where nobody was hired in the place. -/
def step (h : History) : Act → History
  | .hire name g => h.hire name g
  | .add name g => ((h.hire name g).connect (h.fleet.hire name g).1).enlist name (h.fleet.hire name g).1
  | .enlist name place => h.withWorker place (h.enlist name)
  | .remove name now => h.remove name now
  | .connect place => h.withWorker place h.connect
  | .disconnect place o => h.withWorker place (h.disconnect · o)
  | .request place t => h.withWorker place (h.request · t)

def after (as : List Act) : History := as.foldl step {}

theorem after_concat (as : List Act) (a : Act) : after (as ++ [a]) = (after as).step a := by
  simp [after, List.foldl_append]

/-- Takes a name off the roster, without its worker. -/
def delist (h : History) (name : String) : History :=
  { h with
    fleet := { h.fleet with roster := h.fleet.roster.filter (·.1 ≠ name) }, posts := h.posts ++ [(name, none)] }

theorem remove_of_listed {h : History} {name : String} {w : Worker} (hw : h.fleet.listed? name = some w)
    (now : Timestamp) :
    h.remove name now = (h.disconnect w ⟨shownName name ++ " was removed", now⟩).delist name := by
  simp [remove, Fleet.remove, delist, disconnect, hw]

theorem remove_of_unlisted {h : History} {name : String} (hn : h.fleet.listed? name = none) (now : Timestamp) :
    h.remove name now = h := by
  simp [remove, Fleet.remove, hn]

end History

/-! ### What the fleet has after an operation -/

variable {f : Fleet} {w v : Worker}

theorem lookup_filter_ne (l : List (String × Worker)) (name k : String) :
    (l.filter (·.1 ≠ name)).lookup k = if name = k then none else l.lookup k := by
  induction l with
  | nil => simp
  | cons p ps ih =>
    obtain ⟨a, w⟩ := p
    by_cases ha : a = name
    · subst ha
      rw [List.filter_cons_of_neg (by simp), ih]
      split
      next => rfl
      next h => rw [List.lookup_cons, beq_false_of_ne (Ne.symm h)]
    · rw [List.filter_cons_of_pos (by simpa using ha), List.lookup_cons, List.lookup_cons, ih]
      split
      next h =>
        have hk : name ≠ k := fun e => ha ((eq_of_beq h).symm.trans e.symm)
        rw [if_neg hk]
      next => rfl

theorem listed?_enlist (f : Fleet) (name k : String) (w : Worker) :
    (f.enlist name w).listed? k = if name = k then some w else f.listed? k := by
  rw [listed?, enlist, List.lookup_cons, lookup_filter_ne]
  by_cases hk : name = k
  · simp [hk]
  · rw [beq_false_of_ne (Ne.symm hk), if_neg hk, if_neg hk]
    rfl

@[simp] theorem listed?_connect (f : Fleet) (w : Worker) (name : String) :
    (f.connect w).2.listed? name = f.listed? name := by
  rcases h : f.lastChannel w with _ | _ | c <;> simp [listed?, connect, update, close, h]

@[simp] theorem listed?_disconnect (f : Fleet) (w : Worker) (o : Outage) (name : String) :
    (f.disconnect w o).listed? name = f.listed? name := by
  rcases h : f.lastChannel w with _ | _ | c <;> simp [listed?, disconnect, update, close, h]

theorem exists_station? (h : w.id < f.stations.length) : ∃ s, f.station? w = some s :=
  ⟨_, List.getElem?_eq_getElem h⟩

@[simp] theorem length_stations_hire (f : Fleet) (name : String) (g : Grantor) :
    (f.hire name g).2.stations.length = f.stations.length + 1 := by
  simp [hire]

@[simp] theorem length_stations_connect (f : Fleet) (w : Worker) :
    (f.connect w).2.stations.length = f.stations.length := by
  rcases h : f.lastChannel w with _ | _ | c <;> simp [connect, update, close, h]

@[simp] theorem length_stations_disconnect (f : Fleet) (w : Worker) (o : Outage) :
    (f.disconnect w o).stations.length = f.stations.length := by
  rcases h : f.lastChannel w with _ | _ | c <;> simp [disconnect, update, close, h]

@[simp] theorem length_stations_noteTermination (f : Fleet) (w : Worker) (t : Termination) :
    (f.noteTermination w t).stations.length = f.stations.length := by
  simp [noteTermination, update]

theorem lastChannel_connect_eq (hw : w.id < f.stations.length) (v : Worker) :
    (f.connect w).2.lastChannel v = if w.id = v.id then some (f.channels.length + 1) else f.lastChannel v := by
  split
  next h =>
    rw [← lastChannel_congr h]
    exact lastChannel_connect hw
  next h => exact lastChannel_connect_of_ne h

theorem lastChannel_disconnect_eq (f : Fleet) (w v : Worker) (o : Outage) :
    (f.disconnect w o).lastChannel v = if w.id = v.id then none else f.lastChannel v := by
  split
  next h =>
    rw [← lastChannel_congr h]
    exact lastChannel_disconnect f w o
  next h => exact lastChannel_disconnect_of_ne h o

theorem outage?_hire (f : Fleet) (name : String) (g : Grantor) (v : Worker) :
    (f.hire name g).2.outage? v = f.outage? v := by
  rw [outage?, outage?, station?_hire]
  split
  next h =>
    have hn : f.station? v = none := List.getElem?_eq_none (Nat.le_of_eq h.symm)
    rw [hn]
    rfl
  next => rfl

theorem outage?_connect (f : Fleet) (w v : Worker) :
    (f.connect w).2.outage? v = if w.id = v.id then none else f.outage? v := by
  rw [outage?, outage?, station?_connect]
  split
  next => cases f.station? v <;> rfl
  next => rfl

theorem outage?_disconnect (hw : w.id < f.stations.length) (o : Outage) (v : Worker) :
    (f.disconnect w o).outage? v = if w.id = v.id then some o else f.outage? v := by
  rw [outage?, outage?, station?_disconnect]
  split
  next h =>
    rw [h] at hw
    obtain ⟨s, hs⟩ := exists_station? hw
    rw [hs]
    rfl
  next => rfl

theorem outage?_noteTermination (f : Fleet) (w v : Worker) (t : Termination) :
    (f.noteTermination w t).outage? v = f.outage? v := by
  rw [outage?, outage?, noteTermination, station?_update]
  split <;> cases f.station? v <;> rfl

theorem terminations_hire (f : Fleet) (name : String) (g : Grantor) (v : Worker) :
    (f.hire name g).2.terminations v = f.terminations v := by
  rw [terminations, terminations, station?_hire]
  split
  next h =>
    have hn : f.station? v = none := List.getElem?_eq_none (Nat.le_of_eq h.symm)
    rw [hn]
    rfl
  next => rfl

theorem terminations_connect (f : Fleet) (w v : Worker) : (f.connect w).2.terminations v = f.terminations v := by
  rw [terminations, terminations, station?_connect]
  split <;> cases f.station? v <;> rfl

theorem terminations_disconnect (f : Fleet) (w v : Worker) (o : Outage) :
    (f.disconnect w o).terminations v = f.terminations v := by
  rw [terminations, terminations, station?_disconnect]
  split <;> cases f.station? v <;> rfl

theorem terminations_noteTermination (hw : w.id < f.stations.length) (t : Termination) (v : Worker) :
    (f.noteTermination w t).terminations v = f.terminations v ++ if w.id = v.id then [t] else [] := by
  rw [terminations, terminations, noteTermination, station?_update]
  split
  next h =>
    rw [h] at hw
    obtain ⟨s, hs⟩ := exists_station? hw
    rw [hs]
    rfl
  next => simp

/-! ### What is kept -/

namespace History

/-- The fleet is wired, the names on its roster stand for workers that were hired, every open channel is the last that
some worker was given, and of each name and each worker the fleet has what was noted. -/
structure Kept (h : History) : Prop where
  wired : h.fleet.Wired
  hired : ∀ w ∈ h.workers, w.id < h.fleet.stations.length
  listed : ∀ name w, h.fleet.listed? name = some w → w ∈ h.workers
  owned : ∀ c, h.fleet.isOpen c = true → ∃ w, h.fleet.lastChannel w = some c
  posts : ∀ name, h.fleet.listed? name = (noted? h.posts name).join
  channels : ∀ w, h.fleet.lastChannel w = (h.link? w).bind Link.channel?
  causes : ∀ w, h.fleet.outage? w = (h.link? w).bind Link.cause?
  requests : ∀ w, h.fleet.terminations w = h.requestsTo w

variable {h : History}

theorem link?_concat (links : List (Nat × Link)) (w v : Worker) (l : Link) :
    noted? (links ++ [(w.id, l)]) v.id = if w.id = v.id then some l else noted? links v.id := noted?_concat ..

theorem kept_start : Kept {} where
  wired := wired_start 0
  hired w hw := by
    obtain rfl := List.mem_singleton.mp hw
    exact Nat.zero_lt_one
  listed := nofun
  owned c hc := by
    have hle := le_of_isOpen hc
    have h1 : c = 1 := Nat.le_antisymm hle.2 hle.1
    subst h1
    exact ⟨controllerWorker, rfl⟩
  posts _ := rfl
  channels w := by
    obtain ⟨id, name⟩ := w
    cases id <;> rfl
  causes w := by
    obtain ⟨id, name⟩ := w
    cases id <;> rfl
  requests w := by
    obtain ⟨id, name⟩ := w
    cases id <;> rfl

namespace Kept

theorem hire (hk : h.Kept) (name : String) (g : Grantor) : (h.hire name g).Kept where
  wired := (show FleetStep (fun _ => True) h.fleet _ from .hire name trivial).wired hk.wired
  hired v hv := by
    show v.id < (h.fleet.hire name g).2.stations.length
    rw [length_stations_hire]
    rcases List.mem_append.mp hv with hv | hv
    · exact Nat.lt_succ_of_lt (hk.hired v hv)
    · obtain rfl := List.mem_singleton.mp hv
      exact Nat.lt_succ_self _
  listed k v hv := List.mem_append_left _ (hk.listed k v hv)
  owned c hc := by
    obtain ⟨v, hv⟩ := hk.owned c hc
    exact ⟨v, (lastChannel_hire h.fleet name g v).trans hv⟩
  posts := hk.posts
  channels v := (lastChannel_hire h.fleet name g v).trans (hk.channels v)
  causes v := (outage?_hire h.fleet name g v).trans (hk.causes v)
  requests v := (terminations_hire h.fleet name g v).trans (hk.requests v)

theorem connect (hk : h.Kept) (hw : w ∈ h.workers) : (h.connect w).Kept where
  wired := (show FleetStep (fun _ => True) h.fleet _ from .connect w).wired hk.wired
  hired v hv := by
    show v.id < (h.fleet.connect w).2.stations.length
    rw [length_stations_connect]
    exact hk.hired v hv
  listed k v hv := hk.listed k v ((listed?_connect h.fleet w k).symm.trans hv)
  owned c hc := by
    rcases (isOpen_connect_iff h.fleet w c).mp hc with rfl | ⟨hc, hne⟩
    · exact ⟨w, lastChannel_connect (hk.hired w hw)⟩
    · obtain ⟨v, hv⟩ := hk.owned c hc
      exact ⟨v, (lastChannel_connect_of_ne (ne_of_lastChannel hne hv)).trans hv⟩
  posts k := (listed?_connect h.fleet w k).trans (hk.posts k)
  channels v := by
    rw [link?, History.connect, link?_concat]
    refine (lastChannel_connect_eq (hk.hired w hw) v).trans ?_
    rw [hk.channels, link?]
    split <;> rfl
  causes v := by
    rw [link?, History.connect, link?_concat]
    refine (outage?_connect h.fleet w v).trans ?_
    rw [hk.causes, link?]
    split <;> rfl
  requests v := (terminations_connect h.fleet w v).trans (hk.requests v)

theorem disconnect (hk : h.Kept) (hw : w ∈ h.workers) (o : Outage) : (h.disconnect w o).Kept where
  wired := (show FleetStep (fun _ => True) h.fleet _ from .disconnect w o).wired hk.wired
  hired v hv := by
    show v.id < (h.fleet.disconnect w o).stations.length
    rw [length_stations_disconnect]
    exact hk.hired v hv
  listed k v hv := hk.listed k v ((listed?_disconnect h.fleet w o k).symm.trans hv)
  owned c hc := by
    obtain ⟨hc, hne⟩ := (isOpen_disconnect_iff h.fleet w o c).mp hc
    obtain ⟨v, hv⟩ := hk.owned c hc
    exact ⟨v, (lastChannel_disconnect_of_ne (ne_of_lastChannel hne hv) o).trans hv⟩
  posts k := (listed?_disconnect h.fleet w o k).trans (hk.posts k)
  channels v := by
    rw [link?, History.disconnect, link?_concat]
    refine (lastChannel_disconnect_eq h.fleet w v o).trans ?_
    rw [hk.channels, link?]
    split <;> rfl
  causes v := by
    rw [link?, History.disconnect, link?_concat]
    refine (outage?_disconnect (hk.hired w hw) o v).trans ?_
    rw [hk.causes, link?]
    split <;> rfl
  requests v := (terminations_disconnect h.fleet w v o).trans (hk.requests v)

theorem enlist (hk : h.Kept) (hw : w ∈ h.workers) (name : String) : (h.enlist name w).Kept where
  wired := (show FleetStep (fun _ => True) h.fleet _ from .enlist name w).wired hk.wired
  hired := hk.hired
  listed k v hv := by
    replace hv := (listed?_enlist h.fleet name k w).symm.trans hv
    split at hv
    next =>
      cases hv
      exact hw
    next => exact hk.listed k v hv
  owned := hk.owned
  posts k := by
    refine (listed?_enlist h.fleet name k w).trans ?_
    rw [History.enlist, noted?_concat, hk.posts]
    split <;> rfl
  channels := hk.channels
  causes := hk.causes
  requests := hk.requests

theorem delist (hk : h.Kept) (name : String) : (h.delist name).Kept where
  wired := (show FleetStep (fun _ => True) h.fleet _ from .delist name).wired hk.wired
  hired := hk.hired
  listed k v hv := by
    replace hv := (lookup_filter_ne h.fleet.roster name k).symm.trans hv
    split at hv
    next => cases hv
    next => exact hk.listed k v hv
  owned := hk.owned
  posts k := by
    refine (lookup_filter_ne h.fleet.roster name k).trans ?_
    rw [History.delist, noted?_concat, ← listed?, hk.posts]
    split <;> rfl
  channels := hk.channels
  causes := hk.causes
  requests := hk.requests

theorem request (hk : h.Kept) (hw : w ∈ h.workers) (t : Termination) : (h.request w t).Kept where
  wired := (show FleetStep (fun _ => True) h.fleet _ from .noteTermination w t).wired hk.wired
  hired v hv := by
    show v.id < (h.fleet.noteTermination w t).stations.length
    rw [length_stations_noteTermination]
    exact hk.hired v hv
  listed := hk.listed
  owned c hc := by
    obtain ⟨v, hv⟩ := hk.owned c hc
    exact ⟨v, (lastChannel_noteTermination h.fleet w v t).trans hv⟩
  posts := hk.posts
  channels v := (lastChannel_noteTermination h.fleet w v t).trans (hk.channels v)
  causes v := (outage?_noteTermination h.fleet w v t).trans (hk.causes v)
  requests v := by
    refine (terminations_noteTermination (hk.hired w hw) t v).trans ?_
    rw [hk.requests, requestsTo, requestsTo, History.request, List.filter_append, List.map_append]
    by_cases hv : w.id = v.id <;> simp [hv]

theorem withWorker (hk : h.Kept) (place : Nat) {next : Worker → History}
    (hn : ∀ w ∈ h.workers, (next w).Kept) : (h.withWorker place next).Kept := by
  rw [History.withWorker]
  split
  next w hw => exact hn w (List.mem_of_getElem? hw)
  next => exact hk

theorem step (hk : h.Kept) (a : Act) : (h.step a).Kept := by
  cases a with
  | hire name g => exact hk.hire name g
  | add name g =>
    have hw : (h.fleet.hire name g).1 ∈ (h.hire name g).workers := List.mem_append_right _ (List.mem_singleton_self _)
    exact ((hk.hire name g).connect hw).enlist hw name
  | enlist name place => exact hk.withWorker place fun w hw => hk.enlist hw name
  | remove name now =>
    rw [History.step]
    cases hl : h.fleet.listed? name with
    | some w =>
      rw [remove_of_listed hl]
      exact (hk.disconnect (hk.listed name w hl) _).delist name
    | none => rwa [remove_of_unlisted hl]
  | connect place => exact hk.withWorker place fun w hw => hk.connect hw
  | disconnect place o => exact hk.withWorker place fun w hw => hk.disconnect hw o
  | request place t => exact hk.withWorker place fun w hw => hk.request hw t

end Kept

theorem kept_after (as : List Act) : (after as).Kept := by
  induction as using List.reverseRecOn with
  | nil => exact kept_start
  | append_singleton as a ih =>
    rw [after_concat]
    exact ih.step a

/-! ### What the fleet answers -/

namespace Kept

theorem worker?_eq (hk : h.Kept) (name : String) : h.fleet.worker? name = h.known? name := by
  rw [worker?, known?, hk.posts]

/-- A worker is online over the channel that it was told last, and only over that. -/
theorem channel?_eq (hk : h.Kept) (w : Worker) : h.fleet.channel? w = (h.link? w).bind Link.channel? := by
  rw [hk.wired.channel?_eq, hk.channels]

theorem channel?_eq_some_iff (hk : h.Kept) {c : Nat} : h.fleet.channel? w = some c ↔ h.link? w = some (.up c) := by
  rw [hk.channel?_eq, Option.bind_eq_some_iff]
  constructor
  · rintro ⟨l, hl, hc⟩
    rw [hl, Link.channel?_eq_some.mp hc]
  · intro hl
    exact ⟨.up c, hl, rfl⟩

/-- A channel is open exactly while it is the last that some worker was told. -/
theorem isOpen_iff (hk : h.Kept) (c : Nat) : h.fleet.isOpen c = true ↔ ∃ w, h.link? w = some (.up c) := by
  constructor
  · intro ho
    obtain ⟨w, hw⟩ := hk.owned c ho
    exact ⟨w, hk.channel?_eq_some_iff.mp (channel?_eq_some.mpr ⟨hw, ho⟩)⟩
  · rintro ⟨w, hw⟩
    exact (channel?_eq_some.mp (hk.channel?_eq_some_iff.mpr hw)).2

end Kept

end History

end Rejoin.Fleet
