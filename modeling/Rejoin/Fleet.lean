import Rejoin.Json.Decoding
import Rejoin.Lease
import Rejoin.Text.Quoted
import Rejoin.Time.Timestamp

/-!
# The fleet

Workers, the channels that they are reached over, and the names that they are known by.

* Every connection opens a channel with a number of its own (`Fleet.connect`), and a directory is live while its
  channel is open (`Fleet.isLive`).
* The roster gives the worker of a name (`Fleet.enlist`, `Fleet.remove`).  The empty name is the controller, whose
  worker is always known and needs no entry (`Fleet.worker?_empty`).
-/

namespace Rejoin

/-- A name as it is shown; the controller has one of its own. -/
def shownName (name : String) : String := if name = "" then "built-in" else name

/-- A configured node. -/
structure Node where
  name : String
deriving DecidableEq, Repr

namespace Node

def controller : Node := ⟨""⟩

def isController (n : Node) : Bool := n.name = ""

def json (n : Node) : Json := .object [("name", .string n.name)]

def decode : Json.Decoder Node
  | mode, .object ms => do
    let name ← ms.foldlM (fun s m => match m.1 with
      | "name" => Json.fill m.1 s (Json.asString mode m.2)
      | _ => Json.skip s m.2) none
    pure ⟨← Json.present "name" name⟩
  | mode, .array xs => do
    let name ← Json.element "Node" 1 xs 0 (Json.asString mode)
    Json.noMore mode 1 xs
    pure ⟨name⟩
  | _, j => Json.wrongType "struct Node" j

end Node

/-! ### Dated events -/

/-- A moment in a JSON text. -/
def Timestamp.decode : Json.Decoder Timestamp
  | _, .string s =>
    match Timestamp.read s with
    | .ok t => .ok t
    | .error e => .error (.other e.message)
  | _, j => Json.wrongType "an RFC 3339 formatted date and time string" j

def Timestamp.json (t : Timestamp) : Json := .string (t.text "Z")

/-- A text with the moment that it belongs to. -/
structure Dated where
  note : String
  time : Timestamp
deriving DecidableEq, Repr

namespace Dated

/-- The object of a dated text, which goes by the given field name. -/
def json (field : String) (d : Dated) : Json := .object [(field, .string d.note), ("at", d.time.json)]

structure Fields where
  note : Option String := none
  time : Option Timestamp := none

def Fields.step (field : String) (mode : Json.Mode) (s : Fields) (m : String × Json) :
    Except Json.Fault Fields :=
  if m.1 = field then do pure { s with note := ← Json.fill m.1 s.note (Json.asString mode m.2) }
  else if m.1 = "at" then do pure { s with time := ← Json.fill m.1 s.time (Timestamp.decode mode m.2) }
  else Json.skip s m.2

/-- Reads a dated text of a named structure. -/
def decode (name field : String) : Json.Decoder Dated
  | mode, .object ms => do
    let s ← ms.foldlM (Fields.step field mode) {}
    pure ⟨← Json.present field s.note, ← Json.present "at" s.time⟩
  | mode, .array xs => do
    let note ← Json.element name 2 xs 0 (Json.asString mode)
    let time ← Json.element name 2 xs 1 (Timestamp.decode mode)
    Json.noMore mode 2 xs
    pure ⟨note, time⟩
  | _, j => Json.wrongType ("struct " ++ name) j

end Dated

/-- Why a worker went offline, and when. -/
abbrev Outage := Dated

namespace Outage

/-- An outage is told without its time. -/
def text (o : Outage) : String := o.note

def json (o : Outage) : Json := Dated.json "description" o

def decode : Json.Decoder Outage := Dated.decode "OfflineCause" "description"

end Outage

/-- A request to terminate a worker, and when it was made. -/
abbrev Termination := Dated

namespace Termination

/-- A request is told with its time. -/
def text (t : Termination) : String := t.note ++ " (requested at " ++ t.time.text "+00:00" ++ ")"

def json (t : Termination) : Json := Dated.json "reason" t

def decode : Json.Decoder Termination := Dated.decode "TerminationRequest" "reason"

end Termination

/-! ### Workers -/

/-- A worker: its number, and its name, which never changes. -/
structure Worker where
  id : Nat
  name : String
deriving DecidableEq, Repr

def Worker.text (w : Worker) : String := shownName w.name

/-- An execution slot of a worker. -/
structure Slot where
  owner : Worker
  number : Nat
deriving DecidableEq, Repr

def Slot.text (s : Slot) : String := s.owner.text ++ "#" ++ toString s.number

/-- What changes about a worker. -/
structure Station where
  grantor : Grantor
  channel : Option Nat := none
  outage : Option Outage := none
  terminations : List Termination := []

/-- The stations of all workers by their number, whether each channel is open, and the workers that
nodes are known by.  Channels are numbered from one. -/
structure Fleet where
  stations : List Station
  channels : List Bool
  roster : List (String × Worker) := []

namespace Fleet

/-- The worker of the controller. -/
def controllerWorker : Worker := ⟨0, ""⟩

/-- A fleet of the connected controller alone, whose leases are those of the given table. -/
def start (table : Nat) : Fleet := { stations := [{ grantor := .table table, channel := some 1 }], channels := [true] }

/-- A new worker, offline. -/
def hire (f : Fleet) (name : String) (g : Grantor) : Worker × Fleet :=
  (⟨f.stations.length, name⟩, { f with stations := f.stations ++ [{ grantor := g }] })

/-! ### Channels -/

def isOpen (f : Fleet) : Nat → Bool
  | 0 => false
  | c + 1 => f.channels[c]? = some true

@[simp] theorem isOpen_zero (f : Fleet) : f.isOpen 0 = false := rfl

def close (f : Fleet) : Option Nat → Fleet
  | some (c + 1) => { f with channels := f.channels.set c false }
  | _ => f

theorem isOpen_close_self (f : Fleet) (c : Nat) : (f.close (some c)).isOpen c = false := by
  cases c with
  | zero => rfl
  | succ c => simp [close, isOpen, List.getElem?_set]

theorem isOpen_close_of_ne (f : Fleet) {c d : Nat} (h : c ≠ d) : (f.close (some c)).isOpen d = f.isOpen d := by
  cases c with
  | zero => rfl
  | succ c =>
    cases d with
    | zero => rfl
    | succ d => simp [close, isOpen, show c ≠ d by omega]

def station? (f : Fleet) (w : Worker) : Option Station := f.stations[w.id]?

def update (f : Fleet) (w : Worker) (g : Station → Station) : Fleet :=
  { f with stations := f.stations.modify w.id g }

theorem station?_update_self (f : Fleet) (w : Worker) (g : Station → Station) :
    (f.update w g).station? w = (f.station? w).map g := by
  simp [station?, update]

theorem station?_update_of_ne (f : Fleet) {w v : Worker} (h : w.id ≠ v.id) (g : Station → Station) :
    (f.update w g).station? v = f.station? v := by
  simp [station?, update, h]

@[simp] theorem isOpen_update (f : Fleet) (w : Worker) (g : Station → Station) (c : Nat) :
    (f.update w g).isOpen c = f.isOpen c := rfl

@[simp] theorem station?_close (f : Fleet) (c : Option Nat) (w : Worker) : (f.close c).station? w = f.station? w := by
  rcases c with _ | _ | c <;> rfl

/-- The channel that a worker was last given and has not lost. -/
def lastChannel (f : Fleet) (w : Worker) : Option Nat := (f.station? w).bind (·.channel)

/-- Opens a new channel to a worker; the one before is closed, and no outage is left. -/
def connect (f : Fleet) (w : Worker) : Nat × Fleet :=
  let c := f.channels.length + 1
  let f := f.close (f.lastChannel w)
  (c, { f with channels := f.channels ++ [true] }.update w fun s => { s with channel := some c, outage := none })

/-- Takes the channel of a worker away and notes why. -/
def disconnect (f : Fleet) (w : Worker) (o : Outage) : Fleet :=
  (f.close (f.lastChannel w)).update w fun s => { s with channel := none, outage := some o }

/-- A worker was last given the channel that it was connected over. -/
theorem lastChannel_connect {f : Fleet} {w : Worker} (h : w.id < f.stations.length) :
    (f.connect w).2.lastChannel w = some (f.connect w).1 := by
  have hs : (f.close (f.lastChannel w)).station? w = some f.stations[w.id] := by
    rw [station?_close]
    exact List.getElem?_eq_getElem h
  rw [connect, lastChannel, station?_update_self]
  show (((f.close (f.lastChannel w)).station? w).map _).bind _ = _
  rw [hs]
  rfl

/-- The channel of a new connection is open. -/
theorem isOpen_connect (f : Fleet) (w : Worker) : (f.connect w).2.isOpen (f.connect w).1 = true := by
  have hl : (f.close (f.lastChannel w)).channels.length = f.channels.length := by
    rcases f.lastChannel w with _ | _ | c <;> simp [close]
  simp [connect, isOpen, update, ← hl]

/-- A worker that went offline has no channel. -/
theorem lastChannel_disconnect (f : Fleet) (w : Worker) (o : Outage) : (f.disconnect w o).lastChannel w = none := by
  rw [lastChannel, disconnect, station?_update_self]
  cases (f.close (f.lastChannel w)).station? w <;> rfl

/-- The channel of a worker that is online. -/
def channel? (f : Fleet) (w : Worker) : Option Nat := (f.lastChannel w).filter f.isOpen

theorem channel?_eq_some {f : Fleet} {w : Worker} {c : Nat} :
    f.channel? w = some c ↔ f.lastChannel w = some c ∧ f.isOpen c = true := by
  simp [channel?, Option.filter_eq_some_iff]

def isOnline (f : Fleet) (w : Worker) : Bool := (f.channel? w).isSome

/-- Why the worker is offline, as far as that was noted. -/
def outage? (f : Fleet) (w : Worker) : Option Outage := (f.station? w).bind (·.outage)

/-- Notes a request to terminate a worker, after those before it. -/
def noteTermination (f : Fleet) (w : Worker) (t : Termination) : Fleet :=
  f.update w fun s => { s with terminations := s.terminations ++ [t] }

def terminations (f : Fleet) (w : Worker) : List Termination := ((f.station? w).map (·.terminations)).getD []

/-- The directory at a path of a worker that is online. -/
def dir? (f : Fleet) (w : Worker) (path : String) : Option Dir :=
  (f.channel? w).map fun c => ⟨w.name, path, c⟩

/-- The channel of a directory is still open. -/
def isLive (f : Fleet) (d : Dir) : Bool := f.isOpen d.channel

/-- The directory of a worker that is online is live. -/
theorem isLive_of_dir? {f : Fleet} {w : Worker} {path : String} {d : Dir} (h : f.dir? w path = some d) :
    f.isLive d = true := by
  obtain ⟨c, hc, rfl⟩ := Option.map_eq_some_iff.mp h
  exact (channel?_eq_some.mp hc).2

def workerText (f : Fleet) (w : Worker) : String :=
  "Worker \x7b name: " ++ Text.quoted w.name ++ ", online: " ++ toString (f.isOnline w) ++ ", .. \x7d"

/-! ### Names -/

/-- Makes a worker the one that a name stands for. -/
def enlist (f : Fleet) (name : String) (w : Worker) : Fleet :=
  { f with roster := (name, w) :: f.roster.filter (·.1 ≠ name) }

def listed? (f : Fleet) (name : String) : Option Worker := f.roster.lookup name

theorem listed?_enlist_self (f : Fleet) (name : String) (w : Worker) : (f.enlist name w).listed? name = some w := by
  simp [listed?, enlist]

/-- Takes a name off the roster; its worker goes offline. -/
def remove (f : Fleet) (name : String) (now : Timestamp) : Option Node × Fleet :=
  match f.listed? name with
  | none => (none, f)
  | some w =>
    let f := f.disconnect w ⟨shownName name ++ " was removed", now⟩
    (some ⟨name⟩, { f with roster := f.roster.filter (·.1 ≠ name) })

def names (f : Fleet) : List String := (f.roster.map (·.1)).mergeSort (fun a b => decide (a ≤ b))

/-- The worker of a name; the empty name is the controller. -/
def worker? (f : Fleet) (name : String) : Option Worker :=
  if name = "" then some controllerWorker else f.listed? name

/-- The node of a name; the empty name is the controller. -/
def node? (f : Fleet) (name : String) : Option Node :=
  if name = "" then some Node.controller else (f.listed? name).map fun _ => ⟨name⟩

@[simp] theorem worker?_empty (f : Fleet) : f.worker? "" = some controllerWorker := rfl

@[simp] theorem node?_empty (f : Fleet) : f.node? "" = some Node.controller := rfl

/-- There is a node of a name exactly when there is a worker. -/
theorem isSome_node? (f : Fleet) (name : String) : (f.node? name).isSome = (f.worker? name).isSome := by
  unfold node? worker?
  split <;> simp

/-- Why the worker of a name is offline, as far as that is known. -/
def outageOf (f : Fleet) (name : String) : Option Outage := (f.worker? name).bind f.outage?

/-- The requests to terminate the worker of a name. -/
def terminationsOf (f : Fleet) (name : String) : List Termination :=
  ((f.worker? name).map f.terminations).getD []

/-- The directory at a path of the worker of a name, if that is online. -/
def dirOf? (f : Fleet) (name path : String) : Option Dir := (f.worker? name).bind (f.dir? · path)

end Fleet

end Rejoin
