import Rejoin.Proofs.Fleet.Connections

/-!
# Names over a run

The roster of a fleet stands for two tables, one of nodes and one of workers.

* `Fleet.Tables` — the two tables by themselves, and `Fleet.Tables.after`, what acts make of them;
* `Fleet.Tables.lookup_step_cases` — how a name comes to stand for a worker;
* `Fleet.Tables.after_eq` — the tables are those of the roster, whatever is done to the fleet;
* `Fleet.names_pairwise`, `Fleet.mem_names` — the names that are listed;
* `Fleet.History.channel?_remove` — whom a removal takes the channel from;
* `Fleet.History.tables_in_step` — nodes, workers and names over a run.
-/

namespace Rejoin.Fleet

/-! ### Two tables -/

/-- The nodes and the workers that names stand for, each in a table of its own. -/
structure Tables where
  nodes : List (String × Node) := []
  workers : List (String × Worker) := []

namespace Tables

/-- Puts a worker and then its node where the name of the node had others. -/
def add (t : Tables) (n : Node) (w : Worker) : Tables :=
  let t := { t with workers := (n.name, w) :: t.workers.filter (·.1 ≠ n.name) }
  { t with nodes := (n.name, n) :: t.nodes.filter (·.1 ≠ n.name) }

def remove (t : Tables) (name : String) : Tables :=
  let t := { t with workers := t.workers.filter (·.1 ≠ name) }
  { t with nodes := t.nodes.filter (·.1 ≠ name) }

/-- The node of a name; the empty name is the controller. -/
def node? (t : Tables) (name : String) : Option Node :=
  if name = "" then some Node.controller else t.nodes.lookup name

def worker? (t : Tables) (name : String) : Option Worker :=
  if name = "" then some controllerWorker else t.workers.lookup name

def names (t : Tables) : List String := (t.nodes.map (·.1)).mergeSort (fun a b => decide (a ≤ b))

/-- What an act makes of the tables of a fleet with this history. -/
def step (h : History) (t : Tables) : Act → Tables
  | .add name g => t.add ⟨name⟩ (h.fleet.hire name g).1
  | .enlist name place =>
    match h.workers[place]? with
    | some w => t.add ⟨name⟩ w
    | none => t
  | .remove name _ => t.remove name
  | _ => t

def after (as : List Act) : Tables :=
  (as.foldl (fun s a => (s.1.step a, step s.1 s.2 a)) (({} : History), ({} : Tables))).2

theorem after_concat (as : List Act) (a : Act) : after (as ++ [a]) = step (.after as) (after as) a := by
  have hfst (s : History × Tables) :
      (as.foldl (fun s a => (s.1.step a, step s.1 s.2 a)) s).1 = as.foldl History.step s.1 := by
    induction as generalizing s with
    | nil => rfl
    | cons b bs ih => exact ih _
  rw [after, List.foldl_append, List.foldl_cons, List.foldl_nil, hfst]
  rfl

/-! #### What is in them -/

variable {h : History} {t : Tables} {a : Act} {w : Worker} {name : String}

theorem lookup_add (t : Tables) (n : Node) (w : Worker) (k : String) :
    (t.add n w).workers.lookup k = if n.name = k then some w else t.workers.lookup k :=
  listed?_enlist { stations := [], channels := [], roster := t.workers } n.name k w

theorem lookup_remove (t : Tables) (name k : String) :
    (t.remove name).workers.lookup k = if name = k then none else t.workers.lookup k :=
  lookup_filter_ne t.workers name k

/-- How a name came to stand for a worker: it did before the act, or the worker was hired or enlisted under it. -/
theorem lookup_step_cases (hl : (step h t a).workers.lookup name = some w) : t.workers.lookup name = some w ∨
    (∃ g, a = .add name g ∧ (h.fleet.hire name g).1 = w) ∨
      ∃ place, a = .enlist name place ∧ h.workers[place]? = some w := by
  cases a with
  | add k g =>
    rw [step, lookup_add] at hl
    split at hl
    next hk =>
      subst hk
      exact .inr (.inl ⟨g, rfl, Option.some.inj hl⟩)
    next => exact .inl hl
  | enlist k place =>
    simp only [step] at hl
    split at hl
    next v hv =>
      rw [lookup_add] at hl
      split at hl
      next hk =>
        subst hk
        exact .inr (.inr ⟨place, rfl, hv.trans hl⟩)
      next => exact .inl hl
    next => exact .inl hl
  | remove k now =>
    rw [step, lookup_remove] at hl
    split at hl
    next => cases hl
    next => exact .inl hl
  | _ => exact .inl hl

theorem nodup_remove (hn : (t.workers.map (·.1)).Nodup) (name : String) :
    ((t.remove name).workers.map (·.1)).Nodup := hn.sublist ((List.filter_sublist ..).map _)

theorem nodup_add (hn : (t.workers.map (·.1)).Nodup) (n : Node) (w : Worker) :
    ((t.add n w).workers.map (·.1)).Nodup := by
  refine List.nodup_cons.mpr ⟨?_, nodup_remove hn n.name⟩
  intro hmem
  obtain ⟨p, hp, hpn⟩ := List.mem_map.mp hmem
  exact of_decide_eq_true (List.mem_filter.mp hp).2 hpn

theorem nodup_step (hn : (t.workers.map (·.1)).Nodup) : ((step h t a).workers.map (·.1)).Nodup := by
  cases a with
  | add name g => exact nodup_add hn _ _
  | enlist name place =>
    simp only [step]
    split
    next w _ => exact nodup_add hn _ w
    next => exact hn
  | remove name now => exact nodup_remove hn name
  | _ => exact hn

theorem nodup_after (as : List Act) : ((after as).workers.map (·.1)).Nodup := by
  induction as using List.reverseRecOn with
  | nil => exact List.nodup_nil
  | append_singleton as a ih =>
    rw [after_concat]
    exact nodup_step ih

/-! #### The roster as two tables -/

/-- The two tables that a roster stands for. -/
def ofRoster (roster : List (String × Worker)) : Tables := ⟨roster.map fun p => (p.1, ⟨p.1⟩), roster⟩

variable {roster : List (String × Worker)}

theorem add_ofRoster (name : String) (w : Worker) :
    (ofRoster roster).add ⟨name⟩ w = ofRoster ((name, w) :: roster.filter (·.1 ≠ name)) := by
  simp only [ofRoster, add, List.filter_map, List.map_cons]
  rfl

theorem remove_ofRoster (name : String) :
    (ofRoster roster).remove name = ofRoster (roster.filter (·.1 ≠ name)) := by
  simp only [ofRoster, remove, List.filter_map]
  rfl

theorem node?_ofRoster (f : Fleet) (name : String) : (ofRoster f.roster).node? name = f.node? name := by
  have hl (ps : List (String × Worker)) :
      (ps.map fun p => (p.1, (⟨p.1⟩ : Node))).lookup name = (ps.lookup name).map fun _ => ⟨name⟩ := by
    induction ps with
    | nil => rfl
    | cons p ps ih =>
      obtain ⟨k, w⟩ := p
      rw [List.map_cons, List.lookup_cons, List.lookup_cons, ih]
      cases hk : name == k with
      | true => rw [eq_of_beq hk]; rfl
      | false => rfl
  rw [node?, Fleet.node?, ofRoster, hl, listed?]

theorem worker?_ofRoster (f : Fleet) (name : String) : (ofRoster f.roster).worker? name = f.worker? name := rfl

theorem names_ofRoster (f : Fleet) : (ofRoster f.roster).names = f.names := by
  rw [names, ofRoster, List.map_map]
  rfl

end Tables

/-! ### The roster -/

variable {f : Fleet} {w : Worker} {name : String}

@[simp] theorem roster_connect (f : Fleet) (w : Worker) : (f.connect w).2.roster = f.roster := by
  rcases h : f.lastChannel w with _ | _ | c <;> simp [connect, update, close, h]

@[simp] theorem roster_disconnect (f : Fleet) (w : Worker) (o : Outage) : (f.disconnect w o).roster = f.roster := by
  rcases h : f.lastChannel w with _ | _ | c <;> simp [disconnect, update, close, h]

theorem listed?_eq_none : f.listed? name = none ↔ ∀ p ∈ f.roster, p.1 ≠ name := by
  rw [listed?, List.lookup_eq_none_iff]
  refine forall₂_congr fun p _ => ?_
  rw [bne_iff_ne, ne_comm]

theorem mem_names : name ∈ f.names ↔ (f.listed? name).isSome = true := by
  rw [names, List.mem_mergeSort, List.mem_map, ← Option.ne_none_iff_isSome, Ne, listed?_eq_none]
  simp

/-- Names are listed in order, and each of them once. -/
theorem names_pairwise (hn : (f.roster.map (·.1)).Nodup) : f.names.Pairwise (· < ·) := by
  have hle : f.names.Pairwise fun a b => decide (a ≤ b) = true := by
    refine List.pairwise_mergeSort ?_ ?_ _
    · intro a b c hab hbc
      exact decide_eq_true (String.le_trans (of_decide_eq_true hab) (of_decide_eq_true hbc))
    · intro a b
      simpa using String.le_total a b
  have hne : f.names.Pairwise (· ≠ ·) := (List.mergeSort_perm _ _).nodup_iff.mpr hn
  exact hle.imp₂ (fun a b h hab => Std.lt_of_le_of_ne (of_decide_eq_true h) hab) hne

theorem isSome_worker?_iff : (f.worker? name).isSome = true ↔ name = "" ∨ name ∈ f.names := by
  rw [worker?, mem_names]
  by_cases h : name = "" <;> simp [h]

theorem name_of_node? {n : Node} (h : f.node? name = some n) : n.name = name := by
  rw [node?] at h
  split at h
  next hname =>
    cases h
    exact hname.symm
  next =>
    obtain ⟨_, _, rfl⟩ := Option.map_eq_some_iff.mp h
    rfl

theorem isSome_dirOf?_iff {path : String} : (f.dirOf? name path).isSome = true ↔
    ∃ w, f.worker? name = some w ∧ f.isOnline w = true := by
  rw [dirOf?, Option.isSome_bind, Option.any_eq_true]
  simp [dir?, isOnline]

theorem isLive_of_dirOf? {path : String} {d : Dir} (h : f.dirOf? name path = some d) :
    f.isLive d = true ∧ d.path = path := by
  obtain ⟨w, -, hd⟩ := Option.bind_eq_some_iff.mp h
  refine ⟨isLive_of_dir? hd, ?_⟩
  obtain ⟨c, -, rfl⟩ := Option.map_eq_some_iff.mp hd
  rfl

/-! ### What acts do to names -/

namespace History

variable {h : History} {a : Act}

theorem roster_remove (h : History) (name : String) (now : Timestamp) :
    (h.step (.remove name now)).fleet.roster = h.fleet.roster.filter (·.1 ≠ name) := by
  rw [step]
  cases hl : h.fleet.listed? name with
  | some w =>
    rw [remove_of_listed hl]
    exact congrArg (List.filter _) (roster_disconnect h.fleet w _)
  | none =>
    rw [remove_of_unlisted hl, List.filter_eq_self.mpr]
    intro p hp
    exact decide_eq_true (listed?_eq_none.mp hl p hp)

theorem listed?_remove (h : History) (name k : String) (now : Timestamp) :
    (h.step (.remove name now)).fleet.listed? k = if name = k then none else h.fleet.listed? k := by
  rw [listed?, roster_remove]
  exact lookup_filter_ne h.fleet.roster name k

/-- One act makes of the two tables what it makes of the roster. -/
theorem step_ofRoster (h : History) (a : Act) :
    Tables.step h (.ofRoster h.fleet.roster) a = .ofRoster (h.step a).fleet.roster := by
  cases a with
  | hire name g => rfl
  | add name g =>
    let w := (h.fleet.hire name g).1
    have hroster : (h.step (.add name g)).fleet.roster = (name, w) :: h.fleet.roster.filter (·.1 ≠ name) :=
      congrArg (fun r => (name, w) :: List.filter _ r) (roster_connect (h.fleet.hire name g).2 w)
    rw [hroster]
    exact Tables.add_ofRoster name w
  | enlist name place =>
    cases hp : h.workers[place]? with
    | some w =>
      simp only [Tables.step, step, withWorker, hp]
      exact Tables.add_ofRoster name w
    | none => simp only [Tables.step, step, withWorker, hp]
  | remove name now =>
    rw [roster_remove]
    exact Tables.remove_ofRoster name
  | connect place =>
    simp only [Tables.step, step, withWorker]
    split
    next w _ => exact congrArg Tables.ofRoster (roster_connect h.fleet w).symm
    next => rfl
  | disconnect place o =>
    simp only [Tables.step, step, withWorker]
    split
    next w _ => exact congrArg Tables.ofRoster (roster_disconnect h.fleet w o).symm
    next => rfl
  | request place t =>
    simp only [Tables.step, step, withWorker]
    split <;> rfl

theorem channel?_step (hk : h.Kept) (hc : h.Counted) (hw : w ∈ h.workers) (ha : h.touches w a = false) :
    (h.step a).fleet.channel? w = h.fleet.channel? w := by
  rw [(hk.step a).wired.channel?_eq, hk.wired.channel?_eq]
  exact lastChannel_step hk hc hw ha

/-- A removal takes the channel of the worker that the name stood for, and of no other. -/
theorem channel?_remove (hk : h.Kept) (hc : h.Counted) (hw : w ∈ h.workers) (name : String) (now : Timestamp) :
    (h.step (.remove name now)).fleet.channel? w =
      if h.fleet.listed? name = some w then none else h.fleet.channel? w := by
  split
  next hl =>
    rw [(hk.step _).wired.channel?_eq, step, remove_of_listed hl]
    exact lastChannel_disconnect h.fleet w _
  next hl => exact channel?_step hk hc hw (decide_eq_false hl)

theorem controllerWorker_mem (as : List Act) : controllerWorker ∈ (after as).workers := by
  induction as using List.reverseRecOn with
  | nil => exact List.mem_singleton_self _
  | append_singleton as a ih =>
    rw [after_concat]
    exact (kept_after as).keeps (fun _ _ hd hw => hd.mem_workers hw) ih a

theorem Counted.id_eq (hc : h.Counted) {place : Nat} (hw : h.workers[place]? = some w) : w.id = place := by
  have hid : (h.workers.map (·.id))[place]? = some w.id := by rw [List.getElem?_map, hw, Option.map_some]
  rw [hc.places] at hid
  exact (List.getElem?_eq_some_iff.mp hid).2.symm.trans (List.getElem_range _)

end History

namespace Tables

theorem after_eq (as : List Act) : after as = ofRoster (History.after as).fleet.roster := by
  induction as using List.reverseRecOn with
  | nil => rfl
  | append_singleton as a ih => rw [after_concat, ih, History.step_ofRoster, History.after_concat]

/-- A name stands for the worker of the controller only if that was enlisted under it. -/
theorem enlist_mem_of_lookup (as : List Act) (hl : (after as).workers.lookup name = some controllerWorker) :
    .enlist name 0 ∈ as := by
  induction as using List.reverseRecOn with
  | nil => cases hl
  | append_singleton as a ih =>
    rw [after_concat] at hl
    rw [List.mem_append, List.mem_singleton]
    rcases lookup_step_cases hl with hl | ⟨g, -, hnew⟩ | ⟨place, rfl, hw⟩
    · exact .inl (ih hl)
    · -- Whoever is hired has a number of his own.
      have hlt := (History.kept_after as).hired _ (History.controllerWorker_mem as)
      rw [← hnew] at hlt
      exact absurd hlt (Nat.lt_irrefl _)
    · have hplace : 0 = place := (History.counted_after as).id_eq hw
      exact .inr (by rw [hplace])

end Tables

namespace History

/-- **Names.**  Whatever is done to a fleet: it answers for nodes, workers and names as the two tables do.  A name has a
node, and has a worker, exactly if it is the empty name or listed; its node is of that name, and names are listed in
order, each of them once.  The empty name is always the controller.  The worker of the controller keeps its channel when
a name is added or enlisted, and loses it to a removal exactly if the name stood for it, which takes that it was
enlisted under the name.  There are directories of a name exactly while its worker is online; they are of the path that
was asked for, and live.  A name other than the empty one is not known any more when it was removed, and the worker that
it stood for is offline. -/
theorem tables_in_step (as : List Act) :
    let h := after as
    let f := h.fleet
    let t := Tables.after as
    (∀ n, f.node? n = t.node? n ∧ f.worker? n = t.worker? n) ∧ f.names = t.names ∧
      (∀ n, ((t.node? n).isSome = true ↔ n = "" ∨ n ∈ t.names) ∧
        ((t.worker? n).isSome = true ↔ n = "" ∨ n ∈ t.names) ∧ ∀ m, t.node? n = some m → m.name = n) ∧
      t.names.Pairwise (· < ·) ∧
      (t.node? "" = some .controller ∧ t.worker? "" = some controllerWorker) ∧
      (∀ n g, (h.step (.add n g)).fleet.channel? controllerWorker = f.channel? controllerWorker) ∧
      (∀ n place, (h.step (.enlist n place)).fleet.channel? controllerWorker = f.channel? controllerWorker) ∧
      (∀ n now, (h.step (.remove n now)).fleet.channel? controllerWorker =
        if t.workers.lookup n = some controllerWorker then none else f.channel? controllerWorker) ∧
      (∀ n, t.workers.lookup n = some controllerWorker → .enlist n 0 ∈ as) ∧
      (∀ n p, ((f.dirOf? n p).isSome = true ↔ ∃ w, t.worker? n = some w ∧ f.isOnline w = true) ∧
        ∀ d, f.dirOf? n p = some d → f.isLive d = true ∧ d.path = p) ∧
      ∀ n now, n ≠ "" → let f' := (h.step (.remove n now)).fleet
        f'.node? n = none ∧ f'.worker? n = none ∧ n ∉ f'.names ∧ ∀ w, t.worker? n = some w → f'.isOnline w = false := by
  intro h f t
  have hk : h.Kept := kept_after as
  have hc : h.Counted := counted_after as
  have hctrl : controllerWorker ∈ h.workers := controllerWorker_mem as
  have ht : t = .ofRoster f.roster := Tables.after_eq as
  have hnode (n : String) : t.node? n = f.node? n := by rw [ht, Tables.node?_ofRoster]
  have hworker (n : String) : t.worker? n = f.worker? n := by rw [ht, Tables.worker?_ofRoster]
  have hlisted (n : String) : t.workers.lookup n = f.listed? n := by rw [ht]; rfl
  have hnames : t.names = f.names := by rw [ht, Tables.names_ofRoster]
  refine ⟨fun n => ⟨(hnode n).symm, (hworker n).symm⟩, hnames.symm, ?_, ?_, ⟨rfl, rfl⟩,
    fun n g => channel?_step hk hc hctrl rfl, fun n place => channel?_step hk hc hctrl rfl, ?_, ?_, ?_, ?_⟩
  · intro n
    rw [hnode, hworker, hnames, isSome_node?]
    exact ⟨isSome_worker?_iff, isSome_worker?_iff, fun m hm => name_of_node? hm⟩
  · rw [hnames]
    have hn := Tables.nodup_after as
    rw [Tables.after_eq] at hn
    exact names_pairwise hn
  · intro n now
    rw [hlisted]
    exact channel?_remove hk hc hctrl n now
  · intro n hn
    exact Tables.enlist_mem_of_lookup as hn
  · intro n p
    rw [hworker]
    exact ⟨isSome_dirOf?_iff, fun d hd => isLive_of_dirOf? hd⟩
  · intro n now hn f'
    have hgone : f'.listed? n = none := by
      show (h.step _).fleet.listed? n = none
      rw [listed?_remove, if_pos rfl]
    refine ⟨?_, ?_, ?_, ?_⟩
    · rw [node?, if_neg hn, hgone]
      rfl
    · rw [worker?, if_neg hn, hgone]
    · rw [mem_names, hgone]
      exact Bool.false_ne_true
    · intro w hw
      rw [hworker, worker?, if_neg hn] at hw
      have hoff : f'.channel? w = none := by
        show (h.step _).fleet.channel? w = none
        rw [channel?_remove hk hc (hk.listed n w hw), if_pos hw]
      rw [isOnline, hoff]
      rfl

/-- The worker of the controller takes over a name from another one, while a third goes by a name that is not its own,
and a fourth by the empty one.  When the first of these names is removed the controller goes offline, but is still known
by the empty name, and listed under it is the fourth. -/
theorem tables_in_step_taken_over :
    let acts : List Act :=
      [.add "v" (.table 1), .enlist "v" 0, .hire "w" (.table 2), .enlist "u" 2, .add "" (.table 3)]
    let h := after acts
    let f' := (h.step (.remove "v" ⟨0, 0⟩)).fleet
    ("v" ≠ "" ∧ h.fleet.names = ["", "u", "v"] ∧ h.fleet.worker? "v" = some controllerWorker ∧
        h.fleet.isOnline controllerWorker = true ∧ (h.fleet.worker? "u").map (·.name) = some "w") ∧
      f'.node? "v" = none ∧ f'.worker? "v" = none ∧ "v" ∉ f'.names ∧ f'.isOnline controllerWorker = false ∧
      f'.node? "" = some .controller ∧ f'.worker? "" = some controllerWorker ∧ f'.listed? "" = some ⟨3, ""⟩ := by
  intro acts h f'
  have hne : "v" ≠ "" := by decide
  have hv : h.fleet.worker? "v" = some controllerWorker := by decide
  have hnames : h.fleet.names = ["", "u", "v"] := by
    rw [names, show h.fleet.roster.map (·.1) = ["", "u", "v"] by decide]
    exact List.mergeSort_of_pairwise (by decide)
  obtain ⟨hagree, -, -, -, -, -, -, -, -, -, hremove⟩ := tables_in_step acts
  obtain ⟨hnode, hworker, hmem, hoff⟩ := hremove "v" ⟨0, 0⟩ hne
  refine ⟨⟨hne, hnames, hv, by decide, by decide⟩, hnode, hworker, hmem, hoff controllerWorker ?_, rfl, rfl, by decide⟩
  rw [← (hagree "v").2]
  exact hv

end History

end Rejoin.Fleet
