import Rejoin.Proofs.Fleet.History
import Rejoin.Proofs.Recovery

/-!
# The directory of a step after reconnections

What a rejoined step finds as its directory, told from what has happened to the fleet.

* `Fleet.History.dirOf?_eq_some` — the directories that can be reached over the connections that are up;
* `Fleet.History.notice` — what is said of a node that cannot be reached;
* `Recovery.get_dir_after` — the leased directory while its channel is open, else the one that can be reached now, else
  that notice.
-/

namespace Rejoin

namespace Fleet.History

/-- What is said of a node that cannot be reached: why its worker is offline, if there is a worker that was told why,
and all requests to terminate that worker, with their times. -/
def notice (h : History) (node : String) : Offline :=
  match h.known? node with
  | none => ⟨"Unable to create live directory handle for " ++ node, []⟩
  | some w =>
    ⟨"Unable to create live directory handle for " ++ w.text ++
        match (h.link? w).bind Link.cause? with
        | some o => "; " ++ w.text ++ " was marked offline: " ++ o.note
        | none => "",
      (h.requestsTo w).map fun t => t.note ++ " (requested at " ++ t.time.text "+00:00" ++ ")"⟩

namespace Kept

variable {h : History} {name path : String} {d : Dir}

theorem offline_eq (hk : h.Kept) (node : String) : Recovery.offline h.fleet node = h.notice node := by
  unfold Recovery.offline notice
  rw [outageOf, terminationsOf, hk.worker?_eq]
  cases h.known? node with
  | none => simp only [Option.map_none, Option.bind_none, Option.getD_none, List.map_nil, String.append_empty]
  | some w =>
    simp only [Option.map_some, Option.bind_some, Option.getD_some, hk.causes, hk.requests]
    cases (h.link? w).bind Link.cause? <;> rfl

/-- Directories are reached on the workers that names stand for, over the connections that are up. -/
theorem dirOf?_eq_some (hk : h.Kept) : h.fleet.dirOf? name path = some d ↔
    ∃ w c, h.known? name = some w ∧ h.link? w = some (.up c) ∧ d = ⟨w.name, path, c⟩ := by
  rw [dirOf?, hk.worker?_eq, Option.bind_eq_some_iff]
  constructor
  · rintro ⟨w, hw, hd⟩
    obtain ⟨c, hc, rfl⟩ := Option.map_eq_some_iff.mp hd
    exact ⟨w, c, hw, hk.channel?_eq_some_iff.mp hc, rfl⟩
  · rintro ⟨w, c, hw, hl, rfl⟩
    exact ⟨w, hw, Option.map_eq_some_iff.mpr ⟨c, hk.channel?_eq_some_iff.mpr hl, rfl⟩⟩

theorem dirOf?_eq_none (hk : h.Kept) : h.fleet.dirOf? name path = none ↔
    ∀ w c, h.known? name = some w → h.link? w ≠ some (.up c) := by
  rw [Option.eq_none_iff_forall_ne_some]
  constructor
  · intro hn w c hw hl
    exact hn _ (hk.dirOf?_eq_some.mpr ⟨w, c, hw, hl, rfl⟩)
  · intro hn d hd
    obtain ⟨w, c, hw, hl, -⟩ := hk.dirOf?_eq_some.mp hd
    exact hn w c hw hl

end Kept

end Fleet.History

namespace Recovery

open Fleet (History)

/-- **The directory of a rejoined step.**  Whatever has happened to the fleet, a step whose scope has the record, and no
directory of its own, finds a directory or an error, and never a directory over a closed channel: the leased one while
its channel is open; otherwise the same path over the channel of the worker that the node stands for, if that is
online; and otherwise the notice that the node cannot be reached.  Names, channels and requests are as the history of
the fleet has them. -/
theorem get_dir_after (acts : List Fleet.Act) {scope : StepScope} {r : Record} {x : Holdings}
    (ht : scope.table.find? .dir = some dir) (hd : scope.bound? .dir = none)
    (hr : scope.get (History.after acts).fleet .record = .ok (some r)) (hx : r.holdings = some x) :
    let h := History.after acts
    let found := scope.get h.fleet .dir
    (∀ d, found = .ok d → ∃ d', d = some d' ∧ h.fleet.isLive d' = true) ∧
      (h.fleet.isLive x.lease.dir = true → found = .ok (some x.lease.dir)) ∧
      (h.fleet.isLive x.lease.dir = false → ∀ w c, h.known? r.bookmark.node = some w → h.link? w = some (.up c) →
        found = .ok (some ⟨w.name, x.lease.dir.path, c⟩)) ∧
      (∀ e, found = .error e ↔ e = .offline (h.notice r.bookmark.node) ∧ h.fleet.isLive x.lease.dir = false ∧
        ∀ w c, h.known? r.bookmark.node = some w → h.link? w ≠ some (.up c)) ∧
      (∀ name, h.fleet.worker? name = h.known? name) ∧
      ∀ c, h.fleet.isOpen c = true ↔ ∃ w, h.link? w = some (.up c) := by
  intro h found
  have hk : h.Kept := Fleet.History.kept_after acts
  have hfound : found = currentDir h.fleet r x := get_dir_of_get ht hd hr hx
  refine ⟨?_, ?_, ?_, ?_, hk.worker?_eq, hk.isOpen_iff⟩
  · intro d hd
    exact exists_of_currentDir (hfound.symm.trans hd)
  · intro hl
    exact hfound.trans (currentDir_of_isLive hl)
  · intro hl w c hw hc
    exact hfound.trans (currentDir_of_dirOf? hl (hk.dirOf?_eq_some.mpr ⟨w, c, hw, hc, rfl⟩))
  · intro e
    rw [hfound, currentDir_eq_error, hk.offline_eq, hk.dirOf?_eq_none]

/-- A node with two requests to terminate it is removed and comes back offline: its step is told all of that.  Once its
worker is connected again, the step goes on over the new channel. -/
theorem get_dir_after_removal :
    let lost : List Fleet.Act := [.add "w" (.table 1), .request 1 ⟨"spot instance reclaimed", ⟨0, 0⟩⟩,
      .request 1 ⟨"idle", ⟨60, 0⟩⟩, .remove "w" ⟨90, 0⟩, .enlist "w" 1]
    let x : Holdings := ⟨⟨⟨1, "w"⟩, 0⟩, ⟨0, ⟨"w", "/ws", 2⟩⟩⟩
    let r : Record := .ofHoldings ⟨"run", "step", none⟩ x 0
    let scope : StepScope := .root all [⟨.record, r⟩] 0
    (scope.table.find? .dir = some dir ∧ scope.bound? .dir = none ∧ r.holdings = some x ∧
        ∀ f, scope.get f .record = .ok (some r)) ∧
      scope.get (History.after lost).fleet .dir = .error (.offline
        ⟨"Unable to create live directory handle for w; w was marked offline: w was removed",
          ["spot instance reclaimed (requested at 1970-01-01T00:00:00+00:00)",
            "idle (requested at 1970-01-01T00:01:00+00:00)"]⟩) ∧
      scope.get (History.after (lost ++ [.connect 1])).fleet .dir = .ok (some ⟨"w", "/ws", 3⟩) := by
  intro lost x r scope
  have ht : scope.table.find? .dir = some dir := rfl
  have hd : scope.bound? .dir = none := rfl
  have hr : ∀ f, scope.get f .record = .ok (some r) := fun f => rfl
  have hx : r.holdings = some x := rfl
  obtain ⟨-, -, -, herror, -, -⟩ := get_dir_after lost ht hd (hr _) hx
  obtain ⟨-, -, hback, -, -, -⟩ := get_dir_after (lost ++ [.connect 1]) ht hd (hr _) hx
  refine ⟨⟨ht, hd, hx, hr⟩, ?_, ?_⟩
  · refine (herror _).mpr ⟨rfl, rfl, ?_⟩
    intro w c hw hc
    obtain rfl : ⟨1, "w"⟩ = w := Option.some.inj hw
    cases hc
  · exact hback rfl ⟨1, "w"⟩ 3 rfl rfl

end Recovery

end Rejoin
