import Rejoin.Proofs.Queue.History

/-!
# The course of an item

* `Phase.Moves` — an item that is pending starts or is cancelled, and one that started finishes;
* `World.Log.Faithful.phase?_of_tells` — what a queue was told of an item tells of no other phase than the board;
* `Queue.History.Did.moves` — an act moves an item on, or leaves it where it is;
* `Queue.History.items_run_their_course` — the course of all items, whatever is done to a queue.
-/

namespace Rejoin

/-- How an item can move on. -/
inductive Phase.Moves : Phase → Phase → Prop
  | stays (p : Phase) : Moves p p
  | starts (e : Execution) : Moves .pending (.started e)
  | finishes (e : Execution) : Moves (.started e) (.finished e)
  | cancels : Moves .pending .cancelled

namespace World.Log

variable {l : Log} {n : Nat} {p : Phase}

theorem Tells.mem_cancels_iff (h : l.Tells n (some p)) : n ∈ l.cancels ↔ p = .cancelled := by
  cases p with
  | cancelled => exact iff_of_true h.2 rfl
  | pending => exact iff_of_false h.2 nofun
  | started e => exact iff_of_false h.1 nofun
  | finished e => exact iff_of_false h.1 nofun

/-- What the log tells of an item that has a phase it tells of that phase alone. -/
theorem Faithful.phase?_of_tells (h : l.Faithful) (ht : l.Tells n (some p)) (hn : ∃ o, l.queue.phase? n = some o) :
    l.queue.phase? n = some p := by
  obtain ⟨o, ho⟩ := hn
  have hb : l.Tells n (some o) := ho ▸ h.tells n
  cases p with
  | pending =>
    -- Any other phase is told by a start or by a cancellation.
    cases o with
    | pending => exact ho
    | cancelled => exact absurd hb.2 ht.2
    | started e =>
      obtain ⟨-, a, ha, rfl, hi, -⟩ := hb
      exact absurd hi (ht.1 a ha)
    | finished e =>
      obtain ⟨-, a, ha, rfl, hi, -⟩ := hb
      exact absurd hi (ht.1 a ha)
  | started e =>
    obtain ⟨-, a, ha, rfl, rfl, hf, -⟩ := ht
    rcases (h.of_start ha).2 with hp | hp
    · exact hp
    · obtain rfl := Option.some.inj (ho.symm.trans hp)
      obtain ⟨-, _, -, -, -, hfin, -⟩ := hb
      exact absurd hfin hf
  | finished e =>
    obtain ⟨-, a, ha, rfl, rfl, hf, -⟩ := ht
    rcases (h.of_start ha).2 with hp | hp
    · obtain rfl := Option.some.inj (ho.symm.trans hp)
      obtain ⟨-, _, -, -, -, hfin, -⟩ := hb
      exact absurd hf hfin
    · exact hp
  | cancelled =>
    obtain rfl := hb.mem_cancels_iff.mp ht.2
    exact ho

end World.Log

namespace Queue.History

/-! ### Phases and lists -/

namespace Kept

variable {h : History} {i : Item}

theorem tells_iff (hk : h.Kept) (hi : i ∈ h.items) {p : Phase} :
    h.Tells i.id (some p) ↔ h.queue.phase? i.id = some p := by
  constructor
  · intro ht
    exact hk.faithful.phase?_of_tells ht (hk.exists_phase? hi)
  · intro hp
    have ht := hk.faithful.tells i.id
    rwa [hp] at ht

theorem existsUnique_tells (hk : h.Kept) (hi : i ∈ h.items) : ∃! p, h.Tells i.id (some p) := by
  obtain ⟨p, hp⟩ := hk.exists_phase? hi
  refine ⟨p, (hk.tells_iff hi).mpr hp, ?_⟩
  intro o ho
  have ho : h.queue.phase? i.id = some o := (hk.tells_iff hi).mp ho
  rw [hp] at ho
  exact (Option.some.inj ho).symm

theorem mem_known (hk : h.Kept) : i ∈ h.queue.known ↔ i ∈ h.items ∧ h.queue.phase? i.id ≠ some .cancelled := by
  rw [hk.known, List.mem_filter, decide_eq_true_eq]

theorem known_sublist (hk : h.Kept) : h.queue.known.Sublist h.items := by
  rw [hk.known]
  exact List.filter_sublist

theorem mem_pending (hk : h.Kept) (hi : i ∈ h.items) :
    i ∈ h.queue.pending ↔ h.Tells i.id (some .pending) := by
  rw [pending, List.mem_filter, isPending_iff, hk.mem_known, hk.tells_iff hi]
  constructor
  · rintro ⟨-, hp⟩
    exact hp
  · intro hp
    exact ⟨⟨hi, by simp [hp]⟩, hp⟩

theorem mem_running (hk : h.Kept) (hi : i ∈ h.items) :
    i ∈ h.queue.running ↔ ∃ e, h.Tells i.id (some (.started e)) := by
  rw [running, List.mem_filter, isRunning_iff, hk.mem_known]
  constructor
  · rintro ⟨-, e, hp⟩
    exact ⟨e, (hk.tells_iff hi).mpr hp⟩
  · rintro ⟨e, ht⟩
    have hp := (hk.tells_iff hi).mp ht
    exact ⟨⟨hi, by simp [hp]⟩, e, hp⟩

/-- An execution has the slot that it was started on as long as its item runs, and none afterwards. -/
theorem claimed?_eq (hk : h.Kept) {a : World.Start} (ha : a ∈ h.starts) :
    h.queue.claimed? a.execution =
      if ∃ i ∈ h.queue.running, i.id = a.execution.item then some a.slot else none := by
  have ht := hk.faithful.tells a.execution.item
  rcases (hk.faithful.of_start ha).2 with hp | hp
  · rw [hp] at ht
    obtain ⟨-, b, hb, he, -, -, hcl⟩ := ht
    obtain rfl := hk.faithful.once b hb a ha (congrArg Execution.item he)
    rw [if_pos (hk.numbered.exists_running_iff.mpr ⟨_, hp⟩)]
    exact hcl
  · rw [hp] at ht
    obtain ⟨-, _, -, -, -, -, hcl⟩ := ht
    have hn : ¬∃ i ∈ h.queue.running, i.id = a.execution.item := by
      rw [hk.numbered.exists_running_iff, hp]
      rintro ⟨_, he⟩
      cases he
    rw [if_neg hn]
    exact hcl

theorem nodup_starts (hk : h.Kept) : (h.starts.map (·.execution.item)).Nodup := by
  have hid : (h.starts.map (·.execution.id)).Nodup := by
    rw [hk.issued]
    exact List.nodup_range'
  refine (List.Nodup.of_map _ hid).map_on ?_
  intro a ha b hb he
  exact hk.faithful.once a ha b hb he

end Kept

/-! ### One act -/

namespace Did

variable {h h' : History} {a : Act}

theorem items (hd : Did h a h') (hk : h.Kept) : h'.items = h.items ∨
    ∃ i, a = .submit i.work i.priority ∧ h'.items = h.items ++ [i] ∧ h'.Tells i.id (some .pending) := by
  cases hd with
  | @submitted w priority i q hs =>
    refine .inr ⟨i, ?_, rfl, ?_⟩
    · obtain ⟨-, rfl, -⟩ := submit_eq_some.mp hs
      rfl
    · have ht := (hk.submitted hs).faithful.tells i.id
      have hp : q.phase? i.id = some .pending := phase?_of_submit hs
      rwa [hp] at ht
  | _ => exact .inl rfl

/-- An act moves an item on, or leaves it where it is. -/
theorem moves (hd : Did h a h') (hk : h.Kept) {n : Nat} {p : Phase} (hp : h.queue.phase? n = some p) :
    ∃ p', h'.queue.phase? n = some p' ∧ p.Moves p' := by
  cases hd with
  | submitted hs =>
    have hle := (exists_phase?_iff.mp ⟨p, hp⟩).2
    have hid := (accepted_of_submit hs).2
    rw [phase?_of_submit_eq hs, if_neg (by omega)]
    exact ⟨p, hp, .stays p⟩
  | started hs =>
    rw [phase?_of_start hs]
    split
    next hn =>
      rw [hn, (start_eq_ok.mp hs).1] at hp
      obtain rfl := Option.some.inj hp
      exact ⟨_, rfl, .starts _⟩
    next => exact ⟨p, hp, .stays p⟩
  | cancelled hs =>
    rw [phase?_of_cancel hs]
    split
    next hn =>
      rw [hn, (cancel_eq_true.mp hs).1] at hp
      obtain rfl := Option.some.inj hp
      exact ⟨_, rfl, .cancels⟩
    next => exact ⟨p, hp, .stays p⟩
  | @finished place b hb =>
    rw [phase?_finish hk.numbered]
    split
    next hn =>
      -- An item that is finished once more was finished by the same execution.
      rw [hn.1] at hp
      rcases (hk.faithful.of_start (List.mem_of_getElem? hb)).2 with hp' | hp'
      · obtain rfl := Option.some.inj (hp'.symm.trans hp)
        exact ⟨_, rfl, .finishes _⟩
      · obtain rfl := Option.some.inj (hp'.symm.trans hp)
        exact ⟨_, rfl, .stays _⟩
    next => exact ⟨p, hp, .stays p⟩
  | quieted => exact ⟨p, hp, .stays p⟩
  | refused => exact ⟨p, hp, .stays p⟩

end Did

/-- **The course of an item.**  Whatever was done to a queue, and whatever is done next: the items have the numbers from
one up to how many were accepted, and each of them is in one phase, as far as the queue was told of it.  It moves from
pending to started to finished, or from pending to cancelled.  The lists have the items of their phases, in the order of
acceptance and as they were submitted.  Nothing is started twice, and executions are numbered from one, too; one that
was started has its slot exactly as long as its item runs. -/
theorem items_run_their_course (as : List Act) (a : Act) :
    let h := after as
    let h' := after (as ++ [a])
    (h.items.map (·.id) = List.range' 1 h.queue.accepted ∧
      (h'.items = h.items ∨
        ∃ i, a = .submit i.work i.priority ∧ h'.items = h.items ++ [i] ∧ h'.Tells i.id (some .pending))) ∧
    (∀ i ∈ h.items, (∃! p, h.Tells i.id (some p)) ∧
      ∀ p, h.Tells i.id (some p) → ∃ p', h'.Tells i.id (some p') ∧ p.Moves p') ∧
    (h.queue.pending.Sublist h.items ∧ h.queue.running.Sublist h.items ∧
      ∀ i ∈ h.items, (i ∈ h.queue.pending ↔ h.Tells i.id (some .pending)) ∧
        (i ∈ h.queue.running ↔ ∃ e, h.Tells i.id (some (.started e)))) ∧
    ((h.starts.map (·.execution.item)).Nodup ∧
      h.starts.map (·.execution.id) = List.range' 1 h.starts.length ∧
      ∀ b ∈ h.starts, h.queue.claimed? b.execution =
        if ∃ i ∈ h.queue.running, i.id = b.execution.item then some b.slot else none) := by
  intro h h'
  have hk : h.Kept := kept_after as
  have hk' : h'.Kept := kept_after (as ++ [a])
  have hd : Did h a h' := by
    rw [show h' = h.step a from after_concat as a]
    exact did_step h a
  refine ⟨⟨hk.accepted, hd.items hk⟩, ?_, ⟨?_, ?_, ?_⟩, hk.nodup_starts, ?_, ?_⟩
  · intro i hi
    refine ⟨hk.existsUnique_tells hi, ?_⟩
    intro p hp
    obtain ⟨p', hp', hm⟩ := hd.moves hk ((hk.tells_iff hi).mp hp)
    have ht := hk'.faithful.tells i.id
    rw [hp'] at ht
    exact ⟨p', ht, hm⟩
  · exact List.filter_sublist.trans hk.known_sublist
  · exact List.filter_sublist.trans hk.known_sublist
  · intro i hi
    exact ⟨hk.mem_pending hi, hk.mem_running hi⟩
  · have hlen := congrArg List.length hk.issued
    rw [List.length_map, List.length_range'] at hlen
    rw [hk.issued, hlen]
  · intro b hb
    exact hk.claimed?_eq hb

end Queue.History

end Rejoin
