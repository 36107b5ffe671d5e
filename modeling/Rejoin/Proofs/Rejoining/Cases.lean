import Rejoin.Rejoining.Waiting

/-!
# How a rejoining begins and goes on

* `Record.beginRejoin_eq_ok`, `Record.beginRejoin_eq_error` — a rejoining begins when the step was not rejoined, the
  console is there and the queue has or takes an item for it, and fails at the first of these that is not so;
* `Bookmark.findOrSubmit_eq_ok`, `Bookmark.findOrSubmit_eq_error` — which item that is;
* `Rejoining.Proceeds` — the eight ways for a rejoining to go on, each with what it leaves of the controller.
-/

namespace Rejoin

namespace Controller

theorem allocate_eq_ok {c c' : Controller} {w : Worker} {d : Dir} {l : Lease} : c.allocate w d = .ok (l, c') ↔
    ∃ s l', c.fleet.station? w = some s ∧ c.ledger.allocate s.grantor d = .ok (l, l') ∧
      c' = { c with ledger := l' } := by
  unfold allocate
  cases c.fleet.station? w with
  | none => simp
  | some s =>
    cases ha : c.ledger.allocate s.grantor d with
    | error e => simp [ha, Except.map]
    | ok p =>
      obtain ⟨l₁, ledger⟩ := p
      simp only [ha, Except.map, Except.ok.injEq, Prod.mk.injEq, Option.some.injEq]
      constructor
      · rintro ⟨rfl, rfl⟩
        exact ⟨s, ledger, rfl, by rw [ha], rfl⟩
      · rintro ⟨_, ledger', rfl, hl, rfl⟩
        rw [ha] at hl
        cases hl
        exact ⟨rfl, rfl⟩

end Controller

/-! ### The item of a bookmark -/

namespace Bookmark

variable {b : Bookmark} {q : Queue} {priority : Nat}

/-- The item of a rejoining is the one that carries the token, and a new one only where there is none. -/
theorem findOrSubmit_eq_ok {n : Nat} {q' : Queue} : b.findOrSubmit q priority = .ok (n, q') ↔
    (∃ i, b.ticket.token.bind q.byToken? = some i ∧ n = i.id ∧ q' = q) ∨
      (b.ticket.token.bind q.byToken? = none ∧
        ∃ i, q.submit (.ticket b.ticket) priority = some (i, q') ∧ n = i.id) := by
  unfold findOrSubmit
  cases b.ticket.token.bind q.byToken? with
  | some i => simp [eq_comm]
  | none =>
    cases q.submit (.ticket b.ticket) priority with
    | none => simp
    | some p =>
      obtain ⟨i, q₁⟩ := p
      simp only [Except.ok.injEq, Prod.mk.injEq, reduceCtorEq, false_and, exists_false, false_or, true_and,
        Option.some.injEq]
      constructor
      · rintro ⟨rfl, rfl⟩
        exact ⟨i, ⟨rfl, rfl⟩, rfl⟩
      · rintro ⟨_, ⟨rfl, rfl⟩, rfl⟩
        exact ⟨rfl, rfl⟩

theorem findOrSubmit_eq_error {e : RejoinError} : b.findOrSubmit q priority = .error e ↔
    b.ticket.token.bind q.byToken? = none ∧ q.submit (.ticket b.ticket) priority = none ∧
      e = .refused b.ticket.text := by
  unfold findOrSubmit
  cases b.ticket.token.bind q.byToken? with
  | some i => simp
  | none =>
    cases q.submit (.ticket b.ticket) priority with
    | none => simp [eq_comm]
    | some p => simp

end Bookmark

/-! ### The beginning -/

namespace Record

variable {r : Record} {c c' : Controller} {scope : StepScope} {s : Settings}

/-- What the controller is when a rejoining has begun to wait, with the queue that its item is in. -/
def announced (r : Record) (c : Controller) (q : Queue) (console : Console) : Controller :=
  if r.bookmark.node = "" then { c with queue := q }
  else { c with queue := q }.println console r.bookmark.waitingLine

section Announced

variable (q : Queue) (console : Console)

@[simp] theorem now_announced : (r.announced c q console).now = c.now := by unfold announced; split <;> simp

@[simp] theorem fleet_announced : (r.announced c q console).fleet = c.fleet := by unfold announced; split <;> simp

@[simp] theorem ledger_announced : (r.announced c q console).ledger = c.ledger := by unfold announced; split <;> simp

@[simp] theorem queue_announced : (r.announced c q console).queue = q := by unfold announced; split <;> simp

end Announced

theorem beginRejoin_eq_ok {w : Rejoining} : r.beginRejoin c scope s = .ok (w, c') ↔
    r.holdings = none ∧ ∃ console n q, scope.require c.fleet .console = .ok console ∧
      r.bookmark.findOrSubmit c.queue s.priority = .ok (n, q) ∧
      w = ⟨r.bookmark, n, c.now + s.patience, s.span, console, scope.sink⟩ ∧ c' = r.announced c q console := by
  have now_eq (q : Queue) (console : Console) : (if r.bookmark.node = "" then { c with queue := q }
      else { c with queue := q }.println console r.bookmark.waitingLine).now = c.now := now_announced q console
  unfold beginRejoin
  cases r.holdings with
  | some h => simp
  | none =>
    cases scope.require c.fleet .console with
    | error e => simp
    | ok console =>
      cases r.bookmark.findOrSubmit c.queue s.priority with
      | error e => simp
      | ok p =>
        obtain ⟨n, q⟩ := p
        simp only [now_eq, Except.ok.injEq, Prod.mk.injEq, true_and]
        constructor
        · rintro ⟨rfl, rfl⟩
          exact ⟨console, n, q, rfl, ⟨rfl, rfl⟩, rfl, rfl⟩
        · rintro ⟨_, _, _, rfl, ⟨rfl, rfl⟩, rfl, rfl⟩
          exact ⟨rfl, rfl⟩

/-- A rejoining that does not begin fails with the first of three causes. -/
theorem beginRejoin_eq_error {e : RejoinError} : r.beginRejoin c scope s = .error e ↔
    (r.holdings.isSome = true ∧ e = .alreadyRejoined) ∨
    (r.holdings = none ∧ ∃ x, scope.require c.fleet .console = .error x ∧ e = .lookup x) ∨
    (r.holdings = none ∧ ∃ console, scope.require c.fleet .console = .ok console ∧
      r.bookmark.findOrSubmit c.queue s.priority = .error e) := by
  unfold beginRejoin
  cases r.holdings with
  | some h => simp [eq_comm]
  | none =>
    cases scope.require c.fleet .console with
    | error e => simp [eq_comm]
    | ok console => cases r.bookmark.findOrSubmit c.queue s.priority <;> simp

theorem ofBookmark_of_holdings (h : r.holdings = none) : ofBookmark r.bookmark = r := by
  obtain ⟨b, hs⟩ := r
  simp only at h
  rw [h]
  rfl

end Record

/-! ### Going on -/

namespace Rejoining

/-- The directory that a rejoining asks for on the worker of a slot, over a channel. -/
def wanted (r : Rejoining) (s : Slot) (channel : Nat) : Dir := ⟨s.owner.name, r.bookmark.path, channel⟩

/-- The ways for a rejoining to go on with what is known of its item: the result, if that ends it, and the
controller afterwards. -/
inductive Proceeds (r : Rejoining) (c : Controller) :
    Option (Except Cancelled Execution) → Option RejoinResult → Controller → Prop
  | waits (hd : c.now < r.deadline) : Proceeds r c none none c
  | timedOut (hd : r.deadline ≤ c.now) :
    Proceeds r c none (some (.error (.interrupted (.aborted (.removedNode r.bookmark.node)))))
      (c.println r.console (r.bookmark.removedLine r.patience))
  | cancelled (x : Cancelled) :
    Proceeds r c (some (.error x)) (some (.error (.interrupted (.aborted .taskCancelled)))) c
  | unclaimed {e : Execution} (hs : c.queue.claimed? e = none) :
    Proceeds r c (some (.ok e)) (some (.error (.notClaimed e.text))) c
  | offline {e : Execution} {s : Slot} (hs : c.queue.claimed? e = some s) (hc : c.fleet.channel? s.owner = none) :
    Proceeds r c (some (.ok e)) (some (.error (.workerOffline s.owner.text))) c
  | failed {e : Execution} {s : Slot} {channel : Nat} {x : LeaseError} (hs : c.queue.claimed? e = some s)
    (hc : c.fleet.channel? s.owner = some channel) (hl : c.allocate s.owner (r.wanted s channel) = .error x) :
    Proceeds r c (some (.ok e)) (some (.error (.lease x))) c
  | locked {e : Execution} {s : Slot} {channel : Nat} {l : Lease} {c' : Controller}
    (hs : c.queue.claimed? e = some s) (hc : c.fleet.channel? s.owner = some channel)
    (hl : c.allocate s.owner (r.wanted s channel) = .ok (l, c')) (hd : l.dir.same (r.wanted s channel) = false) :
    Proceeds r c (some (.ok e)) (some (.error (.locked r.bookmark.path))) (c'.release l)
  | recovered {e : Execution} {s : Slot} {channel : Nat} {l : Lease} {c' : Controller}
    (hs : c.queue.claimed? e = some s) (hc : c.fleet.channel? s.owner = some channel)
    (hl : c.allocate s.owner (r.wanted s channel) = .ok (l, c')) (hd : l.dir.same (r.wanted s channel) = true) :
    Proceeds r c (some (.ok e)) (some (.ok ⟨s, l⟩)) c'

/-- There is no other way. -/
theorem proceeds (r : Rejoining) (c : Controller) (news : Option (Except Cancelled Execution)) :
    r.Proceeds c news (r.proceed c news).1 (r.proceed c news).2 := by
  match news with
  | none =>
    by_cases hd : r.deadline ≤ c.now
    · simpa [proceed, hd] using Proceeds.timedOut hd
    · simpa [proceed, hd] using Proceeds.waits (by omega)
  | some (.error x) => exact .cancelled x
  | some (.ok e) =>
    rw [proceed_ok]
    unfold takeOver
    split
    next hs => exact .unclaimed hs
    next s hs =>
      split
      next hc => exact .offline hs hc
      next channel hc =>
        unfold leaseExact
        dsimp only
        split
        next x hl => exact .failed hs hc hl
        next l c' hl =>
          split
          next hd => exact .recovered hs hc hl hd
          next hd => exact .locked hs hc hl (Bool.not_eq_true _ ▸ hd)

theorem proceeds_poll (r : Rejoining) (c : Controller) :
    r.Proceeds c (c.queue.news? r.item) (r.poll c).1 (r.poll c).2 := r.proceeds c _

theorem Proceeds.waiting {r : Rejoining} {c c' : Controller} {news : Option (Except Cancelled Execution)}
    (h : r.Proceeds c news none c') : news = none ∧ c.now < r.deadline ∧ c' = c := by
  cases h with
  | waits hd => exact ⟨rfl, hd, rfl⟩

/-- Going on changes neither the clock, the fleet nor the queue. -/
theorem Proceeds.frame {r : Rejoining} {c c' : Controller} {news : Option (Except Cancelled Execution)}
    {x : Option RejoinResult} (h : r.Proceeds c news x c') :
    c'.now = c.now ∧ c'.fleet = c.fleet ∧ c'.queue = c.queue := by
  cases h with
  | timedOut => simp
  | locked hs hc hl hd =>
    obtain ⟨g, l', -, -, rfl⟩ := Controller.allocate_eq_ok.mp hl
    exact ⟨rfl, rfl, rfl⟩
  | recovered hs hc hl hd =>
    obtain ⟨g, l', -, -, rfl⟩ := Controller.allocate_eq_ok.mp hl
    exact ⟨rfl, rfl, rfl⟩
  | _ => exact ⟨rfl, rfl, rfl⟩

end Rejoining

end Rejoin
