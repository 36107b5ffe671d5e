import Mathlib.Data.List.Induction
import Rejoin.ChangeDir
import Rejoin.Proofs.Completion
import Rejoin.Proofs.Lookup.Nested
import Rejoin.Proofs.Lookup.Required

/-!
# Directories inside directories

Steps `dir` are started one inside the other, each on the scope that the one before gave its body.

* `ChangeDir.start` — what a step does before its body runs, and `ChangeDir.run_eq_start`, the whole step;
* `ChangeDir.start_eq` — it needs the console and the directory that its scope finds, and nothing else;
* `ChangeDir.descend` — steps one inside the other, whatever happens between their starts;
* `ChangeDir.place`, `ChangeDir.announced` — where they lead, and the controller after a line for each of them;
* `ChangeDir.nested_starts` — the directory at every level, the lines, and what the scopes around find.
-/

namespace Rejoin

universe u

theorem bind_eq_ok {ε α β : Type} {x : Except ε α} {g : α → Except ε β} {b : β} :
    x >>= g = .ok b ↔ ∃ a, x = .ok a ∧ g a = .ok b := by
  cases x with
  | error e => exact iff_of_false nofun nofun
  | ok a =>
    constructor
    · intro h
      exact ⟨a, rfl, h⟩
    · rintro ⟨_, ⟨⟩, h⟩
      exact h

namespace ChangeDir

variable {scope inner : StepScope} {c c' : Controller} {console : Console} {d : Dir}

/-! ### One step -/

def line (d : Dir) : String := "Running in " ++ d.path

/-- What comes before the body: its scope, and the controller once the line is printed. -/
def start (s : ChangeDir) (scope : StepScope) (c : Controller) :
    Except (LookupError Capability) (StepScope × Controller) :=
  (s.prepare scope c.fleet).map fun p => (scope.opened [⟨.dir, p.1⟩], c.println p.2 (line p.1))

/-- A step starts, its body runs, and the outcome is reported to the scope around; or there is an error and nothing
else, whatever the body would have done. -/
theorem run_eq_start {n : Type → Type u} [Monad n] [LawfulMonad n] (s : ChangeDir) (scope : StepScope) (c : Controller)
    (body : Body (StateT Controller n)) : (s.run scope body).run c = match s.start scope c with
      | .error e => pure (.error e, c)
      | .ok (inner, c') => (body inner).run c' >>= fun p => pure (.ok (), p.2.report scope p.1) := by
  have hget : (getThe Controller : StateT Controller n Controller).run c = pure (c, c) := rfl
  have hmodify (g : Controller → Controller) (c : Controller) :
      (modifyThe Controller g : StateT Controller n PUnit).run c = pure ((), g c) := rfl
  rw [run, start, StateT.run_bind, hget, pure_bind]
  cases s.prepare scope c.fleet with
  | error e => rfl
  | ok p =>
    simp only [StateT.run_bind, runBody_forward, hmodify, pure_bind, bind_assoc, StateT.run_pure, Except.map]
    rfl

/-- To check what is needed, and then to require it, comes to requiring the console and then the directory. -/
theorem prepare_eq (s : ChangeDir) (scope : StepScope) (f : Fleet) : s.prepare scope f = (do
    let console ← scope.require f .console
    let here ← scope.require f .dir
    pure (here.child s.path, console)) := by
  rw [prepare, show descriptor.required = [.console, .dir] from rfl, Scope.requireAll_cons, Scope.requireAll_cons]
  cases scope.require f .console with
  | error e => rfl
  | ok console => cases scope.require f .dir <;> rfl

/-- A step prints one line in the scope's console and gives its body the child of the scope's directory, once it has
found both. -/
theorem start_eq (s : ChangeDir) (scope : StepScope) (c : Controller) : s.start scope c = (do
    let console ← scope.require c.fleet .console
    let here ← scope.require c.fleet .dir
    pure (scope.opened [⟨.dir, here.child s.path⟩], c.println console (line (here.child s.path)))) := by
  rw [start, prepare_eq]
  cases scope.require c.fleet .console with
  | error e => rfl
  | ok console => cases scope.require c.fleet .dir <;> rfl

theorem start_eq_ok {s : ChangeDir} : s.start scope c = .ok (inner, c') ↔ ∃ console here,
    scope.get c.fleet .console = .ok (some console) ∧ scope.get c.fleet .dir = .ok (some here) ∧
      inner = scope.opened [⟨.dir, here.child s.path⟩] ∧ c' = c.println console (line (here.child s.path)) := by
  simp only [start_eq, bind_eq_ok, Scope.require_eq_ok]
  constructor
  · rintro ⟨console, hc, here, hd, ⟨⟩⟩
    exact ⟨console, here, hc, hd, rfl, rfl⟩
  · rintro ⟨console, here, hc, hd, rfl, rfl⟩
    exact ⟨console, hc, here, hd, rfl⟩

/-! ### Steps one inside the other -/

/-- A step inside others: what happens before it is started, and its path. -/
structure Level where
  meanwhile : Controller → Controller
  path : String

/-- Starts a step for each level, each one on the scope that the one before gave its body. -/
def descend (scope : StepScope) (c : Controller) (ls : List Level) :
    Except (LookupError Capability) (StepScope × Controller) :=
  ls.foldlM (fun p l => (ChangeDir.mk l.path).start p.1 (l.meanwhile p.2)) (scope, c)

/-- The directory that levels lead to. -/
def place (d : Dir) (ls : List Level) : Dir := ls.foldl (fun d l => d.child l.path) d

/-- What becomes of a controller when a line is printed for each level in order. -/
def announced (console : Console) (c : Controller) (d : Dir) : List Level → Controller
  | [] => c
  | l :: ls =>
    let here := d.child l.path
    announced console ((l.meanwhile c).println console (line here)) here ls

variable {l : Level} {ls ls' : List Level}

theorem node_place (d : Dir) (ls : List Level) : (place d ls).node = d.node ∧ (place d ls).channel = d.channel := by
  induction ls generalizing d with
  | nil => exact ⟨rfl, rfl⟩
  | cons l ls ih => exact ih (d.child l.path)

theorem descend_cons_eq_ok : descend scope c (l :: ls) = .ok (inner, c') ↔ ∃ mid c₁,
    (ChangeDir.mk l.path).start scope (l.meanwhile c) = .ok (mid, c₁) ∧ descend mid c₁ ls = .ok (inner, c') := by
  rw [descend, List.foldlM_cons, bind_eq_ok, Prod.exists]
  rfl

theorem descend_append_eq_ok : descend scope c (ls ++ ls') = .ok (inner, c') ↔
    ∃ mid c₁, descend scope c ls = .ok (mid, c₁) ∧ descend mid c₁ ls' = .ok (inner, c') := by
  rw [descend, List.foldlM_append, bind_eq_ok, Prod.exists]
  rfl

theorem descend_concat_eq_ok : descend scope c (ls ++ [l]) = .ok (inner, c') ↔ ∃ mid c₁,
    descend scope c ls = .ok (mid, c₁) ∧ (ChangeDir.mk l.path).start mid (l.meanwhile c₁) = .ok (inner, c') := by
  rw [descend_append_eq_ok]
  simp only [descend, List.foldlM_cons, List.foldlM_nil, bind_pure]

theorem exists_inside (h : descend scope c ls = .ok (inner, c')) :
    ∃ layers, layers.length = ls.length ∧ inner = scope.inside layers := by
  induction ls using List.reverseRecOn generalizing inner c' with
  | nil =>
    cases h
    exact ⟨[], rfl, rfl⟩
  | append_singleton ls l ih =>
    obtain ⟨mid, c₁, hmid, hstart⟩ := descend_concat_eq_ok.mp h
    obtain ⟨layers, hlen, rfl⟩ := ih hmid
    obtain ⟨_, here, -, -, rfl, -⟩ := start_eq_ok.mp hstart
    refine ⟨[⟨.dir, here.child l.path⟩] :: layers, ?_, rfl⟩
    rw [List.length_cons, List.length_append, hlen, List.length_singleton]

theorem lookups_chain_of_descend (h : descend scope c ls = .ok (inner, c')) (f : Fleet) :
    (inner.chain.map (Scope.lookups f)).drop ls.length = scope.chain.map (Scope.lookups f) := by
  obtain ⟨layers, hlen, rfl⟩ := exists_inside h
  rw [← hlen, Scope.lookups_chain_inside]

/-! ### Where steps lead -/

theorem bound?_opened_dir (scope : StepScope) (d : Dir) :
    Scope.bound? (scope.opened [⟨.dir, d⟩]) .dir = some ⟨.dir, d⟩ := by
  rw [Scope.bound?_opened]
  rfl

/-- From where a directory is bound, the one that the paths lead to is. -/
theorem bound?_of_descend (hd : scope.bound? .dir = some ⟨.dir, d⟩) (h : descend scope c ls = .ok (inner, c')) :
    inner.bound? .dir = some ⟨.dir, place d ls⟩ := by
  induction ls generalizing scope c d with
  | nil =>
    cases h
    exact hd
  | cons l ls ih =>
    obtain ⟨mid, c₁, hstart, hrest⟩ := descend_cons_eq_ok.mp h
    obtain ⟨_, here, -, hhere, rfl, -⟩ := start_eq_ok.mp hstart
    rw [Scope.get_of_bound? hd] at hhere
    cases hhere
    exact ih (bound?_opened_dir scope _) hrest

theorem exists_dir_of_descend (h : descend scope c (l :: ls) = .ok (inner, c')) :
    ∃ d, scope.get (l.meanwhile c).fleet .dir = .ok (some d) ∧
      inner.bound? .dir = some ⟨.dir, place d (l :: ls)⟩ := by
  obtain ⟨mid, c₁, hstart, hrest⟩ := descend_cons_eq_ok.mp h
  obtain ⟨_, here, -, hhere, rfl, -⟩ := start_eq_ok.mp hstart
  have hinner := bound?_of_descend (bound?_opened_dir scope _) hrest
  exact ⟨here, hhere, hinner⟩

/-- Where a console is bound, steps lead on, with a line in that console for each of them. -/
theorem exists_descend (hc : scope.bound? .console = some ⟨.console, console⟩)
    (hd : ∀ l rest, ls = l :: rest → scope.get (l.meanwhile c).fleet .dir = .ok (some d)) :
    ∃ inner, descend scope c ls = .ok (inner, announced console c d ls) := by
  induction ls generalizing scope c d with
  | nil => exact ⟨scope, rfl⟩
  | cons l ls ih =>
    have hstart := (start_eq_ok (s := ⟨l.path⟩)).mpr
      ⟨console, d, Scope.get_of_bound? hc (l.meanwhile c).fleet, hd l ls rfl, rfl, rfl⟩
    have hc' : Scope.bound? (scope.opened [⟨.dir, d.child l.path⟩]) .console = some ⟨.console, console⟩ := by
      rw [Scope.bound?_opened]
      exact hc
    obtain ⟨inner, hinner⟩ := ih hc' fun _ _ _ => Scope.get_of_bound? (bound?_opened_dir scope _) _
    exact ⟨inner, descend_cons_eq_ok.mpr ⟨_, _, hstart, hinner⟩⟩

/-- **Directories inside directories.**  Let steps be started one inside the other, whatever happens between their
starts.  The scope of every body finds the directory that the paths lead to from the one that the first step found, on
the same node and over the same channel, and goes on to find it whatever becomes of the fleet; the step there printed
one line, which names that directory, and changed nothing else.  Whatever is looked up on the scopes around is found as
before.  Where a console is bound there is a line in it for each step in order.  A step starts exactly if its scope
finds a console and a directory: then its body runs and the outcome is reported to the scope around.  Otherwise it fails
as the lookup of the console does, or else as that of the directory, and nothing is printed, nothing changes, and the
body does not run. -/
theorem nested_starts (outer : StepScope) (c : Controller) (ls : List Level) :
    (∀ l rest inner c', ls = l :: rest → descend outer c ls = .ok (inner, c') →
      ∃ d, outer.get (l.meanwhile c).fleet .dir = .ok (some d) ∧ (∀ f, inner.get f .dir = .ok (some (place d ls))) ∧
        (place d ls).node = d.node ∧ (place d ls).channel = d.channel ∧
        ∃ before last around c₁ console, ls = before ++ [last] ∧ descend outer c before = .ok (around, c₁) ∧
          around.get (last.meanwhile c₁).fleet .console = .ok (some console) ∧
          c' = (last.meanwhile c₁).println console (line (place d ls)) ∧ c'.fleet = (last.meanwhile c₁).fleet) ∧
      (∀ before later around c₁ inner c', ls = before ++ later → descend outer c before = .ok (around, c₁) →
        descend outer c ls = .ok (inner, c') →
        ∀ f, (inner.chain.map (Scope.lookups f)).drop later.length = around.chain.map (Scope.lookups f)) ∧
      (∀ console d, outer.bound? .console = some ⟨.console, console⟩ →
        (∀ l rest, ls = l :: rest → outer.get (l.meanwhile c).fleet .dir = .ok (some d)) →
        ∃ inner, descend outer c ls = .ok (inner, announced console c d ls)) ∧
      (∀ (s : ChangeDir) (scope : StepScope) now, s.start scope now = (do
        let console ← scope.require now.fleet .console
        let here ← scope.require now.fleet .dir
        pure (scope.opened [⟨.dir, here.child s.path⟩], now.println console (line (here.child s.path))))) ∧
      ∀ {n : Type → Type u} [Monad n] [LawfulMonad n] (s : ChangeDir) (scope : StepScope) now
        (body : Body (StateT Controller n)), (s.run scope body).run now = match s.start scope now with
          | .error e => pure (.error e, now)
          | .ok (inner, now') => (body inner).run now' >>= fun p => pure (.ok (), p.2.report scope p.1) := by
  refine ⟨?_, ?_, ?_, start_eq, run_eq_start⟩
  · rintro l rest inner c' rfl h
    obtain ⟨d, hd, hinner⟩ := exists_dir_of_descend h
    obtain ⟨hnode, hchannel⟩ := node_place d (l :: rest)
    refine ⟨d, hd, fun f => Scope.get_of_bound? hinner f, hnode, hchannel, ?_⟩
    obtain ⟨before, last, hls⟩ : ∃ before last, l :: rest = before ++ [last] :=
      ⟨_, _, (List.dropLast_append_getLast (List.cons_ne_nil l rest)).symm⟩
    rw [hls] at h hinner ⊢
    obtain ⟨around, c₁, hbefore, hstart⟩ := descend_concat_eq_ok.mp h
    obtain ⟨console, here, hc, -, rfl, rfl⟩ := start_eq_ok.mp hstart
    have hplace : here.child last.path = place d (before ++ [last]) := by
      rw [bound?_opened_dir] at hinner
      simpa using hinner
    exact ⟨before, last, around, c₁, console, rfl, hbefore, hc, by rw [← hplace], Controller.fleet_println _ _ _⟩
  · rintro before later around c₁ inner c' rfl hbefore h f
    obtain ⟨mid, c₂, hmid, hlater⟩ := descend_append_eq_ok.mp h
    rw [hbefore] at hmid
    cases hmid
    exact lookups_chain_of_descend hlater f
  · intro console d hc hd
    exact exists_descend hc hd

example :
    let outer : StepScope := .root [] [⟨.console, .transcript 0⟩, ⟨.dir, ⟨"w", "/ws", 2⟩⟩] 0
    let c : Controller := { Controller.fresh with transcripts := [{}] }
    (descend outer c [⟨id, "./a/"⟩, ⟨id, "b"⟩]).map (fun p => (p.1.bound? .dir, (p.2.transcript 0).lines)) =
      .ok (some ⟨.dir, ⟨"w", "/ws/a/b", 2⟩⟩, ["Running in /ws/a", "Running in /ws/a/b"]) := rfl

end ChangeDir

end Rejoin
