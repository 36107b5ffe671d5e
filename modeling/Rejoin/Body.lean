import Rejoin.Controller

/-!
# Bodies

The body of a step runs in a scope of its own inside the step's scope, and its outcome goes to a callback.
Running (`runBody`) is stated over any monad that carries a controller, so that who runs a body can keep a record of
it beside.
-/

namespace Rejoin

universe u

/-- A body: what it does in its scope, and how it ends. -/
abbrev Body (m : Type → Type u) := StepScope → m Outcome

/-- What is told about a body: that it starts, and how it ended, each time with its scope. -/
structure Callback (m : Type → Type u) where
  onStart : StepScope → m Unit
  onSuccess : StepScope → Json → m Unit
  onFailure : StepScope → Failure → m Unit

namespace Callback

/-- Hands an outcome to the callback. -/
def finish {m : Type → Type u} (cb : Callback m) (scope : StepScope) : Outcome → m Unit
  | .ok v => cb.onSuccess scope v
  | .error f => cb.onFailure scope f

/-- Reports the outcome of a body to the scope around it. -/
def forward {m : Type → Type u} [Monad m] [MonadStateOf Controller m] (outer : StepScope) : Callback m where
  onStart _ := pure ()
  onSuccess _ v := modifyThe Controller (·.report outer (.ok v))
  onFailure _ f := modifyThe Controller (·.report outer (.error f))

end Callback

/-- Runs a body inside a scope, with values of its own; without a callback its outcome is dropped. -/
def runBody {m : Type → Type u} [Monad m] (outer : StepScope) (values : Layer Capability.Carrier)
    (callback : Option (Callback m)) (body : Body m) : m Unit := do
  let scope := outer.opened values
  match callback with
  | none => discard (body scope)
  | some cb =>
    cb.onStart scope
    let outcome ← body scope
    cb.finish scope outcome

end Rejoin
