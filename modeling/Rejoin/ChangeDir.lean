import Rejoin.Body

/-!
# The step `dir`

Its body runs with another current directory, on which no lease is taken.  What it needs is looked up before
anything is printed or run (`ChangeDir.prepare`).
-/

namespace Rejoin

/-- The step `dir`, with the path that it changes to. -/
structure ChangeDir where
  path : String
deriving DecidableEq, Repr

namespace ChangeDir

/-- It takes a body, needs a console and a directory, and gives its body another directory. -/
def descriptor : Descriptor where
  function := "dir"
  title := "Change current directory"
  takesBody := true
  required := [.console, .dir]
  provided := [.dir]

/-- What the step needs from its scope: the directory of its body, and the console. -/
def prepare (s : ChangeDir) (scope : StepScope) (f : Fleet) : Except (LookupError Capability) (Dir × Console) := do
  scope.requireAll f descriptor.required
  let here ← scope.require f .dir
  let console ← scope.require f .console
  pure (Dir.child here s.path, console)

/-- Runs the body in the child directory, after a line that names it; the outcome goes to the scope around. -/
def run {m : Type → Type u} [Monad m] [MonadStateOf Controller m] (s : ChangeDir) (scope : StepScope)
    (body : Body m) : m (Except (LookupError Capability) Unit) := do
  match s.prepare scope (← getThe Controller).fleet with
  | .error e => pure (.error e)
  | .ok (dir, console) =>
    modifyThe Controller (·.println console ("Running in " ++ dir.path))
    runBody scope (Layer.ofList [⟨.dir, dir⟩]) (some (.forward scope)) body
    pure (.ok ())

end ChangeDir

end Rejoin
