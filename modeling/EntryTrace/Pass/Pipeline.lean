import EntryTrace.Tagging

/-!
# Passes and pipelines

A pass changes a module and says whether it may have done so. A pipeline runs passes one after
the other.
-/

namespace EntryTrace

/-- A change of modules under a name. It answers the new module and whether that may differ from
the old one; `true` is allowed even if it does not. -/
structure Pass (m : Type → Type) where
  name : String
  run : Module → m (Bool × Module)

/-- Passes in the order in which they run. -/
structure Pipeline (m : Type → Type) where
  passes : List (Pass m) := []

namespace Pipeline

variable {m : Type → Type}

instance : Inhabited (Pipeline m) := ⟨{}⟩

def names (pipeline : Pipeline m) : List String := pipeline.passes.map Pass.name

def describe (pipeline : Pipeline m) : String := bracketed (pipeline.names.map Literal.ofString)

variable [Monad m] [Journal m]

def add (pipeline : Pipeline m) (pass : Pass m) : m (Pipeline m) := do
  note .debug fun _ => "pass manager: adding " ++ pass.name
  pure ⟨pipeline.passes ++ [pass]⟩

/-- Runs passes in order and answers whether one of them, or what came before, changed the
module. -/
def runPasses (modified : Bool) (module : Module) : List (Pass m) → m (Bool × Module)
  | [] => pure (modified, module)
  | pass :: rest => do
    note .debug fun _ => "pass manager: running " ++ pass.name
    let (changed, module) ← pass.run module
    notePrinted .trace fun _ => do
      pure ("pass manager: " ++ pass.name ++ " returned modified=" ++ toString changed ++ ":\n"
        ++ (← module.render false))
    runPasses (modified || changed) module rest

/-- Runs every pass once, and answers whether one of them reported a change. -/
def run (pipeline : Pipeline m) (module : Module) : m (Bool × Module) :=
  runPasses false module pipeline.passes

end Pipeline

section Tagging

variable {m : Type → Type} [Monad m] [MonadExceptOf Fault m] [Journal m]

/-- Tags all helpers, and always reports a change. -/
def tagPass : Pass m where
  name := "TagHelpersPass"
  run module := do
    let module ← tagHelpers module
    pure (true, module)

end Tagging

end EntryTrace
