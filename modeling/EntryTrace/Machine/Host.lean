import EntryTrace.Machine.Constant
import EntryTrace.Tagging

/-!
# Hosts

A host answers the calls of imported functions. It has a state of its own, and may refuse.
-/

namespace EntryTrace

/-- Answers the call of an imported function of a module by its name: the returned constants,
or why there are none, and the host's next state. -/
abbrev Host (m : Type → Type) (σ : Type) :=
  Module → String → List Constant → σ → m (Except String (List Constant) × σ)

namespace Host

variable {m : Type → Type} [Monad m] [MonadExceptOf Fault m] [Journal m] {σ : Type}

/-- Collects the tags that are reported and answers each with its length in bytes. It knows no
other function. -/
def tagRecorder : Host m (Array String) := fun module name args tags => do
  if name = tagCallee then
    match args with
    | [.ptr str] =>
      let tag ← module.string str
      note .debug fun _ => "trace recorder: " ++ tag
      pure (.ok [.i32 (UInt32.ofNat tag.utf8ByteSize)], tags.push tag)
    | _ => pure (.error (tagCallee ++ ": bad arguments " ++ describeConstants args), tags)
  else
    pure (.error ("no host implementation of `" ++ name ++ "`"), tags)

/-- Appends each reported tag to a text as a line of its own. It knows no other function. -/
def tagPrinter : Host m String := fun module name args output => do
  match args with
  | [.ptr str] =>
    if name = tagCallee then
      let tag ← module.string str
      pure (.ok [.i32 (UInt32.ofNat tag.utf8ByteSize)], output ++ tag ++ "\n")
    else
      pure (.error (unknown name args), output)
  | _ => pure (.error (unknown name args), output)
where
  unknown (name : String) (args : List Constant) : String :=
    "no host implementation of `" ++ name ++ "` for args " ++ describeConstants args

/-- Gives fixed answers for some names, whatever the arguments, and leaves the others to
another host. -/
def scripted (script : List (String × Except String (List Constant))) (host : Host m σ) :
    Host m σ := fun module name args state =>
  match script.lookup name with
  | some answer => pure (answer, state)
  | none => host module name args state

/-- The call of an imported function. -/
structure Call where
  name : String
  args : List Constant
  deriving DecidableEq

/-- Remembers every call before another host answers it. -/
def recording (host : Host m σ) : Host m (Array Call × σ) :=
  fun module name args (calls, state) => do
    let (answer, state) ← host module name args state
    pure (answer, calls.push ⟨name, args⟩, state)

end Host

end EntryTrace
