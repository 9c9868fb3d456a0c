import EntryTrace.Command.Arguments
import EntryTrace.Machine.Run
import EntryTrace.Pass.Registry
import EntryTrace.Read

/-!
# Carrying out commands

A command reads at most one file, at its start, and writes at most one, at its end. What happens
in between is a function of the content of the one and answers that of the other.
-/

namespace EntryTrace.Command

/-- Why a file could not be read or written. -/
inductive FileError
  | notFound
  | isDirectory
  | notDirectory
  | notUtf8
  /-- Any other reason, in the words of the system. -/
  | other (message : String)
  deriving DecidableEq

def FileError.message : FileError → String
  | .notFound => "No such file or directory (os error 2)"
  | .isDirectory => "Is a directory (os error 21)"
  | .notDirectory => "Not a directory (os error 20)"
  | .notUtf8 => "stream did not contain valid UTF-8"
  | .other message => message

/-- Why a command failed. -/
inductive Failure
  | reading (file : String) (cause : FileError)
  | parsing (file : String) (cause : SourceError)
  | registry (cause : RegistryError)
  | noPasses
  | noFunction (name : String)
  | argumentCount (func : String) (expected found : Nat)
  | pointerArgument
  | call (cause : CallError)
  | execution (outcome : Outcome)
  | writing (file : String) (cause : FileError)
  deriving DecidableEq

namespace Failure

def message : Failure → String
  | .reading file _ => "reading " ++ file
  | .parsing file _ => "parsing " ++ file
  | .registry cause => cause.message
  | .noPasses => "no passes given; use --pass NAME or --standard"
  | .noFunction name => "no function named `" ++ name ++ "`"
  | .argumentCount func expected found =>
    "`" ++ func ++ "` takes " ++ toString expected ++ " argument(s), given " ++ toString found
  | .pointerArgument => "cannot pass a pointer argument from the command line"
  | .call cause => cause.message
  | .execution outcome => "execution failed: " ++ outcome.describe
  | .writing file _ => "writing " ++ file

def cause? : Failure → Option String
  | .reading _ cause => some cause.message
  | .parsing _ cause => some cause.message
  | .writing _ cause => some cause.message
  | _ => none

/-- A failure as it is shown to the user; every line of the cause is indented. -/
def report (failure : Failure) : String :=
  "Error: " ++ failure.message ++ "\n" ++
    match failure.cause? with
    | none => ""
    | some cause =>
      "\nCaused by:\n    " ++ String.ofList (cause.toList.flatMap indentAfterBreak) ++ "\n"
where
  indentAfterBreak (c : Char) : List Char := if c == '\n' then "\n    ".toList else [c]

end Failure

/-- What a command comes to: what it prints, and why it failed or the file that it wants
written. -/
structure Answer where
  stdout : String := ""
  result : Except Failure (Option (String × String)) := .ok none

/-- A failure after printing `stdout`. -/
def Answer.failedAfter (stdout : String) (failure : Failure) : Answer := ⟨stdout, .error failure⟩

def Answer.failed (failure : Failure) : Answer := .failedAfter "" failure

/-- The file that an action starts from. -/
def Action.input? : Action → Option String
  | .printModule file => some file
  | .optimize file .. => some file
  | .listPasses => none
  | .run file .. => some file

section Carrying

variable {m : Type → Type} [Monad m] [MonadExceptOf Fault m] [Journal m]

/-- The module in a file of the given content. -/
@[specialize] def loadModule (file : String) (content : Except FileError String) :
    m (Except Failure Module) := do
  match content with
  | .error cause => pure (.error (.reading file cause))
  | .ok text =>
    note .debug fun _ => "Loaded " ++ toString text.utf8ByteSize ++ " bytes of IR text"
    match ← Module.ofText text with
    | .error cause => pure (.error (.parsing file cause))
    | .ok module => pure (.ok module)

/-- The registry that all commands start from. -/
@[specialize] def toolRegistry : m (Except RegistryError (Registry m)) := do
  let (result, registry) ← ({} : Registry m).load tagPlugin
  pure (result.map fun _ => registry)

/-- Runs the named passes and then, if wanted, the standard pipeline. -/
@[specialize] def optimizeModule (module : Module) (passes : List String) (standard : Bool) :
    m (Except Failure Module) := do
  match ← toolRegistry with
  | .error cause => pure (.error (.registry cause))
  | .ok registry =>
    match ← registry.pipeline passes with
    | .error cause => pure (.error (.registry cause))
    | .ok pipeline =>
      if !standard && passes.isEmpty then
        pure (.error .noPasses)
      else
        let standardPipeline ← if standard then registry.standardPipeline else pure {}
        let (modified, module) ← pipeline.run module
        let (standardModified, module) ← standardPipeline.run module
        note .debug fun _ => "pipeline modified=" ++ toString (modified || standardModified)
        pure (.ok module)

/-- The constants that integers are as arguments of the given types; no integer is a pointer. -/
def constantsOf : List ValueType → List Int → Option (List Constant)
  | .i32 :: types, n :: rest => (constantsOf types rest).map (.i32 (UInt32.ofInt n) :: ·)
  | .i64 :: types, n :: rest => (constantsOf types rest).map (.i64 (UInt64.ofInt n) :: ·)
  | .ptr :: _, _ :: _ => none
  | _, _ => some []

/-- Calls a function and prints its result after the tags that were reported. -/
@[specialize] def runModule (module : Module) (func : String) (args : List Int)
    (fuel : Option Nat) : m Answer := do
  match module.funcNamed? func with
  | none => pure (.failed (.noFunction func))
  | some entity =>
    let type ← module.funcType entity
    if type.params.length ≠ args.length then
      pure (.failed (.argumentCount func type.params.length args.length))
    else
      match constantsOf type.params args with
      | none => pure (.failed .pointerArgument)
      | some constants =>
        let start : Run String := ⟨⟨fuel.getD maxFuel, 0⟩, ""⟩
        match ← module.callNamed Host.tagPrinter func constants start with
        | .error cause => pure (.failed (.call cause))
        | .ok (.returned values, run) =>
          pure ⟨run.host ++ "=> " ++ commaSeparated (values.map Constant.text) ++ "\n", .ok none⟩
        | .ok (outcome, run) => pure (.failedAfter run.host (.execution outcome))

/-- A pass as it is listed: its name in twenty columns, and what it does. -/
def listing (info : PassInfo m) : String :=
  info.name ++ String.ofList (List.replicate (20 - info.name.length) ' ') ++ " "
    ++ info.description ++ "\n"

/-- Carries out an action on the content of its file. -/
@[specialize] def Action.perform (action : Action) (content : Except FileError String) :
    m Answer := do
  match action with
  | .printModule file =>
    match ← loadModule file content with
    | .error failure => pure (.failed failure)
    | .ok module =>
      let text ← liftFault (module.render false)
      pure ⟨text, .ok none⟩
  | .optimize file passes standard output =>
    match ← loadModule file content with
    | .error failure => pure (.failed failure)
    | .ok module =>
      match ← optimizeModule module passes standard with
      | .error failure => pure (.failed failure)
      | .ok module =>
        let text ← liftFault (module.render false)
        match output with
        | some path => pure ⟨"", .ok (some (path, text))⟩
        | none => pure ⟨text, .ok none⟩
  | .listPasses =>
    match ← toolRegistry with
    | .error cause => pure (.failed (.registry cause))
    | .ok registry => pure ⟨String.join (registry.passes.map listing), .ok none⟩
  | .run file func args tag fuel =>
    match ← loadModule file content with
    | .error failure => pure (.failed failure)
    | .ok module =>
      let module ← if tag then tagHelpers module else pure module
      runModule module func args fuel

end Carrying

end EntryTrace.Command
