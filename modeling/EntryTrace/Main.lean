import EntryTrace.Command.Directory

/-!
# The command line program

Reads the input of a command from the file system, writes its output there, and prints what the
command says. Notes go to the error stream if the command line asks for them.
-/

namespace EntryTrace.Command

/-- The reason for a failed access to a file. -/
def fileErrorOf : IO.Error → FileError
  | .noFileOrDirectory .. => .notFound
  | .inappropriateType .. => .isDirectory
  | error => .other (toString error)

/-- The text of a file. -/
def readText (file : String) : IO (Except FileError String) := do
  try
    let bytes ← IO.FS.readBinFile file
    match String.fromUTF8? bytes with
    | some text => return .ok text
    | none => return .error .notUtf8
  catch error => return .error (fileErrorOf error)

/-- Writes the file of an answer, if it has one, and answers the failure that remains. -/
def settle (answer : Answer) : IO (Option Failure) := do
  match answer.result with
  | .error failure => return some failure
  | .ok none => return none
  | .ok (some (path, text)) =>
    try
      IO.FS.writeFile path text
      return none
    catch error => return some (.writing path (fileErrorOf error))

/-- Carries out well-formed arguments and answers the exit code. -/
def carryOut (options : Options) : IO UInt32 := do
  let content ← match options.action.input? with
    | some file => readText file
    | none => pure (.ok "")
  let level := if options.debug then some Level.debug else none
  let (outcome, records) := Recorded.perform (options.action.perform content) level
  for record in records do
    IO.eprintln ("[" ++ record.level.name ++ "] " ++ record.message)
  match outcome with
  | .error fault =>
    IO.eprintln ((fault.message?).getD "internal error")
    return 101
  | .ok answer =>
    IO.print answer.stdout
    match ← settle answer with
    | none => return 0
    | some failure =>
      IO.eprint failure.report
      return 1

end EntryTrace.Command

def main (args : List String) : IO UInt32 := do
  match EntryTrace.Command.Options.ofArgs? args with
  | some options => EntryTrace.Command.carryOut options
  | none =>
    IO.eprintln "The arguments are not well-formed."
    return 1
