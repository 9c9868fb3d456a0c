import EntryTrace.Command.Execute

/-!
# Commands in a directory

The effect of a command line on a directory of files.
-/

namespace EntryTrace.Command

/-- The files of a directory without subdirectories, by name. -/
structure Directory where
  files : List (String × ByteArray) := []

namespace Directory

def content? (dir : Directory) (name : String) : Option ByteArray := dir.files.lookup name

def put (dir : Directory) (name : String) (content : ByteArray) : Directory :=
  ⟨(name, content) :: dir.files.filter (·.1 != name)⟩

/-- What a path leads to. -/
inductive Place
  | nowhere
  | directory
  /-- The place of a file of this directory, whether it is there or not. -/
  | file (name : String)
  /-- The place of a file of another directory. None is there to be read, and one that is written
  there is out of sight. -/
  | elsewhere
  /-- The file that is always empty and forgets what is written to it. -/
  | void
  /-- The place of a file with a slash after it, which only the path of a directory has. -/
  | slashed (present : Bool)
  /-- A file is used as if it were a directory. -/
  | belowFile

/-- The parts of a path between slashes. -/
def parts (path : String) : List String :=
  (split [] path.toList).map String.ofList
where
  split (part : List Char) : List Char → List (List Char)
    | [] => [part.reverse]
    | c :: rest => if c == '/' then part.reverse :: split [] rest else split (c :: part) rest

/-- Does a part of a path stay where it is? -/
def staysPut (part : String) : Bool := part == "" || part == "."

/-- Follows the parts of a path from a directory outside of this one. Those above it are
directories, and above the topmost comes that one again; nothing else is known of them. -/
def followOutside (parts : List String) : Place :=
  match parts.dropWhile fun part => staysPut part || part == ".." with
  | [] => .directory
  | [_] => .elsewhere
  | _ :: rest => if rest.all (· == "") then .slashed false else .nowhere

/-- Directories that the topmost one holds on every system. -/
def topDirectories : List String :=
  ["bin", "dev", "etc", "lib", "proc", "sys", "tmp", "usr", "var"]

/-- Follows the parts of a path from the topmost directory. -/
def followFromTop (parts : List String) : Place :=
  match parts.dropWhile fun part => staysPut part || part == ".." with
  | ["dev", "null"] => .void
  | name :: rest => followOutside (if topDirectories.contains name then rest else name :: rest)
  | [] => .directory

/-- Follows the parts of a path from this directory. -/
def followInside (dir : Directory) (parts : List String) : Place :=
  match parts.dropWhile staysPut with
  | [] => .directory
  | ".." :: rest => followOutside rest
  | [name] => .file name
  | name :: rest =>
    let present := (dir.content? name).isSome
    if rest.all (· == "") then .slashed present
    else if present then .belowFile
    else .nowhere

/-- Follows a path, from the top if it starts with a slash. An empty path leads nowhere. -/
def follow (dir : Directory) (path : String) : Place :=
  match path.isEmpty, parts path with
  | true, _ => .nowhere
  | false, "" :: rest => followFromTop rest
  | false, parts => dir.followInside parts

/-- The text of a file. -/
def read (dir : Directory) (path : String) : Except FileError String :=
  match dir.follow path with
  | .nowhere | .elsewhere | .slashed false => .error .notFound
  | .directory => .error .isDirectory
  | .belowFile | .slashed true => .error .notDirectory
  | .void => .ok ""
  | .file name =>
    match dir.content? name with
    | none => .error .notFound
    | some bytes =>
      match String.fromUTF8? bytes with
      | some text => .ok text
      | none => .error .notUtf8

/-- Writes a file, whether it was there or not. -/
def write (dir : Directory) (path text : String) : Except FileError Directory :=
  match dir.follow path with
  | .nowhere => .error .notFound
  | .directory | .slashed _ => .error .isDirectory
  | .belowFile => .error .notDirectory
  | .elsewhere | .void => .ok dir
  | .file name => .ok (dir.put name text.toUTF8)

end Directory

/-- How a command line ends. -/
inductive Conclusion
  /-- The command line is not well-formed. -/
  | usage
  | finished (stdout : String) (failure? : Option Failure)

namespace Conclusion

def exitCode : Conclusion → Nat
  | .usage => 1
  | .finished _ none => 0
  | .finished _ (some _) => 1

def stdout : Conclusion → String
  | .usage => ""
  | .finished stdout _ => stdout

def failure? : Conclusion → Option Failure
  | .usage => none
  | .finished _ failure? => failure?

end Conclusion

/-- Carries out a command line in a directory. -/
@[specialize] def execute {m : Type → Type} [Monad m] [MonadExceptOf Fault m] [Journal m]
    (args : List String) (dir : Directory) : m (Conclusion × Directory) := do
  match Options.ofArgs? args with
  | none => pure (.usage, dir)
  | some options =>
    let content :=
      match options.action.input? with
      | some file => dir.read file
      | none => .ok ""
    let answer ← options.action.perform content
    match answer.result with
    | .error failure => pure (.finished answer.stdout (some failure), dir)
    | .ok none => pure (.finished answer.stdout none, dir)
    | .ok (some (path, text)) =>
      match dir.write path text with
      | .error cause => pure (.finished answer.stdout (some (.writing path cause)), dir)
      | .ok dir => pure (.finished answer.stdout none, dir)

end EntryTrace.Command
