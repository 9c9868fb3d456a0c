/-!
# Command-line arguments

An argument that starts with a dash names options, any other is a value of an option that still
takes one or a positional argument; after `--` all are positional. An option that may be given
several times takes all values that follow it.
-/

namespace EntryTrace.Command

/-- How often an option may be given, and whether it takes values. -/
inductive Arity
  | flag
  | single
  | repeated
  deriving DecidableEq

structure Opt where
  long : String
  short : Option Char
  arity : Arity
  deriving DecidableEq

def Opt.takesValue (o : Opt) : Bool := o.arity != .flag

/-- What was given on a command line. -/
structure Given where
  /-- The options, once for each use. -/
  uses : List Opt := []
  /-- The values with their options. -/
  values : List (Opt × String) := []
  positional : List String := []

namespace Given

def use (given : Given) (o : Opt) (value? : Option String) : Given :=
  { given with
    uses := given.uses ++ [o]
    values := given.values ++ (value?.map fun value => (o, value)).toList }

def valuesOf (given : Given) (o : Opt) : List String :=
  (given.values.filter (·.1 == o)).map Prod.snd

def has (given : Given) (o : Opt) : Bool := given.uses.contains o

/-- Only a repeated option is given twice, and an option that takes values has one. -/
def wellFormed (given : Given) : Bool :=
  given.uses.all fun o =>
    (o.arity == .repeated || given.uses.count o == 1)
      && (!o.takesValue || !(given.valuesOf o).isEmpty)

end Given

/-- Equals signs before an attached value do not belong to it. -/
def attachedValue (cs : List Char) : String := String.ofList (cs.dropWhile (· == '='))

/-- The options that the letters after one dash name. What follows the letter of an option with
values is its value. Answers the option that still waits for one, if any. -/
def readShort (opts : List Opt) (given : Given) : List Char → Option (Given × Option Opt)
  | [] => some (given, none)
  | c :: rest =>
    match opts.find? (·.short == some c) with
    | none => none
    | some o =>
      if !o.takesValue then readShort opts (given.use o none) rest
      else if rest.isEmpty then some (given.use o none, some o)
      else some (given.use o (some (attachedValue rest)), none)

/-- The option that a word after two dashes names; after an equals sign follows its value, which
a flag ignores. -/
def readLong (opts : List Opt) (given : Given) (cs : List Char) : Option (Given × Option Opt) :=
  let name := String.ofList (cs.takeWhile (· != '='))
  let value? := if cs.contains '=' then some (attachedValue (cs.dropWhile (· != '='))) else none
  match opts.find? (·.long == name) with
  | none => none
  | some o =>
    if !o.takesValue then some (given.use o none, none)
    else
      match value? with
      | some value => some (given.use o (some value), none)
      | none => some (given.use o none, some o)

/-- The options that one argument names, if it names any: all but a single dash and what does not
start with a dash. -/
def readDashed (opts : List Opt) (given : Given) (arg : String) :
    Option (Option (Given × Option Opt)) :=
  match arg.toList with
  | '-' :: '-' :: rest => some (readLong opts given (rest.dropWhile (· == '-')))
  | '-' :: c :: rest => some (readShort opts given (c :: rest))
  | _ => none

/-- Reads arguments; `pending` is the option that takes the next value. -/
def readArgs (opts : List Opt) (given : Given) (pending : Option Opt) :
    List String → Option Given
  | [] => some given
  | arg :: rest =>
    if arg == "--" then some { given with positional := given.positional ++ rest }
    else
      match readDashed opts given arg with
      | some none => none
      | some (some (given, pending)) => readArgs opts given pending rest
      | none =>
        match pending with
        | some o =>
          readArgs opts { given with values := given.values ++ [(o, arg)] }
            (if o.arity == .repeated then some o else none) rest
        | none => readArgs opts { given with positional := given.positional ++ [arg] } none rest

/-- Reads the options before the first other argument, which is answered with all that follow. -/
def readLeading (opts : List Opt) (given : Given) :
    List String → Option (Given × String × List String)
  | [] => none
  | arg :: rest =>
    if arg == "--" then none
    else
      match readDashed opts given arg with
      | some none => none
      | some (some (given, _)) => readLeading opts given rest
      | none => some (given, arg, rest)

/-- A number in decimal digits. -/
def readNat (cs : List Char) : Option Nat :=
  if cs.isEmpty || !cs.all Char.isDigit then none
  else some (cs.foldl (fun n c => n * 10 + (c.toNat - '0'.toNat)) 0)

/-- An integer of 64 bits, with a sign or without. -/
def readInt64 (text : String) : Option Int :=
  let value? : Option Int :=
    match text.toList with
    | '-' :: digits => (readNat digits).map fun n => -(n : Int)
    | '+' :: digits => (readNat digits).map Int.ofNat
    | digits => (readNat digits).map Int.ofNat
  value?.filter fun n => decide (Int64.minValue.toInt ≤ n) && decide (n ≤ Int64.maxValue.toInt)

/-- A natural number of 64 bits; a plus sign may stand in front. -/
def readNat64 (text : String) : Option Nat :=
  let value? :=
    match text.toList with
    | '+' :: digits => readNat digits
    | digits => readNat digits
  value?.filter (· < UInt64.size)

/-- What the program is asked to do. -/
inductive Action
  /-- Reads a module and prints it. -/
  | printModule (file : String)
  /-- Runs passes over a module. -/
  | optimize (file : String) (passes : List String) (standard : Bool) (output : Option String)
  | listPasses
  /-- Calls a function. -/
  | run (file func : String) (args : List Int) (tag : Bool) (fuel : Option Nat)
  deriving DecidableEq

structure Options where
  debug : Bool
  action : Action
  deriving DecidableEq

namespace Options

def debugOpt : Opt := ⟨"debug", some 'd', .flag⟩
def passOpt : Opt := ⟨"pass", none, .repeated⟩
def standardOpt : Opt := ⟨"standard", none, .flag⟩
def outputOpt : Opt := ⟨"output", some 'o', .single⟩
def tagOpt : Opt := ⟨"tag", none, .flag⟩
def fuelOpt : Opt := ⟨"fuel", none, .single⟩

/-- The arguments after the name of an action, read with its options. -/
def readFor (opts : List Opt) (args : List String) : Option Given :=
  (readArgs opts {} none args).filter Given.wellFormed

def readOptimize (given : Given) : Option Action :=
  match given.positional with
  | [file] =>
    some (.optimize file (given.valuesOf passOpt) (given.has standardOpt)
      (given.valuesOf outputOpt).head?)
  | _ => none

def readRun (given : Given) : Option Action := do
  match given.positional with
  | file :: func :: args =>
    let args ← args.mapM readInt64
    let fuel ← (given.valuesOf fuelOpt).mapM readNat64
    some (.run file func args (given.has tagOpt) fuel.head?)
  | _ => none

/-- The action of a name with its arguments. -/
def readAction (name : String) (args : List String) : Option Action := do
  match name with
  | "print-ir" =>
    match (← readFor [] args).positional with
    | [file] => some (.printModule file)
    | _ => none
  | "opt" => readOptimize (← readFor [passOpt, standardOpt, outputOpt] args)
  | "list-passes" =>
    match (← readFor [] args).positional with
    | [] => some .listPasses
    | _ => none
  | "run" => readRun (← readFor [tagOpt, fuelOpt] args)
  | _ => none

/-- What a command line asks for, if it is well-formed. -/
def ofArgs? (args : List String) : Option Options := do
  let (given, name, args) ← readLeading [debugOpt] {} args
  if given.wellFormed then
    let action ← readAction name args
    some ⟨given.has debugOpt, action⟩
  else
    none

end Options

end EntryTrace.Command
