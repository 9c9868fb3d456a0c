import EntryTrace.Machine.Host

/-!
# Running functions

A call of a function with a body makes a frame, which holds the constants computed so far, and
runs block after block until one returns. Each block uses one unit of fuel, over all calls, and
calls nest up to a fixed depth.
-/

namespace EntryTrace

/-- How many bodies may be active at once. -/
def maxDepth : Nat := 256

/-- The most fuel there can be. -/
def maxFuel : Nat := UInt64.size - 1

/-- What a run may still use. -/
structure Budget where
  /-- How many more blocks may be run. -/
  fuel : Nat := maxFuel
  /-- How many bodies are active. -/
  depth : Nat := 0
  deriving DecidableEq

/-- How the call of a function ends. -/
inductive Outcome
  | returned (values : List Constant)
  /-- A block could not go on, or calls were nested too deeply. -/
  | trapped (func : Func) (block : Block)
  | outOfFuel
  /-- The host did not answer the call of an imported function. -/
  | refused (func : Func) (message : String)
  deriving DecidableEq

namespace Outcome

def describe : Outcome → String
  | .returned values => "Ok(" ++ describeConstants values ++ ")"
  | .trapped func block => "Trap(" ++ commaSeparated [func.text, block.text] ++ ")"
  | .outOfFuel => "OutOfFuel"
  | .refused func message =>
    "HostError(" ++ commaSeparated [func.text, Literal.ofString message] ++ ")"

/-- The returned values, or a message that none were returned. -/
def values : Outcome → Except String (List Constant)
  | .returned values => .ok values
  | other => .error ("Bad InterpResult: " ++ other.describe)

end Outcome

/-- One activation of a body. -/
structure Frame where
  func : Func
  block : Block
  constants : SideTable .value (Option Constant) := {}

namespace Frame

variable {m : Type → Type} [Monad m] [MonadExceptOf Fault m] [Journal m]

/-- The constant of a value, unless what defines the value has not been run. -/
@[specialize] def read (frame : Frame) (body : Body) (value : Value) : m (Option Constant) := do
  match ← body.values.get value with
  | .strRef str => pure (some (.ptr str))
  | _ =>
    match frame.constants.get value with
    | some c => pure (some c)
    | none =>
      note .debug fun _ => "use of undefined value " ++ value.text ++ " in " ++ frame.func.text
      pure none

/-- The constants of values, if all have one. -/
@[specialize] def readAll (frame : Frame) (body : Body) : List Value → m (Option (List Constant))
  | [] => pure (some [])
  | value :: rest => do
    match ← frame.read body value with
    | none => pure none
    | some c =>
      match ← readAll frame body rest with
      | none => pure none
      | some cs => pure (some (c :: cs))

def write (frame : Frame) (value : Value) (c : Constant) : Frame :=
  { frame with constants := frame.constants.set value (some c) }

/-- Keeps the result of an instruction that has one. -/
def keep (frame : Frame) (inst : Value) : Option Constant → Frame
  | some c => frame.write inst c
  | none => frame

/-- Gives constants to values, pair by pair. -/
def writeAll (frame : Frame) : List Value → List Constant → Frame
  | value :: values, c :: cs => (frame.write value c).writeAll values cs
  | _, _ => frame

/-- The end of a frame that cannot go on. -/
def trap (frame : Frame) : Outcome := .trapped frame.func frame.block

/-- Goes on at a target. All arguments are read before any parameter is written, since one
parameter may be the argument for another. -/
@[specialize] def follow (frame : Frame) (body : Body) (target : Target) :
    m (Except Outcome Frame) := do
  match ← frame.readAll body target.args with
  | none => pure (.error frame.trap)
  | some args =>
    note .trace fun _ => "taking target " ++ target.block.text ++ " with args "
      ++ describeConstants args
    let data ← body.blocks.get target.block
    pure (.ok { frame.writeAll data.paramValues args with block := target.block })

/-- What the end of a block leads to: the end of the frame or its next block. -/
@[specialize] def leave (frame : Frame) (body : Body) :
    Terminator → m (Except Outcome Frame)
  | .missing | .unreachable => pure (.error frame.trap)
  | .jump target => frame.follow body target
  | .branch cond onTrue onFalse => do
    match ← frame.read body cond with
    | none => pure (.error frame.trap)
    | some c => frame.follow body (if c.isTrue then onTrue else onFalse)
  | .ret values => do
    match ← frame.readAll body values with
    | none => pure (.error frame.trap)
    | some cs =>
      note .trace fun _ => "returning from " ++ frame.func.text ++ ": " ++ describeConstants cs
      pure (.error (.returned cs))

end Frame

/-- The state of a run: what it may still use, and the host's state. -/
structure Run (σ : Type) where
  budget : Budget
  host : σ

namespace Run

variable {m : Type → Type} [Monad m] [MonadExceptOf Fault m] [Journal m] {σ : Type}

/-- Notes the arguments that parameters get, pair by pair. -/
@[specialize] def noteArgs : List Value → List Constant → m Unit
  | value :: values, c :: cs => do
    note .trace fun _ => "Entry block param " ++ value.text ++ " gets arg value " ++ c.describe
    noteArgs values cs
  | _, _ => pure ()

/-- Calls a function: an imported one through the host, one with a body through `runFrame`. -/
@[specialize] def enter (host : Host m σ) (module : Module)
    (runFrame : Body → Frame → Run σ → m (Outcome × Run σ))
    (func : Func) (args : List Constant) (run : Run σ) : m (Outcome × Run σ) := do
  match ← module.funcs.get func with
  | .imported _ name =>
    let (answer, state) ← host module name args run.host
    match answer with
    | .ok values => pure (.returned values, { run with host := state })
    | .error message => pure (.refused func message, { run with host := state })
  | .defined _ _ body =>
    if run.budget.depth ≥ maxDepth then
      pure (.trapped func body.entry, run)
    else
      notePrinted .trace fun _ => do
        pure ("Interp: entering func " ++ func.text ++ ":\n" ++ (← body.render true "| ") ++ "\n")
      note .trace fun _ => "args: " ++ describeConstants args
      let entry ← body.blocks.get body.entry
      noteArgs entry.paramValues args
      let frame := ({ func, block := body.entry } : Frame).writeAll entry.paramValues args
      let { fuel, depth } := run.budget
      let (outcome, run) ← runFrame body frame { run with budget := ⟨fuel, depth + 1⟩ }
      pure (outcome, { run with budget := ⟨run.budget.fuel, depth⟩ })

/-- The result of one instruction, with `call` for one that is a call, or the end of the frame. -/
@[specialize] def evaluate (call : Func → List Constant → Run σ → m (Outcome × Run σ))
    (body : Body) (inst : Value) (frame : Frame) (run : Run σ) :
    m (Except Outcome (Option Constant) × Run σ) := do
  match ← body.values.get inst with
  | .inst op args _ =>
    match ← frame.readAll body args with
    | none => pure (.error frame.trap, run)
    | some args =>
      match op with
      | .call callee =>
        let (outcome, run) ← call callee args run
        match outcome with
        | .returned values => pure (.ok values.head?, run)
        | other => pure (.error other, run)
      | op => pure (.ok (op.eval? args), run)
  | found => fault (.ranNonInstruction found)

/-- Runs instructions one after the other; each result is kept for those that follow. -/
@[specialize] def instructions (call : Func → List Constant → Run σ → m (Outcome × Run σ))
    (body : Body) : List Value → Frame → Run σ → m (Except Outcome Frame × Run σ)
  | [], frame, run => pure (.ok frame, run)
  | inst :: rest, frame, run => do
    note .trace fun _ => "Evaluating inst " ++ inst.text
    let (result, run) ← evaluate call body inst frame run
    match result with
    | .error outcome => pure (.error outcome, run)
    | .ok result =>
      note .trace fun _ => " -> " ++ describeOption (result.map Constant.describe)
      instructions call body rest (frame.keep inst result) run

/-- Runs a frame from its current block on. At most `bound` blocks are run one after the other;
a bound that is not below the fuel is none, because each of them uses fuel. -/
@[specialize] def frame (host : Host m σ) (module : Module) :
    Nat → Body → Frame → Run σ → m (Outcome × Run σ)
  | 0, _, _, run => pure (.outOfFuel, run)
  | bound + 1, body, frame, run => do
    if run.budget.fuel = 0 then
      pure (.outOfFuel, run)
    else
      let run := { run with budget := { run.budget with fuel := run.budget.fuel - 1 } }
      note .trace fun _ => "Interpreting block " ++ frame.block.text
      let block ← body.blocks.get frame.block
      let (result, run) ←
        instructions (enter host module (Run.frame host module bound)) body block.insts frame run
      match result with
      | .error outcome => pure (outcome, run)
      | .ok frame =>
        match ← frame.leave body block.terminator with
        | .error outcome => pure (outcome, run)
        | .ok frame => Run.frame host module bound body frame run

end Run

section Calling

variable {m : Type → Type} [Monad m] [MonadExceptOf Fault m] [Journal m] {σ : Type}

/-- Calls a function of a module. -/
@[specialize] def Module.call (module : Module) (host : Host m σ) (func : Func)
    (args : List Constant) (run : Run σ) : m (Outcome × Run σ) :=
  Run.enter host module (Run.frame host module run.budget.fuel) func args run

/-- Why a function could not be called by name. -/
inductive CallError
  | unknown (name : String)
  | wrongTypes (name : String) (expected found : List ValueType)
  deriving DecidableEq

def CallError.message : CallError → String
  | .unknown name => "no function named `" ++ name ++ "`"
  | .wrongTypes name expected found =>
    "`" ++ name ++ "` expects arguments " ++ describeTypes expected ++ ", given "
      ++ describeTypes found

/-- Calls the first function of a name, if it takes arguments of these types. -/
@[specialize] def Module.callNamed (module : Module) (host : Host m σ) (name : String)
    (args : List Constant) (run : Run σ) : m (Except CallError (Outcome × Run σ)) := do
  match module.funcNamed? name with
  | none => pure (.error (.unknown name))
  | some func =>
    let type ← module.funcType func
    let found := args.map Constant.type
    if found ≠ type.params then
      pure (.error (.wrongTypes name type.params found))
    else
      let result ← module.call host func args run
      pure (.ok result)

end Calling

end EntryTrace
