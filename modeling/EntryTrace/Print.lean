import EntryTrace.Module

/-!
# Printing modules

The text of a module, from which reading gets the module back. A pointer to a string is written
as the string it points to wherever it is an operand. The verbose form adds comments: the edges
of each block, and the result types of each instruction.
-/

namespace EntryTrace

namespace Body

/-- An operand: a string where the value points to one, else the value. -/
def operandText (body : Body) (value : Value) : String :=
  match body.values.get? value with
  | some (.strRef str) => str.text
  | _ => value.text

def operandsText (body : Body) (values : List Value) : String :=
  commaSeparated (values.map body.operandText)

def targetText (body : Body) (target : Target) : String :=
  target.block.text ++ "(" ++ body.operandsText target.args ++ ")"

/-- An operator with its operands. -/
def instText (body : Body) (op : Operator) (args : List Value) : String :=
  match op with
  | .call _ => op.text ++ "(" ++ body.operandsText args ++ ")"
  | _ => if args.isEmpty then op.text else op.text ++ " " ++ body.operandsText args

def terminatorText (body : Body) : Terminator → String
  | .jump target => "br " ++ body.targetText target
  | .branch cond onTrue onFalse =>
    "if " ++ body.operandText cond ++ ", " ++ body.targetText onTrue ++ ", "
      ++ body.targetText onFalse
  | .ret [] => "return"
  | .ret values => "return " ++ body.operandsText values
  | .unreachable => Terminator.unreachable.text
  | .missing => Terminator.missing.text

/-- The line of one instruction of `block`; a value that is none cannot be printed there. -/
def instLine (body : Body) (verbose : Bool) (block : Block) (value : Value) :
    Except Fault String := do
  match ← body.values.get value with
  | .inst op args types =>
    let line := "  " ++ value.text ++ " = " ++ body.instText op args
    if verbose && !types.isEmpty then
      pure (line ++ "  # " ++ commaSeparated (types.map ValueType.name))
    else
      pure line
  | found => fault (.printedNonInstruction found block)

/-- The first line of a block: its name and its parameters. -/
def headerLine (block : Block) (data : BlockData) : String :=
  block.text ++ "("
    ++ commaSeparated (data.params.map fun (type, value) => value.text ++ ": " ++ type.name)
    ++ "):"

/-- The comments on the edges of a block. -/
def edgeLines (data : BlockData) : List String :=
  data.preds.map (fun block => "  # pred: " ++ block.text)
    ++ data.succs.map (fun block => "  # succ: " ++ block.text)

def blockLines (body : Body) (verbose : Bool) (block : Block) : Except Fault (List String) := do
  let data ← body.blocks.get block
  let insts ← data.insts.mapM (body.instLine verbose block)
  pure (headerLine block data :: (if verbose then edgeLines data else []) ++ insts
    ++ ["  " ++ body.terminatorText data.terminator])

/-- All lines of a body, the entry block first: it is the entry by its place when read back. -/
def lines (body : Body) (verbose : Bool) : Except Fault (List String) := do
  let blocks ← body.displayOrder.mapM (body.blockLines verbose)
  pure blocks.flatten

end Body

/-- Lines as text, each indented and ended by a line break. -/
def textOfLines (indent : String) (lines : List String) : String :=
  String.join (lines.map fun line => indent ++ line ++ "\n")

/-- The text of a body. -/
def Body.render (body : Body) (verbose : Bool) (indent : String) : Except Fault String :=
  textOfLines indent <$> body.lines verbose

/-- The lines of the function that `func` stands for. -/
def Decl.lines (verbose : Bool) (func : Func) : Decl → Except Fault (List String)
  | .imported signature name =>
    pure [func.text ++ " = import " ++ Quoted.encode name ++ " : " ++ signature.text]
  | .defined signature name body => do
    let inner ← body.lines verbose
    pure ((func.text ++ " = func " ++ Quoted.encode name ++ " : " ++ signature.text ++ " \x7b")
      :: inner.map ("  " ++ ·) ++ ["\x7d"])

namespace Module

/-- The lines between the braces of a module. -/
def innerLines (module : Module) (verbose : Bool) : Except Fault (List String) := do
  let signatures := module.signatures.entries.map fun (e, type) => e.text ++ " = " ++ type.text
  let strings := module.strings.entries.map fun (e, s) => e.text ++ " = " ++ Quoted.encode s
  let funcs ← module.funcs.entries.mapM fun (e, decl) => decl.lines verbose e
  pure (signatures ++ strings ++ funcs.flatten)

/-- The text of a module. -/
def render (module : Module) (verbose : Bool) : Except Fault String := do
  let inner ← module.innerLines verbose
  pure ("module \x7b\n" ++ textOfLines "  " inner ++ "\x7d\n")

end Module

end EntryTrace
