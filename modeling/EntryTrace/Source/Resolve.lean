import EntryTrace.Print
import EntryTrace.Source.Grammar

/-!
# From syntax trees to modules

Names are looked up and types are checked. All functions of a module are declared before any
body is made, and all blocks of a body with their parameters before any instruction, so that
calls and branches may go forward; a value has to be defined before its use.
-/

namespace EntryTrace.Source

variable {m : Type → Type} [Monad m] [MonadExceptOf Fault m] [Journal m]

/-- Work that may find the text wrong. -/
abbrev Resolving (m : Type → Type) := ExceptT SourceError m

/-- A step that cannot find the text wrong. -/
@[inline] def step {α : Type} (x : m α) : Resolving m α := ExceptT.lift x

@[inline] def refuse {α : Type} (line : Nat) (cause : Cause) : Resolving m α :=
  ExceptT.mk (pure (.error ⟨line, cause⟩))

/-- A body in the making, with what the names in its text stand for. -/
structure Scope where
  body : Body
  values : List (Nat × Value) := []
  blocks : List (Nat × Block) := []

namespace Scope

/-- Gives a value its name, which nothing else may have. -/
@[specialize] def define (scope : Scope) (line name : Nat) (value : Value) :
    Resolving m Scope :=
  match scope.values.lookup name with
  | some _ => refuse line (.grammar (.redefined .value name))
  | none => pure { scope with values := (name, value) :: scope.values }

@[specialize] def defineAll (scope : Scope) (line : Nat) :
    List (Nat × Value) → Resolving m Scope
  | [] => pure scope
  | (name, value) :: rest => do
    let scope ← scope.define line name value
    defineAll scope line rest

/-- Adds parameters to a block and gives them their names, one after the other. -/
@[specialize] def addParams (scope : Scope) (line : Nat) (block : Block) :
    List (Nat × ValueType) → Resolving m Scope
  | [] => pure scope
  | (name, type) :: rest => do
    let (value, body) ← step (scope.body.addParam block type)
    let scope ← { scope with body }.define line name value
    addParams scope line block rest

/-- Makes the block that the first tree of a function describes. The body has it already. -/
@[specialize] def openEntry (scope : Scope) (tree : BlockTree) : Resolving m (Block × Scope) := do
  let entry := scope.body.entry
  let data ← step (scope.body.blocks.get entry)
  let found := tree.params.map Prod.snd
  if found ≠ data.paramTypes then
    refuse tree.line (.typing (.entryParams found data.paramTypes))
  else
    let names := tree.params.map Prod.fst
    let scope ← scope.defineAll tree.line (names.zip data.paramValues)
    pure (entry, scope)

/-- Makes a block that is not the first. -/
@[specialize] def openNext (scope : Scope) (tree : BlockTree) : Resolving m (Block × Scope) := do
  let (block, body) ← step scope.body.addBlock
  let scope ← { scope with body }.addParams tree.line block tree.params
  pure (block, scope)

/-- Makes all blocks with their parameters; `opened` holds those made so far, backwards. -/
@[specialize] def openBlocks (scope : Scope) (opened : List (BlockTree × Block)) :
    List BlockTree → Resolving m (List (BlockTree × Block) × Scope)
  | [] => pure (opened.reverse, scope)
  | tree :: rest => do
    if (scope.blocks.lookup tree.name).isSome then
      refuse tree.line (.grammar (.redefined .block tree.name))
    else
      let (block, scope) ← if opened.isEmpty then scope.openEntry tree else scope.openNext tree
      let scope := { scope with blocks := (tree.name, block) :: scope.blocks }
      openBlocks scope ((tree, block) :: opened) rest

/-- The value of an operand. A string gets a value of its own at each use. -/
@[specialize] def operand (scope : Scope) (module : Module) (line : Nat) (tree : OperandTree) :
    Resolving m (Value × Scope) :=
  match tree with
  | .value name =>
    match scope.values.lookup name with
    | some value => pure (value, scope)
    | none => refuse line (.undefined .value name)
  | .str index => do
    if index < module.strings.size then
      let (value, body) ← step (scope.body.addValue (.strRef ⟨index⟩))
      pure (value, { scope with body })
    else
      refuse line (.undefined .str index)

@[specialize] def operands (scope : Scope) (module : Module) (line : Nat) :
    List OperandTree → Resolving m (List Value × Scope)
  | [] => pure ([], scope)
  | tree :: rest => do
    let (value, scope) ← scope.operand module line tree
    let (values, scope) ← operands scope module line rest
    pure (value :: values, scope)

/-- Checks the types of operands one by one, `position` being that of the first. -/
@[specialize] def checkEach (body : Body) (line : Nat) (consumer : Consumer) (position : Nat) :
    List Value → List ValueType → Resolving m Unit
  | value :: values, type :: types => do
    let found ← step (body.values.get value)
    match found.type? with
    | some actual =>
      if actual = type then checkEach body line consumer (position + 1) values types
      else refuse line (.typing (.operandType consumer position type actual))
    | none => refuse line (.typing (.noResult consumer position))
  | _, _ => pure ()

/-- Checks that operands are as many as expected, and of the expected types. -/
@[specialize] def checkTypes (body : Body) (line : Nat) (consumer : Consumer)
    (values : List Value) (types : List ValueType) : Resolving m Unit :=
  if values.length ≠ types.length then
    refuse line (.typing (.operandCount consumer types.length values.length))
  else
    checkEach body line consumer 0 values types

/-- The values that an integer literal of a type may have: those of the type read as signed and
those of the type read as unsigned. -/
def fits (bits : Nat) (value : Int) : Bool :=
  decide (-((1 <<< (bits - 1) : Nat) : Int) ≤ value) && decide (value < ((1 <<< bits : Nat) : Int))

/-- The operator of an instruction with the values of its operands. -/
@[specialize] def operation (scope : Scope) (module : Module) (line : Nat) :
    OpTree → Resolving m (Operator × List Value × Scope)
  | .nop => pure (.nop, [], scope)
  | .const32 value =>
    if fits 32 value then pure (.const32 (UInt32.ofInt value), [], scope)
    else refuse line (.typing (.doesNotFit value .i32))
  | .const64 value =>
    if fits 64 value then pure (.const64 (UInt64.ofInt value), [], scope)
    else refuse line (.typing (.doesNotFit value .i64))
  | .binary op left right => do
    let (left, scope) ← scope.operand module line left
    let (right, scope) ← scope.operand module line right
    pure (.binary op, [left, right], scope)
  | .call callee args => do
    if callee < module.funcs.size then
      let (args, scope) ← scope.operands module line args
      pure (.call ⟨callee⟩, args, scope)
    else
      refuse line (.undefined .func callee)

/-- Adds an instruction to the end of a block. -/
@[specialize] def addInst (scope : Scope) (module : Module) (block : Block) (tree : InstTree) :
    Resolving m Scope := do
  let (op, args, scope) ← scope.operation module tree.line tree.op
  let inputs ← step (op.inputTypes module)
  checkTypes scope.body tree.line (.operator op) args inputs
  let outputs ← step (op.outputTypes module)
  let (value, body) ← step (scope.body.addValue (.inst op args outputs))
  let body ← step (body.appendInst block value)
  { scope with body }.define tree.line tree.result value

@[specialize] def addInsts (scope : Scope) (module : Module) (block : Block) :
    List InstTree → Resolving m Scope
  | [] => pure scope
  | tree :: rest => do
    let scope ← scope.addInst module block tree
    addInsts scope module block rest

@[specialize] def target (scope : Scope) (module : Module) (line : Nat) (tree : TargetTree) :
    Resolving m (Target × Scope) :=
  match scope.blocks.lookup tree.block with
  | none => refuse line (.undefined .block tree.block)
  | some block => do
    let (args, scope) ← scope.operands module line tree.args
    let data ← step (scope.body.blocks.get block)
    checkTypes scope.body line (.branchTo tree.block) args data.paramTypes
    pure (⟨block, args⟩, scope)

@[specialize] def terminator (scope : Scope) (module : Module) (line : Nat) :
    TermTree → Resolving m (Terminator × Scope)
  | .jump target => do
    let (target, scope) ← scope.target module line target
    pure (.jump target, scope)
  | .branch cond onTrue onFalse => do
    let (cond, scope) ← scope.operand module line cond
    checkTypes scope.body line .condition [cond] [.i32]
    let (onTrue, scope) ← scope.target module line onTrue
    let (onFalse, scope) ← scope.target module line onFalse
    pure (.branch cond onTrue onFalse, scope)
  | .ret values => do
    let (values, scope) ← scope.operands module line values
    checkTypes scope.body line .result values scope.body.returns
    pure (.ret values, scope)
  | .unreachable => pure (.unreachable, scope)

/-- Fills a block and ends it. -/
@[specialize] def fillBlock (scope : Scope) (module : Module) (tree : BlockTree) (block : Block) :
    Resolving m Scope := do
  let scope ← scope.addInsts module block tree.insts
  let (terminator, scope) ← scope.terminator module tree.termLine tree.term
  let body ← step (scope.body.endBlock block terminator)
  pure { scope with body }

@[specialize] def fillBlocks (scope : Scope) (module : Module) :
    List (BlockTree × Block) → Resolving m Scope
  | [] => pure scope
  | (tree, block) :: rest => do
    let scope ← scope.fillBlock module tree block
    fillBlocks scope module rest

end Scope

/-- The body of a function of the given signature. -/
@[specialize] def resolveBody (module : Module) (signature : Signature)
    (trees : List BlockTree) : Resolving m Body := do
  let type ← step (module.typeOf signature)
  let body ← step (Body.ofType type)
  let (opened, scope) ← ({ body } : Scope).openBlocks [] trees
  let scope ← scope.fillBlocks module opened
  pure scope.body

@[specialize] def addTypes (module : Module) : List FuncType → m Module
  | [] => pure module
  | type :: rest => do
    let (_, module) ← module.addSignature type
    addTypes module rest

@[specialize] def addStrings (module : Module) : List String → m Module
  | [] => pure module
  | s :: rest => do
    let (_, module) ← module.addString s
    addStrings module rest

/-- Declares the functions, each with an empty body if it is to have one. -/
@[specialize] def declareFuncs (module : Module) : List FuncTree → Resolving m Module
  | [] => pure module
  | tree :: rest => do
    if tree.signature < module.signatures.size then
      let signature : Signature := ⟨tree.signature⟩
      let decl : Decl :=
        if tree.blocks?.isSome then .defined signature tree.name {}
        else .imported signature tree.name
      let (_, module) ← step (module.addFunc decl)
      declareFuncs module rest
    else
      refuse tree.line (.undefined .signature tree.signature)

/-- Makes the bodies of functions, `index` being the number of the first. -/
@[specialize] def defineFuncs (module : Module) (index : Nat) :
    List FuncTree → Resolving m Module
  | [] => pure module
  | tree :: rest => do
    match tree.blocks? with
    | none => defineFuncs module (index + 1) rest
    | some blocks =>
      let func : Func := ⟨index⟩
      let body ← resolveBody module ⟨tree.signature⟩ blocks
      step (notePrinted .trace fun _ => do
        pure ("frontend: lowered " ++ func.text ++ ":\n" ++ (← body.render true "| ")))
      let funcs ← step (module.funcs.update func (Decl.withBody body))
      defineFuncs { module with funcs } (index + 1) rest

/-- The module that a tree describes. -/
@[specialize] def resolve (tree : ModuleTree) : Resolving m Module := do
  let module ← step (addTypes {} tree.types.toList)
  let module ← step (addStrings module tree.strings.toList)
  let module ← declareFuncs module tree.funcs.toList
  defineFuncs module 0 tree.funcs.toList

end EntryTrace.Source
