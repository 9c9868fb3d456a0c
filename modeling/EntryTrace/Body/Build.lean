import EntryTrace.Body
import EntryTrace.Journal

/-!
# Building bodies

The steps by which a body grows: blocks, values and parameters are added, instructions are
placed in blocks, and blocks are ended. Edges between blocks are entered when a block ends.
-/

namespace EntryTrace

namespace Body

variable {m : Type → Type} [Monad m] [MonadExceptOf Fault m] [Journal m]

/-- Adds an unfinished block without parameters. -/
@[specialize] def addBlock (body : Body) : m (Block × Body) := do
  let (block, blocks) ← body.blocks.push {}
  note .trace fun _ => "add_block: block " ++ block.text
  pure (block, { body with blocks })

/-- Adds a value that no block lists yet. -/
@[specialize] def addValue (body : Body) (d : Def) : m (Value × Body) := do
  note .trace fun _ => "add_value: def " ++ d.describe
  let (value, values) ← body.values.push d
  note .trace fun _ => " -> " ++ value.text
  pure (value, { body with values })

/-- Adds the next parameter of a block. -/
@[specialize] def addParam (body : Body) (block : Block) (type : ValueType) :
    m (Value × Body) := do
  let data ← body.blocks.get block
  let (value, body) ← body.addValue (.param block data.params.length type)
  let blocks ← body.blocks.update block fun b => { b with params := b.params ++ [(type, value)] }
  pure (value, { body with blocks, home := body.home.set value block })

/-- Adds one parameter for each type, in order. -/
@[specialize] def addParams (body : Body) (block : Block) : List ValueType → m Body
  | [] => pure body
  | type :: types => do
    let (_, body) ← body.addParam block type
    addParams body block types

/-- Makes a value the last instruction of a block. -/
@[specialize] def appendInst (body : Body) (block : Block) (value : Value) : m Body := do
  let blocks ← body.blocks.update block fun b => { b with insts := b.insts ++ [value] }
  pure { body with blocks, home := body.home.set value block }

/-- Makes a value the first instruction of a block; the others stay and move up. -/
@[specialize] def prependInst (body : Body) (block : Block) (value : Value) : m Body := do
  let blocks ← body.blocks.update block fun b => { b with insts := value :: b.insts }
  pure { body with blocks, home := body.home.set value block }

@[specialize] def addEdge (body : Body) (source destination : Block) : m Body := do
  let blocks ← body.blocks.update source fun b => { b with succs := b.succs ++ [destination] }
  let blocks ← blocks.update destination fun b => { b with preds := b.preds ++ [source] }
  note .trace fun _ => "add_edge: from " ++ source.text ++ " to " ++ destination.text
  pure { body with blocks }

@[specialize] def addEdges (body : Body) (source : Block) : List Block → m Body
  | [] => pure body
  | destination :: rest => do
    let body ← body.addEdge source destination
    addEdges body source rest

/-- Enters the edges out of a block and sets its terminator. -/
@[specialize] def endBlock (body : Body) (block : Block) (terminator : Terminator) : m Body := do
  let body ← body.addEdges block terminator.successors
  let blocks ← body.blocks.update block fun b => { b with terminator }
  pure { body with blocks }

/-- Enters the edges out of each of the blocks as their terminators say. -/
@[specialize] def addEdgesOf (body : Body) : List Block → m Body
  | [] => pure body
  | block :: rest => do
    let data ← body.blocks.get block
    let body ← body.addEdges block data.terminator.successors
    addEdgesOf body rest

/-- Forgets all edges and enters them anew, block by block. -/
@[specialize] def recomputeEdges (body : Body) : m Body :=
  let cleared := { body with blocks := body.blocks.map fun b => { b with succs := [], preds := [] } }
  cleared.addEdgesOf body.blocks.ids

/-- The first instruction of the entry block, if it has one. -/
@[specialize] def firstInst? (body : Body) : m (Option Value) := do
  let data ← body.blocks.get body.entry
  pure data.insts.head?

/-- A body for a function of the given type: one unfinished block with the arguments as its
parameters. -/
@[specialize] def ofType (type : FuncType) : m Body := do
  let body : Body := { paramCount := type.params.length, returns := type.returns }
  let (entry, body) ← body.addBlock
  addParams { body with entry } entry type.params

end Body

end EntryTrace
