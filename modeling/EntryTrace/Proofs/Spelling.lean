import EntryTrace.Proofs.Closed

/-!
# Trees that spell modules

A syntax tree spells a module if it names every value and every block by its number, writes
pointers as the strings they point to, and otherwise says what the module says. The lines in the
tree do not matter.
-/

namespace EntryTrace.Source

/-- A value as an operand. -/
def OperandTree.ofValue (values : Table .value Def) (value : Value) : OperandTree :=
  match values.get? value with
  | some (.strRef s) => .str s.index
  | _ => .value value.index

/-- The tree spells an operator with its operands. -/
inductive OpTree.Spells (values : Table .value Def) : Operator → List Value → OpTree → Prop
  | nop : Spells values .nop [] .nop
  | const32 (c : UInt32) : Spells values (.const32 c) [] (.const32 c.toNat)
  | const64 (c : UInt64) : Spells values (.const64 c) [] (.const64 c.toNat)
  | binary (op : BinaryOp) (left right : Value) :
    Spells values (.binary op) [left, right] (.binary op (.ofValue values left) (.ofValue values right))
  | call (callee : Func) (args : List Value) :
    Spells values (.call callee) args (.call callee.index (args.map (.ofValue values)))

/-- The tree spells an instruction, which has the number of its value for a name. -/
def InstTree.Spells (values : Table .value Def) (value : Value) (tree : InstTree) : Prop :=
  tree.result = value.index ∧ ∃ op args types,
    values.get? value = some (.inst op args types) ∧ OpTree.Spells values op args tree.op

def TargetTree.ofTarget (values : Table .value Def) (target : Target) : TargetTree :=
  ⟨target.block.index, target.args.map (.ofValue values)⟩

/-- The tree spells a terminator, which therefore is not missing. -/
inductive TermTree.Spells (values : Table .value Def) : Terminator → TermTree → Prop
  | jump (target : Target) : Spells values (.jump target) (.jump (.ofTarget values target))
  | branch (cond : Value) (onTrue onFalse : Target) :
    Spells values (.branch cond onTrue onFalse)
      (.branch (.ofValue values cond) (.ofTarget values onTrue) (.ofTarget values onFalse))
  | ret (args : List Value) : Spells values (.ret args) (.ret (args.map (.ofValue values)))
  | unreachable : Spells values .unreachable .unreachable

/-- The tree names a block by its number, and its parameters by theirs. -/
structure BlockTree.Heads (block : Block) (data : BlockData) (tree : BlockTree) : Prop where
  name : tree.name = block.index
  params : tree.params = data.params.map fun p => (p.2.index, p.1)

/-- The tree spells a block of a body with these values. -/
structure BlockTree.Spells (values : Table .value Def) (block : Block) (data : BlockData)
    (tree : BlockTree) : Prop extends BlockTree.Heads block data tree where
  insts : List.Forall₂ (InstTree.Spells values) data.insts tree.insts
  term : TermTree.Spells values data.terminator tree.term

/-- The trees spell the blocks of a body, the entry block first. -/
def BlockTree.SpellAll (body : Body) (trees : List BlockTree) : Prop :=
  List.Forall₂ (fun block tree => ∃ data, body.blocks.get? block = some data ∧
    BlockTree.Spells body.values block data tree) body.displayOrder trees

/-- The tree spells a function. -/
structure FuncTree.Spells (decl : Decl) (tree : FuncTree) : Prop where
  name : tree.name = decl.name
  signature : tree.signature = decl.signature.index
  imported : decl.body? = none → tree.blocks? = none
  defined : ∀ body, decl.body? = some body →
    ∃ trees, tree.blocks? = some trees ∧ BlockTree.SpellAll body trees

/-- The tree spells a module. -/
structure ModuleTree.Spells (m : Module) (tree : ModuleTree) : Prop where
  types : tree.types.toList = m.signatures.toList
  strings : tree.strings.toList = m.strings.toList
  funcs : List.Forall₂ FuncTree.Spells m.funcs.toList tree.funcs.toList

end EntryTrace.Source
