import EntryTrace.Proofs.Tables
import EntryTrace.Tagging

/-!
# Renumbered values

Two bodies may differ in nothing but the numbers of their values. All else is the same: the
blocks with their edges, the order of instructions, their operators and types, and what each
operand is.
-/

namespace EntryTrace

/-- A definition with other numbers for the operands. -/
def Def.renumber (σ : Value → Value) : Def → Def
  | .param block position type => .param block position type
  | .inst op args types => .inst op (args.map σ) types
  | .strRef str => .strRef str
  | .undefined => .undefined

def Target.renumber (σ : Value → Value) (target : Target) : Target :=
  { target with args := target.args.map σ }

def Terminator.renumber (σ : Value → Value) : Terminator → Terminator
  | .jump target => .jump (target.renumber σ)
  | .branch cond onTrue onFalse => .branch (σ cond) (onTrue.renumber σ) (onFalse.renumber σ)
  | .ret values => .ret (values.map σ)
  | .unreachable => .unreachable
  | .missing => .missing

def BlockData.renumber (σ : Value → Value) (b : BlockData) : BlockData :=
  { b with
    params := b.params.map fun p => (p.1, σ p.2)
    insts := b.insts.map σ
    terminator := b.terminator.renumber σ }

@[simp] lemma Terminator.successors_renumber (σ : Value → Value) (term : Terminator) :
    (term.renumber σ).successors = term.successors := by
  cases term <;> rfl

/-- The second body is the first with the numbers that `σ` gives to the values. -/
structure Body.RenumberedBy (σ : Value → Value) (body body' : Body) : Prop where
  paramCount : body'.paramCount = body.paramCount
  returns : body'.returns = body.returns
  entry : body'.entry = body.entry
  blocks : body'.blocks = body.blocks.map (BlockData.renumber σ)
  size : body'.values.size = body.values.size
  distinct : ∀ v v', v.index < body.values.size → v'.index < body.values.size →
    σ v = σ v' → v = v'
  values : ∀ v d, body.values.get? v = some d → body'.values.get? (σ v) = some (d.renumber σ)
  home : ∀ v, v.index < body.values.size → body'.home.get (σ v) = body.home.get v

/-- A function is the same, but for the numbers of values if it is a helper. -/
inductive Decl.RenumberedAs : Decl → Decl → Prop
  | same (decl : Decl) : RenumberedAs decl decl
  | helper {signature : Signature} {name : String} {body body' : Body} (σ : Value → Value)
    (hname : isHelperName name = true) (hbody : body.RenumberedBy σ body') :
    RenumberedAs (.defined signature name body) (.defined signature name body')

/-- The second module is the first with other numbers for the values in helpers. -/
structure Module.RenumberedAs (m m' : Module) : Prop where
  signatures : m'.signatures = m.signatures
  strings : m'.strings = m.strings
  funcs : List.Forall₂ Decl.RenumberedAs m.funcs.toList m'.funcs.toList

end EntryTrace
