import EntryTrace.Proofs.Closed
import EntryTrace.Proofs.Edges
import EntryTrace.Proofs.Lists

/-!
# Well-formed modules

What every later user of a module relies on: values are listed where their definitions say and
nowhere else, operands are there before they are used, types fit, and edges are those that the
terminators give.
-/

namespace EntryTrace

/-- The instructions of some blocks, in the order of the blocks and of the lists in them. -/
def listingOf (blocks : List BlockData) : List Value := blocks.flatMap BlockData.insts

namespace Body

/-- The value is an instruction. -/
def IsInst (body : Body) (value : Value) : Prop :=
  ∃ op args types, body.values.get? value = some (.inst op args types)

/-- The instructions that the blocks of a body list, in order. -/
def listing (body : Body) : List Value := listingOf body.blocks.toList

/-- The instructions that the blocks up to and including `block` list, in order. -/
def listingThrough (body : Body) (block : Block) : List Value :=
  listingOf (body.blocks.toList.take (block.index + 1))

/-- The value can be used where the instructions `before` come before: it points to a string of
the module, or is a parameter of any block, or is one of these instructions. -/
def Offers (module : Module) (body : Body) (before : List Value) (value : Value) : Prop :=
  match body.values.get? value with
  | some (.strRef str) => str.index < module.strings.size
  | some (.param ..) => True
  | some (.inst ..) => value ∈ before
  | _ => False

end Body

/-- The target is a block, and the arguments have the types of its parameters. -/
def Target.Typed (body : Body) (target : Target) : Prop :=
  ∃ data, body.blocks.get? target.block = some data ∧ body.HasTypes target.args data.paramTypes

/-- A terminator, which is not missing, uses values of the types that it should. -/
def Terminator.Typed (body : Body) : Terminator → Prop
  | .jump target => target.Typed body
  | .branch cond onTrue onFalse =>
    body.HasTypes [cond] [.i32] ∧ onTrue.Typed body ∧ onFalse.Typed body
  | .ret values => body.HasTypes values body.returns
  | .unreachable => True
  | .missing => False

/-- The body is that of a function of the given type, in order and fully typed. -/
structure Body.WellFormed (module : Module) (type : FuncType) (body : Body) : Prop where
  entry : body.entry = ⟨0⟩
  entryParams : ∃ data, body.blocks.get? body.entry = some data ∧ data.paramTypes = type.params
  paramCount : body.paramCount = type.params.length
  returns : body.returns = type.returns
  /-- The definitions of parameters and the lists of parameters say the same. -/
  params : ∀ value block position paramType,
    body.values.get? value = some (.param block position paramType) ↔
      ∃ data, body.blocks.get? block = some data ∧ data.params[position]? = some (paramType, value)
  insts : ∀ value ∈ body.listing, body.IsInst value
  once : ∀ value, body.IsInst value → body.listing.count value = 1
  homeOfParam : ∀ block data, body.blocks.get? block = some data →
    ∀ value ∈ data.paramValues, body.home.get value = block
  homeOfInst : ∀ block data, body.blocks.get? block = some data →
    ∀ value ∈ data.insts, body.home.get value = block
  homeOfString : ∀ value str, body.values.get? value = some (.strRef str) →
    body.home.get value = .unset
  /-- An instruction uses only what comes before it. -/
  operands : ∀ before inst after, body.listing = before ++ inst :: after →
    ∀ op args types, body.values.get? inst = some (.inst op args types) →
      ∀ arg ∈ args, body.Offers module before arg
  /-- A terminator uses only what comes before the end of its block. -/
  terminatorOperands : ∀ block data, body.blocks.get? block = some data →
    ∀ arg ∈ data.terminator.operands, body.Offers module (body.listingThrough block) arg
  operandTypes : ∀ inst op args results, body.values.get? inst = some (.inst op args results) →
    ∃ inputs, (op.inputTypes module : Except Fault _) = .ok inputs ∧ body.HasTypes args inputs
  resultTypes : ∀ inst op args results, body.values.get? inst = some (.inst op args results) →
    (op.outputTypes module : Except Fault _) = .ok results
  terminators : ∀ data ∈ body.blocks.toList, data.terminator.Typed body
  edges : (body.recomputeEdges : Except Fault _) = .ok body

/-- Every signature has at most one result, every function has a signature, and every body is a
well-formed one of its function's type. -/
structure Module.WellFormed (m : Module) : Prop where
  returns : ∀ type ∈ m.signatures.toList, type.returns.length ≤ 1
  signatures : m.SignaturesInRange
  bodies : ∀ decl ∈ m.funcs.toList, ∀ body ∈ decl.body?,
    ∃ type, m.signatures.get? decl.signature = some type ∧ body.WellFormed m type

lemma Terminator.Typed.successor_lt {body : Body} {term : Terminator} (h : term.Typed body)
    {block : Block} (hblock : block ∈ term.successors) : block.index < body.blocks.size := by
  have htarget : ∀ target : Target, target.Typed body →
      target.block.index < body.blocks.size := by
    rintro target ⟨data, hdata, -⟩
    exact Table.get?_lt hdata
  cases term with
  | jump target =>
    obtain rfl : block = target.block := by simpa [successors, targets] using hblock
    exact htarget target h
  | branch cond onTrue onFalse =>
    obtain rfl | rfl : block = onTrue.block ∨ block = onFalse.block := by
      simpa [successors, targets] using hblock
    · exact htarget onTrue h.2.1
    · exact htarget onFalse h.2.2
  | ret => simp [successors, targets] at hblock
  | unreachable => simp [successors, targets] at hblock
  | missing => simp [successors, targets] at hblock

namespace Body

variable {module : Module} {body body' : Body} {values values' : List Value}
  {types : List ValueType} {value : Value}

lemma HasTypes.mono (h : body.HasTypes values types)
    (hvalues : body.values.PrefixOf body'.values) : body'.HasTypes values types := by
  apply List.Forall₂.imp _ h
  intro value type htype
  obtain ⟨d, hd, hdtype⟩ := Option.bind_eq_some_iff.1 htype
  rw [hvalues.get? hd]
  exact hdtype

lemma HasTypes.exists_get? (h : body.HasTypes values types) (hvalue : value ∈ values) :
    ∃ d, body.values.get? value = some d := by
  obtain ⟨type, -, htype⟩ := exists_right_of_forall₂ h hvalue
  obtain ⟨d, hd, -⟩ := Option.bind_eq_some_iff.1 htype
  exact ⟨d, hd⟩

lemma Offers.mono (h : body.Offers module values value) (hsub : values ⊆ values') :
    body.Offers module values' value := by
  unfold Offers at h ⊢
  split at h
  · exact h
  · trivial
  · exact hsub h
  · exact h.elim

lemma WellFormed.edges_eq {type : FuncType} (h : body.WellFormed module type) :
    body.edges = body.orderedEdges := by
  refine (recomputeEdges_eq_self ?_).1 h.edges
  intro data hdata block hblock
  exact (h.terminators data hdata).successor_lt hblock

end Body

end EntryTrace
