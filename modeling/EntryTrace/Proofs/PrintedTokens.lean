import EntryTrace.Proofs.Readers
import EntryTrace.Proofs.Spelling

/-!
# The tokens of a printed module

The tokens that the text of a module consists of, part by part, and the trees that the readers of
the grammar make of them: each spells the part that was printed.
-/

namespace EntryTrace

open Source

/-! ### Tokens -/

namespace Body

def operandTokens (body : Body) (value : Value) : List Token := [.word (body.operandText value)]

def operandsTokens (body : Body) (values : List Value) : List Token :=
  commaTokens (values.map body.operandTokens)

def targetTokens (body : Body) (target : Target) : List Token :=
  .word target.block.text :: parenTokens (target.args.map body.operandTokens)

def opTokens (body : Body) (op : Operator) (args : List Value) : List Token :=
  match op with
  | .nop => [.word "nop"]
  | .const32 c => [.word "i32.const", .int c.toNat]
  | .const64 c => [.word "i64.const", .int c.toNat]
  | .binary op => .word op.mnemonic :: body.operandsTokens args
  | .call callee =>
    .word "call" :: .word callee.text :: parenTokens (args.map body.operandTokens)

def instTokens (body : Body) (value : Value) : List Token :=
  match body.values.get? value with
  | some (.inst op args _) => .word value.text :: .equals :: body.opTokens op args
  | _ => []

def terminatorTokens (body : Body) : Terminator → List Token
  | .jump target => .word "br" :: body.targetTokens target
  | .branch cond onTrue onFalse =>
    .word "if" :: (body.operandTokens cond ++
      .comma :: (body.targetTokens onTrue ++ .comma :: body.targetTokens onFalse))
  | .ret values => .word "return" :: body.operandsTokens values
  | .unreachable => [.word "unreachable"]
  | .missing => [.word "no_terminator"]

def blockTokens (body : Body) (block : Block) : List Token :=
  match body.blocks.get? block with
  | some data =>
    .word block.text ::
      (parenTokens (data.params.map fun p => [.word p.2.text, .colon, .word p.1.name]) ++
        .colon :: (data.insts.flatMap body.instTokens ++ body.terminatorTokens data.terminator))
  | none => []

end Body

def typesTokens (types : List ValueType) : List Token :=
  parenTokens (types.map fun type => [.word type.name])

/-- What comes after the name of a function. -/
def Decl.printedTokens : Decl → List Token
  | .imported signature name =>
    [.equals, .word "import", .str name, .colon, .word signature.text]
  | .defined signature name body =>
    .equals :: .word "func" :: .str name :: .colon :: .word signature.text :: .openBrace ::
      (body.displayOrder.flatMap body.blockTokens ++ [.closeBrace])

/-- What comes after the name of a signature. -/
def FuncType.printedTokens (type : FuncType) : List Token :=
  .equals :: (typesTokens type.params ++ .arrow :: typesTokens type.returns)

def Module.printedTokens (m : Module) : List Token :=
  .word "module" :: .openBrace ::
    (m.signatures.entries.flatMap (fun p => .word p.1.text :: p.2.printedTokens) ++
      (m.strings.entries.flatMap (fun p => [.word p.1.text, .equals, .str p.2]) ++
        (m.funcs.entries.flatMap (fun p => .word p.1.text :: p.2.printedTokens) ++ [.closeBrace])))

namespace Source

/-! ### Entities -/

lemma isPrefixOf?_append {α : Type} [BEq α] [ReflBEq α] (xs ys : List α) :
    xs.isPrefixOf? (xs ++ ys) = some ys := by
  induction xs with
  | nil => rfl
  | cons x xs ih => simp [List.isPrefixOf?, ih]

lemma text_eq {kind : Kind} {e : Entity kind} (h : e.index < Entity.limit) :
    e.text = kind.label ++ toString e.index := by
  have hset : e.isUnset = false := by
    rw [Entity.isUnset, beq_eq_false_iff_ne]
    exact h.ne
  simp [Entity.text, hset]

lemma entityIndex?_append {kind : Kind} {index : Nat} (h : index < UInt64.size) :
    entityIndex? kind (kind.label ++ toString index) = some index := by
  have hlabel : kind.label.toList.isPrefixOf? (kind.label ++ toString index).toList =
      some (Nat.toDigits 10 index) := by
    rw [String.toList_append, isPrefixOf?_append, Nat.toString_eq_repr, Nat.toList_repr]
  have hdigits : (Nat.toDigits 10 index).all Char.isDigit = true := by
    rw [List.all_eq_true]
    exact fun c hc => isDigit_of_mem_toDigits hc
  have hempty : (Nat.toDigits 10 index).isEmpty = false := by simp
  simp only [entityIndex?, hlabel, hempty, hdigits, foldl_toDigits, h, Bool.not_true,
    Bool.or_self, Bool.false_eq_true, if_false, if_true]

lemma entityIndex?_text {kind : Kind} {e : Entity kind} (h : e.index < Entity.limit) :
    entityIndex? kind e.text = some e.index := by
  rw [text_eq h]
  exact entityIndex?_append (h.trans (by decide))

lemma entityIndex?_text_of_ne {kind kind' : Kind} (h : kind ≠ kind') (e : Entity kind') :
    entityIndex? kind e.text = none := by
  have hlabel : kind.label.toList.isPrefixOf? e.text.toList = none := by
    rw [Entity.text, String.toList_append]
    cases kind <;> cases kind' <;> first
      | exact absurd rfl h
      | simp [Kind.label, List.isPrefixOf?]
  simp [entityIndex?, hlabel]

/-- A value, and the string it points to if it is a pointer, have numbers that can be written. -/
def Numbered (values : Table .value Def) (value : Value) : Prop :=
  value.index < Entity.limit ∧
    ∀ str, values.get? value = some (.strRef str) → str.index < Entity.limit

namespace Reader

variable {body : Body} {rest : List Token}

lemma gives_entity {kind : Kind} {e : Entity kind} (h : e.index < Entity.limit) :
    (entity kind).Gives [.word e.text] rest (· = e.index) :=
  gives_take (by simp [entityIndex?_text h])

lemma gives_valueType (type : ValueType) : valueType.Gives [.word type.name] rest (· = type) :=
  gives_take (by simp)

/-! ### Operands -/

lemma operandText_cases {value : Value} (h : Numbered body.values value) :
    (∃ str : Str, str.index < Entity.limit ∧ body.operandText value = str.text ∧
        OperandTree.ofValue body.values value = .str str.index) ∨
      body.operandText value = value.text ∧
        OperandTree.ofValue body.values value = .value value.index := by
  unfold Body.operandText OperandTree.ofValue
  cases hvalue : body.values.get? value with
  | none => exact .inr ⟨rfl, rfl⟩
  | some d =>
    cases d with
    | strRef str => exact .inl ⟨str, h.2 str hvalue, rfl, rfl⟩
    | param => exact .inr ⟨rfl, rfl⟩
    | inst => exact .inr ⟨rfl, rfl⟩
    | undefined => exact .inr ⟨rfl, rfl⟩

lemma gives_operand {value : Value} (h : Numbered body.values value) :
    operand.Gives (body.operandTokens value) rest (· = .ofValue body.values value) := by
  apply gives_take
  rcases operandText_cases h with ⟨str, hstr, htext, htree⟩ | ⟨htext, htree⟩
  · simp [htext, htree, entityIndex?_text hstr]
  · simp [htext, htree, entityIndex?_text h.1, entityIndex?_text_of_ne (show Kind.str ≠ .value by decide)]

lemma eq_map_of_forall₂ {α β : Type} {f : α → β} {as : List α} {bs : List β}
    (h : List.Forall₂ (fun a b => b = f a) as bs) : bs = as.map f := by
  induction h with
  | nil => rfl
  | cons hhead _ ih => rw [List.map_cons, hhead, ih]

lemma gives_operands {values : List Value} (h : ∀ v ∈ values, Numbered body.values v) :
    (parenthesized operand).Gives (parenTokens (values.map body.operandTokens)) rest
      (· = values.map (.ofValue body.values)) := by
  refine (gives_parenthesized (fun v hv rest => gives_operand (h v hv)) ?_).imp
    fun _ => eq_map_of_forall₂
  exact fun v _ => ⟨_, [], rfl, by simp⟩

/-- A target whose block and arguments have numbers that can be written. -/
def NumberedTarget (values : Table .value Def) (target : Target) : Prop :=
  target.block.index < Entity.limit ∧ ∀ arg ∈ target.args, Numbered values arg

lemma gives_target {tgt : Target} (h : NumberedTarget body.values tgt) :
    target.Gives (body.targetTokens tgt) rest (· = .ofTarget body.values tgt) := by
  unfold target
  refine gives_bind_one (gives_entity h.1) fun block hblock => ?_
  rw [← List.append_nil (parenTokens _)]
  refine gives_bind (gives_operands h.2) fun args hargs => ?_
  rw [hblock, hargs]
  exact gives_pure rfl

/-! ### Instructions -/

lemma gives_binary {left right : Value} (op : BinaryOp) (hleft : Numbered body.values left)
    (hright : Numbered body.values right) :
    Gives (do
      let left ← operand
      expect .comma
      let right ← operand
      pure (OpTree.binary op left right)) (body.operandsTokens [left, right]) rest
      (OpTree.Spells body.values (.binary op) [left, right]) := by
  refine gives_bind_one (gives_operand hleft) fun a ha => ?_
  refine gives_bind_one gives_expect fun _ _ => ?_
  refine gives_bind_one (gives_operand hright) fun b hb => ?_
  rw [ha, hb]
  exact gives_pure (.binary op left right)

lemma gives_integer (n : Int) : integerLiteral.Gives [.int n] rest (· = n) := gives_take rfl

lemma gives_operation {op : Operator} {args : List Value} {module : Module}
    (haccepts : op.Accepts module args) (hcallee : module.funcs.size ≤ Entity.limit)
    (h : ∀ v ∈ args, Numbered body.values v) :
    operation.Gives (body.opTokens op args) rest (OpTree.Spells body.values op args) := by
  unfold operation
  refine gives_bind_none gives_line fun line _ => ?_
  cases op with
  | nop =>
    subst haccepts
    refine gives_bind_one gives_word fun _ hname => ?_
    subst hname
    exact gives_pure .nop
  | const32 c =>
    subst haccepts
    refine gives_bind_one gives_word fun _ hname => ?_
    subst hname
    change (OpTree.const32 <$> integerLiteral).Gives _ _ _
    refine (gives_map (gives_integer _)).imp ?_
    rintro _ ⟨_, rfl, rfl⟩
    exact .const32 c
  | const64 c =>
    subst haccepts
    refine gives_bind_one gives_word fun _ hname => ?_
    subst hname
    change (OpTree.const64 <$> integerLiteral).Gives _ _ _
    refine (gives_map (gives_integer _)).imp ?_
    rintro _ ⟨_, rfl, rfl⟩
    exact .const64 c
  | binary op =>
    obtain ⟨left, right, rfl⟩ := haccepts
    refine gives_bind_one gives_word fun _ hname => ?_
    subst hname
    have hleft := h left (by simp)
    have hright := h right (by simp)
    cases op <;> exact gives_binary _ hleft hright
  | call callee =>
    refine gives_bind_one gives_word fun _ hname => ?_
    subst hname
    refine gives_bind_one (gives_entity (haccepts.trans_le hcallee)) fun index hindex => ?_
    rw [← List.append_nil (parenTokens _)]
    refine gives_bind (gives_operands h) fun args hargs => ?_
    rw [hindex, hargs]
    exact gives_pure (.call callee _)

/-! ### Terminators -/

/-- Whether the tokens start with an operand. -/
def startsOperand (rest : List Token) : Bool :=
  match rest.head? with
  | some (.word name) => (entityIndex? .value name).isSome || (entityIndex? .str name).isSome
  | _ => false

lemma gives_atOperand : atOperand.Gives [] rest (· = startsOperand rest) := by
  unfold atOperand
  refine gives_bind_none gives_peek fun found hfound => ?_
  rw [hfound, List.nil_append]
  unfold startsOperand
  cases rest.head? with
  | none => exact gives_pure rfl
  | some t => cases t <;> exact gives_pure rfl

lemma startsOperand_operand {value : Value} (h : Numbered body.values value) (ts : List Token) :
    startsOperand (body.operandTokens value ++ ts) = true := by
  rcases operandText_cases h with ⟨str, hstr, htext, -⟩ | ⟨htext, -⟩
  · simp [startsOperand, Body.operandTokens, htext, entityIndex?_text hstr]
  · simp [startsOperand, Body.operandTokens, htext, entityIndex?_text h.1]

/-- Neither a comma nor an operand comes next. -/
def NoOperand (rest : List Token) : Prop :=
  rest.head? ≠ some .comma ∧ startsOperand rest = false

lemma gives_bareOperands {values : List Value} (h : ∀ v ∈ values, Numbered body.values v)
    (hrest : NoOperand rest) :
    bareOperands.Gives (body.operandsTokens values) rest
      (· = values.map (.ofValue body.values)) := by
  unfold bareOperands
  refine gives_bind_none gives_atOperand fun found hfound => ?_
  cases values with
  | nil =>
    have hnone : found = false := hfound.trans hrest.2
    rw [hnone, if_neg Bool.false_ne_true]
    exact gives_pure rfl
  | cons value values =>
    have hsome : found = true := by
      rw [hfound]
      cases values with
      | nil => exact startsOperand_operand (h value (by simp)) rest
      | cons value' values =>
        have hstart := startsOperand_operand (h value (by simp))
          (.comma :: commaTokens ((value' :: values).map body.operandTokens) ++ rest)
        simpa [Body.operandsTokens, commaTokens] using hstart
    rw [hsome, if_pos rfl]
    apply gives_iterate
    intro n hn
    have hle := le_length_commaTokens (body.operandTokens value) (values.map body.operandTokens)
    rw [List.length_map, ← List.map_cons] at hle
    refine (gives_bare [] (fun v hv rest => gives_operand (h v hv)) .nil ?_ hrest.1).imp
      fun _ => eq_map_of_forall₂
    rw [Body.operandsTokens] at hn
    omega

/-- The operands and targets of a terminator have numbers that can be written. -/
structure NumberedTerminator (values : Table .value Def) (term : Terminator) : Prop where
  operands : ∀ v ∈ term.operands, Numbered values v
  targets : ∀ target ∈ term.targets, target.block.index < Entity.limit

lemma NumberedTerminator.target {values : Table .value Def} {term : Terminator} {tgt : Target}
    (h : NumberedTerminator values term) (ht : tgt ∈ term.targets) : NumberedTarget values tgt :=
  ⟨h.targets tgt ht, fun arg harg => h.operands arg (Terminator.mem_operands ht harg)⟩

/-- A terminator that is not missing, with the word it starts with taken already. -/
lemma gives_terminator {term : Terminator} (h : NumberedTerminator body.values term)
    (hmissing : term ≠ .missing) (hrest : NoOperand rest) :
    ∃ keyword ts, body.terminatorTokens term = .word keyword :: ts ∧
      entityIndex? .value keyword = none ∧
      ∀ line, (terminator line keyword).Gives ts rest (TermTree.Spells body.values term) := by
  cases term with
  | jump tgt =>
    refine ⟨"br", _, rfl, by decide, fun line => ?_⟩
    refine (gives_map (gives_target (h.target List.mem_cons_self))).imp ?_
    rintro _ ⟨_, rfl, rfl⟩
    exact .jump tgt
  | branch cond onTrue onFalse =>
    refine ⟨"if", _, rfl, by decide, fun line => ?_⟩
    have htrue : NumberedTarget body.values onTrue := h.target (by simp [Terminator.targets])
    have hfalse : NumberedTarget body.values onFalse := h.target (by simp [Terminator.targets])
    refine gives_bind (gives_operand (h.operands cond List.mem_cons_self))
      fun c hc => ?_
    refine gives_bind_one gives_expect fun _ _ => ?_
    refine gives_bind (gives_target htrue) fun a ha => ?_
    refine gives_bind_one gives_expect fun _ _ => ?_
    rw [← List.append_nil (body.targetTokens onFalse)]
    refine gives_bind (gives_target hfalse) fun b hb => ?_
    rw [hc, ha, hb]
    exact gives_pure (.branch cond onTrue onFalse)
  | ret values =>
    refine ⟨"return", _, rfl, by decide, fun line => ?_⟩
    refine (gives_map (gives_bareOperands h.operands hrest)).imp ?_
    rintro _ ⟨_, rfl, rfl⟩
    exact .ret values
  | unreachable =>
    refine ⟨"unreachable", _, rfl, by decide, fun line => ?_⟩
    exact gives_pure .unreachable
  | missing => exact absurd rfl hmissing

/-! ### Blocks -/

/-- What a block of a module holds can be written. -/
structure NumberedBlock (module : Module) (values : Table .value Def) (data : BlockData) : Prop where
  params : ∀ p ∈ data.params, p.2.index < Entity.limit
  insts : ∀ v ∈ data.insts, v.index < Entity.limit ∧ ∃ op args types,
    values.get? v = some (.inst op args types) ∧ op.Accepts module args ∧
      ∀ arg ∈ args, Numbered values arg
  term : NumberedTerminator values data.terminator
  finished : data.terminator ≠ .missing

lemma gives_blockParam {p : ValueType × Value} (h : p.2.index < Entity.limit) :
    blockParam.Gives [.word p.2.text, .colon, .word p.1.name] rest (· = (p.2.index, p.1)) := by
  unfold blockParam
  refine gives_bind_one (gives_entity h) fun name hname => ?_
  refine gives_bind_one gives_expect fun _ _ => ?_
  refine gives_bind_one (gives_valueType p.1) fun type htype => ?_
  rw [hname, htype]
  exact gives_pure rfl

/-- The rest of a block, `before` being the instructions that were read already. -/
lemma gives_insts {module : Module} {data : BlockData} (hfuncs : module.funcs.size ≤ Entity.limit)
    (h : NumberedBlock module body.values data) (hrest : NoOperand rest) (before : List Value)
    {insts : List Value} {acc : List InstTree} {n : Nat} (hinsts : data.insts = before ++ insts)
    (hacc : List.Forall₂ (InstTree.Spells body.values) before acc.reverse)
    (hn : insts.length < n) :
    (rounds (fun insts => do
      let line ← line
      let keyword ← word .instOrTerminator
      match entityIndex? .value keyword with
      | some result =>
        expect .equals
        let op ← operation
        pure (.inl (⟨line, result, op⟩ :: insts))
      | none =>
        let term ← terminator line keyword
        pure (.inr (insts.reverse, term, line))) n acc).Gives
      (insts.flatMap body.instTokens ++ body.terminatorTokens data.terminator) rest
      fun r => List.Forall₂ (InstTree.Spells body.values) data.insts r.1 ∧
        TermTree.Spells body.values data.terminator r.2.1 := by
  obtain ⟨n, rfl⟩ := Nat.exists_eq_succ_of_ne_zero (Nat.ne_zero_of_lt hn)
  induction insts generalizing before acc n with
  | nil =>
    obtain ⟨keyword, ts, htokens, hkeyword, hterm⟩ := gives_terminator h.term h.finished hrest
    rw [List.append_nil] at hinsts
    apply gives_rounds_last
    rw [List.flatMap_nil, List.nil_append, htokens]
    refine gives_bind_none gives_line fun line _ => ?_
    refine gives_bind_one gives_word fun found hfound => ?_
    rw [hfound, hkeyword, ← List.append_nil ts]
    refine gives_bind (hterm line) fun term hspells => ?_
    exact gives_pure ⟨_, rfl, hinsts ▸ hacc, hspells⟩
  | cons v insts ih =>
    obtain ⟨n, rfl⟩ : ∃ k, n = k + 1 := Nat.exists_eq_succ_of_ne_zero (by simp at hn; omega)
    obtain ⟨hv, op, args, types, hget, haccepts, hargs⟩ := h.insts v (by simp [hinsts])
    have htokens : body.instTokens v = .word v.text :: .equals :: body.opTokens op args := by
      rw [Body.instTokens, hget]
    rw [List.flatMap_cons, List.append_assoc, htokens]
    refine gives_rounds_more
      (S := fun acc => List.Forall₂ (InstTree.Spells body.values) (before ++ [v]) acc.reverse) ?_ ?_
    · refine gives_bind_none gives_line fun line _ => ?_
      refine gives_bind_one gives_word fun found hfound => ?_
      rw [hfound, entityIndex?_text hv]
      refine gives_bind_one gives_expect fun _ _ => ?_
      rw [← List.append_nil (body.opTokens op args)]
      refine gives_bind (gives_operation haccepts hfuncs hargs) fun tree hspells => ?_
      exact gives_pure ⟨_, rfl, forall₂_concat hacc ⟨rfl, op, args, types, hget, hspells⟩⟩
    · intro acc' hacc'
      exact ih (before ++ [v]) (by simpa using hinsts) hacc' n (by simpa using hn)

lemma gives_blockInside {module : Module} {data : BlockData} (hfuncs : module.funcs.size ≤ Entity.limit)
    (h : NumberedBlock module body.values data) (hrest : NoOperand rest) :
    blockInside.Gives (data.insts.flatMap body.instTokens ++ body.terminatorTokens data.terminator)
      rest fun r => List.Forall₂ (InstTree.Spells body.values) data.insts r.1 ∧
        TermTree.Spells body.values data.terminator r.2.1 := by
  apply gives_iterate
  intro n hn
  have hle : data.insts.length ≤ (data.insts.flatMap body.instTokens).length := by
    apply le_length_flatMap
    intro v hv
    obtain ⟨-, op, args, types, hget, -⟩ := h.insts v hv
    simp [Body.instTokens, hget]
  rw [List.length_append] at hn
  exact gives_insts hfuncs h hrest [] rfl .nil (by omega)

lemma gives_block {module : Module} {block : Block} {data : BlockData}
    (hfuncs : module.funcs.size ≤ Entity.limit) (hblock : block.index < Entity.limit)
    (hget : body.blocks.get? block = some data) (h : NumberedBlock module body.values data)
    (hrest : NoOperand rest) :
    Reader.block.Gives (body.blockTokens block) rest (BlockTree.Spells body.values block data) := by
  rw [Body.blockTokens, hget]
  unfold Reader.block
  refine gives_bind_none gives_line fun line _ => ?_
  refine gives_bind_one (gives_entity hblock) fun name hname => ?_
  have hparams : ∀ rest, (parenthesized blockParam).Gives
      (parenTokens (data.params.map fun p => [.word p.2.text, .colon, .word p.1.name])) rest
      (· = data.params.map fun p => (p.2.index, p.1)) := fun rest =>
    (gives_parenthesized (fun p hp rest => gives_blockParam (h.params p hp))
      (fun p _ => ⟨_, _, rfl, by simp⟩)).imp fun _ => eq_map_of_forall₂
  refine gives_bind (hparams _) fun params hparams => ?_
  refine gives_bind_one gives_expect fun _ _ => ?_
  rw [← List.append_nil (_ ++ body.terminatorTokens _)]
  refine gives_bind (gives_blockInside hfuncs h hrest) fun r hr => ?_
  exact gives_pure ⟨⟨hname, hparams⟩, hr.1, hr.2⟩

/-- What follows a block of a body, another one or the closing brace, is no operand. -/
lemma noOperand_of_blocks {blocks : List Block}
    (h : ∀ block ∈ blocks, ∃ data, body.blocks.get? block = some data) :
    NoOperand (blocks.flatMap body.blockTokens ++ .closeBrace :: rest) := by
  cases blocks with
  | nil => exact ⟨by simp, rfl⟩
  | cons block blocks =>
    obtain ⟨data, hget⟩ := h block List.mem_cons_self
    have htokens : ∃ ts, (block :: blocks).flatMap body.blockTokens ++ .closeBrace :: rest =
        .word block.text :: ts := by
      simp [Body.blockTokens, hget]
    obtain ⟨ts, hts⟩ := htokens
    rw [hts]
    refine ⟨by simp, ?_⟩
    simp [startsOperand, entityIndex?_text_of_ne (show Kind.value ≠ .block by decide),
      entityIndex?_text_of_ne (show Kind.str ≠ .block by decide)]

/-- The blocks of a body up to the closing brace, `before` being those that were read already. -/
lemma gives_moreBlocks {module : Module} (hfuncs : module.funcs.size ≤ Entity.limit)
    (hblocks : ∀ block ∈ body.displayOrder, block.index < Entity.limit ∧
      ∃ data, body.blocks.get? block = some data ∧ NumberedBlock module body.values data)
    (before : List Block) {blocks : List Block} {acc : List BlockTree} {n : Nat}
    (horder : body.displayOrder = before ++ blocks)
    (hacc : List.Forall₂ (fun block tree => ∃ data, body.blocks.get? block = some data ∧
      BlockTree.Spells body.values block data tree) before acc.reverse)
    (hn : blocks.length < n) :
    (rounds (fun acc => do
      if ← eat .closeBrace then pure (.inr acc.reverse) else pure (.inl ((← block) :: acc)))
      n acc).Gives (blocks.flatMap body.blockTokens ++ [.closeBrace]) rest
      (BlockTree.SpellAll body) := by
  obtain ⟨n, rfl⟩ := Nat.exists_eq_succ_of_ne_zero (Nat.ne_zero_of_lt hn)
  induction blocks generalizing before acc n with
  | nil =>
    rw [List.append_nil] at horder
    apply gives_rounds_last
    refine gives_bind_one gives_eat fun _ h => ?_
    rw [h, if_pos rfl]
    refine gives_pure ⟨_, rfl, ?_⟩
    rwa [BlockTree.SpellAll, horder]
  | cons block blocks ih =>
    obtain ⟨n, rfl⟩ : ∃ k, n = k + 1 := Nat.exists_eq_succ_of_ne_zero (by simp at hn; omega)
    obtain ⟨hblock, data, hget, hnumbered⟩ := hblocks block (by simp [horder])
    rw [List.flatMap_cons, List.append_assoc]
    refine gives_rounds_more (S := fun acc => List.Forall₂ (fun block tree =>
      ∃ data, body.blocks.get? block = some data ∧ BlockTree.Spells body.values block data tree)
        (before ++ [block]) acc.reverse) ?_ ?_
    · have hhead : ∀ us, (body.blockTokens block ++ us).head? = some (.word block.text) := by
        intro us
        simp [Body.blockTokens, hget]
      refine gives_bind_none (gives_eat_none ?_) fun _ h => ?_
      · simp [hhead]
      rw [h, if_neg Bool.false_ne_true, ← List.append_nil (body.blockTokens block)]
      refine gives_bind (gives_block hfuncs hblock hget hnumbered ?_) fun tree htree => ?_
      · have hfollow : ∀ b ∈ blocks, ∃ data, body.blocks.get? b = some data := fun b hb =>
          (hblocks b (by simp [horder, hb])).2.imp fun _ h => h.1
        have hrest : NoOperand (blocks.flatMap body.blockTokens ++ .closeBrace :: rest) :=
          noOperand_of_blocks hfollow
        simpa using hrest
      · exact gives_pure ⟨_, rfl, forall₂_concat hacc ⟨data, hget, htree⟩⟩
    · intro acc' hacc'
      exact ih (before ++ [block]) (by simpa using horder) hacc' n (by simpa using hn)

/-- What a body of a module holds can be written. -/
def NumberedBody (module : Module) (body : Body) : Prop :=
  ∀ block ∈ body.displayOrder, block.index < Entity.limit ∧
    ∃ data, body.blocks.get? block = some data ∧ NumberedBlock module body.values data

lemma gives_blocks {module : Module} (hfuncs : module.funcs.size ≤ Entity.limit)
    (h : NumberedBody module body) :
    blocks.Gives (body.displayOrder.flatMap body.blockTokens ++ [.closeBrace]) rest
      (BlockTree.SpellAll body) := by
  apply gives_iterate
  intro n hn
  have hle : body.displayOrder.length ≤ (body.displayOrder.flatMap body.blockTokens).length := by
    apply le_length_flatMap
    intro block hblock
    obtain ⟨-, data, hget, -⟩ := h block hblock
    simp [Body.blockTokens, hget]
  rw [List.length_append] at hn
  exact gives_moreBlocks hfuncs h [] rfl .nil (by omega)

/-! ### Modules -/

lemma gives_types (types : List ValueType) :
    (parenthesized valueType).Gives (typesTokens types) rest (· = types) := by
  refine (gives_parenthesized (fun type _ rest => gives_valueType type) ?_).imp ?_
  · exact fun type _ => ⟨_, [], rfl, by simp⟩
  · intro found hfound
    simpa using eq_map_of_forall₂ (f := id) hfound

lemma gives_funcType {type : FuncType} (line : Nat) (hreturns : type.returns.length ≤ 1) :
    (funcType line).Gives type.printedTokens rest (· = type) := by
  unfold funcType FuncType.printedTokens
  refine gives_bind_one gives_expect fun _ _ => ?_
  refine gives_bind (gives_types type.params) fun params hparams => ?_
  refine gives_bind_one gives_expect fun _ _ => ?_
  rw [← List.append_nil (typesTokens type.returns)]
  refine gives_bind (gives_types type.returns) fun returns hreturns' => ?_
  rw [hreturns', if_neg (by omega), hparams]
  exact gives_pure rfl

lemma gives_stringLiteral (s : String) : stringLiteral.Gives [.str s] rest (· = s) := gives_take rfl

/-- The entity of a function's signature and what its body holds can be written. -/
structure NumberedDecl (module : Module) (decl : Decl) : Prop where
  signature : decl.signature.index < Entity.limit
  body : ∀ body ∈ decl.body?, NumberedBody module body

lemma gives_func {module : Module} {decl : Decl} (hfuncs : module.funcs.size ≤ Entity.limit)
    (h : NumberedDecl module decl) (line : Nat) :
    (func line).Gives decl.printedTokens rest (FuncTree.Spells decl) := by
  unfold func
  cases decl with
  | imported signature name =>
    refine gives_bind_one gives_expect fun _ _ => ?_
    refine gives_bind_none gives_line fun kindLine _ => ?_
    refine gives_bind_one gives_word fun kind hkind => ?_
    refine gives_bind_one (gives_stringLiteral name) fun found hname => ?_
    refine gives_bind_one gives_expect fun _ _ => ?_
    refine gives_bind_one (gives_entity h.signature) fun index hindex => ?_
    subst hkind hname hindex
    exact gives_pure ⟨rfl, rfl, fun _ => rfl, by simp⟩
  | defined signature name body =>
    refine gives_bind_one gives_expect fun _ _ => ?_
    refine gives_bind_none gives_line fun kindLine _ => ?_
    refine gives_bind_one gives_word fun kind hkind => ?_
    refine gives_bind_one (gives_stringLiteral name) fun found hname => ?_
    refine gives_bind_one gives_expect fun _ _ => ?_
    refine gives_bind_one (gives_entity h.signature) fun index hindex => ?_
    subst hkind hname hindex
    refine gives_bind_one gives_expect fun _ _ => ?_
    rw [← List.append_nil (_ ++ [Token.closeBrace])]
    refine gives_bind (gives_blocks hfuncs (h.body body rfl)) fun trees htrees => ?_
    have hempty : trees.isEmpty = false := by
      cases trees with
      | nil => simp [BlockTree.SpellAll, Body.displayOrder] at htrees
      | cons => rfl
    rw [hempty, if_neg Bool.false_ne_true]
    refine gives_pure ⟨rfl, rfl, by simp, ?_⟩
    rintro _ ⟨⟩
    exact ⟨trees, rfl, htrees⟩

lemma gives_checkNumber {line index : Nat} {kind : Kind} {name : String} :
    (checkNumber line kind index index name).Gives [] rest fun _ => True := by
  rw [checkNumber, if_pos rfl]
  exact gives_pure trivial

lemma gives_item_type {tree : ModuleTree} {type : FuncType} (hreturns : type.returns.length ≤ 1)
    (hlimit : tree.types.size < Entity.limit) :
    (item tree).Gives (.word (⟨tree.types.size⟩ : Signature).text :: type.printedTokens) rest
      (· = { tree with types := tree.types.push type }) := by
  have hindex : entityIndex? .signature (⟨tree.types.size⟩ : Signature).text =
      some tree.types.size := entityIndex?_text hlimit
  unfold item
  refine gives_bind_none gives_line fun line _ => ?_
  refine gives_bind_one gives_word fun name hname => ?_
  rw [hname, hindex]
  refine gives_bind_none gives_checkNumber fun _ _ => ?_
  rw [← List.append_nil type.printedTokens]
  refine gives_bind (gives_funcType line hreturns) fun found hfound => ?_
  rw [hfound]
  exact gives_pure rfl

lemma gives_item_string {tree : ModuleTree} {s : String} (hlimit : tree.strings.size < Entity.limit) :
    (item tree).Gives [.word (⟨tree.strings.size⟩ : Str).text, .equals, .str s] rest
      (· = { tree with strings := tree.strings.push s }) := by
  have hindex : entityIndex? .str (⟨tree.strings.size⟩ : Str).text = some tree.strings.size :=
    entityIndex?_text hlimit
  unfold item
  refine gives_bind_none gives_line fun line _ => ?_
  refine gives_bind_one gives_word fun name hname => ?_
  rw [hname, entityIndex?_text_of_ne (show Kind.signature ≠ .str by decide), hindex]
  refine gives_bind_none gives_checkNumber fun _ _ => ?_
  refine gives_bind_one gives_expect fun _ _ => ?_
  refine gives_bind_one (gives_stringLiteral s) fun found hfound => ?_
  rw [hfound]
  exact gives_pure rfl

lemma gives_item_func {module : Module} {tree : ModuleTree} {decl : Decl}
    (hfuncs : module.funcs.size ≤ Entity.limit) (h : NumberedDecl module decl)
    (hlimit : tree.funcs.size < Entity.limit) :
    (item tree).Gives (.word (⟨tree.funcs.size⟩ : Func).text :: decl.printedTokens) rest fun tree' =>
      ∃ f, FuncTree.Spells decl f ∧ tree' = { tree with funcs := tree.funcs.push f } := by
  have hindex : entityIndex? .func (⟨tree.funcs.size⟩ : Func).text = some tree.funcs.size :=
    entityIndex?_text hlimit
  unfold item
  refine gives_bind_none gives_line fun line _ => ?_
  refine gives_bind_one gives_word fun name hname => ?_
  rw [hname, entityIndex?_text_of_ne (show Kind.signature ≠ .func by decide),
    entityIndex?_text_of_ne (show Kind.str ≠ .func by decide), hindex]
  refine gives_bind_none gives_checkNumber fun _ _ => ?_
  rw [← List.append_nil decl.printedTokens]
  refine gives_bind (gives_func hfuncs h line) fun f hf => ?_
  exact gives_pure ⟨f, hf, rfl⟩

end Reader

end Source

end EntryTrace
