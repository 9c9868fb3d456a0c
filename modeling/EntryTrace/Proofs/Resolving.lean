import EntryTrace.Proofs.Interning
import EntryTrace.Source.Resolve

/-!
# Resolving that succeeds

For each step from syntax trees to modules this file says when it finds nothing wrong, and what
it answers then. Lines and the causes of errors do not show in these statements, so a step that
succeeds does so on any line.
-/

namespace EntryTrace

/-- A block as it is apart from the edges at it. -/
def BlockData.withoutEdges (b : BlockData) : BlockData := { b with succs := [], preds := [] }

/-- The blocks of a body as they are apart from the edges, which are entered from both ends. -/
def Body.outline (body : Body) : Table .block BlockData := body.blocks.map BlockData.withoutEdges

@[simp] lemma Body.size_outline (body : Body) : body.outline.size = body.blocks.size :=
  Table.size_map _ _

/-- A body with one more value. -/
def Body.withValue (body : Body) (d : Def) : Body :=
  { body with values := body.values.append d }

/-- A body whose last value is the next parameter of a block. -/
def Body.withParam (body : Body) (block : Block) (position : Nat) (type : ValueType) : Body :=
  { body.withValue (.param block position type) with
    blocks := body.blocks.modify block fun b =>
      { b with params := b.params ++ [(type, ⟨body.values.size⟩)] }
    home := body.home.set ⟨body.values.size⟩ block }

/-- A body whose last value is the last instruction of a block. -/
def Body.withInst (body : Body) (block : Block) (d : Def) : Body :=
  { body.withValue d with
    blocks := body.blocks.modify block fun b => { b with insts := b.insts ++ [⟨body.values.size⟩] }
    home := body.home.set ⟨body.values.size⟩ block }

/-- The values have the types, one by one. -/
def Body.HasTypes (body : Body) (values : List Value) (types : List ValueType) : Prop :=
  List.Forall₂ (fun value type => (body.values.get? value).bind Def.type? = some type) values types

namespace Body

@[simp] lemma addParam_eq_ok {body : Body} {block : Block} {type : ValueType} {r : Value × Body} :
    (body.addParam block type : Except Fault _) = .ok r ↔
      ∃ data, body.blocks.get? block = some data ∧ body.values.size < Entity.limit ∧
        r = (⟨body.values.size⟩, body.withParam block data.params.length type) := by
  simp only [addParam, bind_eq_ok, Table.get_eq_ok, addValue_eq_ok, Table.update_eq_ok,
    pure_eq_ok, Except.ok.injEq]
  constructor
  · rintro ⟨data, hdata, _, ⟨hsize, rfl⟩, _, ⟨-, rfl⟩, rfl⟩
    exact ⟨data, hdata, hsize, rfl⟩
  · rintro ⟨data, hdata, hsize, rfl⟩
    exact ⟨data, hdata, _, ⟨hsize, rfl⟩, _, ⟨Table.get?_lt hdata, rfl⟩, rfl⟩

@[simp] lemma addBlock_eq_ok {body : Body} {r : Block × Body} :
    (body.addBlock : Except Fault _) = .ok r ↔
      body.blocks.size < Entity.limit ∧
        r = (⟨body.blocks.size⟩, { body with blocks := body.blocks.append {} }) := by
  simp only [addBlock, note_silent, ok_bind, bind_eq_ok, Table.push_eq_ok, pure_eq_ok,
    Except.ok.injEq]
  constructor
  · rintro ⟨_, ⟨h, rfl⟩, rfl⟩
    exact ⟨h, rfl⟩
  · rintro ⟨h, rfl⟩
    exact ⟨_, ⟨h, rfl⟩, rfl⟩

@[simp] lemma appendInst_eq_ok {body body' : Body} {block : Block} {value : Value} :
    (body.appendInst block value : Except Fault _) = .ok body' ↔
      block.index < body.blocks.size ∧
        body' = { body with
          blocks := body.blocks.modify block fun b => { b with insts := b.insts ++ [value] }
          home := body.home.set value block } := by
  simp only [appendInst, bind_eq_ok, Table.update_eq_ok, pure_eq_ok, Except.ok.injEq]
  constructor
  · rintro ⟨_, ⟨h, rfl⟩, rfl⟩
    exact ⟨h, rfl⟩
  · rintro ⟨h, rfl⟩
    exact ⟨_, ⟨h, rfl⟩, rfl⟩

lemma addEdge_effect {body body' : Body} {source destination : Block}
    (h : (body.addEdge source destination : Except Fault _) = .ok body') :
    body' = { body with blocks := body'.blocks } ∧ body'.outline = body.outline := by
  simp only [addEdge, bind_eq_ok, Table.update_eq_ok, note_silent, ok_bind, pure_eq_ok,
    Except.ok.injEq] at h
  obtain ⟨_, ⟨-, rfl⟩, _, ⟨-, rfl⟩, rfl⟩ := h
  refine ⟨rfl, ?_⟩
  rw [outline, Table.map_modify_of_eq, Table.map_modify_of_eq]
  · rfl
  · exact fun _ => rfl
  · exact fun _ => rfl

lemma addEdges_effect {body body' : Body} {source : Block} {destinations : List Block}
    (h : (body.addEdges source destinations : Except Fault _) = .ok body') :
    body' = { body with blocks := body'.blocks } ∧ body'.outline = body.outline := by
  induction destinations generalizing body with
  | nil =>
    rw [addEdges, pure_eq_ok, Except.ok.injEq] at h
    subst h
    exact ⟨rfl, rfl⟩
  | cons destination rest ih =>
    rw [addEdges, bind_eq_ok] at h
    obtain ⟨next, hnext, hrest⟩ := h
    obtain ⟨hbody, houtline⟩ := addEdge_effect hnext
    obtain ⟨hbody', houtline'⟩ := ih hrest
    refine ⟨?_, houtline'.trans houtline⟩
    rw [hbody', hbody]

/-- Ending a block sets its terminator; apart from that only edges change. -/
lemma endBlock_effect {body body' : Body} {block : Block} {terminator : Terminator}
    (h : (body.endBlock block terminator : Except Fault _) = .ok body') :
    body' = { body with blocks := body'.blocks } ∧ block.index < body.blocks.size ∧
      body'.outline = body.outline.modify block fun b => { b with terminator } := by
  simp only [endBlock, bind_eq_ok, Table.update_eq_ok, pure_eq_ok, Except.ok.injEq] at h
  obtain ⟨next, hnext, _, ⟨hblock, rfl⟩, rfl⟩ := h
  obtain ⟨hbody, houtline⟩ := addEdges_effect hnext
  refine ⟨?_, ?_, ?_⟩
  · rw [hbody]
  · have hsize := congrArg Table.size houtline
    simp only [outline, Table.size_map] at hsize
    rwa [← hsize]
  · rw [← houtline]
    exact Table.map_modify fun _ => rfl

end Body

namespace Source

/-- The work finds nothing wrong with the text, faults nowhere, and answers `a`. -/
def Answers {α : Type} (x : Resolving (Except Fault) α) (a : α) : Prop := x.run = .ok (.ok a)

section Answers

variable {α β : Type}

@[simp] lemma answers_pure {a b : α} : Answers (pure a) b ↔ b = a := by
  simp [Answers, eq_comm]

@[simp] lemma answers_bind {x : Resolving (Except Fault) α} {f : α → Resolving (Except Fault) β}
    {b : β} : Answers (x >>= f) b ↔ ∃ a, Answers x a ∧ Answers (f a) b := by
  simp only [Answers, ExceptT.run_bind, bind_eq_ok]
  constructor
  · rintro ⟨r, hr, h⟩
    cases r with
    | error e => simp at h
    | ok a => exact ⟨a, hr, h⟩
  · rintro ⟨a, ha, h⟩
    exact ⟨.ok a, ha, h⟩

@[simp] lemma answers_step {x : Except Fault α} {a : α} : Answers (step x) a ↔ x = .ok a := by
  cases x with
  | error e => simp [Answers, step, ExceptT.run_lift, Functor.map, Except.map]
  | ok b => simp [Answers, step, ExceptT.run_lift, Functor.map, Except.map]

@[simp] lemma answers_refuse {line : Nat} {cause : Cause} {a : α} :
    ¬ Answers (refuse line cause) a := by
  simp [Answers, refuse]

lemma answers_ite {p : Prop} [Decidable p] {x y : Resolving (Except Fault) α} {a : α} :
    Answers (if p then x else y) a ↔ (p ∧ Answers x a) ∨ (¬ p ∧ Answers y a) := by
  by_cases h : p
  · simp [h]
  · simp [h]

end Answers

namespace Scope

variable {scope s t : Scope} {module : Module} {line : Nat} {block : Block}

lemma answers_define {name : Nat} {value : Value} :
    Answers (scope.define line name value) t ↔
      scope.values.lookup name = none ∧
        t = { scope with values := (name, value) :: scope.values } := by
  unfold define
  cases scope.values.lookup name with
  | some other => simp
  | none => simp

lemma answers_addParams_cons {name : Nat} {type : ValueType} {rest : List (Nat × ValueType)} :
    Answers (scope.addParams line block ((name, type) :: rest)) t ↔
      ∃ data, scope.body.blocks.get? block = some data ∧
        scope.body.values.size < Entity.limit ∧ scope.values.lookup name = none ∧
        Answers (Scope.addParams
          ⟨scope.body.withParam block data.params.length type,
            (name, ⟨scope.body.values.size⟩) :: scope.values, scope.blocks⟩ line block rest) t := by
  simp only [addParams, answers_bind, answers_step, Body.addParam_eq_ok, answers_define]
  constructor
  · rintro ⟨_, ⟨data, hdata, hsize, rfl⟩, _, ⟨hname, rfl⟩, h⟩
    exact ⟨data, hdata, hsize, hname, h⟩
  · rintro ⟨data, hdata, hsize, hname, h⟩
    exact ⟨_, ⟨data, hdata, hsize, rfl⟩, _, ⟨hname, rfl⟩, h⟩

lemma answers_openEntry {tree : BlockTree} {r : Block × Scope} :
    Answers (scope.openEntry tree) r ↔
      ∃ data, scope.body.blocks.get? scope.body.entry = some data ∧
        tree.params.map Prod.snd = data.paramTypes ∧
        Answers (scope.defineAll tree.line ((tree.params.map Prod.fst).zip data.paramValues)) r.2 ∧
        r.1 = scope.body.entry := by
  simp only [openEntry, answers_bind, answers_step, Table.get_eq_ok, answers_ite, answers_refuse,
    and_false, false_or, not_not, answers_pure]
  constructor
  · rintro ⟨data, hdata, htypes, _, h, rfl⟩
    exact ⟨data, hdata, htypes, h, rfl⟩
  · rintro ⟨data, hdata, htypes, h, hentry⟩
    exact ⟨data, hdata, htypes, r.2, h, Prod.ext hentry rfl⟩

lemma answers_openNext {tree : BlockTree} {r : Block × Scope} :
    Answers (scope.openNext tree) r ↔
      scope.body.blocks.size < Entity.limit ∧
        Answers (addParams { scope with body := { scope.body with
          blocks := scope.body.blocks.append {} } } tree.line r.1 tree.params) r.2 ∧
        r.1 = ⟨scope.body.blocks.size⟩ := by
  simp only [openNext, answers_bind, answers_step, Body.addBlock_eq_ok, answers_pure]
  constructor
  · rintro ⟨_, ⟨hsize, rfl⟩, _, h, rfl⟩
    exact ⟨hsize, h, rfl⟩
  · rintro ⟨hsize, h, hblock⟩
    exact ⟨_, ⟨hsize, rfl⟩, r.2, by rwa [hblock] at h, Prod.ext hblock rfl⟩

lemma answers_operand {tree : OperandTree} {r : Value × Scope} :
    Answers (scope.operand module line tree) r ↔
      (∃ name, tree = .value name ∧ scope.values.lookup name = some r.1 ∧ r.2 = scope) ∨
      ∃ index, tree = .str index ∧ index < module.strings.size ∧
        scope.body.values.size < Entity.limit ∧ r.1 = ⟨scope.body.values.size⟩ ∧
        r.2 = { scope with body := scope.body.withValue (.strRef ⟨index⟩) } := by
  obtain ⟨value, t⟩ := r
  cases tree with
  | value name =>
    unfold operand
    cases hname : scope.values.lookup name with
    | none => simp [hname]
    | some found => simp [hname, eq_comm]
  | str index =>
    simp only [operand, answers_ite, answers_bind, answers_step, Body.addValue_eq_ok, answers_pure,
      answers_refuse, and_false, or_false, reduceCtorEq, false_and, exists_false, false_or,
      OperandTree.str.injEq]
    constructor
    · rintro ⟨hindex, _, ⟨hsize, rfl⟩, hr⟩
      obtain ⟨rfl, rfl⟩ := Prod.mk.inj hr
      exact ⟨index, rfl, hindex, hsize, rfl, rfl⟩
    · rintro ⟨_, rfl, hindex, hsize, rfl, rfl⟩
      exact ⟨hindex, _, ⟨hsize, rfl⟩, rfl⟩

@[simp] lemma answers_operands_nil {r : List Value × Scope} :
    Answers (scope.operands module line []) r ↔ r = ([], scope) := by
  simp [operands]

lemma answers_operands_cons {tree : OperandTree} {rest : List OperandTree}
    {r : List Value × Scope} :
    Answers (scope.operands module line (tree :: rest)) r ↔
      ∃ value s values t, Answers (scope.operand module line tree) (value, s) ∧
        Answers (s.operands module line rest) (values, t) ∧ r = (value :: values, t) := by
  simp only [operands, answers_bind, answers_pure, Prod.exists]
  constructor
  · rintro ⟨value, s, h, values, t, h', rfl⟩
    exact ⟨value, s, values, t, h, h', rfl⟩
  · rintro ⟨value, s, values, t, h, h', rfl⟩
    exact ⟨value, s, h, values, t, h', rfl⟩

lemma answers_checkEach {body : Body} {consumer : Consumer} {position : Nat} {values : List Value}
    {types : List ValueType} (hlength : values.length = types.length) :
    Answers (checkEach body line consumer position values types) () ↔
      body.HasTypes values types := by
  induction values generalizing types position with
  | nil =>
    cases types with
    | nil => simp [checkEach, Body.HasTypes]
    | cons => simp at hlength
  | cons value values ih =>
    cases types with
    | nil => simp at hlength
    | cons type types =>
      have hrest := @ih (position + 1) types (by simpa using hlength)
      simp only [checkEach, answers_bind, answers_step, Table.get_eq_ok, Body.HasTypes,
        List.forall₂_cons]
      constructor
      · rintro ⟨found, hfound, h⟩
        cases hactual : found.type? with
        | none => simp [hactual] at h
        | some actual =>
          simp only [hactual, answers_ite, answers_refuse, and_false, or_false] at h
          exact ⟨by simp [hfound, hactual, h.1], hrest.1 h.2⟩
      · rintro ⟨hvalue, h⟩
        obtain ⟨found, hfound, htype⟩ := Option.bind_eq_some_iff.1 hvalue
        exact ⟨found, hfound, by simpa [htype] using hrest.2 h⟩

@[simp] lemma answers_checkTypes {body : Body} {consumer : Consumer} {values : List Value}
    {types : List ValueType} {u : Unit} :
    Answers (checkTypes body line consumer values types) u ↔ body.HasTypes values types := by
  simp only [checkTypes, answers_ite, answers_refuse, and_false, false_or, not_not]
  constructor
  · rintro ⟨hlength, h⟩
    exact (answers_checkEach hlength).1 h
  · intro h
    exact ⟨h.length_eq, (answers_checkEach h.length_eq).2 h⟩

lemma answers_operation {tree : OpTree} {r : Operator × List Value × Scope} :
    Answers (scope.operation module line tree) r ↔
      match tree with
      | .nop => r = (.nop, [], scope)
      | .const32 value => fits 32 value = true ∧ r = (.const32 (.ofInt value), [], scope)
      | .const64 value => fits 64 value = true ∧ r = (.const64 (.ofInt value), [], scope)
      | .binary op left right => ∃ a s b t, Answers (scope.operand module line left) (a, s) ∧
          Answers (s.operand module line right) (b, t) ∧ r = (.binary op, [a, b], t)
      | .call callee args => ∃ values t, callee < module.funcs.size ∧
          Answers (scope.operands module line args) (values, t) ∧ r = (.call ⟨callee⟩, values, t) := by
  cases tree with
  | nop => simp [operation]
  | const32 value => simp [operation, answers_ite]
  | const64 value => simp [operation, answers_ite]
  | binary op left right =>
    simp only [operation, answers_bind, answers_pure, Prod.exists]
    constructor
    · rintro ⟨a, s, h, b, t, h', rfl⟩
      exact ⟨a, s, b, t, h, h', rfl⟩
    · rintro ⟨a, s, b, t, h, h', rfl⟩
      exact ⟨a, s, h, b, t, h', rfl⟩
  | call callee args =>
    simp only [operation, answers_ite, answers_bind, answers_pure, answers_refuse, and_false,
      or_false, Prod.exists]
    constructor
    · rintro ⟨hcallee, values, t, h, rfl⟩
      exact ⟨values, t, hcallee, h, rfl⟩
    · rintro ⟨values, t, hcallee, h, rfl⟩
      exact ⟨hcallee, values, t, h, rfl⟩

lemma answers_addInst {tree : InstTree} :
    Answers (scope.addInst module block tree) t ↔
      ∃ op args s inputs outputs, Answers (scope.operation module tree.line tree.op) (op, args, s) ∧
        (op.inputTypes module : Except Fault _) = .ok inputs ∧ s.body.HasTypes args inputs ∧
        (op.outputTypes module : Except Fault _) = .ok outputs ∧
        s.body.values.size < Entity.limit ∧ block.index < s.body.blocks.size ∧
        s.values.lookup tree.result = none ∧
        t = ⟨s.body.withInst block (.inst op args outputs),
          (tree.result, ⟨s.body.values.size⟩) :: s.values, s.blocks⟩ := by
  simp only [addInst, answers_bind, answers_step, answers_checkTypes, Body.addValue_eq_ok,
    Body.appendInst_eq_ok, answers_define, Prod.exists]
  constructor
  · rintro ⟨op, args, s, h, inputs, hin, -, htypes, outputs, hout, _, _, ⟨hsize, hr⟩, _, ⟨hblock, rfl⟩,
      hname, rfl⟩
    obtain ⟨rfl, rfl⟩ := Prod.mk.inj hr
    exact ⟨op, args, s, inputs, outputs, h, hin, htypes, hout, hsize, hblock, hname, rfl⟩
  · rintro ⟨op, args, s, inputs, outputs, h, hin, htypes, hout, hsize, hblock, hname, rfl⟩
    exact ⟨op, args, s, h, inputs, hin, (), htypes, outputs, hout, _, _, ⟨hsize, rfl⟩, _,
      ⟨hblock, rfl⟩, hname, rfl⟩

lemma answers_target {tree : TargetTree} {r : Target × Scope} :
    Answers (scope.target module line tree) r ↔
      ∃ block args t data, scope.blocks.lookup tree.block = some block ∧
        Answers (scope.operands module line tree.args) (args, t) ∧
        t.body.blocks.get? block = some data ∧ t.body.HasTypes args data.paramTypes ∧
        r = (⟨block, args⟩, t) := by
  unfold target
  cases hblock : scope.blocks.lookup tree.block with
  | none => simp
  | some block =>
    simp only [answers_bind, answers_step, Table.get_eq_ok, answers_checkTypes, answers_pure,
      Prod.exists, Option.some.injEq]
    constructor
    · rintro ⟨args, t, h, data, hdata, -, htypes, rfl⟩
      exact ⟨block, args, t, data, rfl, h, hdata, htypes, rfl⟩
    · rintro ⟨_, args, t, data, rfl, h, hdata, htypes, rfl⟩
      exact ⟨args, t, h, data, hdata, (), htypes, rfl⟩

lemma answers_terminator {tree : TermTree} {r : Terminator × Scope} :
    Answers (scope.terminator module line tree) r ↔
      match tree with
      | .jump target => ∃ a t, Answers (scope.target module line target) (a, t) ∧ r = (.jump a, t)
      | .branch cond onTrue onFalse => ∃ c s a s' b t,
          Answers (scope.operand module line cond) (c, s) ∧ s.body.HasTypes [c] [.i32] ∧
          Answers (s.target module line onTrue) (a, s') ∧
          Answers (s'.target module line onFalse) (b, t) ∧ r = (.branch c a b, t)
      | .ret values => ∃ args t, Answers (scope.operands module line values) (args, t) ∧
          t.body.HasTypes args t.body.returns ∧ r = (.ret args, t)
      | .unreachable => r = (.unreachable, scope) := by
  cases tree with
  | jump target => simp only [terminator, answers_bind, answers_pure, Prod.exists]
  | branch cond onTrue onFalse =>
    simp only [terminator, answers_bind, answers_checkTypes, answers_pure, Prod.exists]
    constructor
    · rintro ⟨c, s, h, -, htype, a, s', h', b, t, h'', rfl⟩
      exact ⟨c, s, a, s', b, t, h, htype, h', h'', rfl⟩
    · rintro ⟨c, s, a, s', b, t, h, htype, h', h'', rfl⟩
      exact ⟨c, s, h, (), htype, a, s', h', b, t, h'', rfl⟩
  | ret values =>
    simp only [terminator, answers_bind, answers_checkTypes, answers_pure, Prod.exists]
    constructor
    · rintro ⟨args, t, h, -, htypes, rfl⟩
      exact ⟨args, t, h, htypes, rfl⟩
    · rintro ⟨args, t, h, htypes, rfl⟩
      exact ⟨args, t, h, (), htypes, rfl⟩
  | unreachable => simp [terminator]

lemma answers_fillBlock {tree : BlockTree} :
    Answers (scope.fillBlock module tree block) t ↔
      ∃ s terminator s' body, Answers (scope.addInsts module block tree.insts) s ∧
        Answers (s.terminator module tree.termLine tree.term) (terminator, s') ∧
        (s'.body.endBlock block terminator : Except Fault _) = .ok body ∧
        t = { s' with body } := by
  simp only [fillBlock, answers_bind, answers_step, answers_pure, Prod.exists]
  constructor
  · rintro ⟨s, h, terminator, s', h', body, hend, rfl⟩
    exact ⟨s, terminator, s', body, h, h', hend, rfl⟩
  · rintro ⟨s, terminator, s', body, h, h', hend, rfl⟩
    exact ⟨s, h, terminator, s', h', body, hend, rfl⟩

lemma answers_openBlocks_nil {opened : List (BlockTree × Block)}
    {r : List (BlockTree × Block) × Scope} :
    Answers (scope.openBlocks opened []) r ↔ r = (opened.reverse, scope) := by
  simp [openBlocks]

lemma answers_openBlocks_first {tree : BlockTree} {rest : List BlockTree}
    {r : List (BlockTree × Block) × Scope} :
    Answers (scope.openBlocks [] (tree :: rest)) r ↔
      ∃ block s, scope.blocks.lookup tree.name = none ∧
        Answers (scope.openEntry tree) (block, s) ∧
        Answers (openBlocks { s with blocks := (tree.name, block) :: s.blocks }
          [(tree, block)] rest) r := by
  simp only [openBlocks, List.isEmpty_nil, if_true, answers_ite, answers_bind, answers_refuse,
    and_false, false_or, Bool.not_eq_true, Option.isSome_eq_false_iff, Option.isNone_iff_eq_none,
    Prod.exists]
  constructor
  · rintro ⟨hname, block, s, h, h'⟩
    exact ⟨block, s, hname, h, h'⟩
  · rintro ⟨block, s, hname, h, h'⟩
    exact ⟨hname, block, s, h, h'⟩

lemma answers_openBlocks_next {last : BlockTree × Block} {opened : List (BlockTree × Block)}
    {tree : BlockTree} {rest : List BlockTree} {r : List (BlockTree × Block) × Scope} :
    Answers (scope.openBlocks (last :: opened) (tree :: rest)) r ↔
      ∃ block s, scope.blocks.lookup tree.name = none ∧
        Answers (scope.openNext tree) (block, s) ∧
        Answers (openBlocks { s with blocks := (tree.name, block) :: s.blocks }
          ((tree, block) :: last :: opened) rest) r := by
  simp only [openBlocks, List.isEmpty_cons, Bool.false_eq_true, if_false, answers_ite, answers_bind,
    answers_refuse, and_false, false_or, Bool.not_eq_true, Option.isSome_eq_false_iff,
    Option.isNone_iff_eq_none, Prod.exists]
  constructor
  · rintro ⟨hname, block, s, h, h'⟩
    exact ⟨block, s, hname, h, h'⟩
  · rintro ⟨block, s, hname, h, h'⟩
    exact ⟨hname, block, s, h, h'⟩

end Scope

variable {module : Module}

lemma answers_resolveBody {signature : Signature} {trees : List BlockTree} {body : Body} :
    Answers (resolveBody module signature trees) body ↔
      ∃ type empty opened s t, module.signatures.get? signature = some type ∧
        (Body.ofType type : Except Fault _) = .ok empty ∧
        Answers (Scope.openBlocks { body := empty } [] trees) (opened, s) ∧
        Answers (s.fillBlocks module opened) t ∧ body = t.body := by
  simp only [resolveBody, answers_bind, answers_step, Module.typeOf, Table.get_eq_ok, answers_pure,
    Prod.exists]
  constructor
  · rintro ⟨type, htype, empty, hempty, opened, s, h, t, h', rfl⟩
    exact ⟨type, empty, opened, s, t, htype, hempty, h, h', rfl⟩
  · rintro ⟨type, empty, opened, s, t, htype, hempty, h, h', rfl⟩
    exact ⟨type, htype, empty, hempty, opened, s, h, t, h', rfl⟩

end Source

end EntryTrace
