import EntryTrace.Proofs.OpenedBodies

/-!
# Bodies whose blocks are filled

Blocks are filled one after the other. What is added on the way is described by the body and the
naming that the work leads to in the end: the trees stand for what was added, its values are
numbered in the order in which they are read, and its types were checked.
-/

namespace EntryTrace

/-- The instruction has the types that its operator asks for, and uses values that were there
before it. -/
def Body.TypedInst (module : Module) (body : Body) (inst : Value) : Prop :=
  ∃ op args results inputs, body.values.get? inst = some (.inst op args results) ∧
    (op.inputTypes module : Except Fault _) = .ok inputs ∧ body.HasTypes args inputs ∧
    (op.outputTypes module : Except Fault _) = .ok results ∧
    ∀ arg ∈ args, arg.index < inst.index

namespace Source

/-- The trees stand for instructions of the body, whose values and pointers are numbered from
`start` on. -/
structure InstsWritten (module : Module) (naming : Naming) (body : Body) (trees : List InstTree)
    (start : Nat) (insts : List Value) (stop : Nat) : Prop where
  means : List.Forall₂ (InstTree.Means naming body) trees insts
  order : Entity.Spans start stop (insts.flatMap body.instOrder)
  typed : ∀ inst ∈ insts, body.TypedInst module inst

/-- The tree stands for a block of the body, whose values and pointers apart from the parameters
are numbered from `start` on. -/
structure BlockWritten (module : Module) (naming : Naming) (body : Body) (tree : BlockTree)
    (start : Nat) (data : BlockData) (stop : Nat) : Prop where
  insts : List.Forall₂ (InstTree.Means naming body) tree.insts data.insts
  term : tree.term.Means naming body data.terminator
  order : Entity.Spans start stop (body.blockOrder data)
  typed : ∀ inst ∈ data.insts, body.TypedInst module inst
  terminator : data.terminator.Typed body
  operands : ∀ arg ∈ data.terminator.operands, arg.index < stop

/-- The same of consecutive blocks. -/
inductive BlocksWritten (module : Module) (naming : Naming) (body : Body) :
    List BlockTree → Nat → List BlockData → Nat → Prop
  | nil (start : Nat) : BlocksWritten module naming body [] start [] start
  | cons {tree : BlockTree} {trees : List BlockTree} {start mid stop : Nat} {data : BlockData}
    {datas : List BlockData} (head : BlockWritten module naming body tree start data mid)
    (tail : BlocksWritten module naming body trees mid datas stop) :
    BlocksWritten module naming body (tree :: trees) start (data :: datas) stop

lemma BlocksWritten.order {module : Module} {naming : Naming} {body : Body}
    {trees : List BlockTree} {start stop : Nat} {datas : List BlockData}
    (h : BlocksWritten module naming body trees start datas stop) :
    Entity.Spans start stop (datas.flatMap body.blockOrder) := by
  induction h with
  | nil start => exact .nil start
  | cons head _ ih =>
    rw [List.flatMap_cons]
    exact head.order.append ih

/-- The instructions of the blocks are numbered from `start` on. -/
lemma BlocksWritten.le_index {module : Module} {naming : Naming} {body : Body}
    {trees : List BlockTree} {start stop : Nat} {datas : List BlockData}
    (h : BlocksWritten module naming body trees start datas stop) {inst : Value}
    (hinst : inst ∈ listingOf datas) : start ≤ inst.index :=
  (h.order.mem_iff.1 ((body.sublist_flatMap_blockOrder datas).subset hinst)).1

namespace Scope

variable {s t : Scope} {module : Module} {line : Nat} {block : Block} {body : Body}
  {naming : Naming}

/-- A body and a naming that a scope may lead to: what was made and named stays. -/
structure Leads (scope : Scope) (body : Body) (naming : Naming) : Prop where
  values : scope.body.values.PrefixOf body.values
  returns : body.returns = scope.body.returns
  params : ∀ block data, scope.body.blocks.get? block = some data →
    ∃ data', body.blocks.get? block = some data' ∧ data'.params = data.params
  names : scope.naming.Within naming

namespace Leads

lemma self (scope : Scope) : scope.Leads scope.body scope.naming where
  values := .refl _
  returns := rfl
  params _ data hdata := ⟨data, hdata, rfl⟩
  names := .refl _

lemma trans (h : s.Leads t.body t.naming) (h' : t.Leads body naming) : s.Leads body naming where
  values := h.values.trans h'.values
  returns := h'.returns.trans h.returns
  params block data hdata := by
    obtain ⟨data', hdata', hparams⟩ := h.params block data hdata
    obtain ⟨data'', hdata'', hparams'⟩ := h'.params block data' hdata'
    exact ⟨data'', hdata'', hparams'.trans hparams⟩
  names := h.names.trans h'.names

/-- A change to the blocks that leaves their parameters alone. -/
lemma of_outline (hvalues : s.body.values.PrefixOf t.body.values)
    (hreturns : t.body.returns = s.body.returns) {f : BlockData → BlockData}
    (houtline : t.body.outline = s.body.outline.modify block f) (hf : ∀ b, (f b).params = b.params)
    (hnames : s.naming.Within t.naming) : s.Leads t.body t.naming where
  values := hvalues
  returns := hreturns
  params _ _ hdata := Body.params_of_outline houtline hf hdata
  names := hnames

lemma of_reads (h : s.Reads t) : s.Leads t.body t.naming where
  values := h.values
  returns := by rw [h.body]
  params block data hdata := ⟨data, by rw [h.body]; exact hdata, rfl⟩
  names := by
    rw [Scope.naming, Scope.naming, h.names, h.blocks]

lemma hasTypes (h : s.Leads body naming) {values : List Value} {types : List ValueType}
    (htypes : s.body.HasTypes values types) : body.HasTypes values types :=
  htypes.mono h.values

lemma targetTyped (h : s.Leads body naming) {target : Target} (ht : target.Typed s.body) :
    target.Typed body := by
  obtain ⟨data, hdata, htypes⟩ := ht
  obtain ⟨data', hdata', hparams⟩ := h.params _ _ hdata
  refine ⟨data', hdata', ?_⟩
  rw [BlockData.paramTypes, hparams]
  exact h.hasTypes htypes

end Leads

/-! ### Operands -/

lemma operand_written {tree : OperandTree} {value : Value} (hs : s.Closed module)
    (h : Answers (s.operand module line tree) (value, t)) (ht : t.Leads body naming) :
    tree.Means naming body value ∧
      Entity.Spans s.body.values.size t.body.values.size (body.pointers [value]) := by
  rcases answers_operand.1 h with
    ⟨name, rfl, hname, rfl⟩ | ⟨index, rfl, -, -, hvalue, hscope⟩
  · obtain ⟨d, hd, hpointer⟩ := hs.values _ (mem_of_lookup hname)
    have hno : body.isPointer value = false := by
      apply Body.isPointer_eq_false (ht.values.get? hd)
      rintro str rfl
      exact hpointer trivial
    refine ⟨.value (ht.names.value _ _ hname), ?_⟩
    rw [Body.pointers, List.filter_singleton, hno]
    exact .nil _
  · simp only at hvalue hscope
    subst hvalue hscope
    have hget : body.values.get? ⟨s.body.values.size⟩ = some (.strRef ⟨index⟩) :=
      ht.values.get? (Table.get?_append_size _ _)
    refine ⟨.str hget, ?_⟩
    have hyes : body.isPointer ⟨s.body.values.size⟩ = true := Body.isPointer_iff.2 ⟨_, hget⟩
    rw [Body.pointers, List.filter_singleton, hyes, Body.withValue, Table.size_append]
    exact .single _

lemma operands_written {trees : List OperandTree} {args : List Value} (hs : s.Closed module)
    (h : Answers (s.operands module line trees) (args, t)) (ht : t.Leads body naming) :
    List.Forall₂ (OperandTree.Means naming body) trees args ∧
      Entity.Spans s.body.values.size t.body.values.size (body.pointers args) := by
  induction trees generalizing s args with
  | nil =>
    obtain ⟨rfl, rfl⟩ := Prod.mk.inj (answers_operands_nil.1 h)
    exact ⟨.nil, .nil _⟩
  | cons tree trees ih =>
    obtain ⟨value, s', args', t', hvalue, hargs, heq⟩ := answers_operands_cons.1 h
    obtain ⟨rfl, rfl⟩ := Prod.mk.inj heq
    obtain ⟨-, hs', -⟩ := operand_effect hs hvalue
    have hreads := (operands_effect hs' hargs).1
    obtain ⟨hmean, horder⟩ := operand_written hs hvalue ((Leads.of_reads hreads).trans ht)
    obtain ⟨hmeans, horder'⟩ := ih hs' hargs
    refine ⟨.cons hmean hmeans, ?_⟩
    rw [Body.pointers_cons]
    exact horder.append horder'

lemma operation_written {tree : OpTree} {op : Operator} {args : List Value} (hs : s.Closed module)
    (h : Answers (s.operation module line tree) (op, args, t)) (ht : t.Leads body naming) :
    tree.Means naming body op args ∧
      Entity.Spans s.body.values.size t.body.values.size (body.pointers args) := by
  rw [answers_operation] at h
  cases tree with
  | nop =>
    simp only [Prod.mk.injEq] at h
    obtain ⟨rfl, rfl, rfl⟩ := h
    exact ⟨.nop, .nil _⟩
  | const32 value =>
    obtain ⟨-, heq⟩ := h
    simp only [Prod.mk.injEq] at heq
    obtain ⟨rfl, rfl, rfl⟩ := heq
    exact ⟨.const32 value, .nil _⟩
  | const64 value =>
    obtain ⟨-, heq⟩ := h
    simp only [Prod.mk.injEq] at heq
    obtain ⟨rfl, rfl, rfl⟩ := heq
    exact ⟨.const64 value, .nil _⟩
  | binary binop left right =>
    obtain ⟨a, s', b, t', hleft, hright, heq⟩ := h
    simp only [Prod.mk.injEq] at heq
    obtain ⟨rfl, rfl, rfl⟩ := heq
    obtain ⟨-, hs', -⟩ := operand_effect hs hleft
    have hreads := (operand_effect hs' hright).1
    obtain ⟨hmean, horder⟩ := operand_written hs hleft ((Leads.of_reads hreads).trans ht)
    obtain ⟨hmean', horder'⟩ := operand_written hs' hright ht
    refine ⟨.binary binop hmean hmean', ?_⟩
    rw [Body.pointers_cons]
    exact horder.append horder'
  | call callee trees =>
    obtain ⟨_, _, -, hargs, heq⟩ := h
    simp only [Prod.mk.injEq] at heq
    obtain ⟨rfl, rfl, rfl⟩ := heq
    obtain ⟨hmeans, horder⟩ := operands_written hs hargs ht
    exact ⟨.call callee hmeans, horder⟩

/-! ### Instructions -/

/-- Between two scopes instructions were added to the end of a block. -/
structure Adds (block : Block) (insts : List Value) (s t : Scope) : Prop where
  heading : t.body.heading = s.body.heading
  leads : s.Leads t.body t.naming
  blocks : t.blocks = s.blocks
  outline : t.body.outline =
    s.body.outline.modify block fun b => { b with insts := b.insts ++ insts }
  edges : t.body.edges = s.body.edges
  home : ∀ v, t.body.home.get v = if v ∈ insts then block else s.body.home.get v

lemma addInst_written {tree : InstTree} (hs : s.Closed module)
    (h : Answers (s.addInst module block tree) t) :
    ∃ inst, s.Adds block [inst] t ∧ ∀ {body naming}, t.Leads body naming →
      InstsWritten module naming body [tree] s.body.values.size [inst] t.body.values.size := by
  obtain ⟨op, args, s', inputs, outputs, hop, hin, htypes, hout, -, -, hname, rfl⟩ :=
    answers_addInst.1 h
  obtain ⟨hreads, -, -, hargs⟩ := operation_effect hs hop
  let inst : Value := ⟨s'.body.values.size⟩
  have houtline : (s'.body.withInst block (.inst op args outputs)).outline =
      s'.body.outline.modify block fun b => { b with insts := b.insts ++ [inst] } :=
    Table.map_modify fun _ => rfl
  have hleads : s'.Leads (s'.body.withInst block (.inst op args outputs))
      (Scope.naming ⟨s'.body.withInst block (.inst op args outputs),
        (tree.result, inst) :: s'.values, s'.blocks⟩) :=
    .of_outline (t := ⟨s'.body.withInst block (.inst op args outputs),
        (tree.result, inst) :: s'.values, s'.blocks⟩) (Table.PrefixOf.append _ _) rfl houtline
      (fun _ => rfl) (within_define hname)
  refine ⟨inst, ⟨?_, (Leads.of_reads hreads).trans hleads, hreads.blocks, ?_, ?_, ?_⟩, ?_⟩
  · rw [hreads.body]
    rfl
  · rw [← hreads.outline, houtline]
  · have hedges : (s'.body.withInst block (.inst op args outputs)).edges = s'.body.edges :=
      Table.map_modify_of_eq fun _ => rfl
    rw [hedges, hreads.body]
    rfl
  · intro v
    have hhome : s.body.home = s'.body.home := by rw [hreads.body]
    rw [hhome, Body.withInst, SideTable.get_set]
    simp only [List.mem_singleton]
    rfl
  · intro body naming ht
    have hs' := hleads.trans ht
    have hget : body.values.get? inst = some (.inst op args outputs) :=
      ht.values.get? (Table.get?_append_size _ _)
    obtain ⟨hmean, horder⟩ := operation_written hs hop hs'
    refine ⟨.cons ⟨?_, op, args, outputs, hget, hmean⟩ .nil, ?_, ?_⟩
    · exact ht.names.value _ _ List.lookup_cons_self
    · rw [List.flatMap_singleton, Body.instOrder, Body.argsOf_eq hget, Body.withInst,
        Body.withValue, Table.size_append]
      exact horder.append (.single _)
    · intro v hv
      obtain rfl := List.mem_singleton.1 hv
      exact ⟨op, args, outputs, inputs, hget, hin, hs'.hasTypes htypes, hout, hargs⟩

lemma addInsts_written {trees : List InstTree} (hs : s.Closed module)
    (h : Answers (s.addInsts module block trees) t) :
    ∃ insts, s.Adds block insts t ∧ ∀ {body naming}, t.Leads body naming →
      InstsWritten module naming body trees s.body.values.size insts t.body.values.size := by
  induction trees generalizing s with
  | nil =>
    rw [addInsts, answers_pure] at h
    subst h
    refine ⟨[], ⟨rfl, .self _, rfl, ?_, rfl, fun v => by simp⟩, fun _ => ⟨.nil, .nil _, by simp⟩⟩
    simp [Table.modify_eq_self]
  | cons tree trees ih =>
    rw [addInsts, answers_bind] at h
    obtain ⟨s', htree, htrees⟩ := h
    obtain ⟨inst, hadds, hwritten⟩ := addInst_written hs htree
    obtain ⟨insts, hadds', hwritten'⟩ := ih (addInst_replay hs htree).1 htrees
    refine ⟨inst :: insts, ⟨hadds'.heading.trans hadds.heading, hadds.leads.trans hadds'.leads,
      hadds'.blocks.trans hadds.blocks, ?_, hadds'.edges.trans hadds.edges, ?_⟩, ?_⟩
    · rw [hadds'.outline, hadds.outline, Table.modify_modify]
      simp
    · intro v
      rw [hadds'.home, hadds.home]
      by_cases hv : v ∈ insts
      · simp [hv]
      · simp [hv]
    · intro body naming ht
      have hhead := hwritten (hadds'.leads.trans ht)
      have htail := hwritten' ht
      refine ⟨.cons (List.forall₂_cons.1 hhead.means).1 htail.means, ?_, ?_⟩
      · rw [List.flatMap_cons]
        exact (List.flatMap_singleton _ _ ▸ hhead.order).append htail.order
      intro v hv
      rcases List.mem_cons.1 hv with rfl | hv
      · exact hhead.typed v List.mem_cons_self
      · exact htail.typed v hv

/-! ### Terminators and blocks -/

lemma target_written {tree : TargetTree} {target : Target} (hs : s.Closed module)
    (h : Answers (s.target module line tree) (target, t)) (ht : t.Leads body naming) :
    tree.Means naming body target ∧ target.Typed body ∧
      Entity.Spans s.body.values.size t.body.values.size (body.pointers target.args) := by
  obtain ⟨block, args, t', data, hblock, hargs, hdata, htypes, heq⟩ := answers_target.1 h
  obtain ⟨rfl, rfl⟩ := Prod.mk.inj heq
  obtain ⟨hmeans, horder⟩ := operands_written hs hargs ht
  have hblocks := (operands_effect hs hargs).1.blocks
  refine ⟨⟨ht.names.block _ _ ?_, hmeans⟩, ht.targetTyped ⟨data, hdata, htypes⟩, horder⟩
  simp only [Scope.naming, hblocks, hblock]

lemma terminator_written {tree : TermTree} {term : Terminator} (hs : s.Closed module)
    (h : Answers (s.terminator module line tree) (term, t)) (ht : t.Leads body naming) :
    tree.Means naming body term ∧ term.Typed body ∧
      Entity.Spans s.body.values.size t.body.values.size (body.pointers term.operands) := by
  rw [answers_terminator] at h
  cases tree with
  | jump tree =>
    obtain ⟨target, t', htarget, heq⟩ := h
    obtain ⟨rfl, rfl⟩ := Prod.mk.inj heq
    obtain ⟨hmean, htyped, horder⟩ := target_written hs htarget ht
    exact ⟨.jump hmean, htyped, horder⟩
  | branch condTree trueTree falseTree =>
    obtain ⟨cond, s1, onTrue, s2, onFalse, t', hcond, htype, htrue, hfalse, heq⟩ := h
    obtain ⟨rfl, rfl⟩ := Prod.mk.inj heq
    obtain ⟨-, hs1, -⟩ := operand_effect hs hcond
    obtain ⟨hreads1, hs2, -⟩ := target_effect hs1 htrue
    have hlead2 := (Leads.of_reads (target_effect hs2 hfalse).1).trans ht
    have hlead1 := (Leads.of_reads hreads1).trans hlead2
    obtain ⟨hmean, horder⟩ := operand_written hs hcond hlead1
    obtain ⟨hmean1, htyped1, horder1⟩ := target_written hs1 htrue hlead2
    obtain ⟨hmean2, htyped2, horder2⟩ := target_written hs2 hfalse ht
    refine ⟨.branch hmean hmean1 hmean2, ⟨hlead1.hasTypes htype, htyped1, htyped2⟩, ?_⟩
    rw [Terminator.operands, List.cons_append, Body.pointers_cons, Body.pointers_append]
    exact horder.append (horder1.append horder2)
  | ret trees =>
    obtain ⟨args, t', hargs, htypes, heq⟩ := h
    obtain ⟨rfl, rfl⟩ := Prod.mk.inj heq
    obtain ⟨hmeans, horder⟩ := operands_written hs hargs ht
    refine ⟨.ret hmeans, ?_, horder⟩
    rw [Terminator.Typed, ht.returns]
    exact ht.hasTypes htypes
  | unreachable =>
    obtain ⟨rfl, rfl⟩ := Prod.mk.inj h
    exact ⟨.unreachable, trivial, .nil _⟩

/-- Between two scopes an empty block got its instructions and its terminator. -/
structure Ends (block : Block) (insts : List Value) (terminator : Terminator) (s t : Scope) :
    Prop where
  heading : t.body.heading = s.body.heading
  leads : s.Leads t.body t.naming
  outline : t.body.outline = s.body.outline.modify block fun b =>
    { b with insts := b.insts ++ insts, terminator }
  edges : t.body.edges = s.body.edges.linkAll block terminator.successors
  home : ∀ v, t.body.home.get v = if v ∈ insts then block else s.body.home.get v

lemma fillBlock_written {tree : BlockTree} (hs : s.Closed module)
    (h : Answers (s.fillBlock module tree block) t) :
    ∃ insts terminator, s.Ends block insts terminator t ∧
      ∀ {body naming} params, t.Leads body naming →
        BlockWritten module naming body tree s.body.values.size { params, insts, terminator }
          t.body.values.size := by
  obtain ⟨s1, terminator, s2, ended, hinsts, hterm, hend, rfl⟩ := answers_fillBlock.1 h
  obtain ⟨insts, hadds, hwritten⟩ := addInsts_written hs hinsts
  have hs1 := (addInsts_replay hs hinsts).1
  obtain ⟨hreads, -, -, hoperands, -⟩ := terminator_effect hs1 hterm
  obtain ⟨hbody, -, houtline⟩ := Body.endBlock_effect hend
  have hvalues : ended.values = s2.body.values := by rw [hbody]
  have hlead2 : s2.Leads ended (Scope.naming { s2 with body := ended }) :=
    .of_outline (t := { s2 with body := ended }) (by rw [hvalues]) (by rw [hbody]) houtline
      (fun _ => rfl) (.refl _)
  refine ⟨insts, terminator, ⟨?_, hadds.leads.trans ((Leads.of_reads hreads).trans hlead2),
    ?_, ?_, ?_⟩, ?_⟩
  · have hheading : ended.heading = s1.body.heading := by
      rw [hbody, hreads.body]
      rfl
    exact hheading.trans hadds.heading
  · rw [houtline, hreads.outline, hadds.outline, Table.modify_modify]
  · have hedges : s2.body.edges = s1.body.edges := by
      rw [hreads.body]
      rfl
    rw [Body.edges_endBlock hend, hedges, hadds.edges]
  · intro v
    have hhome : ended.home = s1.body.home := by rw [hbody, hreads.body]
    rw [hhome, hadds.home]
  · intro body naming params ht
    have hlead := hlead2.trans ht
    have hhead := hwritten ((Leads.of_reads hreads).trans hlead)
    obtain ⟨hmean, htyped, horder⟩ := terminator_written hs1 hterm hlead
    simp only [hvalues]
    exact ⟨hhead.means, hmean, hhead.order.append horder, hhead.typed, htyped, hoperands⟩

/-- Between two scopes the open blocks after `done` were filled, and are `datas` now. -/
structure EndsAll (done datas : List BlockData) (s t : Scope) : Prop where
  heading : t.body.heading = s.body.heading
  leads : s.Leads t.body t.naming
  outline : t.body.outline.toList = done ++ datas
  edges : t.body.edges = s.body.edges.linkFrom done.length
    (datas.map fun b => b.terminator.successors)
  home : ∀ b ∈ datas.zipIdx done.length, ∀ v ∈ b.1.insts, t.body.home.get v = ⟨b.2⟩
  kept : ∀ v, v ∉ listingOf datas → t.body.home.get v = s.body.home.get v

lemma fillBlocks_written {done : List BlockData} {heads : List (List (ValueType × Value))}
    {trees : List BlockTree} (hs : s.Closed module) (hlength : trees.length = heads.length)
    (houtline : s.body.outline.toList = done ++ heads.map BlockData.ofParams)
    (h : Answers (s.fillBlocks module
      (trees.zip (Entity.from .block done.length trees.length))) t) :
    t.Closed module ∧ ∃ datas, s.EndsAll done datas t ∧ datas.map BlockData.params = heads ∧
      ∀ {body naming}, t.Leads body naming →
        BlocksWritten module naming body trees s.body.values.size datas t.body.values.size := by
  induction trees generalizing s done heads with
  | nil =>
    obtain rfl := List.length_eq_zero_iff.1 hlength.symm
    rw [List.zip_nil_left, fillBlocks, answers_pure] at h
    subst h
    exact ⟨hs, [], ⟨rfl, .self _, houtline, rfl, by simp, fun _ _ => rfl⟩, rfl, fun _ => .nil _⟩
  | cons tree trees ih =>
    cases heads with
    | nil => simp at hlength
    | cons params heads =>
      rw [List.length_cons, Entity.from_succ, List.zip_cons_cons, fillBlocks, answers_bind] at h
      obtain ⟨s', hfill, hrest⟩ := h
      obtain ⟨insts, terminator, hends, hwritten⟩ := fillBlock_written hs hfill
      let data : BlockData := { params, insts, terminator }
      have houtline' : s'.body.outline.toList =
          (done ++ [data]) ++ heads.map BlockData.ofParams := by
        rw [List.map_cons] at houtline
        rw [hends.outline, Table.toList_modify_append houtline, List.append_assoc]
        rfl
      have hrest' : Answers (s'.fillBlocks module
          (trees.zip (Entity.from .block (done ++ [data]).length trees.length))) t := by
        simpa using hrest
      obtain ⟨ht, datas, hall, hparams, hwritten'⟩ :=
        ih (fillBlock_replay hs hfill).1 (by simpa using hlength) houtline' hrest'
      have hfirst := hwritten params hall.leads
      have hlater := hwritten' (Leads.self t)
      refine ⟨ht, data :: datas, ⟨hall.heading.trans hends.heading, hends.leads.trans hall.leads, ?_,
        ?_, ?_, ?_⟩, ?_, fun hlead =>
          .cons (hwritten params (hall.leads.trans hlead)) (hwritten' hlead)⟩
      · rw [hall.outline, List.append_assoc]
        rfl
      · rw [hall.edges, hends.edges, List.map_cons, Edges.linkFrom, List.length_append]
        rfl
      · intro b hb v hv
        rw [List.zipIdx_cons, List.mem_cons] at hb
        rcases hb with rfl | hb
        · have hlt := (hfirst.order.mem_iff.1 ((t.body.sublist_blockOrder data).subset hv)).2
          have hnew : v ∉ listingOf datas := fun hmem => absurd (hlater.le_index hmem) (by omega)
          rw [hall.kept v hnew, hends.home, if_pos hv]
        · exact hall.home b (by simpa using hb) v hv
      · intro v hv
        rw [listingOf, List.flatMap_cons, List.mem_append, not_or] at hv
        rw [hall.kept v hv.2, hends.home, if_neg hv.1]
      · rw [List.map_cons, hparams]

end Scope

end Source

end EntryTrace
