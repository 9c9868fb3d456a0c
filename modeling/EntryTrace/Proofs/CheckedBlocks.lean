import EntryTrace.Proofs.Deciding
import EntryTrace.Proofs.Edges
import EntryTrace.Proofs.Lists

/-!
# Blocks that are checked

Filling a block decides whether its tree is well-typed and gives its results new names. Each
check looks at what operands have turned out to be, which is what the tree says of them.
-/

namespace EntryTrace.Source

namespace Scope

variable {s t : Scope} {tree : ModuleTree} {module : Module} {line : Nat} {types : Types}
  {heads : Heads} {returns expected : List ValueType} {block : Block} {body : Body}
  {consumer : Consumer} {values : List Value} {operands : List OperandTree}

/-! ### Types of operands -/

lemma hasTypes_iff (hdistinct : (types.map Prod.fst).Nodup)
    (h : List.Forall₂ (Fetches tree types body) operands values) :
    body.HasTypes values expected ↔ OperandsTyped tree types operands expected := by
  unfold Body.HasTypes OperandsTyped
  induction h generalizing expected with
  | nil => cases expected <;> simp
  | @cons operand value operands values hhead _ ih =>
    cases expected with
    | nil => simp
    | cons type expected =>
      obtain ⟨found, hgives, hvalue⟩ := hhead
      obtain ⟨d, hd, rfl⟩ := Option.map_eq_some_iff.1 hvalue
      have htype : (body.values.get? value).bind Def.type? = some type ↔
          operand.Gives tree types (some type) := by
        rw [hd, Option.bind_some]
        constructor
        · intro heq
          rwa [heq] at hgives
        · intro hgives'
          exact gives_unique hdistinct hgives hgives'
      rw [List.forall₂_cons, List.forall₂_cons, ih, htype]

lemma decides_checkEach {position : Nat} (hlength : values.length = expected.length)
    (hvalues : ∀ value ∈ values, ∃ d, body.values.get? value = some d) :
    Decides (checkEach body line consumer position values expected) (body.HasTypes values expected)
      fun _ => True := by
  induction values generalizing expected position with
  | nil =>
    cases expected with
    | nil => exact Decides.congr (Decides.pure trivial) (by simp [Body.HasTypes])
    | cons => simp at hlength
  | cons value values ih =>
    cases expected with
    | nil => simp at hlength
    | cons type expected =>
      obtain ⟨d, hd⟩ := hvalues value List.mem_cons_self
      have hrest := @ih expected (position + 1) (by simpa using hlength)
        fun value hvalue => hvalues value (List.mem_cons_of_mem _ hvalue)
      rw [checkEach, Body.HasTypes, List.forall₂_cons, hd, Option.bind_some]
      apply Decides.stepBind (Table.get_eq_ok.2 hd)
      cases hactual : d.type? with
      | none => exact .refuse (by simp)
      | some actual =>
        by_cases heq : actual = type
        · simp only [heq, if_true, true_and]
          exact hrest
        · simp only [if_neg heq]
          exact .refuse fun h => heq (Option.some.inj h.1)

lemma decides_checkTypes (hdistinct : (types.map Prod.fst).Nodup)
    (h : List.Forall₂ (Fetches tree types body) operands values) :
    Decides (checkTypes body line consumer values expected)
      (OperandsTyped tree types operands expected) fun _ => True := by
  rw [checkTypes]
  by_cases hlength : values.length = expected.length
  · simp only [hlength, ne_eq, not_true_eq_false, if_false]
    have hvalues : ∀ value ∈ values, ∃ d, body.values.get? value = some d := by
      intro value hvalue
      obtain ⟨operand, -, found, -, hgives⟩ := exists_right_of_forall₂ h.flip hvalue
      obtain ⟨d, hd, -⟩ := Option.map_eq_some_iff.1 hgives
      exact ⟨d, hd⟩
    exact (decides_checkEach hlength hvalues).congr (hasTypes_iff hdistinct h)
  · simp only [ne_eq, hlength, not_false_eq_true, if_true]
    refine .refuse fun htyped => hlength ?_
    rw [← h.length_eq, List.Forall₂.length_eq htyped]

lemma forall_gives (h : OperandsTyped tree types operands expected) :
    ∀ operand ∈ operands, ∃ type, operand.Gives tree types type := by
  intro operand hoperand
  obtain ⟨type, -, hgives⟩ := exists_right_of_forall₂ h hoperand
  exact ⟨some type, hgives⟩

/-! ### Instructions -/

lemma fits_iff_32 {value : Int} :
    fits 32 value = true ↔ -2 ^ 31 ≤ value ∧ value ≤ 2 ^ 32 - 1 := by
  simp [fits]
  omega

lemma fits_iff_64 {value : Int} :
    fits 64 value = true ↔ -2 ^ 63 ≤ value ∧ value ≤ 2 ^ 64 - 1 := by
  simp [fits]
  omega

lemma decides_operation (hs : s.Typed heads returns types) (htree : tree.Declares module)
    {op : OpTree} (hroom : s.body.values.size + pointerCount op.operands ≤ Entity.limit) :
    Decides (s.operation module line op)
      (op.Fits ∧ (∃ type, op.type? tree = some type) ∧
        ∀ operand ∈ op.operands, ∃ type, operand.Gives tree types type)
      fun r => s.Reads r.2.2 ∧
        r.2.2.body.values.size = s.body.values.size + pointerCount op.operands ∧
        List.Forall₂ (Fetches tree types r.2.2.body) op.operands r.2.1 ∧
        ∃ type, op.type? tree = some type ∧
          (r.1.inputTypes module : Except Fault _) = .ok type.params ∧
          (r.1.outputTypes module : Except Fault _) = .ok type.returns := by
  cases op with
  | nop =>
    refine Decides.congr (Decides.pure ?_) (by simp [OpTree.Fits, OpTree.type?, OpTree.operands])
    exact ⟨.refl s, rfl, .nil, _, rfl, rfl, rfl⟩
  | const32 value =>
    rw [operation]
    by_cases hfits : fits 32 value = true
    · rw [if_pos hfits]
      refine Decides.congr (Decides.pure ?_) (iff_of_true trivial
        ⟨fits_iff_32.1 hfits, ⟨⟨[], [.i32]⟩, rfl⟩, by simp [OpTree.operands]⟩)
      exact ⟨.refl s, rfl, .nil, _, rfl, rfl, rfl⟩
    · rw [if_neg hfits]
      exact .refuse fun h => hfits (fits_iff_32.2 h.1)
  | const64 value =>
    rw [operation]
    by_cases hfits : fits 64 value = true
    · rw [if_pos hfits]
      refine Decides.congr (Decides.pure ?_) (iff_of_true trivial
        ⟨fits_iff_64.1 hfits, ⟨⟨[], [.i64]⟩, rfl⟩, by simp [OpTree.operands]⟩)
      exact ⟨.refl s, rfl, .nil, _, rfl, rfl, rfl⟩
    · rw [if_neg hfits]
      exact .refuse fun h => hfits (fits_iff_64.2 h.1)
  | binary op left right =>
    rw [operation]
    simp only [OpTree.operands] at hroom ⊢
    rw [pointerCount_cons] at hroom ⊢
    apply (decides_operand hs htree (by omega)).bind
    · rintro - ⟨a, s'⟩ ⟨hreads, hsize, hfetches⟩
      simp only at hreads hsize
      refine (decides_operand (hs.reads hreads) htree (by omega)).bindPure ?_
      rintro - ⟨b, t⟩ ⟨hreads', hsize', hfetches'⟩
      exact ⟨hreads.trans hreads', hsize'.trans (by omega),
        .cons (hfetches.mono hreads'.values) (.cons hfetches' .nil), _, rfl, rfl, rfl⟩
    · simp [OpTree.Fits, OpTree.type?]
  | call callee args =>
    rw [operation]
    by_cases hcallee : callee < module.funcs.size
    · rw [if_pos hcallee]
      obtain ⟨type, htype, htype'⟩ := htree.funcs callee hcallee
      refine Decides.congr (Decides.bindPure (decides_operands hs htree hroom) ?_) ?_
      · rintro - ⟨values, t⟩ ⟨hreads, hsize, hfetches⟩
        refine ⟨hreads, hsize, hfetches, type, htype', ?_, ?_⟩
        · simp [Operator.inputTypes, htype]
        · simp [Operator.outputTypes, htype]
      · simp [OpTree.Fits, OpTree.type?, OpTree.operands, htype']
    · rw [if_neg hcallee]
      refine .refuse ?_
      rintro ⟨-, ⟨type, htype⟩, -⟩
      rw [OpTree.type?, htree.others callee hcallee] at htype
      cases htype

lemma decides_addInst (hs : s.Typed heads returns types) (htree : tree.Declares module)
    {inst : InstTree} (hblock : block.index < s.body.blocks.size)
    (hroom : s.body.values.size + inst.valueCount ≤ Entity.limit) :
    Decides (s.addInst module block inst)
      (inst.op.WellTyped tree types ∧ inst.result ∉ types.map Prod.fst)
      fun t => t.Typed heads returns (types ++ [inst.typing tree]) ∧
        t.body.values.size = s.body.values.size + inst.valueCount ∧
        t.body.blocks.size = s.body.blocks.size := by
  rw [addInst]
  rw [InstTree.valueCount] at hroom ⊢
  apply (decides_operation hs htree (by omega)).bind
    (r := (∃ type, inst.op.type? tree = some type ∧
      OperandsTyped tree types inst.op.operands type.params) ∧
      inst.result ∉ types.map Prod.fst)
  · rintro - ⟨op, args, s'⟩ ⟨hreads, hsize, hfetches, type, htype, hin, hout⟩
    simp only at hreads hsize hfetches hin hout
    have hs' := hs.reads hreads
    have hsize' : s'.body.values.size < Entity.limit := by omega
    have hblock' : block.index < s'.body.blocks.size := by
      rw [hreads.body]
      exact hblock
    let d : Def := .inst op args type.returns
    have hvalues : s'.body.values.PrefixOf (s'.body.withInst block d).values :=
      Table.PrefixOf.append _ _
    have hknows : Knows types { s' with body := s'.body.withInst block d } :=
      hs'.values.mono hvalues rfl
    have hgives : (s'.body.withInst block d).Gives ⟨s'.body.values.size⟩ type.returns.head? := by
      rw [Body.Gives, Body.withInst, Body.withValue, Table.get?_append_size]
      rfl
    have hadd : (s'.body.addValue d : Except Fault _) =
        .ok (⟨s'.body.values.size⟩, s'.body.withValue d) := Body.addValue_eq_ok.2 ⟨hsize', rfl⟩
    have happend : ((s'.body.withValue d).appendInst block ⟨s'.body.values.size⟩ :
        Except Fault _) = .ok (s'.body.withInst block d) :=
      Body.appendInst_eq_ok.2 ⟨hblock', rfl⟩
    apply Decides.stepBind hin
    apply (decides_checkTypes hs'.values.distinct hfetches).bind
    · rintro - - -
      apply Decides.stepBind hout
      apply Decides.stepBind hadd
      apply Decides.stepBind happend
      apply (decides_define hknows hgives).imp
      rintro - t - ⟨rfl, hnamed⟩
      refine ⟨⟨?_, ?_, hs'.returns⟩, ?_, ?_⟩
      · simpa only [InstTree.typing, htype, Option.bind_some] using hnamed
      · refine hs'.blocks.mono (by rfl) ?_
        intro b data hdata
        simp only [Body.withInst, Table.get?_modify, hdata, Option.map_some]
        split
        · exact ⟨_, rfl, rfl⟩
        · exact ⟨data, rfl, rfl⟩
      · simp only [Body.withInst, Body.withValue, Table.size_append]
        omega
      · simp only [Body.withInst, Table.size_modify]
        rw [hreads.body]
    · simp [htype]
  · rw [OpTree.WellTyped]
    constructor
    · rintro ⟨⟨hfits, -, -⟩, htyped, hnew⟩
      exact ⟨⟨hfits, htyped⟩, hnew⟩
    · rintro ⟨⟨hfits, type, htype, htyped⟩, hnew⟩
      exact ⟨⟨hfits, ⟨type, htype⟩, forall_gives htyped⟩, ⟨type, htype, htyped⟩, hnew⟩

lemma decides_addInsts (hs : s.Typed heads returns types) (htree : tree.Declares module)
    {insts : List InstTree} (hblock : block.index < s.body.blocks.size)
    (hroom : s.body.values.size + (insts.map InstTree.valueCount).sum ≤ Entity.limit) :
    Decides (s.addInsts module block insts)
      (Stepwise (fun earlier inst =>
          inst.op.WellTyped tree (types ++ earlier.map (InstTree.typing tree))) insts ∧
        ((types ++ insts.map (InstTree.typing tree)).map Prod.fst).Nodup)
      fun t => t.Typed heads returns (types ++ insts.map (InstTree.typing tree)) ∧
        t.body.values.size = s.body.values.size + (insts.map InstTree.valueCount).sum ∧
        t.body.blocks.size = s.body.blocks.size := by
  induction insts generalizing s types with
  | nil =>
    refine Decides.congr (Decides.pure ?_) (iff_of_true trivial ⟨stepwise_nil, ?_⟩)
    · simpa using hs
    · simpa using hs.values.distinct
  | cons inst insts ih =>
    rw [List.map_cons, List.sum_cons] at hroom
    rw [addInsts]
    apply (decides_addInst hs htree hblock (by omega)).bind
    · rintro - s' ⟨hs', hsize, hblocks⟩
      apply (ih hs' (hblocks ▸ hblock) (by omega)).imp
      rintro - t - ⟨ht, hsize', hblocks'⟩
      refine ⟨by simpa using ht, ?_, hblocks'.trans hblocks⟩
      rw [hsize', hsize, List.map_cons, List.sum_cons, Nat.add_assoc]
    · rw [stepwise_cons]
      simp only [List.append_assoc, List.map_cons, List.map_nil, List.append_nil,
        List.singleton_append]
      constructor
      · rintro ⟨⟨hhead, -⟩, htail, hdistinct⟩
        exact ⟨⟨hhead, htail⟩, hdistinct⟩
      · rintro ⟨⟨hhead, htail⟩, hdistinct⟩
        refine ⟨⟨hhead, fun hmem => ?_⟩, htail, hdistinct⟩
        rw [List.map_append, List.map_cons, List.nodup_append] at hdistinct
        exact hdistinct.2.2 _ hmem _ List.mem_cons_self rfl

/-! ### Terminators and blocks -/

lemma decides_target (hs : s.Typed heads returns types) (htree : tree.Declares module)
    {target : TargetTree}
    (hroom : s.body.values.size + pointerCount target.args ≤ Entity.limit) :
    Decides (s.target module line target) (target.WellTyped tree heads types)
      fun r => s.Reads r.2 ∧
        r.2.body.values.size = s.body.values.size + pointerCount target.args ∧
        r.1.block.index < s.body.blocks.size := by
  unfold Scope.target
  cases hblock : s.blocks.lookup target.block with
  | none =>
    refine .refuse ?_
    rintro ⟨params, hmem, -⟩
    exact hs.blocks.unknown _ hblock (List.mem_map_of_mem (f := Prod.fst) hmem)
  | some b =>
    obtain ⟨data, hdata, hmem⟩ := hs.blocks.known _ b hblock
    apply (decides_operands hs htree hroom).bind
    · rintro - ⟨args, t⟩ ⟨hreads, hsize, hfetches⟩
      simp only at hreads hsize hfetches
      have hget : (t.body.blocks.get b : Except Fault _) = .ok data := by
        rw [hreads.body]
        exact Table.get_eq_ok.2 hdata
      apply Decides.stepBind hget
      refine (decides_checkTypes hs.values.distinct hfetches).bindPure ?_
      rintro - - -
      exact ⟨hreads, hsize, Table.get?_lt hdata⟩
    · constructor
      · rintro ⟨-, htyped⟩
        exact ⟨data.paramTypes, hmem, htyped⟩
      · rintro ⟨params, hmem', htyped⟩
        obtain rfl := mem_unique hs.blocks.distinct hmem hmem'
        exact ⟨forall_gives htyped, htyped⟩

lemma decides_terminator (hs : s.Typed heads returns types) (htree : tree.Declares module)
    {term : TermTree}
    (hroom : s.body.values.size + pointerCount term.operands ≤ Entity.limit) :
    Decides (s.terminator module line term) (term.WellTyped tree heads returns types)
      fun r => s.Reads r.2 ∧
        r.2.body.values.size = s.body.values.size + pointerCount term.operands ∧
        ∀ block ∈ r.1.successors, block.index < s.body.blocks.size := by
  cases term with
  | jump target =>
    refine (decides_target hs htree hroom).bindPure ?_
    rintro - ⟨target, t⟩ ⟨hreads, hsize, hblock⟩
    exact ⟨hreads, hsize, by simpa [Terminator.successors, Terminator.targets] using hblock⟩
  | branch cond onTrue onFalse =>
    have hcount : pointerCount (TermTree.branch cond onTrue onFalse).operands =
        pointerCount [cond] + pointerCount onTrue.args + pointerCount onFalse.args := by
      rw [TermTree.operands, List.cons_append, pointerCount_cons, Nat.add_assoc]
      exact congrArg _ List.countP_append
    rw [hcount] at hroom ⊢
    rw [terminator]
    apply (decides_operand hs htree (by omega)).bind
    · rintro - ⟨c, s1⟩ ⟨hreads, hsize, hfetches⟩
      simp only at hreads hsize hfetches
      have hs1 := hs.reads hreads
      apply (decides_checkTypes hs.values.distinct (.cons hfetches .nil)).bind
      · rintro - - -
        apply (decides_target hs1 htree (by omega)).bind
        · rintro - ⟨a, s2⟩ ⟨hreads1, hsize1, hblock1⟩
          simp only at hreads1 hsize1 hblock1
          refine (decides_target (hs1.reads hreads1) htree (by omega)).bindPure ?_
          rintro - ⟨b, t⟩ ⟨hreads2, hsize2, hblock2⟩
          simp only at hreads2 hsize2 hblock2
          refine ⟨(hreads.trans hreads1).trans hreads2, hsize2.trans (by omega), ?_⟩
          rw [hreads1.body, hreads.body] at hblock2
          rw [hreads.body] at hblock1
          simp only [Terminator.successors, Terminator.targets, List.map_cons, List.map_nil,
            List.mem_cons, List.not_mem_nil, or_false]
          rintro block (rfl | rfl)
          · exact hblock1
          · exact hblock2
        · rfl
      · rfl
    · simp only [OperandsTyped, List.forall₂_cons, List.forall₂_nil_left_iff, and_true]
      constructor
      · rintro ⟨-, htyped⟩
        exact htyped
      · intro htyped
        exact ⟨⟨_, htyped.1⟩, htyped⟩
  | ret values =>
    rw [terminator]
    apply (decides_operands hs htree hroom).bind
    · rintro - ⟨args, t⟩ ⟨hreads, hsize, hfetches⟩
      simp only at hreads hsize hfetches
      have hreturns : t.body.returns = returns := (hs.reads hreads).returns
      simp only [hreturns]
      refine (decides_checkTypes hs.values.distinct hfetches).bindPure ?_
      rintro - - -
      exact ⟨hreads, hsize, by simp [Terminator.successors, Terminator.targets]⟩
    · constructor
      · rintro ⟨-, htyped⟩
        exact htyped
      · intro htyped
        exact ⟨forall_gives htyped, htyped⟩
  | unreachable =>
    exact .pure ⟨.refl s, rfl, by simp [Terminator.successors, Terminator.targets]⟩

lemma decides_fillBlock (hs : s.Typed heads returns types) (htree : tree.Declares module)
    {trees : BlockTree} (hblock : block.index < s.body.blocks.size)
    (hroom : s.body.values.size + trees.valueCount ≤ Entity.limit) :
    Decides (s.fillBlock module trees block)
      (trees.WellTyped tree heads returns types ∧
        ((types ++ trees.insts.map (InstTree.typing tree)).map Prod.fst).Nodup)
      fun t => t.Typed heads returns (types ++ trees.insts.map (InstTree.typing tree)) ∧
        t.body.values.size = s.body.values.size + trees.valueCount ∧
        t.body.blocks.size = s.body.blocks.size := by
  rw [BlockTree.valueCount] at hroom ⊢
  rw [fillBlock]
  apply (decides_addInsts hs htree hblock (by omega)).bind
    (r := trees.term.WellTyped tree heads returns (types ++ trees.insts.map (InstTree.typing tree)))
  · rintro - s1 ⟨hs1, hsize, hblocks⟩
    apply (decides_terminator hs1 htree (by omega)).bind (r := True)
    · rintro - ⟨term, s2⟩ ⟨hreads, hsize', hsuccessors⟩
      simp only at hreads hsize' hsuccessors
      have hsame : s2.body.blocks = s1.body.blocks := by rw [hreads.body]
      rw [← hblocks, ← hsame] at hblock
      rw [← hsame] at hsuccessors
      obtain ⟨ended, hend⟩ := Body.exists_endBlock hblock hsuccessors
      obtain ⟨hbody, -, houtline⟩ := Body.endBlock_effect hend
      have hs2 := hs1.reads hreads
      have hvalues : ended.values = s2.body.values := by rw [hbody]
      have hcount : ended.blocks.size = s2.body.blocks.size := by
        simpa using congrArg Table.size houtline
      apply Decides.stepBind hend
      refine .pure ⟨⟨hs2.values.mono (by rw [hvalues]) (by rfl), ?_, ?_⟩, ?_, ?_⟩
      · refine hs2.blocks.mono (by rfl) ?_
        intro b data hdata
        obtain ⟨data', hdata', hparams⟩ := Body.params_of_outline houtline (fun _ => rfl) hdata
        exact ⟨data', hdata', by rw [BlockData.paramTypes, hparams, BlockData.paramTypes]⟩
      · rw [← hs2.returns, hbody]
      · rw [hvalues, hsize', hsize, Nat.add_assoc]
      · rw [hcount, hsame, hblocks]
    · exact and_iff_left trivial
  · constructor
    · rintro ⟨⟨hinsts, hdistinct⟩, hterm⟩
      exact ⟨⟨hinsts, hterm⟩, hdistinct⟩
    · rintro ⟨⟨hinsts, hterm⟩, hdistinct⟩
      exact ⟨⟨hinsts, hdistinct⟩, hterm⟩

lemma resultTypes_cons (tree : ModuleTree) (trees : BlockTree) (rest : List BlockTree) :
    resultTypes tree (trees :: rest) =
      trees.insts.map (InstTree.typing tree) ++ resultTypes tree rest := by
  rw [resultTypes, resultTypes, List.flatMap_cons, List.map_append]

lemma decides_fillBlocks {opened : List (BlockTree × Block)} (hs : s.Typed heads returns types)
    (htree : tree.Declares module) (hblocks : ∀ p ∈ opened, p.2.index < s.body.blocks.size)
    (hroom : s.body.values.size + ((opened.map Prod.fst).map BlockTree.valueCount).sum ≤
      Entity.limit) :
    Decides (s.fillBlocks module opened)
      (Stepwise (fun before block =>
          block.WellTyped tree heads returns (types ++ resultTypes tree before))
          (opened.map Prod.fst) ∧
        ((types ++ resultTypes tree (opened.map Prod.fst)).map Prod.fst).Nodup)
      fun _ => True := by
  induction opened generalizing s types with
  | nil =>
    refine Decides.congr (Decides.pure trivial) (iff_of_true trivial ⟨stepwise_nil, ?_⟩)
    simpa [resultTypes] using hs.values.distinct
  | cons p opened ih =>
    obtain ⟨trees, block⟩ := p
    simp only [List.map_cons, List.sum_cons] at hroom
    rw [fillBlocks]
    apply (decides_fillBlock hs htree (hblocks _ List.mem_cons_self) (by omega)).bind
    · rintro - s' ⟨hs', hsize, hcount⟩
      apply ih hs' _ (by omega)
      intro q hq
      rw [hcount]
      exact hblocks q (List.mem_cons_of_mem _ hq)
    · have hnone : resultTypes tree [] = [] := rfl
      simp only [List.map_cons, stepwise_cons, resultTypes_cons, List.append_assoc, hnone,
        List.append_nil]
      constructor
      · rintro ⟨⟨hhead, -⟩, htail, hdistinct⟩
        exact ⟨⟨hhead, htail⟩, hdistinct⟩
      · rintro ⟨⟨hhead, htail⟩, hdistinct⟩
        refine ⟨⟨hhead, ?_⟩, htail, hdistinct⟩
        rw [← List.append_assoc, List.map_append] at hdistinct
        exact (List.nodup_append.1 hdistinct).1

end Scope

end EntryTrace.Source
