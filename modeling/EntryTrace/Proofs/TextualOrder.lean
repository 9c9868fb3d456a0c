import EntryTrace.Proofs.Deciding
import EntryTrace.Proofs.ResolvedModules

/-!
# The textual order of definitions and uses

The results of instructions get their names one by one as the text goes on, but the parameters of
all blocks of a function get theirs before any instruction is read. So the definition of a used name
comes earlier in the text, except for the names of parameters of later blocks.
-/

namespace EntryTrace

open Source

namespace Source

/-- The names of values among operands. -/
def valueNames (operands : List OperandTree) : List Nat :=
  operands.filterMap fun
    | .value name => some name
    | .str _ => none

namespace BlockTree

def paramNames (block : BlockTree) : List Nat := block.params.map Prod.fst

def resultNames (block : BlockTree) : List Nat := block.insts.map InstTree.result

/-- The names that a block defines, in the order of the text. -/
def definitions (block : BlockTree) : List Nat := block.paramNames ++ block.resultNames

end BlockTree

/-- Somewhere in the text of a function a name is used. The names `earlier` are those that are
defined before that place, and `later` are the blocks after the one that it is in. -/
inductive UsedAt (blocks : List BlockTree) : List Nat → List BlockTree → Nat → Prop
  | inst {before later : List BlockTree} {block : BlockTree} {insts rest : List InstTree}
      {inst : InstTree} {name : Nat} (hblocks : blocks = before ++ block :: later)
      (hinsts : block.insts = insts ++ inst :: rest) (hname : name ∈ valueNames inst.op.operands) :
      UsedAt blocks (before.flatMap BlockTree.definitions ++
        (block.paramNames ++ insts.map InstTree.result)) later name
  | term {before later : List BlockTree} {block : BlockTree} {name : Nat}
      (hblocks : blocks = before ++ block :: later) (hname : name ∈ valueNames block.term.operands) :
      UsedAt blocks (before.flatMap BlockTree.definitions ++ block.definitions) later name

/-- The instructions and the terminator of a block use names that are known before the block, or
results of instructions further up in it. -/
structure BlockTree.Scoped (known : List Nat) (block : BlockTree) : Prop where
  insts : Stepwise (fun earlier inst =>
    valueNames inst.op.operands ⊆ known ++ earlier.map InstTree.result) block.insts
  term : valueNames block.term.operands ⊆ known ++ block.resultNames

/-- Blocks one after the other use names that are known before them, or results of instructions
further up. -/
def BlocksScoped (known : List Nat) (blocks : List BlockTree) : Prop :=
  Stepwise (fun before block => block.Scoped (known ++ before.flatMap BlockTree.resultNames)) blocks

/-- The names of a function, in the order in which they become known. -/
def allNames (blocks : List BlockTree) : List Nat :=
  blocks.flatMap BlockTree.paramNames ++ blocks.flatMap BlockTree.resultNames

namespace Scope

/-- The names of values, oldest first. -/
def names (scope : Scope) : List Nat := (scope.values.map Prod.fst).reverse

/-- From one scope to the next these names are added, each of them new. -/
structure Adding (s : Scope) (added : List Nat) (t : Scope) : Prop where
  names : t.names = s.names ++ added
  nodup : s.names.Nodup → t.names.Nodup

namespace Adding

variable {s t u : Scope} {added added' : List Nat}

lemma refl (s : Scope) : s.Adding [] s := ⟨(List.append_nil _).symm, id⟩

lemma trans (h : s.Adding added t) (h' : t.Adding added' u) : s.Adding (added ++ added') u where
  names := by rw [h'.names, h.names, List.append_assoc]
  nodup hs := h'.nodup (h.nodup hs)

/-- Only the names matter. -/
lemma congr {s' t' : Scope} (h : s.Adding added t) (hs : s'.values = s.values)
    (ht : t'.values = t.values) : s'.Adding added t' := by
  have hs' : s'.names = s.names := by rw [Scope.names, Scope.names, hs]
  have ht' : t'.names = t.names := by rw [Scope.names, Scope.names, ht]
  exact ⟨by rw [ht', hs', h.names], by rw [hs', ht']; exact h.nodup⟩

end Adding

variable {module : Module} {s t : Scope} {line : Nat} {block : Block}

lemma notMem_names {name : Nat} : name ∉ s.names ↔ s.values.lookup name = none := by
  rw [names, List.mem_reverse, List.lookup_eq_none_iff, List.mem_map]
  constructor
  · intro h p hp
    exact bne_iff_ne.2 fun heq => h ⟨p, hp, heq.symm⟩
  · rintro h ⟨p, hp, rfl⟩
    simpa using h p hp

lemma adding_cons {name : Nat} {value : Value} (hname : s.values.lookup name = none) {body : Body} :
    s.Adding [name] { s with body, values := (name, value) :: s.values } := by
  have hnames : names { s with body, values := (name, value) :: s.values } = s.names ++ [name] := by
    simp [names]
  refine ⟨hnames, fun hnodup => ?_⟩
  rw [hnames, ← List.concat_eq_append]
  exact hnodup.concat (notMem_names.2 hname)

/-! ### All parameters get their names -/

lemma addParams_adding {params : List (Nat × ValueType)}
    (h : Answers (s.addParams line block params) t) : s.Adding (params.map Prod.fst) t := by
  induction params generalizing s with
  | nil =>
    obtain rfl := answers_pure.1 h
    exact .refl _
  | cons param params ih =>
    obtain ⟨data, -, -, hname, hrest⟩ := answers_addParams_cons.1 h
    exact (adding_cons hname).trans (ih hrest)

lemma defineAll_adding {pairs : List (Nat × Value)}
    (h : Answers (s.defineAll line pairs) t) : s.Adding (pairs.map Prod.fst) t := by
  induction pairs generalizing s with
  | nil =>
    obtain rfl := answers_pure.1 h
    exact .refl _
  | cons pair pairs ih =>
    rw [defineAll, answers_bind] at h
    obtain ⟨next, hdefine, hrest⟩ := h
    obtain ⟨hname, rfl⟩ := answers_define.1 hdefine
    exact (adding_cons hname).trans (ih hrest)

lemma openEntry_adding {tree : BlockTree} {r : Block × Scope} (h : Answers (s.openEntry tree) r) :
    s.Adding tree.paramNames r.2 := by
  obtain ⟨data, -, htypes, hdefine, -⟩ := answers_openEntry.1 h
  have hlength : (tree.params.map Prod.fst).length = data.paramValues.length := by
    have := congrArg List.length htypes
    simpa [BlockData.paramTypes, BlockData.paramValues] using this
  have hadding := defineAll_adding hdefine
  rwa [List.map_fst_zip hlength.le] at hadding

lemma openNext_adding {tree : BlockTree} {r : Block × Scope} (h : Answers (s.openNext tree) r) :
    s.Adding tree.paramNames r.2 := by
  obtain ⟨-, hparams, -⟩ := answers_openNext.1 h
  exact (addParams_adding hparams).congr rfl rfl

lemma openBlocks_adding {opened : List (BlockTree × Block)} {trees : List BlockTree}
    {r : List (BlockTree × Block) × Scope} (h : Answers (s.openBlocks opened trees) r) :
    r.1.map Prod.fst = (opened.map Prod.fst).reverse ++ trees ∧
      s.Adding (trees.flatMap BlockTree.paramNames) r.2 := by
  induction trees generalizing s opened with
  | nil =>
    obtain rfl := answers_openBlocks_nil.1 h
    exact ⟨by simp, .refl _⟩
  | cons tree trees ih =>
    -- The first block is there already, and takes its parameters from the signature.
    have hopen : ∃ block next, s.Adding tree.paramNames next ∧
        Answers (openBlocks { next with blocks := (tree.name, block) :: next.blocks }
          ((tree, block) :: opened) trees) r := by
      cases opened with
      | nil =>
        obtain ⟨block, next, -, hentry, hrest⟩ := answers_openBlocks_first.1 h
        exact ⟨block, next, openEntry_adding hentry, hrest⟩
      | cons last opened =>
        obtain ⟨block, next, -, hnext, hrest⟩ := answers_openBlocks_next.1 h
        exact ⟨block, next, openNext_adding hnext, hrest⟩
    obtain ⟨block, next, hadding, hrest⟩ := hopen
    obtain ⟨htrees, hadding'⟩ := ih hrest
    refine ⟨by simpa using htrees, hadding.trans (hadding'.congr rfl rfl)⟩

/-! ### Names are used once they are known -/

lemma operand_known {tree : OperandTree} {r : Value × Scope}
    (h : Answers (s.operand module line tree) r) :
    r.2.values = s.values ∧ valueNames [tree] ⊆ s.names := by
  obtain ⟨name, rfl, hname, hscope⟩ | ⟨index, rfl, -, -, -, hscope⟩ := answers_operand.1 h
  · refine ⟨by rw [hscope], ?_⟩
    have hmem : name ∈ s.names := by
      by_contra hnot
      rw [notMem_names.1 hnot] at hname
      cases hname
    simpa [valueNames] using hmem
  · exact ⟨by rw [hscope], by simp [valueNames]⟩

lemma operands_known {trees : List OperandTree} {r : List Value × Scope}
    (h : Answers (s.operands module line trees) r) :
    r.2.values = s.values ∧ valueNames trees ⊆ s.names := by
  induction trees generalizing s r with
  | nil =>
    obtain rfl := answers_operands_nil.1 h
    exact ⟨rfl, List.nil_subset _⟩
  | cons tree trees ih =>
    obtain ⟨value, next, values, last, hhead, htail, rfl⟩ := answers_operands_cons.1 h
    obtain ⟨hnext, hknown⟩ := operand_known hhead
    obtain ⟨hlast, hknown'⟩ := ih htail
    refine ⟨hlast.trans hnext, ?_⟩
    rw [names, hnext] at hknown'
    rw [← List.singleton_append, valueNames, List.filterMap_append]
    exact List.append_subset.2 ⟨hknown, hknown'⟩

lemma operation_known {tree : OpTree} {r : Operator × List Value × Scope}
    (h : Answers (s.operation module line tree) r) :
    r.2.2.values = s.values ∧ valueNames tree.operands ⊆ s.names := by
  have hanswers := answers_operation.1 h
  cases tree with
  | nop =>
    obtain rfl := hanswers
    exact ⟨rfl, List.nil_subset _⟩
  | const32 =>
    obtain ⟨-, rfl⟩ := hanswers
    exact ⟨rfl, List.nil_subset _⟩
  | const64 =>
    obtain ⟨-, rfl⟩ := hanswers
    exact ⟨rfl, List.nil_subset _⟩
  | binary op left right =>
    obtain ⟨a, next, b, last, hleft, hright, rfl⟩ := hanswers
    exact operands_known (answers_operands_cons.2 ⟨a, next, [b], last, hleft,
      answers_operands_cons.2 ⟨b, last, [], last, hright, answers_operands_nil.2 rfl, rfl⟩, rfl⟩)
  | call callee args =>
    obtain ⟨values, last, -, hargs, rfl⟩ := hanswers
    exact operands_known hargs

lemma addInst_known {tree : InstTree} (h : Answers (s.addInst module block tree) t) :
    s.Adding [tree.result] t ∧ valueNames tree.op.operands ⊆ s.names := by
  obtain ⟨op, args, next, inputs, outputs, hop, -, -, -, -, -, hname, rfl⟩ := answers_addInst.1 h
  obtain ⟨hvalues, hknown⟩ := operation_known hop
  exact ⟨(adding_cons hname).congr hvalues.symm rfl, hknown⟩

lemma addInsts_known {trees : List InstTree} (h : Answers (s.addInsts module block trees) t) :
    s.Adding (trees.map InstTree.result) t ∧ Stepwise (fun earlier inst =>
      valueNames inst.op.operands ⊆ s.names ++ earlier.map InstTree.result) trees := by
  induction trees generalizing s with
  | nil =>
    obtain rfl := answers_pure.1 h
    exact ⟨.refl _, stepwise_nil⟩
  | cons tree trees ih =>
    rw [addInsts, answers_bind] at h
    obtain ⟨next, htree, htrees⟩ := h
    obtain ⟨hadding, hknown⟩ := addInst_known htree
    obtain ⟨hadding', hrest⟩ := ih htrees
    refine ⟨hadding.trans hadding', stepwise_cons.2 ⟨by simpa using hknown, ?_⟩⟩
    simpa only [hadding.names, List.append_assoc, List.singleton_append, List.map_cons] using hrest

lemma target_known {tree : TargetTree} {r : Target × Scope}
    (h : Answers (s.target module line tree) r) :
    r.2.values = s.values ∧ valueNames tree.args ⊆ s.names := by
  obtain ⟨block, args, next, data, -, hargs, -, -, rfl⟩ := answers_target.1 h
  exact operands_known hargs

lemma terminator_known {tree : TermTree} {r : Terminator × Scope}
    (h : Answers (s.terminator module line tree) r) :
    r.2.values = s.values ∧ valueNames tree.operands ⊆ s.names := by
  have hanswers := answers_terminator.1 h
  cases tree with
  | jump target =>
    obtain ⟨a, last, htarget, rfl⟩ := hanswers
    exact target_known htarget
  | branch cond onTrue onFalse =>
    obtain ⟨c, next, a, next', b, last, hcond, -, htrue, hfalse, rfl⟩ := hanswers
    obtain ⟨hnext, hknown⟩ := operand_known hcond
    obtain ⟨hnext', hknown'⟩ := target_known htrue
    obtain ⟨hlast, hknown''⟩ := target_known hfalse
    dsimp only at hnext hnext' hlast
    rw [names, hnext', hnext] at hknown''
    rw [names, hnext] at hknown'
    refine ⟨hlast.trans (hnext'.trans hnext), ?_⟩
    rw [TermTree.operands, ← List.singleton_append, valueNames, List.filterMap_append,
      List.filterMap_append]
    exact List.append_subset.2 ⟨List.append_subset.2 ⟨hknown, hknown'⟩, hknown''⟩
  | ret values =>
    obtain ⟨args, last, hargs, -, rfl⟩ := hanswers
    exact operands_known hargs
  | unreachable =>
    obtain rfl := hanswers
    exact ⟨rfl, List.nil_subset _⟩

lemma fillBlock_known {tree : BlockTree} (h : Answers (s.fillBlock module tree block) t) :
    s.Adding tree.resultNames t ∧ tree.Scoped s.names := by
  obtain ⟨next, terminator, last, body, hinsts, hterm, -, rfl⟩ := answers_fillBlock.1 h
  obtain ⟨hadding, hstepwise⟩ := addInsts_known hinsts
  obtain ⟨hvalues, hknown⟩ := terminator_known hterm
  rw [hadding.names] at hknown
  exact ⟨hadding.congr rfl hvalues, hstepwise, hknown⟩

lemma fillBlocks_known {opened : List (BlockTree × Block)}
    (h : Answers (s.fillBlocks module opened) t) :
    s.Adding ((opened.map Prod.fst).flatMap BlockTree.resultNames) t ∧
      BlocksScoped s.names (opened.map Prod.fst) := by
  induction opened generalizing s with
  | nil =>
    obtain rfl := answers_pure.1 h
    exact ⟨.refl _, stepwise_nil⟩
  | cons pair opened ih =>
    rw [fillBlocks, answers_bind] at h
    obtain ⟨next, hfill, hrest⟩ := h
    obtain ⟨hadding, hscoped⟩ := fillBlock_known hfill
    obtain ⟨hadding', hscoped'⟩ := ih hrest
    refine ⟨hadding.trans hadding', stepwise_cons.2 ⟨by simpa using hscoped, ?_⟩⟩
    simpa only [BlocksScoped, hadding.names, List.append_assoc, List.map_cons,
      List.flatMap_cons] using hscoped'

end Scope

/-- The names of a function are distinct; used are those of parameters of any block, and of results
further up. -/
lemma scoped_of_resolveBody {module : Module} {signature : Signature} {trees : List BlockTree}
    {body : Body} (h : Answers (resolveBody module signature trees) body) :
    (allNames trees).Nodup ∧ BlocksScoped (trees.flatMap BlockTree.paramNames) trees := by
  obtain ⟨type, empty, opened, s, t, -, -, hopen, hfill, -⟩ := answers_resolveBody.1 h
  obtain ⟨htrees, hparams⟩ := Scope.openBlocks_adding hopen
  obtain ⟨hresults, hscoped⟩ := Scope.fillBlocks_known hfill
  obtain rfl : opened.map Prod.fst = trees := by simpa using htrees
  have hknown : s.names = (opened.map Prod.fst).flatMap BlockTree.paramNames := hparams.names
  have hall := (hparams.trans hresults)
  refine ⟨?_, by rwa [hknown] at hscoped⟩
  have hnodup := hall.nodup List.nodup_nil
  rwa [hall.names] at hnodup

lemma mem_definitions {blocks : List BlockTree} {name : Nat} :
    name ∈ blocks.flatMap BlockTree.definitions ↔
      name ∈ blocks.flatMap BlockTree.paramNames ∨ name ∈ blocks.flatMap BlockTree.resultNames := by
  simp only [List.mem_flatMap, BlockTree.definitions, List.mem_append]
  constructor
  · rintro ⟨block, hblock, h | h⟩
    · exact .inl ⟨block, hblock, h⟩
    · exact .inr ⟨block, hblock, h⟩
  · rintro (⟨block, hblock, h⟩ | ⟨block, hblock, h⟩)
    · exact ⟨block, hblock, .inl h⟩
    · exact ⟨block, hblock, .inr h⟩

/-- Among the names known at some place of a block, those that are defined later in the text are
those of the parameters of later blocks. -/
lemma mem_earlier_iff {before later : List BlockTree} {block : BlockTree} {results : List Nat}
    {name : Nat} (hnodup : (allNames (before ++ block :: later)).Nodup)
    (hresults : results ⊆ block.resultNames)
    (hknown : name ∈ (before ++ block :: later).flatMap BlockTree.paramNames ++
      before.flatMap BlockTree.resultNames ++ results) :
    name ∈ before.flatMap BlockTree.definitions ++ (block.paramNames ++ results) ↔
      name ∉ later.flatMap BlockTree.paramNames := by
  have hlater : name ∈ later.flatMap BlockTree.paramNames →
      name ∉ before.flatMap BlockTree.paramNames ∧ name ∉ block.paramNames ∧
        name ∉ before.flatMap BlockTree.resultNames ∧ name ∉ block.resultNames := by
    intro h
    simp only [allNames, List.flatMap_append, List.flatMap_cons] at hnodup
    grind
  have hresult : name ∈ results → name ∈ block.resultNames := fun h => hresults h
  simp only [List.flatMap_append, List.flatMap_cons, List.mem_append] at hknown
  simp only [List.mem_append, mem_definitions]
  tauto

/-- A name that is used in a function is defined earlier in its text if it is not that of a parameter
of a later block, and only then. -/
theorem defined_earlier_iff {module : Module} {signature : Signature} {blocks later : List BlockTree}
    {body : Body} {earlier : List Nat} {name : Nat}
    (h : Answers (resolveBody module signature blocks) body) (huse : UsedAt blocks earlier later name) :
    name ∈ earlier ↔ name ∉ later.flatMap BlockTree.paramNames := by
  obtain ⟨hnodup, hscoped⟩ := scoped_of_resolveBody h
  cases huse with
  | @inst before _ block insts rest inst _ hblocks hinsts hname =>
    subst hblocks
    have hinst := (hscoped before block later rfl).insts insts inst rest hinsts
    refine mem_earlier_iff hnodup ?_ (hinst hname)
    rw [BlockTree.resultNames, hinsts, List.map_append]
    exact List.subset_append_left _ _
  | @term before _ block _ hblocks hname =>
    subst hblocks
    exact mem_earlier_iff hnodup (List.Subset.refl _) ((hscoped before block later rfl).term hname)

end Source

/-- In every text that is accepted, a name that is used in a function is defined earlier in the text
of the function, if it is not that of a parameter of a later block, and only then. -/
theorem definedEarlier_of_ofText {text : String} {m : Module}
    (h : (Module.ofText text : Except Fault (Except SourceError Module)) = .ok (.ok m)) :
    ∃ located tree, tokens text = .ok located ∧ parse located = .ok tree ∧
      ∀ func ∈ tree.funcs.toList, ∀ blocks ∈ func.blocks?, ∀ earlier later name,
        UsedAt blocks earlier later name →
          (name ∈ earlier ↔ name ∉ later.flatMap BlockTree.paramNames) := by
  obtain ⟨located, tree, htokens, hparse, hresolve⟩ := ofText_eq_ok.1 h
  refine ⟨located, tree, htokens, hparse, fun func hfunc blocks hblocks earlier later name huse => ?_⟩
  have hresolves := resolves_of_resolve (sound_of_parse hparse) hresolve
  obtain ⟨decl, -, hdecl⟩ := exists_right_of_forall₂ hresolves.funcs hfunc
  simp only [FuncTree.Resolves, Option.mem_def.1 hblocks] at hdecl
  obtain ⟨-, body, -, hbody⟩ := hdecl
  exact defined_earlier_iff hbody huse

/-- A text whose first block adds the parameter of the second one to its own. -/
def earlyText : String :=
  "module \x7b
    sig0 = (i32) -> (i32)
    func0 = func \"f\" : sig0 \x7b
      block0(v0: i32):
        v1 = i32.add v0, v5
        br block1(v1)
      block1(v5: i32):
        return v5
    \x7d
  \x7d"

set_option maxRecDepth 4000 in
lemma exists_ofText_earlyText : ∃ m : Module,
    (Module.ofText earlyText : Except Fault (Except SourceError Module)) = .ok (.ok m) :=
  exists_ofText_ofList (by decide +kernel)

theorem definedEarlier_of_ofText_earlyText : ∃ m : Module,
    (Module.ofText earlyText : Except Fault (Except SourceError Module)) = .ok (.ok m) ∧
      ∃ located tree, tokens earlyText = .ok located ∧ parse located = .ok tree ∧
        ∀ func ∈ tree.funcs.toList, ∀ blocks ∈ func.blocks?, ∀ earlier later name,
          UsedAt blocks earlier later name →
            (name ∈ earlier ↔ name ∉ later.flatMap BlockTree.paramNames) := by
  obtain ⟨m, hm⟩ := exists_ofText_earlyText
  exact ⟨m, hm, definedEarlier_of_ofText hm⟩

def earlyTree : ModuleTree where
  types := #[⟨[.i32], [.i32]⟩]
  funcs := #[{
    line := 3
    name := "f"
    signature := 0
    blocks? := some [
      { line := 4, name := 0, params := [(0, .i32)],
        insts := [⟨5, 1, .binary .add32 (.value 0) (.value 5)⟩],
        term := .jump ⟨1, [.value 1]⟩, termLine := 6 },
      { line := 7, name := 1, params := [(5, .i32)], insts := [], term := .ret [.value 5],
        termLine := 8 }] }]

set_option maxRecDepth 4000 in
lemma parse_earlyText : (tokens earlyText).bind parse = .ok earlyTree := by
  have htokens : tokens earlyText = _ := congrArg (readTokens 1 []) String.toList_ofList
  rw [htokens]
  decide +kernel

/-- The text is accepted although its instruction uses a name that nothing before it defines. -/
theorem not_definedEarlier_earlyText : ∃ m : Module,
    (Module.ofText earlyText : Except Fault (Except SourceError Module)) = .ok (.ok m) ∧
      ∃ located tree, tokens earlyText = .ok located ∧ parse located = .ok tree ∧
        ∃ func ∈ tree.funcs.toList, ∃ blocks ∈ func.blocks?, ∃ earlier later name,
          UsedAt blocks earlier later name ∧ name ∉ earlier := by
  obtain ⟨m, hm⟩ := exists_ofText_earlyText
  obtain ⟨located, tree, htokens, hparse, -⟩ := ofText_eq_ok.1 hm
  obtain rfl : earlyTree = tree := by
    have htree := parse_earlyText
    rw [htokens] at htree
    exact Except.ok.inj (htree.symm.trans hparse)
  refine ⟨m, hm, located, earlyTree, htokens, hparse, ?_⟩
  refine ⟨_, List.mem_singleton_self _, _, rfl, _, _, 5,
    .inst (List.nil_append _).symm (List.nil_append _).symm ?_, ?_⟩
  · decide
  · decide

end EntryTrace
