import EntryTrace.Proofs.Presentable
import EntryTrace.Proofs.ResolvedBodies

/-!
# Bodies of one structure

Two bodies have one structure if the blocks, and the values that blocks list, of the one correspond
to those of the other, and what corresponds says the same. Pointers correspond by the strings they
point to: one that is used twice may stand for two. The body that the text of a body is read as
has the structure of that body.
-/

namespace EntryTrace

open Source

section Structure

variable (σ : Value → Value) (body body' : Body)

/-- An operand corresponds to another: a pointer to one to the same string, and a value that a block
lists to the value that `σ` gives. -/
inductive OperandMatches : Value → Value → Prop
  | pointer {v v' : Value} {str : Str} (h : body.values.get? v = some (.strRef str))
    (h' : body'.values.get? v' = some (.strRef str)) : OperandMatches v v'
  | listed {v : Value} (h : v ∈ body.listed) : OperandMatches v (σ v)

/-- A target corresponds to the block at the place of its block, with matching arguments. -/
structure TargetMatches (target target' : Target) : Prop where
  block : target'.block = body.place target.block
  args : List.Forall₂ (OperandMatches σ body body') target.args target'.args

/-- Terminators that are no missing ones do the same. -/
inductive TerminatorMatches : Terminator → Terminator → Prop
  | jump {target target' : Target} (h : TargetMatches σ body body' target target') :
    TerminatorMatches (.jump target) (.jump target')
  | branch {cond cond' : Value} {onTrue onTrue' onFalse onFalse' : Target}
    (hcond : OperandMatches σ body body' cond cond')
    (htrue : TargetMatches σ body body' onTrue onTrue')
    (hfalse : TargetMatches σ body body' onFalse onFalse') :
    TerminatorMatches (.branch cond onTrue onFalse) (.branch cond' onTrue' onFalse')
  | ret {values values' : List Value}
    (h : List.Forall₂ (OperandMatches σ body body') values values') :
    TerminatorMatches (.ret values) (.ret values')
  | unreachable : TerminatorMatches .unreachable .unreachable

/-- A block lists the corresponding parameters, of the same types, and instructions, in the same
order, and ends in a matching terminator. -/
structure BlockMatches (data data' : BlockData) : Prop where
  params : data'.params = data.params.map fun p => (p.1, σ p.2)
  insts : data'.insts = data.insts.map σ
  term : TerminatorMatches σ body body' data.terminator data'.terminator

end Structure

/-- The bodies have one structure. Blocks of the first correspond to those of the second by their
places: the entry block to block 0, the others in order. The values that blocks list correspond by
`σ`; apart from these, the second body has pointers only. -/
structure Body.IsomorphicBy (σ : Value → Value) (body body' : Body) : Prop where
  entry : body.place body.entry = ⟨0⟩ ∧ body'.entry = ⟨0⟩
  blocks : Set.BijOn body.place {block | block.index < body.blocks.size}
    {block | block.index < body'.blocks.size}
  blockOrder : body.displayOrder.map body.place = body'.blocks.ids
  content : ∀ block data, body.blocks.get? block = some data →
    ∃ data', body'.blocks.get? (body.place block) = some data' ∧ BlockMatches σ body body' data data'
  values : Set.BijOn σ {v | v ∈ body.listed} {v | v ∈ body'.listed}
  params : ∀ v ∈ body.displayedParams, ∀ block position paramType,
    body.values.get? v = some (.param block position paramType) →
      body'.values.get? (σ v) = some (.param (body.place block) position paramType)
  insts : ∀ v ∈ body.displayedInsts, ∀ op args types,
    body.values.get? v = some (.inst op args types) →
      ∃ args', body'.values.get? (σ v) = some (.inst op args' types) ∧
        List.Forall₂ (OperandMatches σ body body') args args'
  others : ∀ v d, body'.values.get? v = some d → v ∈ body'.listed ∨ ∃ str, d = .strRef str

/-- A map that takes one list to another one without repetitions is a bijection between their
elements. -/
lemma bijOn_of_map_eq {α β : Type} {f : α → β} {as : List α} {bs : List β} (h : as.map f = bs)
    (hdistinct : bs.Nodup) : Set.BijOn f {a | a ∈ as} {b | b ∈ bs} := by
  subst h
  refine ⟨fun a ha => List.mem_map_of_mem ha, fun a ha a' ha' heq => ?_, fun b hb => ?_⟩
  · exact List.inj_on_of_nodup_map hdistinct ha ha' heq
  · obtain ⟨a, ha, rfl⟩ := List.mem_map.1 hb
    exact ⟨a, ha, rfl⟩

/-! ### What the text of a body is read as -/

/-- What spells a block of a body that can be presented stands for the block. -/
lemma Body.Presentable.means {m : Module} {type : FuncType} {body : Body} {block : Block}
    {data : BlockData} {tree : BlockTree} (h : body.Presentable m type)
    (hdata : body.blocks.get? block = some data) (hspells : tree.Spells body.values block data) :
    tree.Means body.numbering body data := by
  have hlt {before : List Value} {arg : Value} (hprovides : body.Provides m before arg) :
      arg.index < body.values.size := by
    obtain ⟨d, hd⟩ := hprovides.exists_get?
    exact Table.get?_lt hd
  refine hspells.means ?_ ?_ ?_
  · intro p hp
    obtain ⟨position, hposition⟩ := List.getElem?_of_mem hp
    exact ⟨_, _, _, h.params block data hdata position p.1 p.2 hposition⟩
  · intro inst hinst op args types hget arg harg
    have hentry : (block, data) ∈ body.displayed := mem_displayed.2 hdata
    obtain ⟨before, -, _, _, _, _, hget', -, -, -, hargs⟩ :=
      h.instFits (mem_displayedInsts hentry hinst)
    obtain ⟨rfl, rfl, rfl⟩ := Def.inst.inj (Option.some.inj (hget.symm.trans hget'))
    exact hlt (hargs arg harg)
  · intro arg harg
    obtain ⟨-, before, -, hargs⟩ := h.terminatorFits hdata
    exact hlt (hargs arg harg)

/-- The second body is what the trees that spell the first one resolve to. -/
structure Body.ReadAs (m m' : Module) (type : FuncType) (naming : Naming) (trees : List BlockTree)
    (body body' : Body) : Prop where
  offers : m.Extends m'
  presentable : body.Presentable m type
  spells : BlockTree.SpellAll body trees
  resolved : body'.Resolved m' type naming trees

namespace Body.ReadAs

variable {m m' : Module} {type : FuncType} {naming : Naming} {trees : List BlockTree}
  {body body' : Body} {σ : Value → Value}

section

variable (h : body.ReadAs m m' type naming trees body')
include h

lemma entry' : body'.entry = ⟨0⟩ := congrArg (fun p => p.2.2) h.resolved.heading

lemma listed' : body'.listed = body'.paramOrder ++ body'.listing := by
  have hlt : body'.entry.index < body'.blocks.size := h.resolved.closed.entry
  rw [Body.listed, displayedParams_eq hlt h.entry', displayedInsts_eq hlt h.entry']

lemma nodup_listed' : body'.listed.Nodup := by
  rw [h.listed']
  exact h.resolved.order.nodup.sublist
    ((List.Sublist.refl _).append (body'.sublist_flatMap_blockOrder _))

/-- Each block with the one that it is read as, and the tree that stands for both. -/
lemma pairs : List.Forall₂ (fun entry data' => ∃ tree : BlockTree,
    tree.Means body.numbering body entry.2 ∧ tree.Means naming body' data') body.displayed
      body'.blocks.toList := by
  have hspelled := (h.spells.displayed h.presentable.entry_lt).flip
  apply forall₂_imp_of_mem (forall₂_common hspelled h.resolved.means.blocks)
  rintro entry hentry data' - ⟨tree, hspells, hmeans⟩
  exact ⟨tree, h.presentable.means (mem_displayed.1 hentry) hspells, hmeans⟩

lemma size_blocks : body'.blocks.size = body.blocks.size := by
  have hlength := congrArg List.length (map_fst_displayed h.presentable.entry_lt)
  rw [List.length_map, h.pairs.length_eq, Table.length_toList,
    (displayOrder_perm h.presentable.entry_lt).length_eq, Entity.length_from] at hlength
  exact hlength

/-- The number of a block is the name of the block at its place. -/
lemma names_block {block : Block} (hblock : block.index < body.blocks.size) :
    naming.block block.index (body.place block) := by
  obtain ⟨data, hdata⟩ := Table.get?_of_lt hblock
  have hplace := getElem?_displayed h.presentable.entry_lt hdata
  obtain ⟨tree, htree, hspells⟩ :=
    getElem?_of_forall₂ (h.spells.displayed h.presentable.entry_lt) hplace
  rw [← hspells.name]
  exact h.resolved.means.names _ tree htree

lemma length_paramValues : List.Forall₂ (fun entry data' =>
    (BlockData.paramValues (Prod.snd entry)).length = data'.paramValues.length) body.displayed
      body'.blocks.toList := by
  refine h.pairs.imp ?_
  rintro entry data' ⟨tree, hmeans, hmeans'⟩
  rw [hmeans.length_params, hmeans'.length_params]

lemma length_insts : List.Forall₂ (fun entry data' =>
    (BlockData.insts (Prod.snd entry)).length = data'.insts.length) body.displayed
      body'.blocks.toList := by
  refine h.pairs.imp ?_
  rintro entry data' ⟨tree, hmeans, hmeans'⟩
  exact hmeans.insts.length_eq.symm.trans hmeans'.insts.length_eq

lemma length_displayedParams : body.displayedParams.length = body'.paramOrder.length := by
  rw [displayedParams, Body.paramOrder, List.length_flatMap,
    length_flatMap_of_forall₂ (h.length_paramValues.imp fun _ _ heq => heq.symm)]

/-- Some map takes the values that blocks list to those that they are read as. -/
lemma exists_map_listed : ∃ σ : Value → Value, body.listed.map σ = body'.listed := by
  have hinsts : body.displayedInsts.length = body'.listing.length := by
    rw [displayedInsts, Body.listing, listingOf, listingOf, List.flatMap_map, List.length_flatMap,
      length_flatMap_of_forall₂ (h.length_insts.imp fun _ _ heq => heq.symm)]
  apply exists_map_eq h.presentable.distinct
  rw [h.listed', Body.listed, List.length_append, List.length_append, h.length_displayedParams, hinsts]

end

/-! ### What corresponds says the same -/

section Matching

variable (h : body.ReadAs m m' type naming trees body') (hσ : body.listed.map σ = body'.listed)
include h hσ

/-- The lists of each block become those of the block that it is read as. -/
lemma lists : List.Forall₂ (fun entry data' => entry.2.paramValues.map σ = data'.paramValues ∧
    entry.2.insts.map σ = data'.insts) body.displayed body'.blocks.toList := by
  rw [h.listed', Body.listed, List.map_append] at hσ
  obtain ⟨hparams, hinsts⟩ := List.append_inj hσ (by rw [List.length_map, h.length_displayedParams])
  rw [displayedInsts, Body.listing, listingOf, listingOf, List.flatMap_map] at hinsts
  exact forall₂_and (forall₂_of_map_flatMap h.length_paramValues hparams)
    (forall₂_of_map_flatMap h.length_insts hinsts)

/-- What a block is read as. -/
lemma exists_block {block : Block} {data : BlockData} (hdata : body.blocks.get? block = some data) :
    ∃ data' tree, body'.blocks.get? (body.place block) = some data' ∧
      data.paramValues.map σ = data'.paramValues ∧ data.insts.map σ = data'.insts ∧
      BlockTree.Means body.numbering body tree data ∧ BlockTree.Means naming body' tree data' := by
  obtain ⟨data', hdata', ⟨hparams, hinsts⟩, tree, hmeans, hmeans'⟩ :=
    getElem?_of_forall₂ (forall₂_and (h.lists hσ) h.pairs)
      (getElem?_displayed h.presentable.entry_lt hdata)
  exact ⟨data', tree, by rw [Table.get?_eq, hdata'], hparams, hinsts, hmeans, hmeans'⟩

lemma params_block {block : Block} {data : BlockData} (hdata : body.blocks.get? block = some data) :
    ∃ data', body'.blocks.get? (body.place block) = some data' ∧
      List.Forall₂ (fun p p' => (p.1, σ p.2) = p' ∧ naming.value p.2.index (σ p.2)) data.params
        data'.params := by
  obtain ⟨data', tree, hdata', hparams, -, hmeans, hmeans'⟩ := h.exists_block hσ hdata
  refine ⟨data', hdata', ?_⟩
  have hvalues : List.Forall₂ (fun p p' : ValueType × Value => σ p.2 = p'.2) data.params
      data'.params := by
    rw [BlockData.paramValues, BlockData.paramValues, List.map_map] at hparams
    rw [← List.forall₂_map_right_iff, ← List.forall₂_map_left_iff, List.forall₂_eq_eq_eq]
    exact hparams
  apply (forall₂_and hvalues (forall₂_common hmeans.params hmeans'.params)).imp
  rintro p p' ⟨hvalue, param, ⟨htype, hname, -⟩, htype', hname'⟩
  rw [hvalue, ← hname]
  exact ⟨Prod.ext (htype.symm.trans htype') rfl, hname'⟩

lemma insts_block {block : Block} {data : BlockData} (hdata : body.blocks.get? block = some data) :
    ∀ inst ∈ data.insts, ∃ tree : InstTree, tree.Means body.numbering body inst ∧
      tree.Means naming body' (σ inst) := by
  obtain ⟨data', tree, -, -, hinsts, hmeans, hmeans'⟩ := h.exists_block hσ hdata
  have hpairs := forall₂_common hmeans.insts hmeans'.insts
  rw [← hinsts, List.forall₂_map_right_iff, List.forall₂_same] at hpairs
  exact hpairs

/-- The number of a value that a block lists is the name of what it is read as. -/
lemma names_listed {v : Value} (hv : v ∈ body.listed) : naming.value v.index (σ v) := by
  rcases List.mem_append.1 hv with hparam | hinst
  · obtain ⟨⟨block, data⟩, hentry, hvalue⟩ := List.mem_flatMap.1 hparam
    obtain ⟨p, hp, rfl⟩ := List.mem_map.1 hvalue
    obtain ⟨data', -, hparams⟩ := h.params_block hσ (mem_displayed.1 hentry)
    obtain ⟨p', -, -, hname⟩ := exists_right_of_forall₂ hparams hp
    exact hname
  · obtain ⟨data, hdata, hvalue⟩ := List.mem_flatMap.1 hinst
    obtain ⟨⟨block, _⟩, hentry, rfl⟩ := List.mem_map.1 hdata
    obtain ⟨tree, ⟨⟨hresult, -⟩, -⟩, hname, -⟩ :=
      h.insts_block hσ (mem_displayed.1 hentry) v hvalue
    rwa [← hresult]

/-- Operands that the same tree stands for. -/
lemma operandMatches {tree : OperandTree} {v v' : Value} {before : List Value}
    (hprovides : body.Provides m before v) (hbefore : before ⊆ body.displayedInsts)
    (hv : tree.Means body.numbering body v) (hv' : tree.Means naming body' v') :
    OperandMatches σ body body' v v' := by
  cases hv with
  | value hname =>
    cases hv' with
    | value hname' =>
      obtain ⟨rfl, d, hd, hpointer⟩ := hname
      rcases hprovides.listed hbefore with ⟨str, hstr⟩ | hlisted
      · exact (hpointer str (Option.some.inj (hd.symm.trans hstr))).elim
      · obtain rfl := h.resolved.names.value _ _ _ (h.names_listed hσ hlisted) hname'
        exact .listed hlisted
  | str hstr =>
    cases hv' with
    | str hstr' => exact .pointer hstr hstr'

lemma operandsMatch {trees : List OperandTree} {args args' : List Value} {before : List Value}
    (hprovides : ∀ arg ∈ args, body.Provides m before arg) (hbefore : before ⊆ body.displayedInsts)
    (hargs : List.Forall₂ (OperandTree.Means body.numbering body) trees args)
    (hargs' : List.Forall₂ (OperandTree.Means naming body') trees args') :
    List.Forall₂ (OperandMatches σ body body') args args' := by
  apply forall₂_imp_of_mem (forall₂_common hargs hargs')
  rintro v hv v' - ⟨tree, hmeans, hmeans'⟩
  exact h.operandMatches hσ (hprovides v hv) hbefore hmeans hmeans'

lemma targetMatches {tree : TargetTree} {target target' : Target} {before : List Value}
    (hblock : target.block.index < body.blocks.size)
    (hprovides : ∀ arg ∈ target.args, body.Provides m before arg)
    (hbefore : before ⊆ body.displayedInsts) (ht : tree.Means body.numbering body target)
    (ht' : tree.Means naming body' target') : TargetMatches σ body body' target target' where
  block := by
    have hname : tree.block = target.block.index := ht.block
    exact h.resolved.names.block _ _ _ (hname ▸ ht'.block) (h.names_block hblock)
  args := h.operandsMatch hσ hprovides hbefore ht.args ht'.args

lemma terminatorMatches {tree : TermTree} {term term' : Terminator} {before : List Value}
    (hblocks : ∀ target ∈ term.targets, target.block.index < body.blocks.size)
    (hprovides : ∀ arg ∈ term.operands, body.Provides m before arg)
    (hbefore : before ⊆ body.displayedInsts) (ht : tree.Means body.numbering body term)
    (ht' : tree.Means naming body' term') : TerminatorMatches σ body body' term term' := by
  have htarget {tree : TargetTree} {target target' : Target} (hmem : target ∈ term.targets)
      (hmeans : tree.Means body.numbering body target) (hmeans' : tree.Means naming body' target') :
      TargetMatches σ body body' target target' :=
    h.targetMatches hσ (hblocks target hmem)
      (fun arg harg => hprovides arg (Terminator.mem_operands hmem harg)) hbefore hmeans hmeans'
  cases ht with
  | jump hmeans =>
    cases ht' with
    | jump hmeans' => exact .jump (htarget List.mem_cons_self hmeans hmeans')
  | branch hcond htrue hfalse =>
    cases ht' with
    | branch hcond' htrue' hfalse' =>
      exact .branch (h.operandMatches hσ (hprovides _ List.mem_cons_self) hbefore hcond hcond')
        (htarget List.mem_cons_self htrue htrue')
        (htarget (List.mem_cons_of_mem _ List.mem_cons_self) hfalse hfalse')
  | ret hargs =>
    cases ht' with
    | ret hargs' => exact .ret (h.operandsMatch hσ hprovides hbefore hargs hargs')
  | unreachable =>
    cases ht' with
    | unreachable => exact .unreachable

lemma blockMatches {block : Block} {data : BlockData} (hdata : body.blocks.get? block = some data) :
    ∃ data', body'.blocks.get? (body.place block) = some data' ∧
      BlockMatches σ body body' data data' := by
  obtain ⟨data', tree, hdata', -, hinsts, hmeans, hmeans'⟩ := h.exists_block hσ hdata
  obtain ⟨found, hfound, hparams⟩ := h.params_block hσ hdata
  obtain rfl := Option.some.inj (hdata'.symm.trans hfound)
  obtain ⟨htyped, before, hbefore, hprovides⟩ := h.presentable.terminatorFits hdata
  refine ⟨data', hdata', ?_, hinsts.symm, ?_⟩
  · rw [← List.map_id data'.params]
    exact (map_eq_of_forall₂ (hparams.imp fun _ _ hp => hp.1)).symm
  · refine h.terminatorMatches hσ (fun target ht => ?_) hprovides hbefore hmeans.term hmeans'.term
    exact htyped.successor_lt (List.mem_map_of_mem ht)

lemma params_eq {v : Value} (hv : v ∈ body.displayedParams) {block : Block} {position : Nat}
    {paramType : ValueType} (hget : body.values.get? v = some (.param block position paramType)) :
    body'.values.get? (σ v) = some (.param (body.place block) position paramType) := by
  obtain ⟨⟨block', data⟩, hentry, hvalue⟩ := List.mem_flatMap.1 hv
  obtain ⟨p, hp, rfl⟩ := List.mem_map.1 hvalue
  obtain ⟨position', hposition⟩ := List.getElem?_of_mem hp
  have hdata := mem_displayed.1 hentry
  have hdef := h.presentable.params block' data hdata position' p.1 p.2 hposition
  obtain ⟨rfl, rfl, rfl⟩ := Def.param.inj (Option.some.inj (hget.symm.trans hdef))
  obtain ⟨data', hdata', hparams⟩ := h.params_block hσ hdata
  obtain ⟨p', hposition', rfl, -⟩ := getElem?_of_forall₂ hparams hposition
  exact h.resolved.params _ data' hdata' _ _ _ hposition'

lemma inst_eq {v : Value} (hv : v ∈ body.displayedInsts) {op : Operator} {args : List Value}
    {results : List ValueType} (hget : body.values.get? v = some (.inst op args results)) :
    ∃ args', body'.values.get? (σ v) = some (.inst op args' results) ∧
      List.Forall₂ (OperandMatches σ body body') args args' := by
  obtain ⟨before, hbefore, _, _, _, inputs, hfits, -, hout, -, hprovides⟩ := h.presentable.instFits hv
  obtain ⟨rfl, rfl, rfl⟩ := Def.inst.inj (Option.some.inj (hget.symm.trans hfits))
  obtain ⟨data, hdata, hvalue⟩ := List.mem_flatMap.1 hv
  obtain ⟨⟨block, _⟩, hentry, rfl⟩ := List.mem_map.1 hdata
  obtain ⟨data', tree', hdata', -, hinsts, -⟩ := h.exists_block hσ (mem_displayed.1 hentry)
  obtain ⟨tree, ⟨-, _, _, _, hdef, hmeans⟩, -, _, args', results', hget', hmeans'⟩ :=
    h.insts_block hσ (mem_displayed.1 hentry) v hvalue
  obtain ⟨rfl, rfl, rfl⟩ := Def.inst.inj (Option.some.inj (hget.symm.trans hdef))
  obtain rfl := hmeans.eq_operator.trans hmeans'.eq_operator.symm
  have hlisted : σ v ∈ body'.listing := by
    refine List.mem_flatMap.2 ⟨data', Table.mem_of_get? hdata', ?_⟩
    rw [← hinsts]
    exact List.mem_map_of_mem hvalue
  obtain ⟨_, _, _, _, hget'', -, -, hout', -⟩ := h.resolved.insts _ hlisted
  obtain ⟨rfl, rfl, rfl⟩ := Def.inst.inj (Option.some.inj (hget'.symm.trans hget''))
  obtain rfl := Except.ok.inj ((h.offers.outputTypes hout).symm.trans hout')
  exact ⟨args', hget', h.operandsMatch hσ hprovides hbefore hmeans.operands hmeans'.operands⟩

end Matching

/-- A body that can be presented is read as one of the same structure. -/
theorem exists_isomorphicBy (h : body.ReadAs m m' type naming trees body') :
    ∃ σ, body.IsomorphicBy σ body' := by
  obtain ⟨σ, hσ⟩ := h.exists_map_listed
  have hlt := h.presentable.entry_lt
  have horder : body.displayOrder.map body.place = body'.blocks.ids := by
    rw [map_place hlt, Table.ids, h.size_blocks, Entity.from, List.range_eq_range']
  have hids : body'.blocks.ids.Nodup := by
    rw [← horder, map_place hlt]
    exact Entity.nodup_from _ _ _
  refine ⟨σ, ⟨body.place_entry, h.entry'⟩, ?_, horder, fun block data => h.blockMatches hσ,
    bijOn_of_map_eq hσ h.nodup_listed', fun v hv block position paramType => h.params_eq hσ hv,
    fun v hv op args types => h.inst_eq hσ hv, fun v d hd => ?_⟩
  · have hbij := bijOn_of_map_eq horder hids
    simp only [mem_displayOrder hlt] at hbij
    have hmem : ∀ block : Block, block ∈ body'.blocks.ids ↔ block.index < body'.blocks.size := by
      intro block
      rw [← horder, map_place hlt, Entity.mem_from, h.size_blocks, Nat.zero_add]
      exact and_iff_right (Nat.zero_le _)
    simpa only [hmem] using hbij
  · rw [h.listed', List.mem_append]
    rcases Body.of_mem_readingOrder (h.resolved.mem_readingOrder hd) with hparam | hinst | ⟨str, hstr⟩
    · exact .inl (.inl hparam)
    · exact .inl (.inr hinst)
    · exact .inr ⟨str, Option.some.inj (hd.symm.trans hstr)⟩

end Body.ReadAs

end EntryTrace
