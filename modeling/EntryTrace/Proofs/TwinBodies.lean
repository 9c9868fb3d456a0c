import EntryTrace.Proofs.Edges
import EntryTrace.Proofs.Extending
import EntryTrace.Proofs.Meaning
import EntryTrace.Proofs.Renumbering
import EntryTrace.Proofs.TreeTypes

/-!
# Bodies that the same trees stand for

Trees say everything of a body but the numbers of its values. Two bodies that the same trees stand
for have as many values to be read, and the value that comes at some place of the one is to the one
what the value at that place of the other is to the other. If each value is read just once, this
makes the second body a renumbering of the first.
-/

namespace EntryTrace

open Source

namespace Source

/-! ### What trees ask for -/

/-- The operator that a tree stands for. -/
def OpTree.operator : OpTree → Operator
  | .nop => .nop
  | .const32 value => .const32 (.ofInt value)
  | .const64 value => .const64 (.ofInt value)
  | .binary op _ _ => .binary op
  | .call callee _ => .call ⟨callee⟩

variable {naming : Naming} {body : Body}

lemma OpTree.Means.eq_operator {tree : OpTree} {op : Operator} {args : List Value}
    (h : tree.Means naming body op args) : op = tree.operator := by
  cases h <;> rfl

lemma OpTree.Means.operands {tree : OpTree} {op : Operator} {args : List Value}
    (h : tree.Means naming body op args) :
    List.Forall₂ (OperandTree.Means naming body) tree.operands args := by
  cases h with
  | nop => exact .nil
  | const32 => exact .nil
  | const64 => exact .nil
  | binary _ hleft hright => exact .cons hleft (.cons hright .nil)
  | call _ hargs => exact hargs

lemma TermTree.Means.operands {tree : TermTree} {term : Terminator}
    (h : tree.Means naming body term) :
    List.Forall₂ (OperandTree.Means naming body) tree.operands term.operands := by
  cases h with
  | jump h => exact h.args
  | branch hcond htrue hfalse => exact .cons hcond (List.rel_append htrue.args hfalse.args)
  | ret hargs => exact hargs
  | unreachable => exact .nil

section Counting

variable (hfits : naming.Fits body)
include hfits

lemma length_pointers {trees : List OperandTree} {args : List Value}
    (h : List.Forall₂ (OperandTree.Means naming body) trees args) :
    (body.pointers args).length = pointerCount trees := by
  induction h with
  | nil => rfl
  | cons hhead _ ih =>
    unfold Body.pointers pointerCount at ih ⊢
    rw [List.filter_cons, List.countP_cons]
    cases hhead with
    | value hname =>
      rw [hfits.isPointer hname]
      exact ih
    | str hstr =>
      rw [Body.isPointer_iff.2 ⟨_, hstr⟩]
      exact congrArg (· + 1) ih

lemma InstTree.Means.length_instOrder {tree : InstTree} {inst : Value}
    (h : tree.Means naming body inst) : (body.instOrder inst).length = tree.valueCount := by
  obtain ⟨-, op, args, types, hget, hop⟩ := h
  rw [Body.instOrder, Body.argsOf_eq hget, List.length_append, length_pointers hfits hop.operands]
  rfl

lemma BlockTree.Means.length_insts {tree : BlockTree} {data : BlockData}
    (h : tree.Means naming body data) :
    (data.insts.flatMap body.instOrder).length = (tree.insts.map InstTree.valueCount).sum :=
  length_flatMap_of_forall₂ (h.insts.imp fun _ _ hinst => hinst.length_instOrder hfits)

lemma BlockTree.Means.length_blockOrder {tree : BlockTree} {data : BlockData}
    (h : tree.Means naming body data) : (body.blockOrder data).length = tree.valueCount := by
  rw [Body.blockOrder, List.length_append, h.length_insts hfits,
    length_pointers hfits h.term.operands]
  rfl

omit hfits in
lemma BlockTree.Means.length_params {tree : BlockTree} {data : BlockData}
    (h : tree.Means naming body data) : data.paramValues.length = tree.params.length := by
  rw [BlockData.paramValues, List.length_map, h.params.length_eq]

/-- A body has as many values to be read as its trees ask for. -/
lemma BlockTree.AllMean.length_readingOrder {trees : List BlockTree}
    (h : BlockTree.AllMean naming body trees) : body.readingOrder.length =
      (trees.map fun tree => tree.params.length).sum + (trees.map BlockTree.valueCount).sum := by
  rw [Body.readingOrder, List.length_append, Body.paramOrder]
  congr 1
  · exact length_flatMap_of_forall₂ (h.blocks.imp fun _ _ hmeans => hmeans.length_params)
  · exact length_flatMap_of_forall₂ (h.blocks.imp fun _ _ hmeans => hmeans.length_blockOrder hfits)

end Counting

end Source

/-- Every value of the body is read exactly once. -/
def Body.ReadOnce (body : Body) : Prop :=
  body.readingOrder.Perm (Entity.from .value 0 body.values.size)

lemma Body.ReadOnce.mem {body : Body} (h : body.ReadOnce) {value : Value} {d : Def}
    (hd : body.values.get? value = some d) : value ∈ body.readingOrder := by
  rw [h.mem_iff, Entity.mem_from, Nat.zero_add]
  exact ⟨Nat.zero_le _, Table.get?_lt hd⟩

lemma Body.ReadOnce.nodup {body : Body} (h : body.ReadOnce) : body.readingOrder.Nodup :=
  h.nodup_iff.2 (Entity.nodup_from _ _ _)

lemma Body.ReadOnce.length {body : Body} (h : body.ReadOnce) :
    body.readingOrder.length = body.values.size := by
  rw [h.length_eq, Entity.length_from]

/-! ### Blocks that the same tree stands for -/

section Pairs

variable {naming naming' : Naming} {body body' : Body} {σ : Value → Value}

/-- One name stands for a value in one body and for another value in the other. -/
def NamedAlike (naming naming' : Naming) (v v' : Value) : Prop :=
  ∃ name, naming.value name v ∧ naming'.value name v'

/-- An instruction becomes another one that the same tree stands for. -/
structure InstBecomes (naming naming' : Naming) (body body' : Body) (σ : Value → Value)
    (inst inst' : Value) : Prop where
  value : σ inst = inst'
  tree : ∃ tree : InstTree, tree.Means naming body inst ∧ tree.Means naming' body' inst'
  pointers : (body.pointers (body.argsOf inst)).map σ = body'.pointers (body'.argsOf inst')

/-- A block becomes another one that the same tree stands for. -/
structure BlockBecomes (naming naming' : Naming) (body body' : Body) (σ : Value → Value)
    (data data' : BlockData) : Prop where
  params : List.Forall₂ (fun p p' => (p.1, σ p.2) = p' ∧ NamedAlike naming naming' p.2 p'.2)
    data.params data'.params
  insts : List.Forall₂ (InstBecomes naming naming' body body' σ) data.insts data'.insts
  term : ∃ tree : TermTree,
    tree.Means naming body data.terminator ∧ tree.Means naming' body' data'.terminator
  pointers : (body.pointers data.terminator.operands).map σ =
    body'.pointers data'.terminator.operands

lemma blockBecomes (hfits : naming.Fits body) (hfits' : naming'.Fits body') {tree : BlockTree}
    {data data' : BlockData} (h : tree.Means naming body data) (h' : tree.Means naming' body' data')
    (hparams : data.paramValues.map σ = data'.paramValues)
    (horder : (body.blockOrder data).map σ = body'.blockOrder data') :
    BlockBecomes naming naming' body body' σ data data' := by
  have hlength : (data.insts.flatMap body.instOrder).length =
      (data'.insts.flatMap body'.instOrder).length := by
    rw [h.length_insts hfits, h'.length_insts hfits']
  rw [Body.blockOrder, Body.blockOrder, List.map_append] at horder
  obtain ⟨hinsts, hpointers⟩ := List.append_inj horder (by rw [List.length_map, hlength])
  have hpairs := forall₂_common h.insts h'.insts
  have hlengths : List.Forall₂ (fun inst inst' =>
      (body.instOrder inst).length = (body'.instOrder inst').length) data.insts data'.insts := by
    apply hpairs.imp
    rintro inst inst' ⟨tree, hmeans, hmeans'⟩
    rw [hmeans.length_instOrder hfits, hmeans'.length_instOrder hfits']
  have hpieces := forall₂_of_map_flatMap hlengths hinsts
  refine ⟨?_, ?_, ⟨tree.term, h.term, h'.term⟩, hpointers⟩
  · have hvalues : List.Forall₂ (fun p p' : ValueType × Value => σ p.2 = p'.2) data.params
        data'.params := by
      rw [BlockData.paramValues, BlockData.paramValues, List.map_map] at hparams
      rw [← List.forall₂_map_right_iff, ← List.forall₂_map_left_iff, List.forall₂_eq_eq_eq]
      exact hparams
    apply (forall₂_and hvalues (forall₂_common h.params h'.params)).imp
    rintro p p' ⟨hvalue, param, ⟨htype, hname⟩, htype', hname'⟩
    exact ⟨Prod.ext (htype.symm.trans htype') hvalue, param.1, hname, hname'⟩
  · apply (forall₂_and hpieces hpairs).imp
    rintro inst inst' ⟨hpiece, htree⟩
    rw [Body.instOrder, Body.instOrder, List.map_append] at hpiece
    obtain ⟨hargs, hinst⟩ := List.append_inj' hpiece rfl
    exact ⟨List.singleton_inj.1 hinst, htree, hargs⟩

/-- Operands that the same trees stand for. Named ones are renumbered by assumption, and pointers
come in the order of the trees. -/
lemma operandsBecome (hfits : naming.Fits body) (hfits' : naming'.Fits body')
    (hnames : ∀ v v', NamedAlike naming naming' v v' → σ v = v') {trees : List OperandTree}
    {args args' : List Value} (h : List.Forall₂ (OperandTree.Means naming body) trees args)
    (h' : List.Forall₂ (OperandTree.Means naming' body') trees args')
    (hpointers : (body.pointers args).map σ = body'.pointers args') :
    args.map σ = args' ∧
      ∀ v ∈ body.pointers args, body'.values.get? (σ v) = body.values.get? v := by
  induction h generalizing args' with
  | nil =>
    cases h'
    exact ⟨rfl, by simp⟩
  | @cons tree v trees args hhead _ ih =>
    cases h' with
    | @cons _ v' _ args' hhead' htail' =>
      rw [List.map_cons]
      rw [Body.pointers_cons v, Body.pointers_cons v'] at hpointers
      rw [Body.pointers_cons v]
      cases hhead with
      | value hname =>
        cases hhead' with
        | value hname' =>
          have hnone : body.pointers [v] = [] := by simp [Body.pointers, hfits.isPointer hname]
          have hnone' : body'.pointers [v'] = [] := by simp [Body.pointers, hfits'.isPointer hname']
          rw [hnone, hnone'] at hpointers
          rw [hnone]
          obtain ⟨hargs, hsame⟩ := ih htail' hpointers
          exact ⟨by rw [hnames v v' ⟨_, hname, hname'⟩, hargs], hsame⟩
      | str hstr =>
        cases hhead' with
        | str hstr' =>
          have hone : body.pointers [v] = [v] := by
            simp [Body.pointers, Body.isPointer_iff.2 ⟨_, hstr⟩]
          have hone' : body'.pointers [v'] = [v'] := by
            simp [Body.pointers, Body.isPointer_iff.2 ⟨_, hstr'⟩]
          rw [hone, hone'] at hpointers
          rw [hone]
          obtain ⟨hv, hrest⟩ := List.cons.inj hpointers
          obtain ⟨hargs, hsame⟩ := ih htail' hrest
          refine ⟨by rw [hv, hargs], ?_⟩
          intro other hother
          rcases List.mem_cons.1 hother with rfl | hother
          · rw [hv, hstr, hstr']
          · exact hsame other hother

end Pairs

/-! ### Twins -/

/-- A value, and a block, has one name. -/
structure Source.Naming.Injective (naming : Naming) : Prop where
  value : ∀ name name' v, naming.value name v → naming.value name' v → name = name'
  block : ∀ name name' b, naming.block name b → naming.block name' b → name = name'

/-- Two bodies of one type that the same trees stand for, each in its module. -/
structure Twins (m m' : Module) (type : FuncType) (trees : List BlockTree)
    (naming naming' : Naming) (body body' : Body) : Prop where
  offers : m.Extends m'
  wellFormed : body.WellFormed m type
  wellFormed' : body'.WellFormed m' type
  means : BlockTree.AllMean naming body trees
  means' : BlockTree.AllMean naming' body' trees
  fits : naming.Fits body
  fits' : naming'.Fits body'
  injective : naming.Injective
  once : body.ReadOnce
  once' : body'.ReadOnce

namespace Twins

variable {m m' : Module} {type : FuncType} {trees : List BlockTree} {naming naming' : Naming}
  {body body' : Body} {σ : Value → Value}

lemma exists_map_readingOrder (h : Twins m m' type trees naming naming' body body') :
    ∃ σ : Value → Value, body.readingOrder.map σ = body'.readingOrder :=
  exists_map_eq h.once.nodup
    ((h.means.length_readingOrder h.fits).trans (h.means'.length_readingOrder h.fits').symm)

section Renumbering

variable (h : Twins m m' type trees naming naming' body body')
  (hσ : body.readingOrder.map σ = body'.readingOrder)
include h hσ

lemma blocks : List.Forall₂ (BlockBecomes naming naming' body body' σ) body.blocks.toList
    body'.blocks.toList := by
  have hpairs := forall₂_common h.means.blocks h.means'.blocks
  have hlengths : List.Forall₂ (fun data data' : BlockData =>
      data.paramValues.length = data'.paramValues.length) body.blocks.toList
        body'.blocks.toList := by
    apply hpairs.imp
    rintro data data' ⟨tree, hmeans, hmeans'⟩
    rw [hmeans.length_params, hmeans'.length_params]
  have hparamOrder : body.paramOrder.length = body'.paramOrder.length := by
    rw [Body.paramOrder, Body.paramOrder, List.length_flatMap,
      length_flatMap_of_forall₂ (hlengths.imp fun _ _ heq => heq.symm)]
  rw [Body.readingOrder, Body.readingOrder, List.map_append] at hσ
  obtain ⟨hparams, hblocks⟩ := List.append_inj hσ (by rw [List.length_map, hparamOrder])
  have hparams := forall₂_of_map_flatMap hlengths hparams
  have horders : List.Forall₂ (fun data data' =>
      (body.blockOrder data).length = (body'.blockOrder data').length) body.blocks.toList
        body'.blocks.toList := by
    apply hpairs.imp
    rintro data data' ⟨tree, hmeans, hmeans'⟩
    rw [hmeans.length_blockOrder h.fits, hmeans'.length_blockOrder h.fits']
  have hblocks := forall₂_of_map_flatMap horders hblocks
  apply (forall₂_and (forall₂_and hparams hblocks) hpairs).imp
  rintro data data' ⟨⟨hparams, horder⟩, tree, hmeans, hmeans'⟩
  exact blockBecomes h.fits h.fits' hmeans hmeans' hparams horder

lemma block {block : Block} {data : BlockData} (hdata : body.blocks.get? block = some data) :
    ∃ data', body'.blocks.get? block = some data' ∧
      BlockBecomes naming naming' body body' σ data data' := by
  rw [Table.get?_eq] at hdata ⊢
  exact getElem?_of_forall₂ (h.blocks hσ) hdata

lemma namedAlike {v : Value} {d : Def} (hd : body.values.get? v = some d)
    (hpointer : ∀ str, d ≠ .strRef str) : NamedAlike naming naming' v (σ v) := by
  rcases Body.of_mem_readingOrder (h.once.mem hd) with hparam | hinst | ⟨str, hstr⟩
  · obtain ⟨data, hdata, hvalue⟩ := List.mem_flatMap.1 hparam
    obtain ⟨p, hp, rfl⟩ := List.mem_map.1 hvalue
    obtain ⟨data', -, hbecomes⟩ := exists_right_of_forall₂ (h.blocks hσ) hdata
    obtain ⟨p', -, rfl, halike⟩ := exists_right_of_forall₂ hbecomes.params hp
    exact halike
  · obtain ⟨data, hdata, hvalue⟩ := List.mem_flatMap.1 hinst
    obtain ⟨data', -, hbecomes⟩ := exists_right_of_forall₂ (h.blocks hσ) hdata
    obtain ⟨inst', -, rfl, ⟨tree, hmeans, hmeans'⟩, -⟩ :=
      exists_right_of_forall₂ hbecomes.insts hvalue
    exact ⟨tree.result, hmeans.1, hmeans'.1⟩
  · exact (hpointer str (Option.some.inj (hd.symm.trans hstr))).elim

lemma value_eq {v v' : Value} (hv : NamedAlike naming naming' v v') : σ v = v' := by
  obtain ⟨name, hname, hname'⟩ := hv
  obtain ⟨d, hd, hpointer⟩ := h.fits.named name v hname
  obtain ⟨other, hother, hother'⟩ := h.namedAlike hσ hd hpointer
  obtain rfl := h.injective.value _ _ _ hname hother
  exact h.fits'.value _ _ _ hother' hname'

omit hσ in
lemma block_eq {name : Nat} {b b' : Block} (hb : naming.block name b) (hb' : naming'.block name b')
    (hlt : b.index < body.blocks.size) : b' = b := by
  have hlength := h.means.blocks.length_eq
  rw [Table.length_toList] at hlength
  obtain ⟨tree, htree⟩ : ∃ tree, trees[b.index]? = some tree :=
    ⟨_, List.getElem?_eq_getElem (by omega)⟩
  obtain rfl := h.injective.block _ _ _ hb (h.means.names b.index tree htree)
  exact h.fits'.block _ _ _ hb' (h.means'.names b.index tree htree)

/-- What becomes of an instruction, and of the pointers that it uses. -/
lemma inst_eq {inst : Value} {op : Operator} {args : List Value} {types : List ValueType}
    (hinst : inst ∈ body.listing) (hget : body.values.get? inst = some (.inst op args types)) :
    body'.values.get? (σ inst) = some (.inst op (args.map σ) types) ∧
      ∀ v ∈ body.pointers args, body'.values.get? (σ v) = body.values.get? v := by
  obtain ⟨data, hdata, hinst⟩ := List.mem_flatMap.1 hinst
  obtain ⟨data', -, hbecomes⟩ := exists_right_of_forall₂ (h.blocks hσ) hdata
  obtain ⟨inst', -, rfl, ⟨tree, ⟨-, _, _, _, hget₁, hop⟩, ⟨-, op', args', types', hget', hop'⟩⟩,
    hpointers⟩ := exists_right_of_forall₂ hbecomes.insts hinst
  obtain ⟨rfl, rfl, rfl⟩ := Def.inst.inj (Option.some.inj (hget.symm.trans hget₁))
  rw [Body.argsOf_eq hget, Body.argsOf_eq hget'] at hpointers
  obtain ⟨hargs, hsame⟩ := operandsBecome h.fits h.fits' (fun v v' => h.value_eq hσ)
    hop.operands hop'.operands hpointers
  obtain rfl : op' = op := hop'.eq_operator.trans hop.eq_operator.symm
  have hout := h.offers.outputTypes (h.wellFormed.resultTypes _ _ _ _ hget)
  rw [h.wellFormed'.resultTypes _ _ _ _ hget', Except.ok.injEq] at hout
  rw [hget', hargs, hout]
  exact ⟨rfl, hsame⟩

/-- What becomes of a terminator, and of the pointers that it uses. -/
lemma term_eq {data data' : BlockData} (hdata : data ∈ body.blocks.toList)
    (hbecomes : BlockBecomes naming naming' body body' σ data data') :
    data'.terminator = data.terminator.renumber σ ∧ ∀ v ∈ body.pointers data.terminator.operands,
      body'.values.get? (σ v) = body.values.get? v := by
  obtain ⟨tree, hterm, hterm'⟩ := hbecomes.term
  obtain ⟨hargs, hsame⟩ := operandsBecome h.fits h.fits' (fun v v' => h.value_eq hσ)
    hterm.operands hterm'.operands hbecomes.pointers
  refine ⟨?_, hsame⟩
  have hsuccessors : ∀ block ∈ data.terminator.successors, block.index < body.blocks.size :=
    fun block => (h.wellFormed.terminators data hdata).successor_lt
  have htarget : ∀ {tree : TargetTree} {target target' : Target}, tree.Means naming body target →
      tree.Means naming' body' target' → target.block ∈ data.terminator.successors →
        target.args.map σ = target'.args → target' = target.renumber σ := by
    rintro tree ⟨block, args⟩ ⟨block', args'⟩ hmeans hmeans' hblock hargs
    obtain rfl : block' = block := h.block_eq hmeans.block hmeans'.block (hsuccessors block hblock)
    exact congrArg (Target.mk block') hargs.symm
  generalize data.terminator = term at *
  generalize data'.terminator = term' at *
  cases hterm with
  | jump hmeans =>
    cases hterm' with
    | jump hmeans' =>
      exact congrArg Terminator.jump (htarget hmeans hmeans' List.mem_cons_self hargs)
  | branch hcond htrue hfalse =>
    cases hterm' with
    | branch hcond' htrue' hfalse' =>
      simp only [Terminator.operands, List.cons_append, List.map_cons, List.map_append] at hargs
      obtain ⟨hcondition, hargs⟩ := List.cons.inj hargs
      obtain ⟨hargsTrue, hargsFalse⟩ := List.append_inj hargs (by
        rw [List.length_map, ← htrue.args.length_eq, htrue'.args.length_eq])
      rw [htarget htrue htrue' List.mem_cons_self hargsTrue,
        htarget hfalse hfalse' (List.mem_cons_of_mem _ List.mem_cons_self) hargsFalse,
        ← hcondition]
      rfl
  | ret hmeans =>
    cases hterm' with
    | ret hmeans' => exact congrArg Terminator.ret hargs.symm
  | unreachable =>
    cases hterm'
    rfl

lemma values {v : Value} {d : Def} (hd : body.values.get? v = some d) :
    body'.values.get? (σ v) = some (d.renumber σ) := by
  have hpointer : (∃ str, body.values.get? v = some (.strRef str)) →
      body'.values.get? (σ v) = body.values.get? v → body'.values.get? (σ v) = some (d.renumber σ) := by
    rintro ⟨str, hstr⟩ hsame
    obtain rfl := Option.some.inj (hd.symm.trans hstr)
    rw [hsame, hd]
    rfl
  rcases Body.cases_readingOrder (h.once.mem hd) with
    hparam | ⟨data, hdata, ⟨inst, hinst, rfl | harg⟩ | harg⟩
  · obtain ⟨block, data, position, paramType, hdata, hposition⟩ := Body.mem_paramOrder.1 hparam
    have hdef := (h.wellFormed.params v block position paramType).2 ⟨data, hdata, hposition⟩
    obtain rfl := Option.some.inj (hd.symm.trans hdef)
    obtain ⟨data', hdata', hbecomes⟩ := h.block hσ hdata
    obtain ⟨_, hposition', rfl, -⟩ := getElem?_of_forall₂ hbecomes.params hposition
    exact (h.wellFormed'.params _ block position paramType).2 ⟨data', hdata', hposition'⟩
  · have hlisted : v ∈ body.listing := List.mem_flatMap.2 ⟨data, hdata, hinst⟩
    obtain ⟨op, args, types, hget⟩ := h.wellFormed.insts v hlisted
    obtain rfl := Option.some.inj (hd.symm.trans hget)
    exact (h.inst_eq hσ hlisted hget).1
  · have hlisted : inst ∈ body.listing := List.mem_flatMap.2 ⟨data, hdata, hinst⟩
    obtain ⟨op, args, types, hget⟩ := h.wellFormed.insts inst hlisted
    rw [Body.argsOf_eq hget] at harg
    exact hpointer (Body.mem_pointers.1 harg).2 ((h.inst_eq hσ hlisted hget).2 v harg)
  · obtain ⟨data', -, hbecomes⟩ := exists_right_of_forall₂ (h.blocks hσ) hdata
    exact hpointer (Body.mem_pointers.1 harg).2 ((h.term_eq hσ hdata hbecomes).2 v harg)

lemma home {v : Value} (hv : v.index < body.values.size) :
    body'.home.get (σ v) = body.home.get v := by
  obtain ⟨d, hd⟩ := Table.get?_of_lt hv
  rcases Body.of_mem_readingOrder (h.once.mem hd) with hparam | hinst | ⟨str, hstr⟩
  · obtain ⟨block, data, position, paramType, hdata, hposition⟩ := Body.mem_paramOrder.1 hparam
    obtain ⟨data', hdata', hbecomes⟩ := h.block hσ hdata
    obtain ⟨_, hposition', rfl, -⟩ := getElem?_of_forall₂ hbecomes.params hposition
    rw [h.wellFormed.homeOfParam block data hdata v
        (List.mem_map.2 ⟨_, List.mem_of_getElem? hposition, rfl⟩),
      h.wellFormed'.homeOfParam block data' hdata' (σ v)
        (List.mem_map.2 ⟨_, List.mem_of_getElem? hposition', rfl⟩)]
  · obtain ⟨data, hdata, hinst⟩ := List.mem_flatMap.1 hinst
    obtain ⟨block, hblock⟩ := Table.get?_of_mem hdata
    obtain ⟨data', hdata', hbecomes⟩ := h.block hσ hblock
    obtain ⟨inst', hinst', hbecome⟩ := exists_right_of_forall₂ hbecomes.insts hinst
    rw [← hbecome.value] at hinst'
    rw [h.wellFormed.homeOfInst block data hblock v hinst,
      h.wellFormed'.homeOfInst block data' hdata' (σ v) hinst']
  · rw [h.wellFormed.homeOfString v str hstr, h.wellFormed'.homeOfString (σ v) str (h.values hσ hstr)]

lemma withoutEdges {data data' : BlockData} (hdata : data ∈ body.blocks.toList)
    (hbecomes : BlockBecomes naming naming' body body' σ data data') :
    data'.withoutEdges = (data.renumber σ).withoutEdges := by
  have hparams : data.params.map (fun p => (p.1, σ p.2)) = data'.params := by
    rw [← List.forall₂_eq_eq_eq, List.forall₂_map_left_iff]
    exact hbecomes.params.imp fun _ _ hp => hp.1
  have hinsts : data.insts.map σ = data'.insts := by
    rw [← List.forall₂_eq_eq_eq, List.forall₂_map_left_iff]
    exact hbecomes.insts.imp fun _ _ hinst => hinst.value
  rw [BlockData.withoutEdges, ← hparams, ← hinsts, (h.term_eq hσ hdata hbecomes).1]
  rfl

lemma blocks_eq : body'.blocks = body.blocks.map (BlockData.renumber σ) := by
  let renumbered : Body := { body with blocks := body.blocks.map (BlockData.renumber σ) }
  have hdatas : body'.blocks.toList.map BlockData.withoutEdges =
      renumbered.blocks.toList.map BlockData.withoutEdges := by
    rw [Table.toList_map, List.map_map, eq_comm, ← List.forall₂_eq_eq_eq,
      List.forall₂_map_left_iff, List.forall₂_map_right_iff]
    exact forall₂_imp_of_mem (h.blocks hσ) fun data hdata _ _ hbecomes =>
      (h.withoutEdges hσ hdata hbecomes).symm
  have houtline : body'.outline = renumbered.outline := by
    apply Table.ext
    rw [Body.outline, Body.outline, Table.toList_map, Table.toList_map, hdatas]
  have hedges : renumbered.edges = body.edges := by
    apply Table.ext
    simp only [renumbered, Body.edges, Table.toList_map, List.map_map]
    rfl
  have hsuccessors : (body'.blocks.toList.map fun b => b.terminator.successors) =
      body.blocks.toList.map fun b => b.terminator.successors := by
    have hterms := congrArg (List.map fun b => b.terminator.successors) hdatas
    simpa [renumbered, Function.comp_def, BlockData.withoutEdges, BlockData.renumber] using hterms
  apply Body.blocks_eq_of_edges houtline
  rw [h.wellFormed'.edges_eq, hedges, h.wellFormed.edges_eq, Body.orderedEdges_congr hsuccessors]

/-- Twins are renumbered by what takes the values of one, as they are read, to those of the other. -/
theorem renumberedBy : body.RenumberedBy σ body' where
  paramCount := h.wellFormed'.paramCount.trans h.wellFormed.paramCount.symm
  returns := h.wellFormed'.returns.trans h.wellFormed.returns.symm
  entry := h.wellFormed'.entry.trans h.wellFormed.entry.symm
  blocks := h.blocks_eq hσ
  size := by rw [← h.once.length, ← h.once'.length, ← hσ, List.length_map]
  distinct v v' hv hv' heq := by
    have hdistinct : (body.readingOrder.map σ).Nodup := by
      rw [hσ]
      exact h.once'.nodup
    obtain ⟨d, hd⟩ := Table.get?_of_lt hv
    obtain ⟨d', hd'⟩ := Table.get?_of_lt hv'
    exact List.inj_on_of_nodup_map hdistinct (h.once.mem hd) (h.once.mem hd') heq
  values v d := h.values hσ
  home v := h.home hσ

end Renumbering

end Twins

end EntryTrace
