import EntryTrace.Proofs.DisplayOrder
import EntryTrace.Proofs.TwinBodies

/-!
# Bodies and the trees that spell them

Trees that spell a body stand for it, with every value and every block named by its number. If
the body is well-formed, its trees are well-typed.
-/

namespace EntryTrace

open Source

/-- Values that are no pointers, and blocks, go by their numbers. -/
def Body.numbering (body : Body) : Naming where
  value name v := name = v.index ∧ ∃ d, body.values.get? v = some d ∧ ∀ str, d ≠ .strRef str
  block name b := name = b.index

/-- What trees that spell a body rely on beside types: where it starts, that what is listed as a
parameter is one, and that each value is read once. Numbers that are no values yet have no home. -/
structure Body.Ordered (type : FuncType) (body : Body) : Prop where
  entry : body.entry = ⟨0⟩
  entryParams : ∃ data, body.blocks.get? body.entry = some data ∧ data.paramTypes = type.params
  params : ∀ data ∈ body.blocks.toList, ∀ p ∈ data.params, ∃ block position paramType,
    body.values.get? p.2 = some (.param block position paramType)
  once : body.ReadOnce
  fresh : ∀ v, body.values.size ≤ v.index → body.home.get v = .unset

namespace Body

variable {body : Body}

lemma fits_numbering : body.numbering.Fits body where
  value := by
    rintro name ⟨i⟩ ⟨j⟩ ⟨rfl, -⟩ ⟨hj, -⟩
    exact congrArg Entity.mk hj
  block := by
    rintro name ⟨i⟩ ⟨j⟩ rfl hj
    exact congrArg Entity.mk hj
  named _ _ hv := hv.2

lemma injective_numbering : body.numbering.Injective where
  value := by
    rintro name name' v ⟨rfl, -⟩ ⟨rfl, -⟩
    rfl
  block := by
    rintro name name' b rfl rfl
    rfl

end Body

namespace Source

variable {body : Body}

/-! ### What spells a body stands for it -/

lemma OperandTree.means_ofValue {v : Value} (hv : v.index < body.values.size) :
    (OperandTree.ofValue body.values v).Means body.numbering body v := by
  obtain ⟨d, hd⟩ := Table.get?_of_lt hv
  unfold OperandTree.ofValue
  rw [hd]
  cases d with
  | strRef s => exact .str hd
  | param => exact .value ⟨rfl, _, hd, fun str => by simp⟩
  | inst => exact .value ⟨rfl, _, hd, fun str => by simp⟩
  | undefined => exact .value ⟨rfl, _, hd, fun str => by simp⟩

lemma OperandTree.all_means_ofValue {args : List Value}
    (hargs : ∀ arg ∈ args, arg.index < body.values.size) :
    List.Forall₂ (OperandTree.Means body.numbering body) (args.map (.ofValue body.values)) args := by
  rw [List.forall₂_map_left_iff, List.forall₂_same]
  exact fun arg harg => means_ofValue (hargs arg harg)

lemma OpTree.Spells.means {tree : OpTree} {op : Operator} {args : List Value}
    (h : OpTree.Spells body.values op args tree)
    (hargs : ∀ arg ∈ args, arg.index < body.values.size) :
    tree.Means body.numbering body op args := by
  cases h with
  | nop => exact .nop
  | const32 c =>
    have hmeans : OpTree.Means body.numbering body (.const32 c.toNat) (.const32 (.ofInt c.toNat)) [] :=
      .const32 _
    rwa [Scope.ofInt_toNat_32] at hmeans
  | const64 c =>
    have hmeans : OpTree.Means body.numbering body (.const64 c.toNat) (.const64 (.ofInt c.toNat)) [] :=
      .const64 _
    rwa [Scope.ofInt_toNat_64] at hmeans
  | binary op left right =>
    exact .binary op (OperandTree.means_ofValue (hargs left (by simp)))
      (OperandTree.means_ofValue (hargs right (by simp)))
  | call callee args => exact .call callee.index (OperandTree.all_means_ofValue hargs)

lemma TargetTree.means_ofTarget {target : Target}
    (hargs : ∀ arg ∈ target.args, arg.index < body.values.size) :
    (TargetTree.ofTarget body.values target).Means body.numbering body target :=
  ⟨rfl, OperandTree.all_means_ofValue hargs⟩

lemma TermTree.Spells.means {tree : TermTree} {term : Terminator}
    (h : TermTree.Spells body.values term tree)
    (hargs : ∀ arg ∈ term.operands, arg.index < body.values.size) :
    tree.Means body.numbering body term := by
  cases h with
  | jump target => exact .jump (TargetTree.means_ofTarget hargs)
  | branch cond onTrue onFalse =>
    simp only [Terminator.operands, List.cons_append, List.mem_cons, List.mem_append] at hargs
    exact .branch (OperandTree.means_ofValue (hargs cond (.inl rfl)))
      (TargetTree.means_ofTarget fun arg harg => hargs arg (.inr (.inl harg)))
      (TargetTree.means_ofTarget fun arg harg => hargs arg (.inr (.inr harg)))
  | ret args => exact .ret (OperandTree.all_means_ofValue hargs)
  | unreachable => exact .unreachable

/-- The blocks of a body, each with the tree that spells it. -/
lemma BlockTree.SpellAll.entries {trees : List BlockTree} (h : BlockTree.SpellAll body trees)
    (hentry : body.entry = ⟨0⟩) (hlt : body.entry.index < body.blocks.size) :
    List.Forall₂ (fun entry tree => BlockTree.Spells body.values entry.1 entry.2 tree)
      body.blocks.entries trees := by
  rw [← Body.displayed_eq_entries hlt hentry]
  exact h.displayed hlt

lemma BlockTree.Spells.means {tree : BlockTree} {block : Block} {data : BlockData}
    (h : tree.Spells body.values block data)
    (hparams : ∀ p ∈ data.params, ∃ block position paramType,
      body.values.get? p.2 = some (.param block position paramType))
    (hinsts : ∀ inst ∈ data.insts, ∀ op args types,
      body.values.get? inst = some (.inst op args types) → ∀ arg ∈ args, arg.index < body.values.size)
    (hterm : ∀ arg ∈ data.terminator.operands, arg.index < body.values.size) :
    tree.Means body.numbering body data := by
  refine ⟨?_, ?_, h.term.means hterm⟩
  · rw [h.params, ParamsMean, List.forall₂_map_left_iff, List.forall₂_same]
    intro p hp
    obtain ⟨_, _, _, hparam⟩ := hparams p hp
    exact ⟨rfl, rfl, _, hparam, fun str => by simp⟩
  · apply List.Forall₂.flip
    apply forall₂_imp_of_mem h.insts
    rintro inst hinst tree - ⟨hresult, op, args, types, hget, hop⟩
    exact ⟨⟨hresult, _, hget, fun str => by simp⟩, op, args, types, hget,
      hop.means (hinsts inst hinst op args types hget)⟩

lemma BlockTree.SpellAll.means {module : Module} {type : FuncType} {trees : List BlockTree}
    (h : BlockTree.SpellAll body trees) (hordered : body.Ordered type)
    (hclosed : body.Closed module) : BlockTree.AllMean body.numbering body trees := by
  have hentries := h.entries hordered.entry hclosed.entry
  refine ⟨?_, fun i tree htree => ?_⟩
  · rw [← Table.map_snd_entries, List.forall₂_map_right_iff]
    apply (forall₂_imp_of_mem hentries _).flip
    rintro ⟨block, data⟩ hmem tree - hspells
    have hdata : data ∈ body.blocks.toList := Table.mem_of_get? (Table.get?_of_mem_entries hmem)
    refine hspells.means (hordered.params data hdata) ?_ (hclosed.blocks data hdata).operands
    intro inst _ op args types hget
    exact (hclosed.values _ (Table.mem_of_get? hget)).2
  · obtain ⟨entry, hentry, hspells⟩ := getElem?_of_forall₂ hentries.flip htree
    exact hspells.name.trans (congrArg Entity.index (Table.getElem?_entries hentry).1)

/-- Trees that spell a body ask for as many values as it has. -/
lemma BlockTree.SpellAll.valueCount_eq {module : Module} {type : FuncType}
    {trees : List BlockTree} (h : BlockTree.SpellAll body trees) (hordered : body.Ordered type)
    (hclosed : body.Closed module) : Source.valueCount type trees = body.values.size := by
  have hmeans := h.means hordered hclosed
  obtain ⟨data, hdata, htypes⟩ := hordered.entryParams
  have hblocks := hmeans.blocks
  rw [hordered.entry, Table.get?_eq] at hdata
  have hlength := hmeans.length_readingOrder body.fits_numbering
  obtain ⟨tree, htree, hfirst⟩ := getElem?_of_forall₂ hblocks.flip hdata
  cases trees with
  | nil => simp at htree
  | cons first rest =>
    obtain rfl : first = tree := Option.some.inj htree
    have hparams : first.params.length = type.params.length := by
      rw [← htypes, BlockData.paramTypes, List.length_map, hfirst.params.length_eq]
    rw [List.map_cons, List.sum_cons, hparams, hordered.once.length] at hlength
    rw [hlength]
    rfl

end Source

end EntryTrace
