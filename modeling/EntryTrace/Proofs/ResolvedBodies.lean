import EntryTrace.Proofs.FilledBodies

/-!
# Bodies that were read from text

The body that the trees of a function resolve to is the one that they stand for: its values are
numbered in the order in which they are read, and all checks were made. It is well-formed.
-/

namespace EntryTrace

open Source

namespace Source

lemma Scope.Closed.fits {module : Module} {scope : Scope} (h : scope.Closed module) :
    scope.naming.Fits scope.body where
  value _ _ _ hv hv' := Option.some.inj (hv.symm.trans hv')
  block _ _ _ hb hb' := Option.some.inj (hb.symm.trans hb')
  named name v hv := by
    obtain ⟨d, hd, hpointer⟩ := h.values _ (mem_of_lookup hv)
    exact ⟨d, hd, fun str hstr => hpointer (by rw [hstr]; trivial)⟩

lemma BlocksWritten.means {module : Module} {naming : Naming} {body : Body}
    {trees : List BlockTree} {start stop : Nat} {datas : List BlockData}
    (h : BlocksWritten module naming body trees start datas stop)
    (hparams : List.Forall₂ (fun tree data => ParamsMean naming tree.params data.params) trees
      datas) : List.Forall₂ (BlockTree.Means naming body) trees datas := by
  induction h with
  | nil => exact .nil
  | cons head _ ih =>
    cases hparams with
    | cons hhead htail => exact .cons ⟨hhead, head.insts, head.term⟩ (ih htail)

/-- What a terminator uses comes before the instructions of all later blocks. -/
lemma BlocksWritten.before {module : Module} {naming : Naming} {body : Body}
    {trees : List BlockTree} {start stop : Nat} {datas : List BlockData}
    (h : BlocksWritten module naming body trees start datas stop) :
    datas.Pairwise fun b b' => ∀ arg ∈ b.terminator.operands, ∀ inst ∈ b'.insts,
      arg.index < inst.index := by
  induction h with
  | nil => exact .nil
  | cons head tail ih =>
    refine .cons ?_ ih
    intro b' hb' arg harg inst hinst
    exact (head.operands arg harg).trans_le
      (tail.le_index (List.mem_flatMap.2 ⟨b', hb', hinst⟩))

lemma BlocksWritten.typed {module : Module} {naming : Naming} {body : Body}
    {trees : List BlockTree} {start stop : Nat} {datas : List BlockData}
    (h : BlocksWritten module naming body trees start datas stop) :
    ∀ data ∈ datas, data.terminator.Typed body ∧ ∀ inst ∈ data.insts, body.TypedInst module inst := by
  induction h with
  | nil => simp
  | cons head _ ih =>
    intro data hdata
    rcases List.mem_cons.1 hdata with rfl | hdata
    · exact ⟨head.terminator, head.typed⟩
    · exact ih data hdata

end Source

/-- The body is what the trees stand for, with the values numbered as they are read. -/
structure Body.Resolved (module : Module) (type : FuncType) (naming : Naming)
    (trees : List BlockTree) (body : Body) : Prop where
  closed : body.Closed module
  names : naming.Fits body
  heading : body.heading = (type.params.length, type.returns, ⟨0⟩)
  entryParams : ∃ data, body.blocks.get? ⟨0⟩ = some data ∧ data.paramTypes = type.params
  means : BlockTree.AllMean naming body trees
  order : Entity.Spans 0 body.values.size body.readingOrder
  params : ∀ block data, body.blocks.get? block = some data → ∀ position paramType value,
    data.params[position]? = some (paramType, value) →
      body.values.get? value = some (.param block position paramType)
  insts : ∀ inst ∈ body.listing, body.TypedInst module inst
  terminators : ∀ data ∈ body.blocks.toList, data.terminator.Typed body
  before : body.blocks.toList.Pairwise fun b b' => ∀ arg ∈ b.terminator.operands,
    ∀ inst ∈ b'.insts, arg.index < inst.index
  homeOfParam : ∀ block data, body.blocks.get? block = some data →
    ∀ value ∈ data.paramValues, body.home.get value = block
  homeOfInst : ∀ block data, body.blocks.get? block = some data →
    ∀ value ∈ data.insts, body.home.get value = block
  homeless : ∀ value, value ∉ body.paramOrder → value ∉ body.listing →
    body.home.get value = .unset
  edges : body.edges = body.orderedEdges

/-! ### Bodies whose blocks are known but for the edges -/

namespace Body

variable {body : Body} {datas : List BlockData} {heads : List (List (ValueType × Value))}

lemma map_withoutEdges_of_outline (h : body.outline.toList = datas) :
    body.blocks.toList.map BlockData.withoutEdges = datas := by
  rw [← Table.toList_map, ← outline, h]

lemma getElem?_of_outline (h : body.outline.toList = datas) {block : Block} {data : BlockData}
    (hdata : body.blocks.get? block = some data) :
    datas[block.index]? = some data.withoutEdges := by
  rw [← map_withoutEdges_of_outline h, List.getElem?_map, ← Table.get?_eq, hdata]
  rfl

lemma mem_of_outline (h : body.outline.toList = datas) {data : BlockData}
    (hdata : data ∈ body.blocks.toList) : data.withoutEdges ∈ datas := by
  rw [← map_withoutEdges_of_outline h]
  exact List.mem_map_of_mem hdata

lemma mem_zipIdx_of_outline (h : body.outline.toList = datas)
    (hheads : datas.map BlockData.params = heads) {block : Block} {data : BlockData}
    (hdata : body.blocks.get? block = some data) : (data.params, block.index) ∈ heads.zipIdx := by
  rw [List.mem_zipIdx_iff_getElem?, ← hheads, List.getElem?_map, getElem?_of_outline h hdata]
  rfl

lemma size_of_outline (h : body.outline.toList = datas)
    (hheads : datas.map BlockData.params = heads) : body.blocks.size = heads.length := by
  rw [← hheads, ← map_withoutEdges_of_outline h, List.length_map, List.length_map,
    Table.length_toList]

lemma listing_of_outline (h : body.outline.toList = datas) : body.listing = listingOf datas := by
  rw [listing, listingOf, listingOf, ← map_withoutEdges_of_outline h, List.flatMap_map]
  rfl

lemma paramOrder_of_outline (h : body.outline.toList = datas)
    (hheads : datas.map BlockData.params = heads) :
    body.paramOrder = heads.flatMap (List.map Prod.snd) := by
  rw [paramOrder, ← hheads, ← map_withoutEdges_of_outline h, List.flatMap_map, List.flatMap_map]
  rfl

lemma readingOrder_of_outline (h : body.outline.toList = datas)
    (hheads : datas.map BlockData.params = heads) :
    body.readingOrder = heads.flatMap (List.map Prod.snd) ++ datas.flatMap body.blockOrder := by
  have hblockOrder : body.blocks.toList.flatMap body.blockOrder = datas.flatMap body.blockOrder := by
    rw [← map_withoutEdges_of_outline h, List.flatMap_map]
    rfl
  rw [readingOrder, paramOrder_of_outline h hheads, hblockOrder]

end Body

namespace Source

/-- The edges of blocks that were filled one after the other. -/
lemma Scope.EndsAll.edges_eq {s t : Scope} {datas : List BlockData}
    {heads : List (List (ValueType × Value))} (h : s.EndsAll [] datas t)
    (hheads : datas.map BlockData.params = heads) (hopened : s.body.Opened heads) :
    t.body.edges = t.body.orderedEdges := by
  have houtline : t.body.blocks.toList.map BlockData.withoutEdges = datas :=
    Body.map_withoutEdges_of_outline h.outline
  have hsize : s.body.blocks.toList.length = t.body.blocks.toList.length := by
    rw [Table.length_toList, Table.length_toList, hopened.size_blocks,
      Body.size_of_outline h.outline hheads]
  have hempty : (s.body.blocks.map fun _ => (([], []) : List Block × List Block)) =
      t.body.blocks.map fun _ => ([], []) := by
    apply Table.ext
    rw [Table.toList_map, Table.toList_map, List.map_const', List.map_const', hsize]
  rw [h.edges, hopened.edges, hempty, Body.orderedEdges, ← houtline, List.map_map]
  rfl

/-- What the trees of a function resolve to is what they stand for. -/
theorem resolved_of_resolveBody {module : Module} {signature : Signature} {trees : List BlockTree}
    {body : Body} (htrees : trees ≠ []) (h : Answers (resolveBody module signature trees) body) :
    ∃ type naming, module.signatures.get? signature = some type ∧
      body.Resolved module type naming trees := by
  obtain ⟨type, empty, opened, s, t, htype, hempty, hopen, hfill, rfl⟩ := answers_resolveBody.1 h
  obtain ⟨tree, rest, rfl⟩ := List.exists_cons_of_ne_nil htrees
  have hs : s.Closed module := (Scope.openAll_replay hempty hopen).2.1
  obtain ⟨rfl, hheading, hblocks, params, heads, hparams, hopened, hmean⟩ :=
    Scope.openAll_opened hempty hopen
  have hopen : s.body.outline.toList = [] ++ (params :: heads).map BlockData.ofParams :=
    hopened.outline
  obtain ⟨ht, datas, hends, hheads, hwritten⟩ :=
    Scope.fillBlocks_written hs hmean.length_eq hopen hfill
  have hwritten := hwritten (Scope.Leads.self t)
  have houtline : t.body.outline.toList = datas := hends.outline
  have hmap := Body.map_withoutEdges_of_outline houtline
  have hlisting := Body.listing_of_outline houtline
  have hparamOrder := Body.paramOrder_of_outline houtline hheads
  have hhead {block : Block} {data : BlockData} (hdata : t.body.blocks.get? block = some data) :=
    Body.mem_zipIdx_of_outline houtline hheads hdata
  have hearlier : ∀ value, value.index < s.body.values.size → value ∉ listingOf datas :=
    fun value hvalue hmem => absurd (hwritten.le_index hmem) (by omega)
  refine ⟨type, t.naming, htype, {
    closed := ht.body
    names := ht.fits
    heading := hends.heading.trans hheading
    entryParams := ?_
    means := ⟨?_, fun i tree' htree' => hends.leads.names.block _ _ (hblocks i tree' htree')⟩
    order := ?_
    params := ?_
    insts := ?_
    terminators := fun data hdata => (hwritten.typed _ (Body.mem_of_outline houtline hdata)).1
    before := ?_
    homeOfParam := ?_
    homeOfInst := ?_
    homeless := ?_
    edges := hends.edges_eq hheads hopened }⟩
  · have hlt : (⟨0⟩ : Block).index < t.body.blocks.size := by
      rw [Body.size_of_outline houtline hheads]
      exact Nat.succ_pos _
    obtain ⟨data, hdata⟩ := Table.get?_of_lt hlt
    have hfirst := hhead hdata
    rw [List.mem_zipIdx_iff_getElem?] at hfirst
    obtain rfl : params = data.params := by simpa using hfirst
    exact ⟨data, hdata, hparams⟩
  · rw [← hheads, List.forall₂_map_right_iff] at hmean
    have hmeans := hwritten.means (hmean.imp fun _ _ h => h.mono hends.leads.names)
    rw [← hmap, List.forall₂_map_right_iff] at hmeans
    exact hmeans.imp fun _ _ h => ⟨h.params, h.insts, h.term⟩
  · rw [Body.readingOrder_of_outline houtline hheads]
    exact hopened.order.append hwritten.order
  · intro block data hdata position paramType value hposition
    apply hends.leads.values.get?
    exact hopened.defs _ (hhead hdata) ((paramType, value), position)
      (List.mem_zipIdx_iff_getElem?.2 hposition)
  · intro inst hinst
    rw [hlisting] at hinst
    obtain ⟨data, hdata, hinst⟩ := List.mem_flatMap.1 hinst
    exact (hwritten.typed data hdata).2 inst hinst
  · have hbefore := hwritten.before
    rw [← hmap, List.pairwise_map] at hbefore
    exact hbefore
  · intro block data hdata value hvalue
    obtain ⟨param, hparam, rfl⟩ := List.mem_map.1 hvalue
    have hlt := hopened.index_lt (List.fst_mem_of_mem_zipIdx (hhead hdata)) hparam
    rw [hends.kept _ (hearlier _ hlt)]
    exact hopened.home _ (hhead hdata) param hparam
  · intro block data hdata value hvalue
    exact hends.home (data.withoutEdges, block.index)
      (List.mem_zipIdx_iff_getElem?.2 (Body.getElem?_of_outline houtline hdata)) value hvalue
  · intro value hparam hinst
    rw [hlisting] at hinst
    rw [hends.kept value hinst]
    apply hopened.unset
    by_contra hlt
    rw [hparamOrder, hopened.order.mem_iff] at hparam
    exact hparam ⟨Nat.zero_le _, by omega⟩

end Source

namespace Body.Resolved

variable {module : Module} {type : FuncType} {naming : Naming} {trees : List BlockTree}
  {body : Body} {value : Value}

lemma isInst_of_mem (h : body.Resolved module type naming trees) (hvalue : value ∈ body.listing) :
    body.IsInst value := by
  obtain ⟨op, args, results, -, hget, -⟩ := h.insts value hvalue
  exact ⟨op, args, results, hget⟩

lemma param_of_mem (h : body.Resolved module type naming trees)
    (hvalue : value ∈ body.paramOrder) :
    ∃ block position paramType, body.values.get? value = some (.param block position paramType) := by
  obtain ⟨block, data, position, paramType, hdata, hposition⟩ := Body.mem_paramOrder.1 hvalue
  exact ⟨block, position, paramType, h.params block data hdata position paramType value hposition⟩

lemma mem_readingOrder (h : body.Resolved module type naming trees) {d : Def}
    (hd : body.values.get? value = some d) : value ∈ body.readingOrder :=
  h.order.mem_iff.2 ⟨Nat.zero_le _, Table.get?_lt hd⟩

lemma mem_listing (h : body.Resolved module type naming trees) (hvalue : body.IsInst value) :
    value ∈ body.listing := by
  obtain ⟨op, args, results, hget⟩ := hvalue
  rcases Body.of_mem_readingOrder (h.mem_readingOrder hget) with hparam | hlisted | ⟨str, hstr⟩
  · obtain ⟨block, position, paramType, hdef⟩ := h.param_of_mem hparam
    simp [hget] at hdef
  · exact hlisted
  · simp [hget] at hstr

lemma mem_paramOrder (h : body.Resolved module type naming trees) {block : Block} {position : Nat}
    {paramType : ValueType} (hvalue : body.values.get? value = some (.param block position paramType)) :
    value ∈ body.paramOrder := by
  rcases Body.of_mem_readingOrder (h.mem_readingOrder hvalue) with hparam | hlisted | ⟨str, hstr⟩
  · exact hparam
  · obtain ⟨op, args, results, hdef⟩ := h.isInst_of_mem hlisted
    simp [hvalue] at hdef
  · simp [hvalue] at hstr

/-- A value that is there can be used where all instructions with lower numbers come before. -/
lemma offers (h : body.Resolved module type naming trees) {before : List Value} {d : Def}
    (hd : body.values.get? value = some d)
    (hbefore : value ∈ body.listing → value ∈ before) : body.Offers module before value := by
  have hclosed := h.closed.values d (Table.mem_of_get? hd)
  unfold Body.Offers
  rw [hd]
  cases d with
  | param => trivial
  | inst op args results => exact hbefore (h.mem_listing ⟨op, args, results, hd⟩)
  | strRef str => exact hclosed
  | undefined => exact hclosed

lemma pairwise_lt (h : body.Resolved module type naming trees) :
    body.listing.Pairwise fun v v' => v.index < v'.index :=
  h.order.pairwise_lt.sublist body.listing_sublist_readingOrder

lemma offers_operand (h : body.Resolved module type naming trees) {before after : List Value}
    {inst arg : Value} (hlisting : body.listing = before ++ inst :: after) {op : Operator}
    {args : List Value} {results : List ValueType}
    (hget : body.values.get? inst = some (.inst op args results)) (harg : arg ∈ args) :
    body.Offers module before arg := by
  have hinst : inst ∈ body.listing := by
    rw [hlisting]
    simp
  obtain ⟨_, _, _, inputs, hget', -, htypes, -, hlt⟩ := h.insts inst hinst
  obtain ⟨rfl, rfl, rfl⟩ := Def.inst.inj (Option.some.inj (hget.symm.trans hget'))
  obtain ⟨d, hd⟩ := htypes.exists_get? harg
  refine h.offers hd fun hmem => ?_
  have hordered := h.pairwise_lt
  rw [hlisting, List.pairwise_append, List.pairwise_cons] at hordered
  rw [hlisting, List.mem_append, List.mem_cons] at hmem
  have hless := hlt arg harg
  rcases hmem with hmem | rfl | hmem
  · exact hmem
  · exact absurd hless (lt_irrefl _)
  · exact absurd (hordered.2.1.1 arg hmem) (by omega)

lemma offers_terminator (h : body.Resolved module type naming trees) {block : Block}
    {data : BlockData} (hdata : body.blocks.get? block = some data) {arg : Value}
    (harg : arg ∈ data.terminator.operands) :
    body.Offers module (body.listingThrough block) arg := by
  have hlt := (h.closed.blocks data (Table.mem_of_get? hdata)).operands arg harg
  obtain ⟨d, hd⟩ := Table.get?_of_lt hlt
  refine h.offers hd fun hmem => ?_
  rw [body.listing_eq_append block, List.mem_append] at hmem
  rcases hmem with hmem | hmem
  · exact hmem
  · obtain ⟨later, hlater, hinst⟩ := List.mem_flatMap.1 hmem
    have hhere : data ∈ body.blocks.toList.take (block.index + 1) := by
      rw [Table.get?_eq] at hdata
      exact List.mem_take_iff_getElem.2 (by
        obtain ⟨hindex, rfl⟩ := List.getElem?_eq_some_iff.1 hdata
        exact ⟨block.index, by omega, rfl⟩)
    have hbefore := h.before
    rw [← List.take_append_drop (block.index + 1) body.blocks.toList, List.pairwise_append]
      at hbefore
    exact absurd (hbefore.2.2 data hhere later hlater arg harg arg hinst) (lt_irrefl _)

/-- A body that was read from text is well-formed. -/
theorem wellFormed (h : body.Resolved module type naming trees) : body.WellFormed module type where
  entry := congrArg (fun p => p.2.2) h.heading
  entryParams := by
    rw [show body.entry = ⟨0⟩ from congrArg (fun p => p.2.2) h.heading]
    exact h.entryParams
  paramCount := congrArg Prod.fst h.heading
  returns := congrArg (fun p => p.2.1) h.heading
  params value block position paramType := by
    constructor
    · intro hvalue
      obtain ⟨block', data, position', paramType', hdata, hposition⟩ :=
        Body.mem_paramOrder.1 (h.mem_paramOrder hvalue)
      have hdef := h.params block' data hdata position' paramType' value hposition
      rw [hvalue, Option.some.injEq] at hdef
      obtain ⟨rfl, rfl, rfl⟩ := Def.param.inj hdef
      exact ⟨data, hdata, hposition⟩
    · rintro ⟨data, hdata, hposition⟩
      exact h.params block data hdata position paramType value hposition
  insts _ hvalue := h.isInst_of_mem hvalue
  once value hvalue := by
    apply List.count_eq_one_of_mem _ (h.mem_listing hvalue)
    exact h.order.nodup.sublist body.listing_sublist_readingOrder
  homeOfParam := h.homeOfParam
  homeOfInst := h.homeOfInst
  homeOfString value str hvalue := by
    apply h.homeless
    · intro hparam
      obtain ⟨block, position, paramType, hdef⟩ := h.param_of_mem hparam
      simp [hvalue] at hdef
    · intro hlisted
      obtain ⟨op, args, results, hdef⟩ := h.isInst_of_mem hlisted
      simp [hvalue] at hdef
  operands _ _ _ hlisting _ _ _ hget _ harg := h.offers_operand hlisting hget harg
  terminatorOperands _ _ hdata _ harg := h.offers_terminator hdata harg
  operandTypes inst op args results hget := by
    obtain ⟨_, _, _, inputs, hget', hin, htypes, -⟩ := h.insts inst (h.mem_listing ⟨_, _, _, hget⟩)
    obtain ⟨rfl, rfl, rfl⟩ := Def.inst.inj (Option.some.inj (hget.symm.trans hget'))
    exact ⟨inputs, hin, htypes⟩
  resultTypes inst op args results hget := by
    obtain ⟨_, _, _, inputs, hget', -, -, hout, -⟩ := h.insts inst (h.mem_listing ⟨_, _, _, hget⟩)
    obtain ⟨rfl, rfl, rfl⟩ := Def.inst.inj (Option.some.inj (hget.symm.trans hget'))
    exact hout
  terminators := h.terminators
  edges := by
    refine (Body.recomputeEdges_eq_self ?_).2 h.edges
    intro data hdata block hblock
    exact (h.terminators data hdata).successor_lt hblock

end Body.Resolved

end EntryTrace
