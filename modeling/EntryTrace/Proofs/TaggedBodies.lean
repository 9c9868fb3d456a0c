import EntryTrace.Proofs.SpelledBodies
import EntryTrace.Proofs.TaggedModules

/-!
# What tagging keeps of a body

Tagging a body adds a pointer, which nothing but the new call uses, and the call, which comes
before all other instructions. So the body still refers only to what is there, each of its values is
still read once, and if the function that tags are handed to takes a pointer and nothing else, the
body stays well-formed.
-/

namespace EntryTrace

namespace Body

variable {m : Module} {type : FuncType} {body : Body} {callee : Func} {returns : List ValueType}
  {s : Str}

lemma values_prefixOf_tagged : body.values.PrefixOf (body.tagged callee returns s).values :=
  (Table.PrefixOf.append _ _).trans (.append _ _)

lemma size_values_tagged : (body.tagged callee returns s).values.size = body.values.size + 2 := by
  rw [tagged, Table.size_append, Table.size_append]

/-- Where a value of a tagged body comes from. -/
lemma of_get?_values_tagged {value : Value} {d : Def}
    (h : (body.tagged callee returns s).values.get? value = some d) :
    body.values.get? value = some d ∨ (value = ⟨body.values.size⟩ ∧ d = .strRef s) ∨
      (value = ⟨body.values.size + 1⟩ ∧ d = .inst (.call callee) [⟨body.values.size⟩] returns) := by
  have hlt := Table.get?_lt h
  rw [size_values_tagged] at hlt
  obtain ⟨i⟩ := value
  rcases Nat.lt_trichotomy i body.values.size with hi | rfl | hi
  · exact .inl ((get?_values_tagged_of_lt hi).symm.trans h)
  · exact .inr (.inl ⟨rfl, Option.some.inj (h.symm.trans get?_values_tagged_pointer)⟩)
  · obtain rfl : i = body.values.size + 1 := by
      simp only at hlt
      omega
    exact .inr (.inr ⟨rfl, Option.some.inj (h.symm.trans get?_values_tagged_call)⟩)

lemma home_tagged_of_ne {value : Value} (h : value ≠ ⟨body.values.size + 1⟩) :
    (body.tagged callee returns s).home.get value = body.home.get value := by
  rw [tagged, SideTable.get_set, if_neg h]

lemma home_tagged_call :
    (body.tagged callee returns s).home.get ⟨body.values.size + 1⟩ = body.entry := by
  rw [tagged, SideTable.get_set, if_pos rfl]

/-- The blocks of a tagged body; only the entry block has another list of instructions. -/
lemma get?_blocks_tagged_eq_some {block : Block} {data' : BlockData} :
    (body.tagged callee returns s).blocks.get? block = some data' ↔
      ∃ data, body.blocks.get? block = some data ∧ data' = { data with
        insts := (if block = body.entry then [⟨body.values.size + 1⟩] else []) ++ data.insts } := by
  rw [get?_blocks_tagged]
  split
  · simp [eq_comm]
  · simp

section Entry

variable (hentry : body.entry = ⟨0⟩) {data : BlockData}
  (hdata : body.blocks.get? body.entry = some data)
include hentry hdata

lemma exists_blocks_tagged (callee : Func) (returns : List ValueType) (s : Str) : ∃ rest, body.blocks.toList = data :: rest ∧
    (body.tagged callee returns s).blocks.toList =
      { data with insts := ⟨body.values.size + 1⟩ :: data.insts } :: rest := by
  have hget := hdata
  rw [hentry, Table.get?_eq] at hget
  obtain ⟨rest, hrest⟩ : ∃ rest, body.blocks.toList = data :: rest := by
    cases hblocks : body.blocks.toList with
    | nil => simp [hblocks] at hget
    | cons first rest =>
      rw [hblocks] at hget
      exact ⟨rest, congrArg (· :: rest) (Option.some.inj hget)⟩
  have happend : body.blocks.toList = [] ++ data :: rest := hrest
  refine ⟨rest, hrest, ?_⟩
  rw [tagged, hentry]
  exact Table.toList_modify_append happend _

lemma listing_tagged :
    (body.tagged callee returns s).listing = ⟨body.values.size + 1⟩ :: body.listing := by
  obtain ⟨rest, hblocks, htagged⟩ := exists_blocks_tagged hentry hdata callee returns s
  rw [listing, listing, hblocks, htagged]
  rfl

lemma paramOrder_tagged : (body.tagged callee returns s).paramOrder = body.paramOrder := by
  obtain ⟨rest, hblocks, htagged⟩ := exists_blocks_tagged hentry hdata callee returns s
  rw [paramOrder, paramOrder, hblocks, htagged]
  rfl

end Entry

lemma pointers_tagged {values : List Value} (h : ∀ value ∈ values, value.index < body.values.size) :
    (body.tagged callee returns s).pointers values = body.pointers values := by
  apply List.filter_congr
  intro value hvalue
  rw [isPointer, isPointer, get?_values_tagged_of_lt (h value hvalue)]

lemma blockOrder_tagged (hclosed : body.Closed m) {data : BlockData}
    (hdata : data ∈ body.blocks.toList) :
    (body.tagged callee returns s).blockOrder data = body.blockOrder data := by
  have hblock := hclosed.blocks data hdata
  rw [blockOrder, blockOrder, pointers_tagged hblock.operands]
  congr 1
  apply List.flatMap_congr
  intro inst hinst
  obtain ⟨op, args, types, hget⟩ := hblock.insts inst hinst
  have hargs := (hclosed.values _ (Table.mem_of_get? hget)).2
  rw [instOrder, instOrder, argsOf_eq hget, argsOf_eq (values_prefixOf_tagged.get? hget),
    pointers_tagged hargs]

lemma instOrder_tagged_call : (body.tagged callee returns s).instOrder ⟨body.values.size + 1⟩ =
    [⟨body.values.size⟩, ⟨body.values.size + 1⟩] := by
  rw [instOrder, argsOf_eq get?_values_tagged_call, pointers,
    List.filter_cons_of_pos (isPointer_iff.2 ⟨s, get?_values_tagged_pointer⟩)]
  rfl

lemma readingOrder_tagged (hclosed : body.Closed m) (hentry : body.entry = ⟨0⟩) :
    (body.tagged callee returns s).readingOrder = body.paramOrder ++
      (⟨body.values.size⟩ :: ⟨body.values.size + 1⟩ :: body.blocks.toList.flatMap body.blockOrder) := by
  obtain ⟨data, hdata⟩ := Table.get?_of_lt hclosed.entry
  obtain ⟨rest, hblocks, htagged⟩ := exists_blocks_tagged hentry hdata callee returns s
  have hsame : body.blocks.toList.flatMap (body.tagged callee returns s).blockOrder =
      body.blocks.toList.flatMap body.blockOrder :=
    List.flatMap_congr fun data hdata => blockOrder_tagged hclosed hdata
  rw [readingOrder, paramOrder_tagged hentry hdata, ← hsame, htagged, hblocks, List.flatMap_cons,
    List.flatMap_cons, blockOrder, List.flatMap_cons, instOrder_tagged_call]
  rfl

lemma ReadOnce.tagged (h : body.ReadOnce) (hclosed : body.Closed m) (hentry : body.entry = ⟨0⟩) :
    (body.tagged callee returns s).ReadOnce := by
  have hnew : Entity.from .value 0 (body.values.size + 2) =
      Entity.from .value 0 body.values.size ++ [⟨body.values.size⟩, ⟨body.values.size + 1⟩] := by
    simp [Entity.from, List.range'_concat]
  rw [ReadOnce, readingOrder_tagged hclosed hentry, size_values_tagged, hnew]
  have hmiddle := List.perm_append_comm_assoc body.paramOrder
    [(⟨body.values.size⟩ : Value), ⟨body.values.size + 1⟩] (body.blocks.toList.flatMap body.blockOrder)
  exact hmiddle.trans ((List.perm_append_comm).trans (h.append_right _))

lemma Ordered.tagged (h : body.Ordered type) (hclosed : body.Closed m) :
    (body.tagged callee returns s).Ordered type where
  entry := h.entry
  entryParams := by
    obtain ⟨data, hdata, htypes⟩ := h.entryParams
    refine ⟨{ data with insts := ⟨body.values.size + 1⟩ :: data.insts }, ?_, htypes⟩
    rw [get?_blocks_tagged]
    simp [Body.tagged, hdata]
  params data hdata p hp := by
    obtain ⟨block, hblock⟩ := Table.get?_of_mem hdata
    obtain ⟨old, hold, rfl⟩ := get?_blocks_tagged_eq_some.1 hblock
    obtain ⟨_, _, _, hparam⟩ := h.params old (Table.mem_of_get? hold) p hp
    exact ⟨_, _, _, values_prefixOf_tagged.get? hparam⟩
  once := h.once.tagged hclosed h.entry
  fresh v hv := by
    rw [size_values_tagged] at hv
    rw [home_tagged_of_ne (by rintro rfl; simp at hv)]
    exact h.fresh v (by omega)

lemma Closed.tagged (h : body.Closed m) (hroom : body.values.size + 2 ≤ Entity.limit)
    (hcallee : callee.index < m.funcs.size) (hs : s.index < m.strings.size) :
    (body.tagged callee returns s).Closed m := by
  have hpointer : (body.withValue (.strRef s)).Closed m := h.withValue (by omega) hs
  have hcall : ((body.withValue (.strRef s)).withValue
      (.inst (.call callee) [⟨body.values.size⟩] returns)).Closed m := by
    apply hpointer.withValue
    · rw [Body.withValue, Table.size_append]
      omega
    · refine ⟨hcallee, fun arg harg => ?_⟩
      rw [List.mem_singleton.1 harg, Body.withValue, Table.size_append]
      exact Nat.lt_succ_of_lt (Nat.lt_succ_self _)
  apply hcall.modifyBlock
  intro b _ hb
  refine { hb with insts := fun inst hinst => ?_ }
  rcases List.mem_cons.1 hinst with rfl | hinst
  · exact ⟨_, _, _, get?_values_tagged_call⟩
  · exact hb.insts inst hinst

lemma Finished.tagged (h : body.Finished) : (body.tagged callee returns s).Finished := by
  intro b hb
  obtain ⟨block, hblock⟩ := Table.get?_of_mem hb
  obtain ⟨data, hdata, rfl⟩ := get?_blocks_tagged_eq_some.1 hblock
  exact h data (Table.mem_of_get? hdata)

/-! ### Well-formedness -/

lemma Offers.tagged {before before' : List Value} {value : Value} (h : body.Offers m before value)
    (hbefore : before ⊆ before') : (body.tagged callee returns s).Offers m before' value := by
  have hmono := h.mono hbefore
  unfold Body.Offers at hmono ⊢
  cases hget : body.values.get? value with
  | none => simp [hget] at hmono
  | some d =>
    rw [hget] at hmono
    rwa [values_prefixOf_tagged.get? hget]

end Body

variable {m : Module} {type : FuncType} {body : Body} {callee : Func} {returns : List ValueType}
  {s : Str}

lemma Target.Typed.tagged {target : Target} (h : target.Typed body) :
    target.Typed (body.tagged callee returns s) := by
  obtain ⟨data, hdata, htypes⟩ := h
  exact ⟨_, Body.get?_blocks_tagged_eq_some.2 ⟨data, hdata, rfl⟩,
    htypes.mono Body.values_prefixOf_tagged⟩

lemma Terminator.Typed.tagged {term : Terminator} (h : term.Typed body) :
    term.Typed (body.tagged callee returns s) := by
  cases term with
  | jump target => exact Target.Typed.tagged h
  | branch cond onTrue onFalse =>
    exact ⟨h.1.mono Body.values_prefixOf_tagged, Target.Typed.tagged h.2.1,
      Target.Typed.tagged h.2.2⟩
  | ret values => exact Body.HasTypes.mono h Body.values_prefixOf_tagged
  | unreachable => trivial
  | missing => exact h.elim

namespace Body

lemma edges_tagged : (body.tagged callee returns s).edges = body.edges :=
  Table.map_modify_of_eq fun _ => rfl

lemma orderedEdges_tagged : (body.tagged callee returns s).orderedEdges = body.orderedEdges := by
  have hsuccessors : (body.tagged callee returns s).blocks.map (fun b => b.terminator.successors) =
      body.blocks.map fun b => b.terminator.successors := Table.map_modify_of_eq fun _ => rfl
  apply orderedEdges_congr
  rw [← Table.toList_map, ← Table.toList_map, hsuccessors]

lemma listingThrough_tagged (hentry : body.entry = ⟨0⟩) {data : BlockData}
    (hdata : body.blocks.get? body.entry = some data) (block : Block) :
    (body.tagged callee returns s).listingThrough block =
      ⟨body.values.size + 1⟩ :: body.listingThrough block := by
  obtain ⟨rest, hblocks, htagged⟩ := exists_blocks_tagged hentry hdata callee returns s
  rw [listingThrough, listingThrough, hblocks, htagged]
  rfl

lemma ne_call_of_get? {value : Value} {d : Def} (hd : body.values.get? value = some d) :
    value ≠ ⟨body.values.size + 1⟩ := by
  rintro rfl
  have hlt := Table.get?_lt hd
  simp only at hlt
  omega

namespace WellFormed

variable (h : body.WellFormed m type)
include h

lemma ne_call_of_mem {value : Value} (hvalue : value ∈ body.listing) :
    value ≠ ⟨body.values.size + 1⟩ := by
  obtain ⟨_, _, _, hget⟩ := h.insts value hvalue
  exact ne_call_of_get? hget

lemma params_tagged (value : Value) (block : Block) (position : Nat) (paramType : ValueType) :
    (body.tagged callee returns s).values.get? value = some (.param block position paramType) ↔
      ∃ data, (body.tagged callee returns s).blocks.get? block = some data ∧
        data.params[position]? = some (paramType, value) := by
  constructor
  · intro hget
    rcases of_get?_values_tagged hget with hget | ⟨-, hdef⟩ | ⟨-, hdef⟩
    · obtain ⟨data, hdata, hposition⟩ := (h.params value block position paramType).1 hget
      exact ⟨_, get?_blocks_tagged_eq_some.2 ⟨data, hdata, rfl⟩, hposition⟩
    · cases hdef
    · cases hdef
  · rintro ⟨data', hdata', hposition⟩
    obtain ⟨data, hdata, rfl⟩ := get?_blocks_tagged_eq_some.1 hdata'
    exact values_prefixOf_tagged.get?
      ((h.params value block position paramType).2 ⟨data, hdata, hposition⟩)

lemma isInst_tagged {value : Value} (hvalue : value ∈ (body.tagged callee returns s).listing) :
    (body.tagged callee returns s).IsInst value := by
  obtain ⟨data, hdata, -⟩ := h.entryParams
  rw [listing_tagged h.entry hdata] at hvalue
  rcases List.mem_cons.1 hvalue with rfl | hvalue
  · exact ⟨_, _, _, get?_values_tagged_call⟩
  · obtain ⟨_, _, _, hget⟩ := h.insts value hvalue
    exact ⟨_, _, _, values_prefixOf_tagged.get? hget⟩

lemma once_tagged {value : Value} (hvalue : (body.tagged callee returns s).IsInst value) :
    (body.tagged callee returns s).listing.count value = 1 := by
  obtain ⟨op, args, types, hget⟩ := hvalue
  obtain ⟨data, hdata, -⟩ := h.entryParams
  rw [listing_tagged h.entry hdata]
  rcases of_get?_values_tagged hget with hget | ⟨-, hdef⟩ | ⟨rfl, -⟩
  · rw [List.count_cons_of_ne (ne_call_of_get? hget).symm]
    exact h.once value ⟨_, _, _, hget⟩
  · cases hdef
  · rw [List.count_cons_self, List.count_eq_zero_of_not_mem fun hmem => h.ne_call_of_mem hmem rfl]

lemma homeOfInst_tagged {block : Block} {data : BlockData}
    (hdata : (body.tagged callee returns s).blocks.get? block = some data) {value : Value}
    (hvalue : value ∈ data.insts) : (body.tagged callee returns s).home.get value = block := by
  obtain ⟨old, hold, rfl⟩ := get?_blocks_tagged_eq_some.1 hdata
  rcases List.mem_append.1 hvalue with hcall | hinst
  · split at hcall
    · rename_i hblock
      rw [List.mem_singleton.1 hcall, home_tagged_call, hblock]
    · simp at hcall
  · have hlisted : value ∈ body.listing := List.mem_flatMap.2 ⟨old, Table.mem_of_get? hold, hinst⟩
    rw [home_tagged_of_ne (h.ne_call_of_mem hlisted)]
    exact h.homeOfInst block old hold value hinst

/-- The call comes first and uses the new pointer; what comes later has one more instruction before
it. -/
lemma operands_tagged (hs : s.index < m.strings.size) {before after : List Value} {inst : Value}
    (hlisting : (body.tagged callee returns s).listing = before ++ inst :: after) {op : Operator}
    {args : List Value} {types : List ValueType}
    (hget : (body.tagged callee returns s).values.get? inst = some (.inst op args types)) :
    ∀ arg ∈ args, (body.tagged callee returns s).Offers m before arg := by
  intro arg harg
  obtain ⟨data, hdata, -⟩ := h.entryParams
  rw [listing_tagged h.entry hdata] at hlisting
  cases before with
  | nil =>
    obtain ⟨rfl, -⟩ := List.cons.inj hlisting
    obtain ⟨-, rfl, -⟩ := Def.inst.inj (Option.some.inj (hget.symm.trans get?_values_tagged_call))
    rw [List.mem_singleton.1 harg, Offers, get?_values_tagged_pointer]
    exact hs
  | cons first before =>
    obtain ⟨-, hrest⟩ := List.cons.inj hlisting
    have hlisted : inst ∈ body.listing := by
      rw [hrest]
      exact List.mem_append_right _ List.mem_cons_self
    obtain ⟨_, _, _, hold⟩ := h.insts inst hlisted
    obtain ⟨rfl, rfl, rfl⟩ := Def.inst.inj
      (Option.some.inj (hget.symm.trans (values_prefixOf_tagged.get? hold)))
    exact (h.operands before inst after hrest _ _ _ hold arg harg).tagged
      (List.subset_cons_self _ _)

lemma edges_eq_tagged :
    ((body.tagged callee returns s).recomputeEdges : Except Fault _) =
      .ok (body.tagged callee returns s) := by
  refine (recomputeEdges_eq_self ?_).2
    (edges_tagged.trans (h.edges_eq.trans orderedEdges_tagged.symm))
  intro data hdata block hsuccessor
  obtain ⟨place, hplace⟩ := Table.get?_of_mem hdata
  obtain ⟨old, hold, rfl⟩ := get?_blocks_tagged_eq_some.1 hplace
  have hlt := (h.terminators old (Table.mem_of_get? hold)).successor_lt hsuccessor
  rwa [Body.tagged, Table.size_modify]

/-- A tagged body is well-formed if what tags are handed to takes a pointer and nothing else. -/
theorem tagged (hfresh : ∀ v, body.values.size ≤ v.index → body.home.get v = .unset)
    (hs : s.index < m.strings.size)
    (hcallee : (m.funcType callee : Except Fault _) = .ok ⟨[.ptr], returns⟩) :
    (body.tagged callee returns s).WellFormed m type where
  entry := h.entry
  entryParams := by
    obtain ⟨data, hdata, htypes⟩ := h.entryParams
    exact ⟨_, get?_blocks_tagged_eq_some.2 ⟨data, hdata, rfl⟩, htypes⟩
  paramCount := h.paramCount
  returns := h.returns
  params := h.params_tagged
  insts _ := h.isInst_tagged
  once _ := h.once_tagged
  homeOfParam block data' hdata' value hvalue := by
    obtain ⟨data, hdata, rfl⟩ := get?_blocks_tagged_eq_some.1 hdata'
    obtain ⟨p, hp, rfl⟩ := List.mem_map.1 hvalue
    obtain ⟨position, hposition⟩ := List.getElem?_of_mem hp
    rw [home_tagged_of_ne (ne_call_of_get? ((h.params _ _ _ _).2 ⟨data, hdata, hposition⟩))]
    exact h.homeOfParam block data hdata p.2 hvalue
  homeOfInst _ _ hdata _ := h.homeOfInst_tagged hdata
  homeOfString value str hget := by
    rcases of_get?_values_tagged hget with hget | ⟨rfl, -⟩ | ⟨-, hdef⟩
    · rw [home_tagged_of_ne (ne_call_of_get? hget)]
      exact h.homeOfString value str hget
    · rw [home_tagged_of_ne (by simp)]
      exact hfresh _ (le_refl _)
    · cases hdef
  operands _ _ _ hlisting _ _ _ := h.operands_tagged hs hlisting
  terminatorOperands block data' hdata' arg harg := by
    obtain ⟨data, hdata, rfl⟩ := get?_blocks_tagged_eq_some.1 hdata'
    obtain ⟨entryData, hentryData, -⟩ := h.entryParams
    rw [listingThrough_tagged h.entry hentryData]
    exact (h.terminatorOperands block data hdata arg harg).tagged (List.subset_cons_self _ _)
  operandTypes inst op args results hget := by
    rcases of_get?_values_tagged hget with hget | ⟨-, hdef⟩ | ⟨-, hdef⟩
    · obtain ⟨inputs, hin, htypes⟩ := h.operandTypes inst op args results hget
      exact ⟨inputs, hin, htypes.mono values_prefixOf_tagged⟩
    · cases hdef
    · cases hdef
      refine ⟨[.ptr], by simp [Operator.inputTypes, hcallee, Functor.map, Except.map], ?_⟩
      refine .cons ?_ .nil
      rw [get?_values_tagged_pointer]
      rfl
  resultTypes inst op args results hget := by
    rcases of_get?_values_tagged hget with hget | ⟨-, hdef⟩ | ⟨-, hdef⟩
    · exact h.resultTypes inst op args results hget
    · cases hdef
    · cases hdef
      simp [Operator.outputTypes, hcallee, Functor.map, Except.map]
  terminators data' hdata' := by
    obtain ⟨block, hblock⟩ := Table.get?_of_mem hdata'
    obtain ⟨data, hdata, rfl⟩ := get?_blocks_tagged_eq_some.1 hblock
    exact (h.terminators data (Table.mem_of_get? hdata)).tagged
  edges := h.edges_eq_tagged

end WellFormed

end Body

end EntryTrace
