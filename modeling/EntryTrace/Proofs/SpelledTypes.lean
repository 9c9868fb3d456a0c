import EntryTrace.Proofs.Presentable

/-!
# Modules in which types fit are spelled by well-typed trees

If a tree spells a module in which all types fit, then types fit in the tree as well. This needs
nothing of the numbers of blocks and values but that they tell one from another.
-/

namespace EntryTrace

/-- The name of a value in the text that spells its body, with the type of the value. -/
def Body.typing (body : Body) (v : Value) : Nat × Option ValueType :=
  (v.index, (body.values.get? v).bind Def.type?)

namespace Source

variable {tree : ModuleTree} {m : Module} {type : FuncType} {body : Body}

lemma ModuleTree.Spells.size_strings (h : tree.Spells m) : tree.strings.size = m.strings.size := by
  rw [← Array.length_toList, h.strings, Table.length_toList]

lemma ModuleTree.Spells.funcType?_eq (h : tree.Spells m) (callee : Func) :
    tree.funcType? callee.index = some type ↔ (m.funcType callee : Except Fault _) = .ok type := by
  have htypes : ∀ signature : Signature, tree.types[signature.index]? = m.signatures.get? signature := by
    intro signature
    rw [Table.get?_eq, ← h.types, Array.getElem?_toList]
  rw [ModuleTree.funcType?, ← Array.getElem?_toList, Module.funcType_eq_ok]
  constructor
  · intro hfound
    obtain ⟨func, hfunc, htype⟩ := Option.bind_eq_some_iff.1 hfound
    obtain ⟨decl, hdecl, hspells⟩ := getElem?_of_forall₂ h.funcs.flip hfunc
    rw [hspells.signature, htypes] at htype
    exact ⟨decl, by rw [Table.get?_eq, hdecl], htype⟩
  · rintro ⟨decl, hdecl, htype⟩
    rw [Table.get?_eq] at hdecl
    obtain ⟨func, hfunc, hspells⟩ := getElem?_of_forall₂ h.funcs hdecl
    rw [hfunc, Option.bind_some, hspells.signature, htypes]
    exact htype

/-! ### Operands and operators -/

section Operands

variable (hm : tree.Spells m) (hbody : body.Presentable m type) {before : List Value}
include hm

lemma gives_ofValue {v : Value} (hprovides : body.Provides m before v) :
    (OperandTree.ofValue body.values v).Gives tree ((body.displayedParams ++ before).map body.typing)
      ((body.values.get? v).bind Def.type?) := by
  have hnamed : v ∈ body.displayedParams ++ before →
      (v.index, (body.values.get? v).bind Def.type?) ∈
        (body.displayedParams ++ before).map body.typing := List.mem_map_of_mem
  unfold Body.Provides at hprovides
  unfold OperandTree.ofValue
  cases hd : body.values.get? v with
  | none => simp [hd] at hprovides
  | some d =>
    rw [hd] at hprovides hnamed
    cases d with
    | strRef s => exact ⟨hm.size_strings ▸ hprovides, rfl⟩
    | param => exact hnamed (List.mem_append_left _ hprovides)
    | inst => exact hnamed (List.mem_append_right _ hprovides)
    | undefined => exact hprovides.elim

lemma operandsTyped_ofValue {args : List Value} {expected : List ValueType}
    (hprovides : ∀ arg ∈ args, body.Provides m before arg) (htypes : body.HasTypes args expected) :
    OperandsTyped tree ((body.displayedParams ++ before).map body.typing)
      (args.map (.ofValue body.values)) expected := by
  rw [OperandsTyped, List.forall₂_map_left_iff]
  apply forall₂_imp_of_mem htypes
  rintro arg harg expected - htype
  rw [← htype]
  exact gives_ofValue hm (hprovides arg harg)

lemma OpTree.Spells.type?_eq {opTree : OpTree} {op : Operator} {args : List Value}
    {values : Table .value Def} {inputs outputs : List ValueType}
    (h : OpTree.Spells values op args opTree)
    (hin : (op.inputTypes m : Except Fault _) = .ok inputs)
    (hout : (op.outputTypes m : Except Fault _) = .ok outputs) :
    opTree.type? tree = some ⟨inputs, outputs⟩ := by
  cases h with
  | nop =>
    obtain rfl := Except.ok.inj hin
    obtain rfl := Except.ok.inj hout
    rfl
  | const32 c =>
    obtain rfl := Except.ok.inj hin
    obtain rfl := Except.ok.inj hout
    rfl
  | const64 c =>
    obtain rfl := Except.ok.inj hin
    obtain rfl := Except.ok.inj hout
    rfl
  | binary op left right =>
    obtain rfl := Except.ok.inj hin
    obtain rfl := Except.ok.inj hout
    rfl
  | call callee args =>
    simp only [Operator.inputTypes, Operator.outputTypes, map_eq_pure_bind, bind_eq_ok, pure_eq_ok,
      Except.ok.injEq] at hin hout
    obtain ⟨found, hfound, rfl⟩ := hin
    obtain ⟨found', hfound', rfl⟩ := hout
    obtain rfl := Except.ok.inj (hfound.symm.trans hfound')
    exact (hm.funcType?_eq callee).2 hfound

omit hm in
lemma OpTree.Spells.operands_eq {opTree : OpTree} {op : Operator} {args : List Value}
    (h : OpTree.Spells body.values op args opTree) :
    opTree.operands = args.map (.ofValue body.values) := by
  cases h <;> rfl

omit hm in
lemma OpTree.Spells.fits {opTree : OpTree} {op : Operator} {args : List Value}
    {values : Table .value Def} (h : OpTree.Spells values op args opTree) : opTree.Fits := by
  cases h with
  | const32 c =>
    have hlt := c.toNat_lt
    exact ⟨by omega, by omega⟩
  | const64 c =>
    have hlt := c.toNat_lt
    exact ⟨by omega, by omega⟩
  | nop => trivial
  | binary => trivial
  | call => trivial

/-! ### Instructions -/

lemma InstTree.Spells.typing_eq {instTree : InstTree} {inst : Value}
    (h : InstTree.Spells body.values inst instTree) (hfits : body.InstFits m before inst) :
    instTree.typing tree = body.typing inst := by
  obtain ⟨hresult, op, args, types, hget, hop⟩ := h
  obtain ⟨_, _, _, inputs, hget', hin, hout, -⟩ := hfits
  obtain ⟨rfl, rfl, rfl⟩ := Def.inst.inj (Option.some.inj (hget.symm.trans hget'))
  rw [InstTree.typing, Body.typing, hresult, hget, hop.type?_eq hm hin hout]
  rfl

lemma InstTree.Spells.wellTyped {instTree : InstTree} {inst : Value}
    (h : InstTree.Spells body.values inst instTree) (hfits : body.InstFits m before inst) :
    instTree.op.WellTyped tree ((body.displayedParams ++ before).map body.typing) := by
  obtain ⟨-, op, args, types, hget, hop⟩ := h
  obtain ⟨_, _, _, inputs, hget', hin, hout, htypes, hargs⟩ := hfits
  obtain ⟨rfl, rfl, rfl⟩ := Def.inst.inj (Option.some.inj (hget.symm.trans hget'))
  refine ⟨hop.fits, _, hop.type?_eq hm hin hout, ?_⟩
  rw [hop.operands_eq]
  exact operandsTyped_ofValue hm hargs htypes

/-! ### Blocks -/

section Blocks

variable {trees : List BlockTree} (hspells : BlockTree.SpellAll body trees)
include hbody

lemma typings_eq {instTrees : List InstTree} {insts : List Value}
    (h : List.Forall₂ (InstTree.Spells body.values) insts instTrees)
    (hinsts : ∀ inst ∈ insts, inst ∈ body.displayedInsts) :
    instTrees.map (InstTree.typing tree) = insts.map body.typing := by
  apply map_eq_of_forall₂
  apply (forall₂_imp_of_mem h fun inst hinst _ _ hspells => ?_).flip
  obtain ⟨before, -, hfits⟩ := hbody.instFits (hinsts inst hinst)
  exact hspells.typing_eq hm hfits

/-- The results of some of the blocks, which come first. -/
lemma resultTypes_eq {trees : List BlockTree} {entries : List (Block × BlockData)}
    (h : List.Forall₂ (fun entry blockTree => BlockTree.Spells body.values (Prod.fst entry)
      (Prod.snd entry) blockTree) entries trees) (hentries : entries ⊆ body.displayed) :
    resultTypes tree trees = (listingOf (entries.map Prod.snd)).map body.typing := by
  rw [resultTypes, listingOf, List.flatMap_map, List.map_flatMap, List.map_flatMap]
  apply flatMap_eq_of_forall₂
  refine (forall₂_imp_of_mem h fun entry hentry _ _ hspells => ?_).flip
  exact typings_eq hm hbody hspells.insts fun inst hinst =>
    Body.mem_displayedInsts (hentries hentry) hinst

include hspells

omit hm in
lemma mem_heads {block : Block} {data : BlockData} (hdata : body.blocks.get? block = some data) :
    (block.index, data.paramTypes) ∈ trees.map BlockTree.head := by
  have hmem : (block, data) ∈ body.displayed := Body.mem_displayed.2 hdata
  obtain ⟨blockTree, hmem, hblock⟩ := exists_right_of_forall₂ (hspells.displayed hbody.entry_lt) hmem
  refine List.mem_map.2 ⟨blockTree, hmem, Prod.ext hblock.name ?_⟩
  rw [BlockTree.head, hblock.params, List.map_map]
  rfl

lemma wellTyped_ofTarget {target : Target}
    (htyped : target.Typed { body with returns := type.returns })
    (hprovides : ∀ arg ∈ target.args, body.Provides m before arg) :
    (TargetTree.ofTarget body.values target).WellTyped tree (trees.map BlockTree.head)
      ((body.displayedParams ++ before).map body.typing) := by
  obtain ⟨data, hdata, htypes⟩ := htyped
  exact ⟨data.paramTypes, mem_heads hbody hspells hdata,
    operandsTyped_ofValue hm hprovides htypes⟩

lemma TermTree.Spells.wellTyped {termTree : TermTree} {term : Terminator}
    (h : TermTree.Spells body.values term termTree)
    (htyped : term.Typed { body with returns := type.returns })
    (hprovides : ∀ arg ∈ term.operands, body.Provides m before arg) :
    termTree.WellTyped tree (trees.map BlockTree.head) type.returns
      ((body.displayedParams ++ before).map body.typing) := by
  cases h with
  | jump target => exact wellTyped_ofTarget hm hbody hspells htyped hprovides
  | branch cond onTrue onFalse =>
    simp only [Terminator.operands, List.cons_append, List.mem_cons, List.mem_append] at hprovides
    obtain ⟨hcond, htrue, hfalse⟩ := htyped
    refine ⟨?_, wellTyped_ofTarget hm hbody hspells htrue fun arg harg =>
      hprovides arg (.inr (.inl harg)), wellTyped_ofTarget hm hbody hspells hfalse fun arg harg =>
        hprovides arg (.inr (.inr harg))⟩
    rw [Body.HasTypes, List.forall₂_cons] at hcond
    rw [← hcond.1]
    exact gives_ofValue hm (hprovides cond (.inl rfl))
  | ret args => exact operandsTyped_ofValue hm hprovides htyped
  | unreachable => trivial

omit hm in
lemma paramTypes_eq : paramTypes trees = body.displayedParams.map body.typing := by
  have htypings : List.Forall₂ (fun entry blockTree => typingsOf (BlockTree.params blockTree) =
      (BlockData.paramValues (Prod.snd entry)).map body.typing) body.displayed trees := by
    apply forall₂_imp_of_mem (hspells.displayed hbody.entry_lt)
    rintro ⟨block, data⟩ hmem blockTree - hblock
    unfold typingsOf
    rw [hblock.params, BlockData.paramValues, List.map_map, List.map_map, List.map_inj_left]
    intro p hp
    obtain ⟨position, hposition⟩ := List.getElem?_of_mem hp
    have hdef := hbody.params block data (Body.mem_displayed.1 hmem) position p.1 p.2 hposition
    simp [Body.typing, hdef, Def.type?]
  rw [paramTypes, Body.displayedParams, List.map_flatMap]
  exact flatMap_eq_of_forall₂ htypings.flip

/-- The tree of a block that is printed after the blocks `done` is well-typed. -/
lemma BlockTree.Spells.wellTyped {blockTree : BlockTree} {entry : Block × BlockData}
    {done later : List (Block × BlockData)} (h : blockTree.Spells body.values entry.1 entry.2)
    (hblocks : body.displayed = done ++ entry :: later) :
    blockTree.WellTyped tree (trees.map BlockTree.head) type.returns
      ((body.displayedParams ++ listingOf (done.map Prod.snd)).map body.typing) := by
  have hmem : entry ∈ body.displayed := by simp [hblocks]
  have hinsts : ∀ inst ∈ entry.2.insts, inst ∈ body.displayedInsts :=
    fun inst hinst => Body.mem_displayedInsts hmem hinst
  refine ⟨?_, ?_⟩
  · intro earlier inst rest hsplit
    obtain ⟨values, v, values', hdata, hearlier, hinst, -⟩ := forall₂_split (hsplit ▸ h.insts)
    have hdisplayed : body.displayedInsts =
        (listingOf (done.map Prod.snd) ++ values) ++
          v :: (values' ++ listingOf (later.map Prod.snd)) := by
      simp [Body.displayedInsts, listingOf, hblocks, hdata]
    rw [typings_eq hm hbody hearlier fun inst hinst => hinsts inst (by simp [hdata, hinst]),
      ← List.map_append, List.append_assoc]
    exact hinst.wellTyped hm (hbody.insts _ _ _ hdisplayed)
  · obtain ⟨htyped, hprovides⟩ := hbody.terminators done entry later hblocks
    rw [typings_eq hm hbody h.insts hinsts, ← List.map_append, List.append_assoc]
    exact h.term.wellTyped hm hbody hspells htyped hprovides

/-- Trees that spell a body which can be presented are well-typed. -/
lemma bodyWellTyped : BodyWellTyped tree type trees := by
  have hdisplayed := hspells.displayed hbody.entry_lt
  refine ⟨?_, ?_, ?_, ?_⟩
  · have hnames : trees.map BlockTree.name = body.displayOrder.map Entity.index := by
      rw [← Body.map_fst_displayed hbody.entry_lt, List.map_map]
      exact map_eq_of_forall₂ (hdisplayed.flip.imp fun _ _ hblock => hblock.name)
    rw [hnames]
    exact (Body.nodup_displayOrder hbody.entry_lt).map (Entity.index_injective .block)
  · have hparams : (trees.flatMap BlockTree.params).map Prod.fst =
        body.displayedParams.map Entity.index := by
      have htypes := congrArg (List.map Prod.fst) (paramTypes_eq hbody hspells)
      simpa [paramTypes, typingsOf, List.map_flatMap, Function.comp_def, Body.typing] using htypes
    have hinsts : (trees.flatMap BlockTree.insts).map InstTree.result =
        body.displayedInsts.map Entity.index := by
      have htypes := congrArg (List.map Prod.fst)
        (resultTypes_eq hm hbody hdisplayed (List.Subset.refl _))
      simpa [resultTypes, InstTree.typing, Function.comp_def, Body.typing, Body.displayedInsts]
        using htypes
    rw [hparams, hinsts, ← List.map_append]
    exact hbody.distinct.map (Entity.index_injective .value)
  · intro first hfirst
    obtain ⟨data, hdata, htypes⟩ := hbody.entryParams
    have hplace := Body.getElem?_displayed hbody.entry_lt hdata
    rw [Body.place_entry] at hplace
    obtain ⟨found, hfound, hblock⟩ := getElem?_of_forall₂ hdisplayed hplace
    rw [List.head?_eq_getElem?, Option.mem_def, hfound, Option.some.injEq] at hfirst
    rw [← hfirst, hblock.params, List.map_map, ← htypes]
    rfl
  · intro before blockTree after htrees
    obtain ⟨done, entry, later, hsplit, hbefore, hblock, -⟩ := forall₂_split (htrees ▸ hdisplayed)
    have hresults : resultTypes tree before = (listingOf (done.map Prod.snd)).map body.typing :=
      resultTypes_eq hm hbody hbefore (by simp [hsplit])
    rw [paramTypes_eq hbody hspells, hresults, ← List.map_append]
    exact hblock.wellTyped hm hbody hspells hsplit

end Blocks

end Operands

/-! ### Modules -/

lemma FuncTree.Spells.exists_body {func : FuncTree} {decl : Decl} {trees : List BlockTree}
    (h : func.Spells decl) (htrees : func.blocks? = some trees) :
    ∃ body, decl.body? = some body ∧ BlockTree.SpellAll body trees := by
  cases hbody : decl.body? with
  | none =>
    rw [h.imported hbody] at htrees
    cases htrees
  | some found =>
    obtain ⟨_, hblocks, hspells⟩ := h.defined found hbody
    obtain rfl := Option.some.inj (htrees.symm.trans hblocks)
    exact ⟨found, rfl, hspells⟩

/-- A tree is well-typed if it spells a module in which all bodies can be presented. -/
lemma ModuleTree.Spells.wellTyped_of_presentable (h : tree.Spells m)
    (hsignatures : m.SignaturesInRange)
    (hbodies : ∀ decl ∈ m.funcs.toList, ∀ body ∈ decl.body?,
      ∃ type, m.signatures.get? decl.signature = some type ∧ body.Presentable m type) :
    tree.WellTyped where
  signatures func hfunc := by
    obtain ⟨decl, hdecl, hspells⟩ := exists_left_of_forall₂ h.funcs hfunc
    rw [hspells.signature, ← Array.length_toList, h.types, Table.length_toList]
    exact hsignatures decl hdecl
  funcs func hfunc trees htrees type htype := by
    obtain ⟨decl, hdecl, hspells⟩ := exists_left_of_forall₂ h.funcs hfunc
    obtain ⟨body, hbody, hall⟩ := hspells.exists_body htrees
    obtain ⟨found, hfound, hpresentable⟩ := hbodies decl hdecl body hbody
    rw [hspells.signature, ← Array.getElem?_toList, h.types, ← Table.get?_eq, hfound] at htype
    obtain rfl := Option.some.inj htype
    exact bodyWellTyped h hpresentable hall

/-- A tree that spells a well-formed module is well-typed. -/
theorem ModuleTree.Spells.wellTyped (h : tree.Spells m) (hm : m.WellFormed)
    (honce : ∀ decl ∈ m.funcs.toList, ∀ body ∈ decl.body?, body.ReadOnce) : tree.WellTyped := by
  refine h.wellTyped_of_presentable hm.signatures fun decl hdecl body hbody => ?_
  obtain ⟨type, htype, hwell⟩ := hm.bodies decl hdecl body hbody
  exact ⟨type, htype, hwell.presentable (honce decl hdecl body hbody)⟩

end Source

/-- Every body of the module can be spelled by trees that fit its function's type. -/
def Module.Ordered (m : Module) : Prop :=
  ∀ decl ∈ m.funcs.toList, ∀ body ∈ decl.body?,
    ∃ type, m.signatures.get? decl.signature = some type ∧ body.Ordered type

namespace Source

variable {tree : ModuleTree} {m : Module}

/-- A tree that spells a readable module asks for no more than there are numbers for. -/
theorem ModuleTree.Spells.withinLimits (h : tree.Spells m) (hm : m.Readable) (hordered : m.Ordered) :
    tree.WithinLimits where
  types := by
    rw [← Array.length_toList, h.types, Table.length_toList]
    exact hm.signatureLimit
  strings := by
    rw [h.size_strings]
    exact hm.stringLimit
  funcs := by
    rw [← Array.length_toList, ← h.funcs.length_eq, Table.length_toList]
    exact hm.funcLimit
  bodies func hfunc trees htrees := by
    obtain ⟨decl, hdecl, hspells⟩ := exists_left_of_forall₂ h.funcs hfunc
    obtain ⟨body, hbody, hall⟩ := hspells.exists_body htrees
    obtain ⟨found, hfound, hbodyOrdered⟩ := hordered decl hdecl body hbody
    have hclosed := hm.bodies decl hdecl body hbody
    refine ⟨?_, fun type htype => ?_⟩
    · rw [← (hall.entries hbodyOrdered.entry hclosed.entry).length_eq, Table.length_entries]
      exact hclosed.blockLimit
    · rw [hspells.signature, ← Array.getElem?_toList, h.types, ← Table.get?_eq, hfound] at htype
      obtain rfl := Option.some.inj htype
      rw [hall.valueCount_eq hbodyOrdered hclosed]
      exact hclosed.valueLimit

/-- If a well-typed tree spells a function that begins with a call that hands over a pointer and
nothing else, then that is what the called function takes. -/
theorem ModuleTree.Spells.params_of_firstCall (h : tree.Spells m) (hw : tree.WellTyped) {decl : Decl}
    {body : Body} {data : BlockData} {inst arg : Value} {rest : List Value} {callee : Func}
    {results : List ValueType} {s : Str} (hdecl : decl ∈ m.funcs.toList)
    (hbody : decl.body? = some body) (hentry : body.entry = ⟨0⟩)
    (hdata : body.blocks.get? body.entry = some data) (hinsts : data.insts = inst :: rest)
    (hinst : body.values.get? inst = some (.inst (.call callee) [arg] results))
    (harg : body.values.get? arg = some (.strRef s)) :
    ∃ type, (m.funcType callee : Except Fault _) = .ok type ∧ type.params = [.ptr] := by
  obtain ⟨func, hfunc, hspells⟩ := exists_right_of_forall₂ h.funcs hdecl
  obtain ⟨trees, htrees, hall⟩ := hspells.defined body hbody
  obtain ⟨type, htype⟩ : ∃ type, tree.types[func.signature]? = some type :=
    ⟨_, Array.getElem?_eq_getElem (hw.signatures func hfunc)⟩
  have hblocks := (hw.funcs func hfunc trees htrees type htype).blocks
  have hentries := hall.entries hentry (Table.get?_lt hdata)
  have hget := Table.getElem?_entries_of_get? hdata
  rw [hentry] at hget
  obtain ⟨first, hfirst, hblock⟩ := getElem?_of_forall₂ hentries hget
  obtain ⟨others, rfl⟩ : ∃ others, trees = first :: others := by
    cases trees with
    | nil => simp at hfirst
    | cons head others => exact ⟨others, congrArg (· :: others) (Option.some.inj hfirst)⟩
  have hspelled := hblock.insts
  simp only [hinsts] at hspelled
  obtain ⟨instTree, instTrees, hcall, -, heq⟩ := List.forall₂_cons_left_iff.1 hspelled
  obtain ⟨-, funcType, hfuncType, htyped⟩ :=
    (hblocks [] first others rfl).insts [] instTree instTrees heq
  obtain ⟨-, op, args, types, hop, hspellsOp⟩ := hcall
  obtain ⟨rfl, rfl, -⟩ := Def.inst.inj (Option.some.inj (hinst.symm.trans hop))
  generalize instTree.op = opTree at hspellsOp hfuncType htyped
  cases hspellsOp with
  | call callee args =>
    refine ⟨funcType, (h.funcType?_eq callee).1 hfuncType, ?_⟩
    have hstr : OperandTree.ofValue body.values arg = .str s.index := by
      rw [OperandTree.ofValue, harg]
    simp only [OpTree.operands, List.map_cons, List.map_nil, hstr] at htyped
    obtain ⟨param, params, hgives, hnone, heq⟩ := List.forall₂_cons_left_iff.1 htyped
    obtain rfl := List.forall₂_nil_left_iff.1 hnone
    obtain rfl : param = .ptr := Option.some.inj hgives.2
    exact heq

end Source

end EntryTrace
