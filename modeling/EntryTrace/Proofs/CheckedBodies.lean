import EntryTrace.Proofs.CheckedBlocks
import EntryTrace.Proofs.OpenedBodies

/-!
# Bodies that are checked

Opening the blocks of a body decides whether their names and those of their parameters are
distinct, and whether the first block takes the arguments of the function. Together with the
blocks that are filled after that, resolving a body decides whether its trees are well-typed.
-/

namespace EntryTrace

namespace Body

variable {body : Body} {heads : List (List (ValueType × Value))} {block : Block}

lemma exists_addParams {types : List ValueType} (hblock : block.index < body.blocks.size)
    (hroom : body.values.size + types.length ≤ Entity.limit) :
    ∃ body', (body.addParams block types : Except Fault _) = .ok body' := by
  induction types generalizing body with
  | nil => exact ⟨body, rfl⟩
  | cons type types ih =>
    rw [List.length_cons] at hroom
    obtain ⟨data, hdata⟩ := Table.get?_of_lt hblock
    have hsize : body.values.size < Entity.limit := by omega
    have hadd : (body.addParam block type : Except Fault _) =
        .ok (⟨body.values.size⟩, body.withParam block data.params.length type) :=
      addParam_eq_ok.2 ⟨data, hdata, hsize, rfl⟩
    have hvalues : (body.withParam block data.params.length type).values.size =
        body.values.size + 1 := Table.size_append _ _
    have hblocks : (body.withParam block data.params.length type).blocks.size =
        body.blocks.size := Table.size_modify _ _ _
    obtain ⟨body', hrest⟩ := ih (by rwa [hblocks]) (by rw [hvalues]; omega)
    exact ⟨body', bind_eq_ok.2 ⟨_, hadd, hrest⟩⟩

lemma exists_ofType {type : FuncType} (hroom : type.params.length ≤ Entity.limit) :
    ∃ body, (Body.ofType type : Except Fault _) = .ok body := by
  have hroom' : (started type).values.size + type.params.length ≤ Entity.limit := by
    rwa [show (started type).values.size = 0 from rfl, Nat.zero_add]
  have hblock : (⟨0⟩ : Block).index < (started type).blocks.size := Nat.one_pos
  obtain ⟨body, hbody⟩ := exists_addParams hblock hroom'
  exact ⟨body, bind_eq_ok.2 ⟨_, addBlock_eq_ok.2 ⟨Nat.zero_lt_succ _, rfl⟩, hbody⟩⟩

lemma Opened.size_values (h : body.Opened heads) :
    body.values.size = (heads.map List.length).sum := by
  have hstop := h.order.stop
  rw [List.length_flatMap] at hstop
  simpa [Function.comp_def] using hstop.symm

/-- A block that was open before others were opened has the parameters that it had. -/
lemma Opened.params_of_append {body' : Body} {heads' : List (List (ValueType × Value))}
    (h : body.Opened heads) (h' : body'.Opened (heads ++ heads')) {data : BlockData}
    (hdata : body.blocks.get? block = some data) :
    ∃ data', body'.blocks.get? block = some data' ∧ data'.params = data.params := by
  have hlt := Table.get?_lt hdata
  rw [h.size_blocks] at hlt
  obtain ⟨data', hdata'⟩ : ∃ data', body'.blocks.get? block = some data' := by
    apply Table.get?_of_lt
    rw [h'.size_blocks, List.length_append]
    omega
  have hparams := h'.get?_block hdata'
  rw [List.getElem?_append_left hlt, h.get?_block hdata, Option.some.injEq] at hparams
  exact ⟨data', hdata', hparams.symm⟩

end Body

namespace Source

namespace Scope

variable {s t : Scope} {tree : ModuleTree} {module : Module} {line : Nat} {types : Types}
  {heads : Heads} {block : Block} {params : List (List (ValueType × Value))}

lemma decides_defineAll {pairs : List (Nat × Value)} {added : Types} {body : Body}
    (hs : s.Knows types) (hbody : s.body = body)
    (hpairs : List.Forall₂ (fun pair entry => pair.1 = entry.1 ∧ body.Gives pair.2 entry.2)
      pairs added) :
    Decides (s.defineAll line pairs) (((types ++ added).map Prod.fst).Nodup) fun t =>
      t.body = body ∧ t.blocks = s.blocks ∧ t.Knows (types ++ added) := by
  induction hpairs generalizing s types with
  | nil =>
    rw [defineAll]
    refine Decides.congr (Decides.pure ⟨hbody, rfl, by simpa using hs⟩) (iff_of_true trivial ?_)
    simpa using hs.distinct
  | @cons pair entry pairs added hhead htail ih =>
    obtain ⟨name, value⟩ := pair
    obtain ⟨name', type⟩ := entry
    obtain ⟨rfl, hgives⟩ := hhead
    rw [defineAll]
    rw [← hbody] at hgives
    apply (decides_define hs hgives).bind
    · rintro - s' ⟨rfl, hknows⟩
      apply (ih hknows hbody).imp
      rintro - t - ⟨hbody', hblocks, ht⟩
      exact ⟨hbody', hblocks, by simpa using ht⟩
    · simp only [List.append_assoc, List.singleton_append]
      constructor
      · exact And.right
      · intro hdistinct
        refine ⟨fun hmem => ?_, hdistinct⟩
        rw [List.map_append, List.map_cons, List.nodup_append] at hdistinct
        exact hdistinct.2.2 _ hmem _ List.mem_cons_self rfl

lemma decides_addParams {trees : List (Nat × ValueType)} (hs : s.Knows types)
    (hblock : block.index < s.body.blocks.size)
    (hroom : s.body.values.size + trees.length ≤ Entity.limit) :
    Decides (s.addParams line block trees) (((types ++ typingsOf trees).map Prod.fst).Nodup)
      fun t => t.Knows (types ++ typingsOf trees) := by
  induction trees generalizing s types with
  | nil =>
    rw [addParams]
    refine Decides.congr (Decides.pure ?_) (iff_of_true trivial ?_)
    · simpa [typingsOf] using hs
    · simpa [typingsOf] using hs.distinct
  | cons param rest ih =>
    obtain ⟨name, type⟩ := param
    rw [List.length_cons] at hroom
    obtain ⟨data, hdata⟩ := Table.get?_of_lt hblock
    have hsize : s.body.values.size < Entity.limit := by omega
    let body := s.body.withParam block data.params.length type
    have hadd : (s.body.addParam block type : Except Fault _) =
        .ok (⟨s.body.values.size⟩, body) :=
      Body.addParam_eq_ok.2 ⟨data, hdata, hsize, rfl⟩
    have hvalues : body.values.size = s.body.values.size + 1 := Table.size_append _ _
    have hblocks : body.blocks.size = s.body.blocks.size := Table.size_modify _ _ _
    have hknows : Knows types { s with body } := hs.mono (Table.PrefixOf.append _ _) rfl
    have hgives : body.Gives ⟨s.body.values.size⟩ (some type) := by
      rw [Body.Gives, show body.values = s.body.values.append _ from rfl, Table.get?_append_size]
      rfl
    have hcons : typingsOf ((name, type) :: rest) = [(name, some type)] ++ typingsOf rest := rfl
    rw [addParams]
    apply Decides.stepBind hadd
    apply (decides_define hknows hgives).bind
    · rintro - s' ⟨rfl, hknows'⟩
      apply (ih hknows' (by rwa [← hblocks] at hblock) (by rw [hvalues]; omega)).imp
      rintro - t - ht
      rwa [hcons, ← List.append_assoc]
    · rw [hcons, ← List.append_assoc]
      constructor
      · exact And.right
      · intro hdistinct
        refine ⟨fun hmem => ?_, hdistinct⟩
        rw [List.map_append, List.map_append, List.append_assoc, List.nodup_append] at hdistinct
        exact hdistinct.2.2 _ hmem _ (by simp) rfl

lemma zip_typings {body : Body} {trees : List (Nat × ValueType)} {params : List (ValueType × Value)}
    (htypes : trees.map Prod.snd = params.map Prod.fst)
    (hgives : ∀ param ∈ params, body.Gives param.2 (some param.1)) :
    List.Forall₂ (fun pair entry => pair.1 = entry.1 ∧ body.Gives pair.2 entry.2)
      ((trees.map Prod.fst).zip (params.map Prod.snd)) (typingsOf trees) := by
  induction trees generalizing params with
  | nil => exact .nil
  | cons tree trees ih =>
    cases params with
    | nil => simp at htypes
    | cons param params =>
      rw [List.map_cons, List.map_cons, List.cons.injEq] at htypes
      refine .cons ⟨rfl, ?_⟩ (ih htypes.2 fun p hp => hgives p (List.mem_cons_of_mem _ hp))
      simp only [htypes.1]
      exact hgives param List.mem_cons_self

lemma decides_openEntry {body : Body} {tree : BlockTree} {params : List (ValueType × Value)}
    (hbody : body.Opened [params]) (hentry : body.entry = ⟨0⟩) :
    Decides (({ body } : Scope).openEntry tree)
      (tree.params.map Prod.snd = params.map Prod.fst ∧
        ((typingsOf tree.params).map Prod.fst).Nodup)
      fun r => r.2.body = body ∧ r.2.Knows (typingsOf tree.params) := by
  obtain ⟨data, hdata⟩ : ∃ data, body.blocks.get? body.entry = some data := by
    apply Table.get?_of_lt
    rw [hentry, hbody.size_blocks]
    exact Nat.one_pos
  have hparams : data.params = params := by
    simpa [hentry] using (hbody.get?_block hdata).symm
  rw [openEntry]
  apply Decides.stepBind (Table.get_eq_ok.2 hdata)
  rw [BlockData.paramTypes, hparams]
  by_cases htypes : tree.params.map Prod.snd = params.map Prod.fst
  · rw [if_neg (not_not.2 htypes)]
    have hknows : Knows [] ({ body } : Scope) := by
      refine ⟨fun name v hv => ?_, fun name _ => List.not_mem_nil, List.nodup_nil⟩
      simp at hv
    have hgives : ∀ param ∈ params, body.Gives param.2 (some param.1) := by
      intro param hparam
      obtain ⟨position, hposition⟩ := List.getElem?_of_mem hparam
      have hdef := hbody.defs (params, 0) (by simp) (param, position)
        (List.mem_zipIdx_iff_getElem?.2 hposition)
      rw [Body.Gives, hdef]
      rfl
    rw [BlockData.paramValues, hparams]
    refine Decides.congr (Decides.bindPure
      (decides_defineAll hknows rfl (zip_typings htypes hgives)) ?_) ?_
    · rintro - t ⟨hbody', -, ht⟩
      exact ⟨hbody', ht⟩
    · rw [List.nil_append]
      exact (and_iff_right htypes).symm
  · rw [if_pos htypes]
    exact .refuse fun h => htypes h.1

lemma decides_openNext {tree : BlockTree} (hs : s.Knows types)
    (hblocks : s.body.blocks.size < Entity.limit)
    (hroom : s.body.values.size + tree.params.length ≤ Entity.limit) :
    Decides (s.openNext tree) (((types ++ typingsOf tree.params).map Prod.fst).Nodup)
      fun r => r.2.Knows (types ++ typingsOf tree.params) := by
  rw [openNext]
  apply Decides.stepBind (Body.addBlock_eq_ok.2 ⟨hblocks, rfl⟩)
  refine Decides.bindPure (decides_addParams (hs.mono (.refl _) rfl) ?_ hroom) ?_
  · simp
  · rintro - t ht
    exact ht

lemma types_of_paramsMean {naming : Naming} {trees : List (Nat × ValueType)}
    {added : List (ValueType × Value)} (h : ParamsMean naming trees added) :
    added.map Prod.fst = trees.map Prod.snd := by
  induction h with
  | nil => rfl
  | cons hhead _ ih => rw [List.map_cons, List.map_cons, ih, hhead.1]

lemma lengths_of_paramsMean {naming : Naming} {trees : List BlockTree}
    {heads : List (List (ValueType × Value))}
    (h : List.Forall₂ (fun tree params => ParamsMean naming tree.params params) trees heads) :
    heads.map List.length = trees.map fun tree => tree.params.length := by
  induction h with
  | nil => rfl
  | cons hhead _ ih => rw [List.map_cons, List.map_cons, ih, List.Forall₂.length_eq hhead]

/-- A block that gets a name is found from then on. -/
lemma Finds.name {tree : BlockTree} {data : BlockData} (hs : s.Finds heads)
    (hdata : s.body.blocks.get? block = some data)
    (htypes : data.paramTypes = tree.params.map Prod.snd)
    (hnew : s.blocks.lookup tree.name = none) :
    Finds (heads ++ [tree.head]) { s with blocks := (tree.name, block) :: s.blocks } where
  known name b hb := by
    simp only [List.lookup_cons] at hb
    split at hb
    · rename_i heq
      rw [beq_iff_eq] at heq
      obtain rfl := Option.some.inj hb
      refine ⟨data, hdata, List.mem_append_right _ ?_⟩
      rw [List.mem_singleton, BlockTree.head, htypes, heq]
    · obtain ⟨found, hfound, hmem⟩ := hs.known name b hb
      exact ⟨found, hfound, List.mem_append_left _ hmem⟩
  unknown name hnone := by
    simp only [List.lookup_cons] at hnone
    split at hnone
    · cases hnone
    · rename_i hne
      simp only [List.map_append, List.mem_append, List.map_cons, List.map_nil,
        List.mem_singleton, not_or]
      exact ⟨hs.unknown name hnone, by simpa [BlockTree.head] using hne⟩
  distinct := by
    rw [List.map_append, List.nodup_append]
    refine ⟨hs.distinct, by simp, ?_⟩
    intro a ha b hb hab
    obtain rfl : b = tree.name := by simpa [BlockTree.head] using hb
    exact hs.unknown _ hnew (hab ▸ ha)

/-- What is found stays so when another block is opened, which then gets a name. -/
lemma Finds.openNext {tree : BlockTree} {added : List (ValueType × Value)} (hs : s.Finds heads)
    (hold : s.body.Opened params) (hopened : t.body.Opened (params ++ [added]))
    (htypes : added.map Prod.fst = tree.params.map Prod.snd) (hblocks : t.blocks = s.blocks)
    (hnew : s.blocks.lookup tree.name = none) :
    Finds (heads ++ [tree.head])
      { t with blocks := (tree.name, ⟨params.length⟩) :: t.blocks } := by
  have ht : t.Finds heads := by
    apply hs.mono hblocks
    intro b data hdata
    obtain ⟨data', hdata', hparams⟩ := hold.params_of_append hopened hdata
    exact ⟨data', hdata', by rw [BlockData.paramTypes, hparams, BlockData.paramTypes]⟩
  obtain ⟨data, hdata⟩ : ∃ data, t.body.blocks.get? ⟨params.length⟩ = some data := by
    apply Table.get?_of_lt
    rw [hopened.size_blocks]
    simp
  obtain rfl : added = data.params := by simpa using hopened.get?_block hdata
  exact ht.name hdata htypes (hblocks ▸ hnew)

lemma decides_openBlocks {last : BlockTree × Block} {opened : List (BlockTree × Block)}
    {trees : List BlockTree} (hs : s.Knows types) (hfinds : s.Finds heads)
    (hopened : s.body.Opened params)
    (hblocks : params.length + trees.length ≤ Entity.limit)
    (hroom : s.body.values.size + (trees.map fun tree => tree.params.length).sum ≤ Entity.limit) :
    Decides (s.openBlocks (last :: opened) trees)
      (((types ++ paramTypes trees).map Prod.fst).Nodup ∧
        ((heads ++ trees.map BlockTree.head).map Prod.fst).Nodup)
      fun r => r.2.Knows (types ++ paramTypes trees) ∧
        r.2.Finds (heads ++ trees.map BlockTree.head) := by
  induction trees generalizing s types heads params last opened with
  | nil =>
    rw [openBlocks]
    refine Decides.congr (Decides.pure ?_) (iff_of_true trivial ?_)
    · simpa [paramTypes] using And.intro hs hfinds
    · simpa [paramTypes] using And.intro hs.distinct hfinds.distinct
  | cons tree trees ih =>
    rw [List.length_cons] at hblocks
    rw [List.map_cons, List.sum_cons] at hroom
    rw [openBlocks]
    cases hname : s.blocks.lookup tree.name with
    | some b =>
      obtain ⟨data, -, hmem⟩ := hfinds.known _ b hname
      simp only [Option.isSome_some, if_true]
      refine .refuse fun h => ?_
      have hdistinct := h.2
      rw [List.map_append, List.nodup_append] at hdistinct
      exact hdistinct.2.2 _ (List.mem_map_of_mem (f := Prod.fst) hmem) _
        (by simp [BlockTree.head]) rfl
    | none =>
      simp only [Option.isSome_none, Bool.false_eq_true, if_false, List.isEmpty_cons]
      have hsize : s.body.blocks.size < Entity.limit := by
        rw [hopened.size_blocks]
        omega
      apply (decides_openNext hs hsize (by omega)).withAnswer.bind
      · rintro - ⟨block, s'⟩ ⟨hanswer, hknows⟩
        obtain ⟨rfl, added, hopened', hmean, -, hsame, -⟩ := openNext_opened hopened hanswer
        have htypes := types_of_paramsMean hmean
        have hlength : added.length = tree.params.length := by
          simpa using congrArg List.length htypes
        have hvalues : s'.body.values.size = s.body.values.size + tree.params.length := by
          rw [hopened'.size_values, hopened.size_values, List.map_append, List.sum_append]
          simp [hlength]
        let s2 : Scope := { s' with blocks := (tree.name, ⟨params.length⟩) :: s'.blocks }
        have hknows2 : s2.Knows (types ++ typingsOf tree.params) := hknows.mono (.refl _) rfl
        have hfinds2 : s2.Finds (heads ++ [tree.head]) :=
          hfinds.openNext hopened hopened' htypes hsame hname
        have hblocks2 : (params ++ [added]).length + trees.length ≤ Entity.limit := by
          rw [List.length_append, List.length_singleton]
          omega
        have hroom2 : s2.body.values.size + (trees.map fun tree => tree.params.length).sum ≤
            Entity.limit := by
          rw [show s2.body = s'.body from rfl, hvalues]
          omega
        apply (ih hknows2 hfinds2 hopened' hblocks2 hroom2).imp
        rintro - r - hr
        simpa [paramTypes] using hr
      · simp only [paramTypes, List.flatMap_cons, List.append_assoc, List.map_cons,
          List.map_append, List.singleton_append]
        constructor
        · exact And.right
        · intro h
          refine ⟨?_, h⟩
          have hdistinct := h.1
          rw [← List.append_assoc] at hdistinct
          exact (List.nodup_append.1 hdistinct).1

lemma decides_openAll {type : FuncType} {empty : Body} {tree : BlockTree} {rest : List BlockTree}
    (hempty : (Body.ofType type : Except Fault _) = .ok empty)
    (hblocks : rest.length + 1 ≤ Entity.limit)
    (hroom : type.params.length + (rest.map fun tree => tree.params.length).sum ≤ Entity.limit) :
    Decides (openBlocks { body := empty } [] (tree :: rest))
      (tree.params.map Prod.snd = type.params ∧
        ((paramTypes (tree :: rest)).map Prod.fst).Nodup ∧
        (((tree :: rest).map BlockTree.head).map Prod.fst).Nodup)
      fun r => r.2.Knows (paramTypes (tree :: rest)) ∧
        r.2.Finds ((tree :: rest).map BlockTree.head) := by
  obtain ⟨params, htypes, hopened, hheading⟩ := Body.opened_ofType hempty
  have hentry : empty.entry = ⟨0⟩ := congrArg (fun p => p.2.2) hheading
  have hvalues : empty.values.size = type.params.length := by
    rw [hopened.size_values, ← htypes]
    simp
  rw [openBlocks]
  simp only [List.lookup_nil, Option.isSome_none, Bool.false_eq_true, if_false, List.isEmpty_nil,
    if_true]
  apply (decides_openEntry hopened hentry).withAnswer.bind
  · rintro ⟨hentryTypes, -⟩ ⟨block, s⟩ ⟨hanswer, hbody, hknows⟩
    obtain ⟨rfl, -, hnone, -⟩ := openEntry_opened hopened hentry hanswer
    simp only at hbody hknows
    rw [← hbody] at hopened hvalues
    have hfinds : s.Finds [] := by
      refine ⟨fun name b hb => ?_, fun name _ => List.not_mem_nil, List.nodup_nil⟩
      simp [hnone] at hb
    obtain ⟨data, hdata⟩ : ∃ data, s.body.blocks.get? ⟨0⟩ = some data := by
      apply Table.get?_of_lt
      rw [hopened.size_blocks]
      exact Nat.one_pos
    obtain rfl : params = data.params := by simpa using hopened.get?_block hdata
    let s1 : Scope := { s with blocks := (tree.name, ⟨0⟩) :: s.blocks }
    have hfinds1 : s1.Finds [tree.head] :=
      hfinds.name hdata (hentryTypes.symm) (by rw [hnone]; rfl)
    have hknows1 : s1.Knows (typingsOf tree.params) := hknows.mono (.refl _) rfl
    have hroom1 : s1.body.values.size + (rest.map fun tree => tree.params.length).sum ≤
        Entity.limit := by
      rwa [show s1.body = s.body from rfl, hvalues]
    apply (decides_openBlocks hknows1 hfinds1 hopened (by simpa [Nat.add_comm] using hblocks)
      hroom1).imp
    rintro - r - hr
    simpa [paramTypes] using hr
  · rw [htypes]
    simp only [paramTypes, List.flatMap_cons, List.map_cons, List.singleton_append]
    constructor
    · rintro ⟨⟨hentryTypes, -⟩, hdistinct⟩
      exact ⟨hentryTypes, hdistinct⟩
    · rintro ⟨hentryTypes, hdistinct⟩
      refine ⟨⟨hentryTypes, ?_⟩, hdistinct⟩
      have hnames := hdistinct.1
      rw [List.map_append] at hnames
      exact (List.nodup_append.1 hnames).1

end Scope

lemma bodyWellTyped_iff {tree : ModuleTree} {type : FuncType} {trees : List BlockTree}
    (entryTypes : Prop)
    (hentry : entryTypes ↔ ∀ entry ∈ trees.head?, entry.params.map Prod.snd = type.params) :
    (entryTypes ∧ ((paramTypes trees).map Prod.fst).Nodup ∧
        ((trees.map BlockTree.head).map Prod.fst).Nodup) ∧
      Stepwise (fun before block => block.WellTyped tree (trees.map BlockTree.head) type.returns
        (paramTypes trees ++ resultTypes tree before)) trees ∧
      ((paramTypes trees ++ resultTypes tree trees).map Prod.fst).Nodup ↔
    BodyWellTyped tree type trees := by
  have hblocks : (trees.map BlockTree.head).map Prod.fst = trees.map BlockTree.name := by
    rw [List.map_map]
    rfl
  have hparams : (paramTypes trees).map Prod.fst =
      (trees.flatMap BlockTree.params).map Prod.fst := by
    simp only [paramTypes, typingsOf, List.map_flatMap, List.map_map]
    rfl
  have hresults : (resultTypes tree trees).map Prod.fst =
      (trees.flatMap BlockTree.insts).map InstTree.result := by
    rw [resultTypes, List.map_map]
    rfl
  rw [List.map_append, hblocks, hparams, hresults]
  constructor
  · rintro ⟨⟨htypes, -, hnames⟩, hstepwise, hvalues⟩
    exact ⟨hnames, hvalues, hentry.1 htypes, hstepwise⟩
  · intro h
    exact ⟨⟨hentry.2 h.entryParams, (List.nodup_append.1 h.valueNames).1, h.blockNames⟩,
      h.blocks, h.valueNames⟩

/-- Resolving the body of a function decides whether its trees are well-typed. -/
theorem decides_resolveBody {tree : ModuleTree} {module : Module} {signature : Signature}
    {type : FuncType} {trees : List BlockTree} (htree : tree.Declares module)
    (htype : module.signatures.get? signature = some type)
    (hblocks : trees.length ≤ Entity.limit) (hvalues : valueCount type trees ≤ Entity.limit) :
    Decides (resolveBody module signature trees) (BodyWellTyped tree type trees)
      fun _ => True := by
  rw [valueCount] at hvalues
  have harguments : type.params.length ≤ Entity.limit := by omega
  obtain ⟨empty, hempty⟩ := Body.exists_ofType harguments
  rw [resolveBody]
  apply Decides.stepBind (Table.get_eq_ok.2 htype)
  apply Decides.stepBind hempty
  cases trees with
  | nil =>
    have hnothing : BodyWellTyped tree type [] := by
      refine ⟨List.nodup_nil, List.nodup_nil, by simp, stepwise_nil⟩
    exact Decides.congr (Decides.pure trivial) (iff_of_true trivial hnothing)
  | cons first rest =>
    simp only [List.tail_cons] at hvalues
    apply (Scope.decides_openAll hempty hblocks (by omega)).withAnswer.bind
    · rintro ⟨hentry, -, -⟩ ⟨opened, s⟩ ⟨hanswer, hknows, hfinds⟩
      obtain ⟨rfl, hheading, -, params, heads, -, hopened, hmean⟩ :=
        Scope.openAll_opened hempty hanswer
      simp only at hknows hfinds
      have hs : s.Typed ((first :: rest).map BlockTree.head) type.returns
          (paramTypes (first :: rest)) :=
        ⟨hknows, hfinds, congrArg (fun p => p.2.1) hheading⟩
      have hsize : s.body.values.size = type.params.length +
          (rest.map fun tree => tree.params.length).sum := by
        rw [hopened.size_values, Scope.lengths_of_paramsMean hmean, ← hentry]
        simp
      have hcount : s.body.blocks.size = rest.length + 1 := by
        rw [hopened.size_blocks]
        exact hmean.length_eq.symm
      have hfst : ((first :: rest).zip (Entity.from .block 0 (rest.length + 1))).map Prod.fst =
          first :: rest := by
        apply List.map_fst_zip
        simp
      have hplaces : ∀ p ∈ (first :: rest).zip (Entity.from .block 0 (rest.length + 1)),
          p.2.index < s.body.blocks.size := by
        intro p hp
        have hmem := (Entity.mem_from.1 (List.of_mem_zip hp).2).2
        rwa [hcount, ← Nat.zero_add (rest.length + 1)]
      have hroom : s.body.values.size + ((((first :: rest).zip
          (Entity.from .block 0 (rest.length + 1))).map Prod.fst).map BlockTree.valueCount).sum ≤
            Entity.limit := by
        rwa [hfst, hsize]
      have hfill := Scope.decides_fillBlocks hs htree hplaces hroom
      rw [hfst] at hfill
      exact hfill.bindPure fun _ _ _ => trivial
    · exact bodyWellTyped_iff _ (by simp)

end Source

end EntryTrace
