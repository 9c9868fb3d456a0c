import EntryTrace.Proofs.Replaying

/-!
# Bodies from their own spelling

The blocks of a body are made with their parameters before any of them is filled. Together with
the filling of blocks this gives a whole body: it is closed, it has no unfinished block, and the
trees that spell it resolve to it again.
-/

namespace EntryTrace

namespace Body

/-- Between two bodies parameters were added to a block. -/
structure Widens (block : Block) (added : List (ValueType × Value)) (body body' : Body) :
    Prop where
  values : body.values.PrefixOf body'.values
  entry : body'.entry = body.entry
  outline : body'.outline =
    body.outline.modify block fun b => { b with params := b.params ++ added }
  defined : ∀ p ∈ added, ∃ d, body'.values.get? p.2 = some d ∧ ¬ d.IsPointer
  fresh : ∀ p ∈ added, body.values.size ≤ p.2.index
  distinct : (added.map Prod.snd).Nodup

namespace Widens

variable {block : Block} {body body' body'' : Body}

lemma refl (block : Block) (body : Body) : body.Widens block [] body where
  values := .refl _
  entry := rfl
  outline := by simp [Table.modify_eq_self]
  defined := by simp
  fresh := by simp
  distinct := List.nodup_nil

lemma withParam (body : Body) (block : Block) (position : Nat) (type : ValueType) :
    body.Widens block [(type, ⟨body.values.size⟩)] (body.withParam block position type) where
  values := Table.PrefixOf.append _ _
  entry := rfl
  outline := by
    apply Table.map_modify
    exact fun _ => rfl
  defined p hp := by
    rw [List.mem_singleton.1 hp]
    exact ⟨_, Table.get?_append_size _ _, id⟩
  fresh p hp := by rw [List.mem_singleton.1 hp]
  distinct := List.nodup_singleton _

lemma trans {added added' : List (ValueType × Value)} (h : body.Widens block added body')
    (h' : body'.Widens block added' body'') : body.Widens block (added ++ added') body'' where
  values := h.values.trans h'.values
  entry := h'.entry.trans h.entry
  outline := by
    rw [h'.outline, h.outline, Table.modify_modify]
    simp
  defined p hp := by
    rcases List.mem_append.1 hp with hp | hp
    · obtain ⟨d, hd, hpointer⟩ := h.defined p hp
      exact ⟨d, h'.values.get? hd, hpointer⟩
    · exact h'.defined p hp
  fresh p hp := by
    rcases List.mem_append.1 hp with hp | hp
    · exact h.fresh p hp
    · exact h.values.size_le.trans (h'.fresh p hp)
  distinct := by
    rw [List.map_append, List.nodup_append]
    refine ⟨h.distinct, h'.distinct, ?_⟩
    intro v hv v' hv'
    obtain ⟨p, hp, rfl⟩ := List.mem_map.1 hv
    obtain ⟨p', hp', rfl⟩ := List.mem_map.1 hv'
    obtain ⟨d, hd, -⟩ := h.defined p hp
    have hlt := (Table.get?_lt hd).trans_le (h'.fresh p' hp')
    intro heq
    rw [heq] at hlt
    exact lt_irrefl _ hlt

end Widens

lemma addParams_effect {module : Module} {body body' : Body} {block : Block}
    {types : List ValueType} (hbody : body.Closed module)
    (h : (body.addParams block types : Except Fault _) = .ok body') :
    body'.Closed module ∧ ∃ added, added.map Prod.fst = types ∧ body.Widens block added body' := by
  induction types generalizing body with
  | nil =>
    rw [addParams, pure_eq_ok, Except.ok.injEq] at h
    subst h
    exact ⟨hbody, [], rfl, .refl _ _⟩
  | cons type types ih =>
    simp only [addParams, bind_eq_ok, addParam_eq_ok] at h
    obtain ⟨_, ⟨data, hdata, hroom, rfl⟩, hrest⟩ := h
    obtain ⟨hbody', added, htypes, hwidens⟩ := ih (hbody.withParam hroom _ _) hrest
    refine ⟨hbody', (type, ⟨body.values.size⟩) :: added, ?_,
      (Widens.withParam body block data.params.length type).trans hwidens⟩
    rw [List.map_cons, htypes]

/-- A body of one block that has no parameters yet. -/
def started (type : FuncType) : Body where
  paramCount := type.params.length
  returns := type.returns
  entry := ⟨0⟩
  blocks := ({} : Table .block BlockData).append {}

lemma closed_started (module : Module) (type : FuncType) : (started type).Closed module where
  entry := by simp [started]
  values d hd := by simp [started] at hd
  blocks b hb := by
    rw [started, Table.toList_append, Table.toList_empty, List.nil_append, List.mem_singleton] at hb
    rw [hb]
    exact BlockData.closed_empty _ _
  valueLimit := by simp [started]
  blockLimit := by simp [started, Entity.limit]

/-- The body that a function starts with has one block, whose parameters are the arguments. -/
lemma ofType_effect (module : Module) {type : FuncType} {body : Body}
    (h : (Body.ofType type : Except Fault _) = .ok body) :
    body.Closed module ∧ body.entry = ⟨0⟩ ∧ ∃ params : List (ValueType × Value),
      params.map Prod.fst = type.params ∧ body.outline = .ofList [{ params }] ∧
      (∀ p ∈ params, ∃ d, body.values.get? p.2 = some d ∧ ¬ d.IsPointer) ∧
      (params.map Prod.snd).Nodup := by
  simp only [ofType, bind_eq_ok, addBlock_eq_ok] at h
  obtain ⟨_, ⟨-, rfl⟩, hparams⟩ := h
  obtain ⟨hbody, added, htypes, hwidens⟩ := addParams_effect (closed_started module type) hparams
  refine ⟨hbody, hwidens.entry, added, htypes, ?_, hwidens.defined, hwidens.distinct⟩
  have houtline : (started type).outline = ({} : Table .block BlockData).append {} := by
    rw [outline, started, Table.map_append, Table.map_empty]
    rfl
  rw [hwidens.outline, houtline, Table.modify_append_size]
  rfl

end Body

namespace Source

namespace Scope

variable {s t : Scope} {module : Module} {line : Nat}

/-! ### Making blocks -/

lemma addParams_replay {block : Block} {params : List (Nat × ValueType)} (hs : s.Closed module)
    (h : Answers (s.addParams line block params) t) :
    t.Closed module ∧ t.blocks = s.blocks ∧
      ∃ added, added.map Prod.fst = params.map Prod.snd ∧ s.body.Widens block added t.body ∧
        ∀ line', Answers (s.canonical.addParams line' block (added.map fun p => (p.2.index, p.1)))
          t.canonical := by
  induction params generalizing s with
  | nil =>
    rw [addParams, answers_pure] at h
    subst h
    refine ⟨hs, rfl, [], rfl, .refl _ _, fun line' => ?_⟩
    rw [List.map_nil, addParams, answers_pure]
  | cons p params ih =>
    obtain ⟨name, type⟩ := p
    obtain ⟨data, hdata, hroom, -, hrest⟩ := answers_addParams_cons.1 h
    have hwidens := Body.Widens.withParam s.body block data.params.length type
    have hs' : Scope.Closed module ⟨s.body.withParam block data.params.length type,
        (name, ⟨s.body.values.size⟩) :: s.values, s.blocks⟩ := by
      refine ⟨hs.body.withParam hroom _ _, ?_, ?_⟩
      · intro p hp
        rcases List.mem_cons.1 hp with rfl | hp
        · exact hwidens.defined (type, _) List.mem_cons_self
        · obtain ⟨d, hd, hpointer⟩ := hs.values p hp
          exact ⟨d, hwidens.values.get? hd, hpointer⟩
      · intro p hp
        simpa [Body.withParam] using hs.blocks p hp
    obtain ⟨ht, hblocks, added, htypes, hwidens', hreplay⟩ := ih hs' hrest
    refine ⟨ht, hblocks, (type, ⟨s.body.values.size⟩) :: added, ?_, hwidens.trans hwidens',
      fun line' => ?_⟩
    · rw [List.map_cons, List.map_cons, htypes]
    · exact answers_addParams_cons.2 ⟨data, hdata, hroom, hs.fresh, hreplay line'⟩

lemma answers_defineAll {pairs : List (Nat × Value)}
    (h : Answers (s.defineAll line pairs) t) :
    t = { s with values := pairs.reverse ++ s.values } := by
  induction pairs generalizing s with
  | nil => simpa [defineAll] using h
  | cons p pairs ih =>
    obtain ⟨name, value⟩ := p
    rw [defineAll, answers_bind] at h
    obtain ⟨s', hs', hrest⟩ := h
    obtain ⟨-, rfl⟩ := answers_define.1 hs'
    rw [ih hrest]
    simp

lemma defineAll_answers {pairs : List (Nat × Value)} (hdistinct : (pairs.map Prod.fst).Nodup)
    (hnew : ∀ p ∈ pairs, s.values.lookup p.1 = none) :
    Answers (s.defineAll line pairs) { s with values := pairs.reverse ++ s.values } := by
  induction pairs generalizing s with
  | nil => simp [defineAll]
  | cons p pairs ih =>
    obtain ⟨name, value⟩ := p
    rw [List.map_cons, List.nodup_cons] at hdistinct
    rw [defineAll, answers_bind]
    refine ⟨_, answers_define.2 ⟨hnew _ List.mem_cons_self, rfl⟩, ?_⟩
    have hnew' : ∀ p ∈ pairs, ((name, value) :: s.values).lookup p.1 = none := by
      intro p hp
      have hne : p.1 ≠ name := by
        rintro rfl
        exact hdistinct.1 (List.mem_map.2 ⟨p, hp, rfl⟩)
      rw [List.lookup_cons, beq_false_of_ne hne]
      exact hnew p (List.mem_cons_of_mem _ hp)
    simpa using ih hdistinct.2 hnew'

/-- The parameters of the entry block can have their numbers for names. -/
lemma openEntry_answers {body : Body} {data : BlockData} {tree : BlockTree}
    (hdata : body.blocks.get? body.entry = some data) (hdistinct : data.paramValues.Nodup)
    (hparams : tree.params = data.params.map fun p => (p.2.index, p.1)) :
    Answers (({ body } : Scope).openEntry tree)
      (body.entry, { body, values := (data.paramValues.map fun v => (v.index, v)).reverse }) := by
  have hpairs : (tree.params.map Prod.fst).zip data.paramValues =
      data.paramValues.map fun v => (v.index, v) := by
    rw [hparams, BlockData.paramValues, List.map_map, List.map_map, List.zip_map']
    rfl
  refine answers_openEntry.2 ⟨data, hdata, ?_, ?_, rfl⟩
  · rw [hparams, List.map_map]
    rfl
  · rw [hpairs, ← List.append_nil (List.reverse _)]
    apply defineAll_answers
    · rw [List.map_map]
      refine List.Nodup.map ?_ hdistinct
      rintro ⟨i⟩ ⟨j⟩ hij
      simpa using hij
    · simp

lemma openEntry_replay {body : Body} {data : BlockData} {tree : BlockTree} {block : Block}
    (hbody : body.Closed module) (hdata : body.blocks.get? body.entry = some data)
    (hdefined : ∀ p ∈ data.params, ∃ d, body.values.get? p.2 = some d ∧ ¬ d.IsPointer)
    (hdistinct : (data.params.map Prod.snd).Nodup)
    (h : Answers (({ body } : Scope).openEntry tree) (block, t)) :
    block = body.entry ∧ t.body = body ∧ t.blocks = [] ∧ t.Closed module ∧
      ∀ {tree' : BlockTree}, (tree'.params = data.params.map fun p => (p.2.index, p.1)) →
        Answers (({ body } : Scope).openEntry tree') (block, t.canonical) := by
  obtain ⟨data', hdata', htypes, hdefine, hblock⟩ := answers_openEntry.1 h
  simp only at hdata' hdefine hblock
  rw [hdata, Option.some.injEq] at hdata'
  subst hdata' hblock
  have hlength : (tree.params.map Prod.fst).length = data.paramValues.length := by
    simpa [BlockData.paramTypes, BlockData.paramValues] using congrArg List.length htypes
  have ht := answers_defineAll hdefine
  rw [List.append_nil] at ht
  subst ht
  refine ⟨rfl, rfl, rfl, ⟨hbody, ?_, by simp⟩, ?_⟩
  · intro p hp
    have hvalue := (List.of_mem_zip (List.mem_reverse.1 hp)).2
    obtain ⟨q, hq, heq⟩ := List.mem_map.1 hvalue
    rw [← heq]
    exact hdefined q hq
  · intro tree' hparams
    have hcanonical : ((tree.params.map Prod.fst).zip data.paramValues).reverse.map
        (fun p => (p.2.index, p.2)) = (data.paramValues.map fun v => (v.index, v)).reverse := by
      rw [List.map_reverse]
      congr 1
      have hsnd := List.map_snd_zip (Nat.le_of_eq hlength.symm)
      conv => rhs; rw [← hsnd, List.map_map]
      rfl
    have hagain := openEntry_answers hdata hdistinct hparams
    rw [← hcanonical] at hagain
    exact hagain

lemma openNext_replay {tree : BlockTree} {block : Block} (hs : s.Closed module)
    (h : Answers (s.openNext tree) (block, t)) :
    block = ⟨s.body.blocks.size⟩ ∧ t.Closed module ∧ t.blocks = s.blocks ∧
      t.body.entry = s.body.entry ∧ ∃ params, t.body.outline = s.body.outline.append { params } ∧
        ∀ {tree' : BlockTree}, (tree'.params = params.map fun p => (p.2.index, p.1)) →
          Answers (s.canonical.openNext tree') (block, t.canonical) := by
  obtain ⟨hroom, hparams, hblock⟩ := answers_openNext.1 h
  simp only at hparams hblock
  subst hblock
  have hs' : Scope.Closed module { s with body :=
      { s.body with blocks := s.body.blocks.append {} } } := by
    refine ⟨hs.body.addBlock hroom, hs.values, ?_⟩
    intro p hp
    simpa using Nat.lt_succ_of_lt (hs.blocks p hp)
  obtain ⟨ht, hblocks, added, -, hwidens, hreplay⟩ := addParams_replay hs' hparams
  refine ⟨rfl, ht, hblocks, hwidens.entry, added, ?_, ?_⟩
  · have hempty : Body.outline { s.body with blocks := s.body.blocks.append {} } =
        s.body.outline.append {} := Table.map_append _ _ _
    rw [hwidens.outline, hempty, ← Body.size_outline, Table.modify_append_size]
    rfl
  · intro tree' htree
    refine answers_openNext.2 ⟨hroom, ?_, rfl⟩
    rw [htree]
    exact hreplay tree'.line

/-- Making the blocks after the first. They are numbered in order, and not filled yet. -/
lemma openBlocks_replay {last : BlockTree × Block} {opened r : List (BlockTree × Block)}
    {trees : List BlockTree} (hs : s.Closed module)
    (h : Answers (s.openBlocks (last :: opened) trees) (r, t)) :
    let new := Entity.from .block s.body.blocks.size trees.length
    r = (last :: opened).reverse ++ trees.zip new ∧ t.Closed module ∧
      t.body.entry = s.body.entry ∧ s.body.outline.PrefixOf t.body.outline ∧
      t.body.blocks.size = s.body.blocks.size + trees.length ∧
      (∀ block ∈ new, ∃ params, t.body.outline.get? block = some { params }) ∧
      ∀ {trees' : List BlockTree}, List.Forall₂ (fun block (tree' : BlockTree) =>
          ∃ b, t.body.outline.get? block = some b ∧ tree'.Heads block b) new trees' →
        ∀ last' opened', Answers (s.canonical.openBlocks (last' :: opened') trees')
          ((last' :: opened').reverse ++ trees'.zip new, t.canonical) := by
  induction trees generalizing s last opened with
  | nil =>
    obtain ⟨rfl, rfl⟩ := Prod.mk.inj (answers_openBlocks_nil.1 h)
    refine ⟨by simp, hs, rfl, .refl _, rfl, by simp [Entity.from], ?_⟩
    intro trees' htrees last' opened'
    cases htrees
    exact answers_openBlocks_nil.2 (by simp)
  | cons tree trees ih =>
    obtain ⟨block, s', -, hopen, hrest⟩ := answers_openBlocks_next.1 h
    obtain ⟨rfl, hs', hblocks, hentry, params, houtline, hreplay⟩ := openNext_replay hs hopen
    have hsize : s'.body.blocks.size = s.body.blocks.size + 1 := by
      simpa using congrArg Table.size houtline
    have hnamed : Scope.Closed module
        { s' with blocks := (tree.name, ⟨s.body.blocks.size⟩) :: s'.blocks } := by
      refine ⟨hs'.body, hs'.values, ?_⟩
      intro p hp
      rcases List.mem_cons.1 hp with rfl | hp
      · simp [hsize]
      · exact hs'.blocks p hp
    have hlonger : s.body.outline.PrefixOf s'.body.outline := by
      rw [houtline]
      exact .append _ _
    have hrest' := ih hnamed hrest
    simp only [hsize] at hrest'
    obtain ⟨hr, ht, hentry', hlonger', hsize', hempty, hreplay'⟩ := hrest'
    have hfirst : t.body.outline.get? ⟨s.body.blocks.size⟩ = some { params } := by
      apply hlonger'.get?
      rw [houtline, ← Body.size_outline, Table.get?_append_size]
    simp only [List.length_cons, Entity.from_succ]
    refine ⟨?_, ht, hentry'.trans hentry, hlonger.trans hlonger', ?_, ?_, ?_⟩
    · rw [hr]
      simp
    · rw [hsize']
      omega
    · intro block hblock
      rcases List.mem_cons.1 hblock with rfl | hblock
      · exact ⟨params, hfirst⟩
      · exact hempty block hblock
    · intro trees' htrees last' opened'
      cases htrees with
      | cons hhead htail =>
        rename_i tree' trees'
        obtain ⟨b, hb, hheads⟩ := hhead
        rw [hfirst, Option.some.injEq] at hb
        subst hb
        have hagain := hreplay' htail (tree', ⟨s.body.blocks.size⟩) (last' :: opened')
        refine answers_openBlocks_next.2 ⟨⟨s.body.blocks.size⟩, s'.canonical, ?_,
          hreplay hheads.params, ?_⟩
        · rw [hheads.name]
          exact lookup_index_eq_none hs.blocks
        · rw [hheads.name]
          simpa [canonical] using hagain

/-- Making all blocks of a body: the entry block is there already, and the others follow it. -/
lemma openAll_replay {type : FuncType} {empty : Body} {opened : List (BlockTree × Block)}
    {tree : BlockTree} {rest : List BlockTree}
    (hempty : (Body.ofType type : Except Fault _) = .ok empty)
    (h : Answers (openBlocks { body := empty } [] (tree :: rest)) (opened, s)) :
    let blocks := Entity.from .block 0 (rest.length + 1)
    opened.map Prod.snd = blocks ∧ s.Closed module ∧ s.body.entry = ⟨0⟩ ∧
      s.body.blocks.size = rest.length + 1 ∧
      (∀ block ∈ blocks, ∃ params, s.body.outline.get? block = some { params }) ∧
      ∀ {trees' : List BlockTree}, List.Forall₂ (fun block (tree' : BlockTree) =>
          ∃ b, s.body.outline.get? block = some b ∧ tree'.Heads block b) blocks trees' →
        Answers (openBlocks { body := empty } [] trees') (trees'.zip blocks, s.canonical) := by
  obtain ⟨hclosed, hentry, params, hparams, houtline, hdefined, hdistinct⟩ :=
    Body.ofType_effect module hempty
  obtain ⟨block, s1, -, hfirst, hnext⟩ := answers_openBlocks_first.1 h
  have hone : empty.blocks.size = 1 := by
    simpa using congrArg Table.size houtline
  have hget : empty.outline.get? ⟨0⟩ = some { params } := by
    simp [houtline, Table.get?_eq]
  obtain ⟨data, hdata, hwithout⟩ : ∃ data, empty.blocks.get? empty.entry = some data ∧
      data.withoutEdges = { params } := by
    rwa [Body.outline, Table.get?_map, Option.map_eq_some_iff, ← hentry] at hget
  have hdataParams : data.params = params := congrArg BlockData.params hwithout
  rw [← hdataParams] at hdefined hdistinct
  obtain ⟨hblock, hbody1, hblocks1, hs1, hreplayFirst⟩ :=
    openEntry_replay hclosed hdata hdefined hdistinct hfirst
  rw [hentry] at hblock
  subst hblock
  have hs1' : Scope.Closed module { s1 with blocks := (tree.name, ⟨0⟩) :: s1.blocks } := by
    refine ⟨hs1.body, hs1.values, ?_⟩
    simp [hblocks1, hbody1, hone]
  have hrest := openBlocks_replay hs1' hnext
  simp only [hbody1, hone] at hrest
  obtain ⟨hopened, hs, hentry', hlonger, hsize, hnew, hreplayRest⟩ := hrest
  simp only [Entity.from_succ]
  refine ⟨?_, hs, hentry'.trans hentry, by rw [hsize, Nat.add_comm], ?_, ?_⟩
  · rw [hopened]
    simp [List.map_snd_zip]
  · intro block hblock
    rcases List.mem_cons.1 hblock with rfl | hblock
    · exact ⟨params, hlonger.get? hget⟩
    · exact hnew block hblock
  · intro trees' htrees
    cases htrees with
    | cons hhead htail =>
      rename_i tree' rest'
      obtain ⟨b, hb, hheads⟩ := hhead
      rw [hlonger.get? hget, Option.some.injEq] at hb
      subst hb
      refine answers_openBlocks_first.2 ⟨⟨0⟩, s1.canonical, rfl, hreplayFirst ?_, ?_⟩
      · rw [hheads.params, hdataParams]
      · have hagain := hreplayRest htail (tree', ⟨0⟩) []
        rw [hheads.name]
        simpa [canonical, hblocks1, hbody1] using hagain

end Scope

/-! ### Bodies -/

lemma displayOrder_eq {body : Body} {n : Nat} (hentry : body.entry = ⟨0⟩)
    (hsize : body.blocks.size = n + 1) : body.displayOrder = Entity.from .block 0 (n + 1) := by
  rw [Entity.from_succ, Body.displayOrder, hentry, Table.ids, hsize, List.range_eq_range',
    List.range'_succ, List.map_cons, List.filter_cons]
  simp only [bne_self_eq_false, Bool.false_eq_true, if_false, List.cons.injEq, true_and]
  apply List.filter_eq_self.2
  intro block hblock
  obtain ⟨i, hi, rfl⟩ := List.mem_map.1 hblock
  rw [List.mem_range'_1] at hi
  simp
  omega

lemma BlockTree.Spells.withoutEdges {values : Table .value Def} {block : Block} {data : BlockData}
    {tree : BlockTree} (h : tree.Spells values block data) :
    tree.Spells values block data.withoutEdges :=
  ⟨⟨h.name, h.params⟩, h.insts, h.term⟩

/-- The body that a function's text resolves to, and the same again from its own spelling. -/
lemma resolveBody_replay {module : Module} {signature : Signature} {trees : List BlockTree}
    {body : Body} (htrees : trees ≠ []) (h : Answers (resolveBody module signature trees) body) :
    body.Closed module ∧ body.entry = ⟨0⟩ ∧
      body.Finished ∧
      ∀ {trees' : List BlockTree}, BlockTree.SpellAll body trees' →
        Answers (resolveBody module signature trees') body := by
  obtain ⟨type, empty, opened, s, t, htype, hempty, hopen, hfill, rfl⟩ := answers_resolveBody.1 h
  obtain ⟨tree, rest, rfl⟩ := List.exists_cons_of_ne_nil htrees
  obtain ⟨hsnd, hs, hentry, hsize, hunfilled, hreplayOpen⟩ := Scope.openAll_replay hempty hopen
  rw [← hsnd] at hunfilled
  obtain ⟨ht, hfills, hreplayFill⟩ :=
    Scope.fillBlocks_replay hs (hsnd ▸ Entity.nodup_from _ _ _) hunfilled hfill
  have hentry' := hfills.entry.trans hentry
  have hsize' := hfills.size.trans hsize
  have hopened : ∀ block data, t.body.blocks.get? block = some data →
      block ∈ opened.map Prod.snd ∧ t.body.outline.get? block = some data.withoutEdges := by
    intro block data hget
    refine ⟨?_, by rw [Body.outline, Table.get?_map, hget]; rfl⟩
    rw [hsnd, Entity.mem_from, Nat.zero_add, ← hsize']
    exact ⟨Nat.zero_le _, Table.get?_lt hget⟩
  refine ⟨ht.body, hentry', ?_, ?_⟩
  · intro b hb
    obtain ⟨block, hget⟩ := Table.get?_of_mem hb
    obtain ⟨hmem, houtline⟩ := hopened block b hget
    obtain ⟨params, hparams⟩ := hunfilled block hmem
    obtain ⟨b', hb', -, hmissing⟩ := hfills.ended block hmem params hparams
    rw [houtline, Option.some.injEq] at hb'
    rwa [← hb'] at hmissing
  · intro trees' hspells
    rw [BlockTree.SpellAll, displayOrder_eq hentry' hsize'] at hspells
    -- A block keeps the parameters it was made with, so its tree heads it from the start.
    have hheads : ∀ block (tree' : BlockTree), (∃ data, t.body.blocks.get? block = some data ∧
        tree'.Spells t.body.values block data) →
        ∃ b, s.body.outline.get? block = some b ∧ tree'.Heads block b := by
      rintro block tree' ⟨data, hget, htree⟩
      obtain ⟨hmem, houtline⟩ := hopened block data hget
      obtain ⟨params, hparams⟩ := hunfilled block hmem
      obtain ⟨b', hb', hkept, -⟩ := hfills.ended block hmem params hparams
      rw [houtline, Option.some.injEq] at hb'
      refine ⟨_, hparams, htree.name, ?_⟩
      rw [htree.params, ← hkept, ← hb']
      rfl
    have hsnd' : (trees'.zip (Entity.from .block 0 (rest.length + 1))).map Prod.snd =
        opened.map Prod.snd := by
      rw [hsnd, List.map_snd_zip hspells.length_eq.le]
    refine answers_resolveBody.2 ⟨type, empty, _, s.canonical, t.canonical, htype, hempty,
      hreplayOpen (hspells.imp hheads), hreplayFill hsnd' ?_, rfl⟩
    intro p hp
    obtain ⟨data, hdata, htree⟩ := (List.forall₂_iff_zip.1 hspells.flip).2 hp
    exact ⟨_, (hopened _ _ hdata).2, htree.withoutEdges⟩

end Source

end EntryTrace
