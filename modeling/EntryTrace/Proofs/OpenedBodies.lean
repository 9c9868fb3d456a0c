import EntryTrace.Proofs.Edges
import EntryTrace.Proofs.Meaning
import EntryTrace.Proofs.ReplayedBodies

/-!
# Bodies whose blocks are open

Before any block is filled, all blocks are there with their parameters, which are the only
values so far and are numbered in order. Every step of that phase adds to the last block or puts
a new one after it, and the names of the text come to stand for what was added.
-/

namespace EntryTrace

/-- A block with parameters and nothing else yet. -/
def BlockData.ofParams (params : List (ValueType × Value)) : BlockData := { params }

namespace Body

/-- What a body keeps from the type of its function. -/
def heading (body : Body) : Nat × List ValueType × Block :=
  (body.paramCount, body.returns, body.entry)

/-- The blocks of the body have these parameters, and nothing else was made yet. -/
structure Opened (heads : List (List (ValueType × Value))) (body : Body) : Prop where
  outline : body.outline.toList = heads.map BlockData.ofParams
  order : Entity.Spans 0 body.values.size (heads.flatMap (List.map Prod.snd))
  defs : ∀ head ∈ heads.zipIdx, ∀ param ∈ head.1.zipIdx,
    body.values.get? param.1.2 = some (.param ⟨head.2⟩ param.2 param.1.1)
  home : ∀ head ∈ heads.zipIdx, ∀ param ∈ head.1, body.home.get param.2 = ⟨head.2⟩
  unset : ∀ value, body.values.size ≤ value.index → body.home.get value = .unset
  edges : body.edges = body.blocks.map fun _ => ([], [])

namespace Opened

variable {body body' : Body} {heads : List (List (ValueType × Value))}
  {params : List (ValueType × Value)} {types : List ValueType}

lemma size_blocks (h : body.Opened heads) : body.blocks.size = heads.length := by
  rw [← size_outline, ← Table.length_toList, h.outline, List.length_map]

lemma get?_block (h : body.Opened heads) {block : Block} {data : BlockData}
    (hdata : body.blocks.get? block = some data) : heads[block.index]? = some data.params := by
  have hget : body.outline.get? block = some data.withoutEdges := by
    rw [Body.outline, Table.get?_map, hdata]
    rfl
  rw [Table.get?_eq, h.outline, List.getElem?_map, Option.map_eq_some_iff] at hget
  obtain ⟨params, hparams, heq⟩ := hget
  rw [hparams, show params = data.params from congrArg BlockData.params heq]

lemma index_lt (h : body.Opened heads) {param : ValueType × Value} (hparams : params ∈ heads)
    (hparam : param ∈ params) : param.2.index < body.values.size := by
  apply (h.order.mem_iff.1 _).2
  exact List.mem_flatMap.2 ⟨params, hparams, List.mem_map_of_mem hparam⟩

lemma started (type : FuncType) : (Body.started type).Opened [[]] where
  outline := by simp [Body.outline, Body.started, BlockData.withoutEdges, BlockData.ofParams]
  order := Entity.Spans.nil 0
  defs := by simp
  home := by simp
  unset value _ := rfl
  edges := by
    rw [Body.edges, Body.started, Table.map_append, Table.map_append, Table.map_empty,
      Table.map_empty]
    rfl

lemma addBlock (h : body.Opened heads) :
    Body.Opened (heads ++ [[]]) { body with blocks := body.blocks.append {} } where
  outline := by
    rw [Body.outline, Table.map_append, Table.toList_append, ← Body.outline, h.outline,
      List.map_append]
    rfl
  order := by simpa using h.order
  defs head hhead param hparam := by
    simp only [List.zipIdx_append, List.mem_append, List.zipIdx_cons, List.zipIdx_nil,
      List.mem_singleton, Nat.zero_add] at hhead
    rcases hhead with hhead | rfl
    · exact h.defs head hhead param hparam
    · simp at hparam
  home head hhead param hparam := by
    simp only [List.zipIdx_append, List.mem_append, List.zipIdx_cons, List.zipIdx_nil,
      List.mem_singleton, Nat.zero_add] at hhead
    rcases hhead with hhead | rfl
    · exact h.home head hhead param hparam
    · simp at hparam
  unset := h.unset
  edges := by
    rw [Body.edges, Table.map_append, Table.map_append, ← Body.edges, h.edges]
    rfl

lemma withParam (h : body.Opened (heads ++ [params])) (type : ValueType) :
    (body.withParam ⟨heads.length⟩ params.length type).Opened
      (heads ++ [params ++ [(type, ⟨body.values.size⟩)]]) where
  outline := by
    have houtline := h.outline
    rw [List.map_append, List.map_singleton] at houtline
    have hmodified := Table.toList_modify_append houtline
      fun b => { b with params := b.params ++ [(type, ⟨body.values.size⟩)] }
    rw [List.length_map] at hmodified
    rw [(Widens.withParam body ⟨heads.length⟩ params.length type).outline, hmodified,
      List.map_append, List.map_singleton]
    rfl
  order := by
    have hsize : (body.withParam ⟨heads.length⟩ params.length type).values.size =
        body.values.size + 1 := Table.size_append _ _
    rw [hsize]
    simpa using h.order.append (.single body.values.size)
  defs head hhead param hparam := by
    have hold : ∀ param ∈ params.zipIdx, body.values.get? param.1.2 =
        some (.param ⟨heads.length⟩ param.2 param.1.1) :=
      h.defs (params, heads.length) (by simp [List.zipIdx_append])
    have hkept : ∀ params' ∈ heads ++ [params], ∀ param ∈ params',
        (body.withParam ⟨heads.length⟩ params.length type).values.get? param.2 =
          body.values.get? param.2 :=
      fun params' hparams' param hparam => Table.get?_append_of_lt (h.index_lt hparams' hparam)
    simp only [List.zipIdx_append, List.mem_append, List.zipIdx_cons, List.zipIdx_nil,
      List.mem_singleton, Nat.zero_add] at hhead
    rcases hhead with hhead | rfl
    · rw [hkept head.1 (List.mem_append_left _ (List.fst_mem_of_mem_zipIdx hhead)) _
        (List.fst_mem_of_mem_zipIdx hparam)]
      exact h.defs head (by simp [List.zipIdx_append, hhead]) param hparam
    · simp only [List.zipIdx_append, List.mem_append, List.zipIdx_cons, List.zipIdx_nil,
        List.mem_singleton, Nat.zero_add] at hparam
      rcases hparam with hparam | rfl
      · rw [hkept params (List.mem_append_right _ (List.mem_singleton.2 rfl)) _
          (List.fst_mem_of_mem_zipIdx hparam)]
        exact hold param hparam
      · exact Table.get?_append_size _ _
  home head hhead param hparam := by
    have hnew : ∀ params' ∈ heads ++ [params], ∀ param ∈ params', param.2 ≠ ⟨body.values.size⟩ := by
      intro params' hparams' param hparam heq
      have hlt := h.index_lt hparams' hparam
      rw [heq] at hlt
      exact lt_irrefl _ hlt
    change (body.home.set _ _).get _ = _
    rw [SideTable.get_set]
    simp only [List.zipIdx_append, List.mem_append, List.zipIdx_cons, List.zipIdx_nil,
      List.mem_singleton, Nat.zero_add] at hhead
    rcases hhead with hhead | rfl
    · rw [if_neg (hnew head.1 (List.mem_append_left _ (List.fst_mem_of_mem_zipIdx hhead)) _ hparam)]
      exact h.home head (by simp [List.zipIdx_append, hhead]) param hparam
    · rw [List.mem_append, List.mem_singleton] at hparam
      rcases hparam with hparam | rfl
      · rw [if_neg (hnew params (List.mem_append_right _ (List.mem_singleton.2 rfl)) _ hparam)]
        exact h.home (params, heads.length) (by simp [List.zipIdx_append]) param hparam
      · rw [if_pos rfl]
  unset value hvalue := by
    have hsize : (body.withParam ⟨heads.length⟩ params.length type).values.size =
        body.values.size + 1 := Table.size_append _ _
    rw [hsize] at hvalue
    change (body.home.set _ _).get _ = _
    rw [SideTable.get_set, if_neg]
    · exact h.unset value (by omega)
    · rintro rfl
      simp at hvalue
  edges := by
    have hedges : (body.withParam ⟨heads.length⟩ params.length type).edges = body.edges :=
      Table.map_modify_of_eq fun _ => rfl
    have hblank : ((body.withParam ⟨heads.length⟩ params.length type).blocks.map fun _ =>
        (([], []) : List Block × List Block)) = body.blocks.map fun _ => ([], []) :=
      Table.map_modify_of_eq fun _ => rfl
    rw [hedges, hblank, h.edges]

lemma addParams (h : body.Opened (heads ++ [params]))
    (hadd : (body.addParams ⟨heads.length⟩ types : Except Fault _) = .ok body') :
    ∃ added, added.map Prod.fst = types ∧ body'.Opened (heads ++ [params ++ added]) ∧
      body'.heading = body.heading := by
  induction types generalizing body params with
  | nil =>
    rw [Body.addParams, pure_eq_ok, Except.ok.injEq] at hadd
    subst hadd
    exact ⟨[], rfl, by simpa using h, rfl⟩
  | cons type types ih =>
    simp only [Body.addParams, bind_eq_ok, addParam_eq_ok] at hadd
    obtain ⟨_, ⟨data, hdata, -, rfl⟩, hrest⟩ := hadd
    have hparams : data.params = params := by simpa using (h.get?_block hdata).symm
    rw [hparams] at hrest
    obtain ⟨added, htypes, hopened, hheading⟩ := ih (h.withParam type) hrest
    refine ⟨(type, ⟨body.values.size⟩) :: added, ?_, by simpa using hopened, hheading⟩
    rw [List.map_cons, htypes]

end Opened

lemma opened_ofType {type : FuncType} {body : Body}
    (h : (Body.ofType type : Except Fault _) = .ok body) :
    ∃ params, params.map Prod.fst = type.params ∧ body.Opened [params] ∧
      body.heading = (type.params.length, type.returns, ⟨0⟩) := by
  simp only [ofType, bind_eq_ok, addBlock_eq_ok] at h
  obtain ⟨_, ⟨-, rfl⟩, hparams⟩ := h
  have hstarted : (started type).Opened ([] ++ [[]]) := Opened.started type
  exact hstarted.addParams hparams

end Body

namespace Source

namespace Scope

variable {s t : Scope} {line : Nat} {heads : List (List (ValueType × Value))}

/-- What names stand for in a scope. -/
def naming (scope : Scope) : Naming where
  value name v := scope.values.lookup name = some v
  block name b := scope.blocks.lookup name = some b

lemma lookup_cons_of_lookup {α : Type} {names : List (Nat × α)} {name other : Nat} {a b : α}
    (hnew : names.lookup name = none) (h : names.lookup other = some b) :
    ((name, a) :: names).lookup other = some b := by
  have hne : other ≠ name := by
    rintro rfl
    rw [hnew] at h
    cases h
  rwa [List.lookup_cons, beq_false_of_ne hne]

lemma within_define {name : Nat} {value : Value} {body : Body}
    (hnew : s.values.lookup name = none) :
    s.naming.Within (naming ⟨body, (name, value) :: s.values, s.blocks⟩) where
  value _ _ hv := lookup_cons_of_lookup hnew hv
  block _ _ := id

lemma defineAll_naming {names : List Nat} {values : List Value}
    (hlength : names.length = values.length)
    (h : Answers (s.defineAll line (names.zip values)) t) :
    t.body = s.body ∧ t.blocks = s.blocks ∧ s.naming.Within t.naming ∧
      List.Forall₂ t.naming.value names values := by
  induction names generalizing s values with
  | nil =>
    cases values with
    | nil =>
      rw [List.zip_nil_left, defineAll, answers_pure] at h
      subst h
      exact ⟨rfl, rfl, .refl _, .nil⟩
    | cons value values => simp at hlength
  | cons name names ih =>
    cases values with
    | nil => simp at hlength
    | cons value values =>
      rw [List.zip_cons_cons, defineAll, answers_bind] at h
      obtain ⟨s', hdefine, hrest⟩ := h
      obtain ⟨hnew, rfl⟩ := answers_define.1 hdefine
      obtain ⟨hbody, hblocks, hwithin, hnames⟩ := ih (by simpa using hlength) hrest
      refine ⟨hbody, hblocks, (within_define hnew).trans hwithin, .cons ?_ hnames⟩
      exact hwithin.value _ _ List.lookup_cons_self

lemma addParams_opened {params : List (ValueType × Value)} {trees : List (Nat × ValueType)}
    (hs : s.body.Opened (heads ++ [params]))
    (h : Answers (s.addParams line ⟨heads.length⟩ trees) t) :
    ∃ added, t.body.Opened (heads ++ [params ++ added]) ∧ ParamsMean t.naming trees added ∧
      t.body.heading = s.body.heading ∧ t.blocks = s.blocks ∧ s.naming.Within t.naming := by
  induction trees generalizing s params with
  | nil =>
    rw [addParams, answers_pure] at h
    subst h
    exact ⟨[], by simpa using hs, .nil, rfl, rfl, .refl _⟩
  | cons tree trees ih =>
    obtain ⟨name, type⟩ := tree
    obtain ⟨data, hdata, -, hnew, hrest⟩ := answers_addParams_cons.1 h
    have hparams : data.params = params := by simpa using (hs.get?_block hdata).symm
    rw [hparams] at hrest
    obtain ⟨added, hopened, hmean, hheading, hblocks, hwithin⟩ := ih (hs.withParam type) hrest
    refine ⟨(type, ⟨s.body.values.size⟩) :: added, by simpa using hopened, .cons ⟨rfl, ?_⟩ hmean,
      hheading, hblocks, (within_define hnew).trans hwithin⟩
    exact hwithin.value _ _ List.lookup_cons_self

lemma openEntry_opened {body : Body} {params : List (ValueType × Value)} {tree : BlockTree}
    {block : Block} (hbody : body.Opened [params]) (hentry : body.entry = ⟨0⟩)
    (h : Answers (({ body } : Scope).openEntry tree) (block, t)) :
    block = ⟨0⟩ ∧ t.body = body ∧ t.blocks = [] ∧ ParamsMean t.naming tree.params params := by
  obtain ⟨data, hdata, htypes, hdefine, hblock⟩ := answers_openEntry.1 h
  simp only [hentry] at hdata hblock
  have hparams : data.params = params := by simpa using (hbody.get?_block hdata).symm
  rw [BlockData.paramTypes, hparams] at htypes
  rw [BlockData.paramValues, hparams] at hdefine
  have hlength := congrArg List.length htypes
  simp only [List.length_map] at hlength
  obtain ⟨hbody', hblocks, -, hnames⟩ := defineAll_naming (by simpa using hlength) hdefine
  refine ⟨hblock, hbody', hblocks, ?_⟩
  rw [List.forall₂_map_left_iff, List.forall₂_map_right_iff] at hnames
  have htypes' : List.Forall₂ (fun (tree : Nat × ValueType) (param : ValueType × Value) =>
      tree.2 = param.1) tree.params params := by
    rwa [← List.forall₂_eq_eq_eq, List.forall₂_map_left_iff, List.forall₂_map_right_iff] at htypes
  exact forall₂_and htypes' hnames

lemma openNext_opened {tree : BlockTree} {block : Block} (hs : s.body.Opened heads)
    (h : Answers (s.openNext tree) (block, t)) :
    block = ⟨heads.length⟩ ∧ ∃ added, t.body.Opened (heads ++ [added]) ∧
      ParamsMean t.naming tree.params added ∧ t.body.heading = s.body.heading ∧
      t.blocks = s.blocks ∧ s.naming.Within t.naming := by
  obtain ⟨-, hparams, hblock⟩ := answers_openNext.1 h
  simp only [hs.size_blocks] at hparams hblock
  subst hblock
  refine ⟨rfl, ?_⟩
  let s' : Scope := { s with body := { s.body with blocks := s.body.blocks.append {} } }
  have hs' : s'.body.Opened (heads ++ [[]]) := hs.addBlock
  exact addParams_opened hs' hparams

/-- Making the blocks after the first. -/
lemma openBlocks_opened {last : BlockTree × Block} {opened r : List (BlockTree × Block)}
    {trees : List BlockTree} (hs : s.body.Opened heads)
    (h : Answers (s.openBlocks (last :: opened) trees) (r, t)) :
    r = (last :: opened).reverse ++ trees.zip (Entity.from .block heads.length trees.length) ∧
      t.body.heading = s.body.heading ∧ s.naming.Within t.naming ∧
      (∀ i tree, trees[i]? = some tree → t.naming.block tree.name ⟨heads.length + i⟩) ∧
      ∃ heads', t.body.Opened (heads ++ heads') ∧
        List.Forall₂ (fun tree params => ParamsMean t.naming tree.params params) trees heads' := by
  induction trees generalizing s last opened heads with
  | nil =>
    obtain ⟨rfl, rfl⟩ := Prod.mk.inj (answers_openBlocks_nil.1 h)
    exact ⟨by simp, rfl, .refl _, by simp, [], by simpa using hs, .nil⟩
  | cons tree trees ih =>
    obtain ⟨block, s1, hnew, hopen, hrest⟩ := answers_openBlocks_next.1 h
    obtain ⟨rfl, added, hopened, hmean, hheading, hblocks, hwithin⟩ := openNext_opened hs hopen
    let s2 : Scope := { s1 with blocks := (tree.name, ⟨heads.length⟩) :: s1.blocks }
    obtain ⟨hr, hheading', hwithin', hnames, heads', hopened', hmean'⟩ := ih (s := s2) hopened hrest
    have hnamed : s1.naming.Within s2.naming := by
      refine ⟨fun _ _ => id, fun _ _ hb => lookup_cons_of_lookup ?_ hb⟩
      rw [hblocks]
      exact hnew
    have hlater := hnamed.trans hwithin'
    refine ⟨?_, hheading'.trans hheading, ?_, ?_, added :: heads', by simpa using hopened',
      .cons (hmean.mono hlater) hmean'⟩
    · rw [hr, List.length_cons, Entity.from_succ]
      simp
    · exact Naming.Within.trans ⟨hwithin.value, hwithin.block⟩ hlater
    · intro i tree' htree'
      cases i with
      | zero =>
        obtain rfl : tree = tree' := by simpa using htree'
        exact hwithin'.block _ _ List.lookup_cons_self
      | succ i =>
        have hlast := hnames i tree' (by simpa using htree')
        rw [List.length_append, List.length_singleton] at hlast
        rwa [Nat.add_right_comm, Nat.add_assoc] at hlast

/-- All blocks of a body, the first of which is there from the start. -/
lemma openAll_opened {type : FuncType} {empty : Body} {opened : List (BlockTree × Block)}
    {tree : BlockTree} {rest : List BlockTree}
    (hempty : (Body.ofType type : Except Fault _) = .ok empty)
    (h : Answers (openBlocks { body := empty } [] (tree :: rest)) (opened, s)) :
    opened = (tree :: rest).zip (Entity.from .block 0 (rest.length + 1)) ∧
      s.body.heading = (type.params.length, type.returns, ⟨0⟩) ∧
      (∀ i tree', (tree :: rest)[i]? = some tree' → s.naming.block tree'.name ⟨i⟩) ∧
      ∃ params heads, params.map Prod.fst = type.params ∧ s.body.Opened (params :: heads) ∧
        List.Forall₂ (fun tree params => ParamsMean s.naming tree.params params) (tree :: rest)
          (params :: heads) := by
  obtain ⟨params, htypes, hopened, hheading⟩ := Body.opened_ofType hempty
  obtain ⟨block, s1, -, hfirst, hnext⟩ := answers_openBlocks_first.1 h
  have hentry : empty.entry = ⟨0⟩ := congrArg (fun p => p.2.2) hheading
  obtain ⟨rfl, hbody, hblocks, hmean⟩ := openEntry_opened hopened hentry hfirst
  rw [← hbody] at hopened hheading
  obtain ⟨hr, hheading', hwithin, hnames, heads, hopened', hmean'⟩ :=
    openBlocks_opened (s := { s1 with blocks := (tree.name, ⟨0⟩) :: s1.blocks }) hopened hnext
  refine ⟨?_, hheading'.trans hheading, ?_, params, heads, htypes, hopened', .cons ?_ hmean'⟩
  · rw [hr, Entity.from_succ]
    simp
  · intro i tree' htree'
    cases i with
    | zero =>
      obtain rfl : tree = tree' := by simpa using htree'
      exact hwithin.block _ _ List.lookup_cons_self
    | succ i =>
      have hlast := hnames i tree' (by simpa using htree')
      rwa [List.length_singleton, Nat.add_comm] at hlast
  · exact hmean.mono ⟨hwithin.value, fun name b hb => by simp [naming, hblocks] at hb⟩

end Scope

end Source

end EntryTrace
