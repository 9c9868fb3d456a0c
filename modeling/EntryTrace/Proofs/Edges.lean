import EntryTrace.Proofs.Resolving

/-!
# Edges between blocks

An edge is entered at both of its ends, one edge after the other. The edges of a body follow
from the order in which its blocks were ended and from their terminators alone; if that was the
order of the blocks, entering all edges anew changes nothing.
-/

namespace EntryTrace

/-- The edges at each block: the blocks that it leads to, and those that lead to it. -/
abbrev Edges := Table .block (List Block × List Block)

namespace Edges

/-- Enters one edge at both ends. -/
def link (edges : Edges) (source destination : Block) : Edges :=
  (edges.modify source fun e => (e.1 ++ [destination], e.2)).modify destination
    fun e => (e.1, e.2 ++ [source])

/-- Enters the edges from a block to others, in order. -/
def linkAll (edges : Edges) (source : Block) (destinations : List Block) : Edges :=
  destinations.foldl (fun edges destination => edges.link source destination) edges

/-- Enters the edges out of consecutive blocks with these successors, from the block with index
`start` on. -/
def linkFrom (edges : Edges) (start : Nat) : List (List Block) → Edges
  | [] => edges
  | successors :: rest => linkFrom (edges.linkAll ⟨start⟩ successors) (start + 1) rest

end Edges

/-- The edges at a block. -/
def BlockData.edges (b : BlockData) : List Block × List Block := (b.succs, b.preds)

lemma BlockData.ext_edges {b b' : BlockData} (houtline : b.withoutEdges = b'.withoutEdges)
    (hedges : b.edges = b'.edges) : b = b' := by
  cases b
  cases b'
  simp_all [BlockData.withoutEdges, BlockData.edges]

namespace Body

variable {body body' : Body} {block : Block}

/-- The edges of a body. -/
def edges (body : Body) : Edges := body.blocks.map BlockData.edges

lemma blocks_eq_of_edges (houtline : body.outline = body'.outline)
    (hedges : body.edges = body'.edges) : body.blocks = body'.blocks := by
  apply Table.ext_get?
  intro block
  have h := congrArg (Table.get? · block) houtline
  have h' := congrArg (Table.get? · block) hedges
  simp only [outline, edges, Table.get?_map] at h h'
  cases hb : body.blocks.get? block with
  | none =>
    rw [hb, Option.map_none, eq_comm, Option.map_eq_none_iff] at h
    exact h.symm
  | some b =>
    cases hb' : body'.blocks.get? block with
    | none => simp [hb, hb'] at h
    | some b' =>
      rw [hb, hb', Option.map_some, Option.map_some, Option.some.injEq] at h h'
      rw [BlockData.ext_edges h h']

/-- A change to a block that leaves its parameters alone leaves those of all blocks alone. -/
lemma params_of_outline {f : BlockData → BlockData}
    (houtline : body'.outline = body.outline.modify block f) (hf : ∀ b, (f b).params = b.params)
    {other : Block} {data : BlockData} (hdata : body.blocks.get? other = some data) :
    ∃ data', body'.blocks.get? other = some data' ∧ data'.params = data.params := by
  have hget := congrArg (Table.get? · other) houtline
  simp only [outline, Table.get?_map, Table.get?_modify, hdata, Option.map_some] at hget
  split at hget
  · obtain ⟨data', hdata', heq⟩ := Option.map_eq_some_iff.1 hget
    exact ⟨data', hdata', (congrArg BlockData.params heq).trans (hf _)⟩
  · obtain ⟨data', hdata', heq⟩ := Option.map_eq_some_iff.1 hget
    have hparams : data'.withoutEdges.params = data.withoutEdges.params := by rw [heq]
    exact ⟨data', hdata', hparams⟩

lemma edges_addEdge {source destination : Block}
    (h : (body.addEdge source destination : Except Fault _) = .ok body') :
    body'.edges = body.edges.link source destination := by
  simp only [addEdge, bind_eq_ok, Table.update_eq_ok, note_silent, ok_bind, pure_eq_ok,
    Except.ok.injEq] at h
  obtain ⟨_, ⟨-, rfl⟩, _, ⟨-, rfl⟩, rfl⟩ := h
  rw [Edges.link, edges, edges]
  apply (Table.map_modify _).trans
  · congr 1
    exact Table.map_modify fun _ => rfl
  · exact fun _ => rfl

lemma edges_addEdges {source : Block} {destinations : List Block}
    (h : (body.addEdges source destinations : Except Fault _) = .ok body') :
    body'.edges = body.edges.linkAll source destinations := by
  induction destinations generalizing body with
  | nil =>
    rw [addEdges, pure_eq_ok, Except.ok.injEq] at h
    rw [h]
    rfl
  | cons destination rest ih =>
    rw [addEdges, bind_eq_ok] at h
    obtain ⟨next, hnext, hrest⟩ := h
    rw [ih hrest, edges_addEdge hnext]
    rfl

lemma edges_endBlock {terminator : Terminator}
    (h : (body.endBlock block terminator : Except Fault _) = .ok body') :
    body'.edges = body.edges.linkAll block terminator.successors := by
  simp only [endBlock, bind_eq_ok, Table.update_eq_ok, pure_eq_ok, Except.ok.injEq] at h
  obtain ⟨next, hnext, _, ⟨-, rfl⟩, rfl⟩ := h
  rw [← edges_addEdges hnext]
  exact Table.map_modify_of_eq fun _ => rfl

lemma exists_addEdge {source destination : Block} (hsource : source.index < body.blocks.size)
    (hdestination : destination.index < body.blocks.size) :
    ∃ body', (body.addEdge source destination : Except Fault _) = .ok body' := by
  simp [addEdge, Table.update, hsource, hdestination]

lemma exists_addEdges {source : Block} {destinations : List Block}
    (hsource : source.index < body.blocks.size)
    (hdestinations : ∀ block ∈ destinations, block.index < body.blocks.size) :
    ∃ body', (body.addEdges source destinations : Except Fault _) = .ok body' := by
  induction destinations generalizing body with
  | nil => exact ⟨body, rfl⟩
  | cons destination rest ih =>
    obtain ⟨next, hnext⟩ := exists_addEdge hsource (hdestinations _ List.mem_cons_self)
    have hsize : next.blocks.size = body.blocks.size := by
      simpa using congrArg Table.size (addEdge_effect hnext).2
    have hrest : ∀ block ∈ rest, block.index < body.blocks.size :=
      fun block hblock => hdestinations block (List.mem_cons_of_mem _ hblock)
    rw [← hsize] at hsource hrest
    obtain ⟨body', hbody'⟩ := ih hsource hrest
    exact ⟨body', bind_eq_ok.2 ⟨next, hnext, hbody'⟩⟩

lemma exists_endBlock {terminator : Terminator} (hblock : block.index < body.blocks.size)
    (hsuccessors : ∀ other ∈ terminator.successors, other.index < body.blocks.size) :
    ∃ body', (body.endBlock block terminator : Except Fault _) = .ok body' := by
  obtain ⟨next, hnext⟩ := exists_addEdges hblock hsuccessors
  have hsize : next.blocks.size = body.blocks.size := by
    simpa using congrArg Table.size (addEdges_effect hnext).2
  rw [← hsize] at hblock
  simp [endBlock, hnext, Table.update, hblock]

/-- Entering the edges out of consecutive blocks, `rest` being these blocks. -/
lemma addEdgesOf_effect {before rest : List BlockData}
    (houtline : body.outline.toList = before ++ rest)
    (hsuccessors : ∀ b ∈ rest, ∀ block ∈ b.terminator.successors, block.index < body.blocks.size) :
    ∃ body', (body.addEdgesOf (Entity.from .block before.length rest.length) : Except Fault _) =
        .ok body' ∧ body' = { body with blocks := body'.blocks } ∧ body'.outline = body.outline ∧
      body'.edges = body.edges.linkFrom before.length
        (rest.map fun b => b.terminator.successors) := by
  induction rest generalizing body before with
  | nil => exact ⟨body, rfl, rfl, rfl, rfl⟩
  | cons b rest ih =>
    have hget : body.outline.get? ⟨before.length⟩ = some b := by
      rw [Table.get?_eq, houtline]
      simp
    obtain ⟨data, hdata, hb⟩ : ∃ data, body.blocks.get? ⟨before.length⟩ = some data ∧
        data.withoutEdges = b := by
      rwa [outline, Table.get?_map, Option.map_eq_some_iff] at hget
    have hterminator : data.terminator = b.terminator := by rw [← hb, BlockData.withoutEdges]
    obtain ⟨next, hnext⟩ := exists_addEdges (Table.get?_lt hdata)
      (hsuccessors b List.mem_cons_self)
    obtain ⟨hbody, hsame⟩ := addEdges_effect hnext
    have hsize : next.blocks.size = body.blocks.size := by
      simpa using congrArg Table.size hsame
    have houtline' : next.outline.toList = (before ++ [b]) ++ rest := by
      rw [hsame, houtline]
      simp
    obtain ⟨body', hrest, hbody', hsame', hedges⟩ := ih houtline' fun b' hb' => by
      rw [hsize]
      exact hsuccessors b' (List.mem_cons_of_mem _ hb')
    refine ⟨body', ?_, ?_, hsame'.trans hsame, ?_⟩
    · rw [List.length_cons, Entity.from_succ, addEdgesOf, bind_eq_ok]
      refine ⟨data, by rwa [Table.get_eq_ok], ?_⟩
      rw [hterminator, bind_eq_ok]
      exact ⟨next, hnext, by simpa using hrest⟩
    · rw [hbody', hbody]
    · rw [hedges, edges_addEdges hnext, List.map_cons, Edges.linkFrom]
      simp

/-- The edges that a body has if its blocks were ended in order. -/
def orderedEdges (body : Body) : Edges :=
  Edges.linkFrom (body.blocks.map fun _ => ([], [])) 0
    (body.blocks.toList.map fun b => b.terminator.successors)

lemma orderedEdges_congr (h : (body'.blocks.toList.map fun b => b.terminator.successors) =
    body.blocks.toList.map fun b => b.terminator.successors) :
    body'.orderedEdges = body.orderedEdges := by
  have hlength : body'.blocks.toList.length = body.blocks.toList.length := by
    simpa using congrArg List.length h
  have hempty : (body'.blocks.map fun _ => ([], [])) =
      (body.blocks.map fun _ => ([], []) : Edges) := by
    apply Table.ext
    rw [Table.toList_map, Table.toList_map, List.map_const', List.map_const', hlength]
  rw [orderedEdges, orderedEdges, h, hempty]

/-- Entering all edges anew gives the edges in order and changes nothing else. -/
lemma recomputeEdges_eq_ok
    (hsuccessors : ∀ b ∈ body.blocks.toList, ∀ block ∈ b.terminator.successors,
      block.index < body.blocks.size) :
    (body.recomputeEdges : Except Fault _) = .ok body' ↔
      body' = { body with blocks := body'.blocks } ∧ body'.outline = body.outline ∧
        body'.edges = body.orderedEdges := by
  let cleared : Body := { body with blocks := body.blocks.map BlockData.withoutEdges }
  have houtline : cleared.outline = body.outline := by
    apply Table.ext_get?
    intro block
    simp only [cleared, outline, Table.get?_map, Option.map_map]
    rfl
  have hempty : cleared.edges = body.blocks.map fun _ => ([], []) := by
    apply Table.ext_get?
    intro block
    simp only [cleared, edges, Table.get?_map, Option.map_map]
    rfl
  have hlist : cleared.outline.toList = [] ++ body.blocks.toList.map BlockData.withoutEdges := by
    rw [houtline, outline, Table.toList_map, List.nil_append]
  have hsuccessors' : ∀ b ∈ body.blocks.toList.map BlockData.withoutEdges,
      ∀ block ∈ b.terminator.successors, block.index < cleared.blocks.size := by
    intro b hb
    obtain ⟨data, hdata, rfl⟩ := List.mem_map.1 hb
    rw [Table.size_map]
    exact hsuccessors data hdata
  obtain ⟨found, hfound, hbody, hsame, hedges⟩ := addEdgesOf_effect hlist hsuccessors'
  have hids : body.blocks.ids = Entity.from .block 0 body.blocks.size := by
    rw [Table.ids, Entity.from, List.range_eq_range']
  have hrun : (body.recomputeEdges : Except Fault _) = .ok found := by
    rw [List.length_map, Table.length_toList, List.length_nil] at hfound
    rw [recomputeEdges, hids]
    exact hfound
  have horder : found.edges = body.orderedEdges := by
    rw [hedges, hempty, orderedEdges, List.map_map]
    rfl
  rw [hrun, Except.ok.injEq]
  constructor
  · rintro rfl
    exact ⟨hbody, hsame.trans houtline, horder⟩
  · rintro ⟨hbody', hsame', horder'⟩
    have hblocks : found.blocks = body'.blocks :=
      blocks_eq_of_edges ((hsame.trans houtline).trans hsame'.symm) (horder.trans horder'.symm)
    rw [hbody, hbody', hblocks]

lemma recomputeEdges_eq_self
    (hsuccessors : ∀ b ∈ body.blocks.toList, ∀ block ∈ b.terminator.successors,
      block.index < body.blocks.size) :
    (body.recomputeEdges : Except Fault _) = .ok body ↔ body.edges = body.orderedEdges := by
  rw [recomputeEdges_eq_ok hsuccessors]
  simp

end Body

end EntryTrace
