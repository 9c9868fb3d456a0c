import EntryTrace.Proofs.Building
import EntryTrace.Proofs.CheckedBodies

/-!
# Edges of bodies that are built

While a body is built its blocks are ended in any order, and edges are entered at both ends as this
happens. So a block lists its successors as its terminator does, and its predecessors in the order in
which they were ended. Entering all edges anew sorts the predecessors and changes nothing else.
-/

namespace EntryTrace

namespace Edges

/-! ### Edges at one block -/

lemma get?_link (edges : Edges) (source destination block : Block) :
    (edges.link source destination).get? block = (edges.get? block).map fun e =>
      (e.1 ++ if block = source then [destination] else [],
        e.2 ++ if block = destination then [source] else []) := by
  rw [link, Table.get?_modify, Table.get?_modify]
  cases edges.get? block with
  | none => simp
  | some e => split_ifs <;> simp

lemma get?_linkAll (edges : Edges) (source : Block) (destinations : List Block) (block : Block) :
    (edges.linkAll source destinations).get? block = (edges.get? block).map fun e =>
      (e.1 ++ if block = source then destinations else [],
        e.2 ++ List.replicate (destinations.count block) source) := by
  induction destinations generalizing edges with
  | nil => simp [linkAll]
  | cons destination rest ih =>
    have hrest : edges.linkAll source (destination :: rest) =
        (edges.link source destination).linkAll source rest := rfl
    rw [hrest, ih, get?_link, Option.map_map]
    congr 1
    funext e
    refine Prod.ext ?_ ?_
    · dsimp only [Function.comp_apply]
      split_ifs <;> simp
    · by_cases hdestination : block = destination
      · simp [hdestination, List.replicate_succ]
      · simp [hdestination, Ne.symm hdestination]

/-- The edges out of consecutive blocks, whose successors `successors` gives. -/
lemma get?_linkFrom (edges : Edges) (successors : Block → List Block) (start n : Nat) (block : Block) :
    (edges.linkFrom start ((Entity.from .block start n).map successors)).get? block =
      (edges.get? block).map fun e =>
        (e.1 ++ if block ∈ Entity.from .block start n then successors block else [],
          e.2 ++ (Entity.from .block start n).flatMap fun source =>
            List.replicate ((successors source).count block) source) := by
  induction n generalizing edges start with
  | zero => simp [Entity.from, linkFrom]
  | succ n ih =>
    rw [Entity.from_succ, List.map_cons, linkFrom, ih, get?_linkAll, Option.map_map]
    congr 1
    funext e
    refine Prod.ext ?_ (by simp)
    by_cases hstart : block = ⟨start⟩
    · have hout : block ∉ Entity.from .block (start + 1) n := by
        rw [Entity.mem_from, hstart]
        simp
      simp [hstart, hstart ▸ hout]
    · simp [hstart]

end Edges

lemma count_flatMap_replicate {α : Type} [DecidableEq α] {l : List α} (n : α → Nat) (hl : l.Nodup)
    (a : α) : (l.flatMap fun b => List.replicate (n b) b).count a = if a ∈ l then n a else 0 := by
  induction l with
  | nil => simp
  | cons b l ih =>
    obtain ⟨hb, hl⟩ := List.nodup_cons.1 hl
    rw [List.flatMap_cons, List.count_append, ih hl, List.count_replicate]
    by_cases hab : a = b
    · simp [hab, hb]
    · simp [hab, Ne.symm hab]

namespace Body

variable {body body' : Body} {block other source : Block}

/-! ### Entering all edges anew -/

/-- The blocks that branch to a block, in order and with repetitions. -/
def branchesTo (body : Body) (block : Block) : List Block :=
  body.blocks.ids.flatMap fun source =>
    List.replicate ((body.blockAt source).terminator.successors.count block) source

lemma ids_eq_from (blocks : Table .block BlockData) : blocks.ids = Entity.from .block 0 blocks.size := by
  rw [Table.ids, Entity.from, List.range_eq_range']

lemma nodup_ids (blocks : Table .block BlockData) : blocks.ids.Nodup :=
  ids_eq_from blocks ▸ Entity.nodup_from _ _ _

lemma mem_ids {blocks : Table .block BlockData} : block ∈ blocks.ids ↔ block.index < blocks.size := by
  simp [ids_eq_from, Entity.mem_from]

/-- A table made from what stands for the entities of another one. -/
lemma get?_ofList_ids {α : Type} (blocks : Table .block BlockData) (f : Block → α) (block : Block) :
    (Table.ofList (blocks.ids.map f) : Table .block α).get? block =
      (blocks.get? block).map fun _ => f block := by
  rw [Table.get?_eq, Table.toList_ofList, Table.ids, List.map_map, List.getElem?_map]
  cases hget : blocks.get? block with
  | none =>
    have hout : blocks.size ≤ block.index := by
      by_contra hlt
      obtain ⟨data, hdata⟩ := Table.get?_of_lt (not_le.1 hlt)
      cases hget.symm.trans hdata
    rw [List.getElem?_eq_none (by rwa [List.length_range]), Option.map_none, Option.map_none]
  | some data =>
    rw [List.getElem?_range (Table.get?_lt hget), Option.map_some, Option.map_some]
    rfl

lemma toList_blocks (body : Body) : body.blocks.toList = body.blocks.ids.map body.blockAt := by
  have hblocks : body.blocks = Table.ofList (body.blocks.ids.map body.blockAt) := by
    apply Table.ext_get?
    intro block
    rw [get?_ofList_ids]
    cases hdata : body.blocks.get? block with
    | none => rfl
    | some data => rw [Option.map_some, blockAt_eq hdata]
  exact (congrArg Table.toList hblocks).trans (Table.toList_ofList _)

lemma get?_orderedEdges (body : Body) (block : Block) :
    body.orderedEdges.get? block = (body.blocks.get? block).map fun data =>
      (data.terminator.successors, body.branchesTo block) := by
  rw [orderedEdges, toList_blocks, List.map_map, ids_eq_from]
  refine (Edges.get?_linkFrom _ _ 0 body.blocks.size block).trans ?_
  rw [Table.get?_map, Option.map_map]
  cases hdata : body.blocks.get? block with
  | none => rfl
  | some data =>
    have hmem : block ∈ Entity.from .block 0 body.blocks.size :=
      Entity.mem_from.2 ⟨Nat.zero_le _, by simpa using Table.get?_lt hdata⟩
    simp [hmem, blockAt_eq hdata, branchesTo, ids_eq_from]

/-- The body with the edges that its terminators give, in order. -/
def rewired (body : Body) : Body :=
  { body with
    blocks := .ofList <| body.blocks.ids.map fun block =>
      { body.blockAt block with
        succs := (body.blockAt block).terminator.successors
        preds := body.branchesTo block } }

lemma get?_rewired (body : Body) (block : Block) :
    body.rewired.blocks.get? block = (body.blocks.get? block).map fun data =>
      { data with succs := data.terminator.successors, preds := body.branchesTo block } := by
  refine (get?_ofList_ids body.blocks _ block).trans ?_
  cases hdata : body.blocks.get? block with
  | none => rfl
  | some data => rw [Option.map_some, Option.map_some, blockAt_eq hdata]

lemma outline_rewired (body : Body) : body.rewired.outline = body.outline := by
  apply Table.ext_get?
  intro block
  rw [outline, outline, Table.get?_map, Table.get?_map, get?_rewired, Option.map_map]
  rfl

lemma edges_rewired (body : Body) : body.rewired.edges = body.orderedEdges := by
  apply Table.ext_get?
  intro block
  rw [edges, Table.get?_map, get?_rewired, get?_orderedEdges, Option.map_map]
  rfl

section Recomputing

variable (hrange : ∀ block, ∀ other ∈ (body.blockAt block).terminator.successors,
  other.index < body.blocks.size)
include hrange

lemma successors_inRange : ∀ b ∈ body.blocks.toList, ∀ other ∈ b.terminator.successors,
    other.index < body.blocks.size := by
  intro b hb other hother
  obtain ⟨block, hblock⟩ := Table.get?_of_mem hb
  exact hrange block other (by rwa [blockAt_eq hblock])

/-- Entering all edges anew makes them those that the terminators give. -/
lemma recomputeEdges_eq_rewired : (body.recomputeEdges : Except Fault _) = .ok body.rewired :=
  (recomputeEdges_eq_ok (successors_inRange hrange)).2
    ⟨rfl, outline_rewired body, edges_rewired body⟩

/-- Entering them once more changes nothing. -/
lemma recomputeEdges_rewired : (body.rewired.recomputeEdges : Except Fault _) = .ok body.rewired := by
  have hsuccessors : (body.rewired.blocks.toList.map fun b => b.terminator.successors) =
      body.blocks.toList.map fun b => b.terminator.successors := by
    rw [toList_blocks body, rewired, Table.toList_ofList, List.map_map, List.map_map]
    rfl
  have hsize : body.rewired.blocks.size = body.blocks.size := by
    simpa using congrArg Table.size (outline_rewired body)
  refine (recomputeEdges_eq_self fun b hb other hother => ?_).2 ?_
  · have hmem : b.terminator.successors ∈ body.blocks.toList.map fun b => b.terminator.successors :=
      hsuccessors ▸ List.mem_map_of_mem hb
    obtain ⟨b', hb', heq⟩ := List.mem_map.1 hmem
    rw [hsize]
    exact successors_inRange hrange b' hb' other (heq ▸ hother)
  · rw [edges_rewired, orderedEdges_congr hsuccessors]

end Recomputing

/-! ### Edges while a body is built -/

lemma edges_blockAt (body : Body) (block : Block) :
    (body.blockAt block).edges = (body.edges.get? block).getD ([], []) := by
  rw [edges, Table.get?_map, blockAt]
  cases body.blocks.get? block <;> rfl

/-- Ending a block enters the edges to its successors at both ends. -/
lemma edges_blockAt_endBlock {terminator : Terminator} (hblock : block.index < body.blocks.size)
    (hrange : ∀ other ∈ terminator.successors, other.index < body.blocks.size)
    (hend : (body.endBlock block terminator : Except Fault _) = .ok body') (other : Block) :
    (body'.blockAt other).edges =
      ((body.blockAt other).succs ++ if other = block then terminator.successors else [],
        (body.blockAt other).preds ++ List.replicate (terminator.successors.count other) block) := by
  rw [edges_blockAt, edges_endBlock hend, Edges.get?_linkAll, edges, Table.get?_map, Option.map_map]
  cases hdata : body.blocks.get? other with
  | none =>
    have hout : ¬ other.index < body.blocks.size := fun hlt => by
      obtain ⟨data, hdata'⟩ := Table.get?_of_lt hlt
      cases hdata.symm.trans hdata'
    have hne : other ≠ block := fun heq => hout (heq ▸ hblock)
    have hcount : terminator.successors.count other = 0 :=
      List.count_eq_zero.2 fun hmem => hout (hrange other hmem)
    rw [blockAt_of_not_lt hout, if_neg hne, hcount]
    rfl
  | some data =>
    rw [blockAt_eq hdata]
    rfl

lemma Step.ended?_of_mem {step : Step} (h : source ∈ step.branchesTo block) :
    step.ended? = some source := by
  cases step with
  | endBlock ended terminator =>
    have hsome : terminator ≠ .missing := by
      rintro rfl
      cases h
    rw [List.eq_of_mem_replicate h, ended?, if_neg hsome]
  | addBlock | addParam | addValue | append | prepend => cases h

lemma Step.pairwise_branchesTo (step : Step) (block : Block) :
    (step.branchesTo block).Pairwise fun b b' => b.index ≤ b'.index := by
  cases step with
  | endBlock ended terminator => exact List.pairwise_replicate.2 (.inr le_rfl)
  | addBlock | addParam | addValue | append | prepend => exact .nil

/-- Edges are what the terminators say, and predecessors stand in the order of the steps. -/
structure Linked (steps : List Step) (body : Body) : Prop where
  inRange : ∀ block, ∀ other ∈ (body.blockAt block).terminator.successors,
    other.index < body.blocks.size
  succs : ∀ block, (body.blockAt block).succs = (body.blockAt block).terminator.successors
  preds : ∀ block, (body.blockAt block).preds = steps.flatMap (Step.branchesTo block)
  counts : ∀ block source, (body.blockAt block).preds.count source =
    (body.blockAt source).terminator.successors.count block

namespace Linked

variable {steps steps' : List Step}

/-- Steps that end no block. -/
lemma congr (h : body.Linked steps)
    (hsteps : ∀ block, steps'.flatMap (Step.branchesTo block) = steps.flatMap (Step.branchesTo block))
    (hsize : body.blocks.size ≤ body'.blocks.size)
    (hterminators : ∀ block, (body'.blockAt block).terminator = (body.blockAt block).terminator)
    (hedges : ∀ block, (body'.blockAt block).edges = (body.blockAt block).edges) :
    body'.Linked steps' := by
  have hsuccs (block : Block) : (body'.blockAt block).succs = (body.blockAt block).succs :=
    congrArg Prod.fst (hedges block)
  have hpreds (block : Block) : (body'.blockAt block).preds = (body.blockAt block).preds :=
    congrArg Prod.snd (hedges block)
  constructor
  · intro block other hother
    rw [hterminators] at hother
    exact (h.inRange block other hother).trans_le hsize
  · intro block
    rw [hsuccs, hterminators, h.succs]
  · intro block
    rw [hpreds, h.preds, hsteps]
  · intro block source
    rw [hpreds, hterminators, h.counts]

lemma endBlock (h : body.Linked steps) {terminator : Terminator}
    (hmissing : (body.blockAt block).terminator = .missing)
    (hrange : ∀ other ∈ terminator.successors, other.index < body.blocks.size)
    (hend : (body.endBlock block terminator : Except Fault _) = .ok body') :
    body'.Linked (steps ++ [.endBlock block terminator]) := by
  have hblock := (endBlock_effect hend).2.1
  have hsize : body'.blocks.size = body.blocks.size := by
    simpa using congrArg Table.size (endBlock_effect hend).2.2
  have hterminator (other : Block) : (body'.blockAt other).terminator =
      if other = block then terminator else (body.blockAt other).terminator := by
    refine (congrArg BlockData.terminator (blockAt_endBlock hend other)).trans ?_
    split <;> rfl
  have hedges := edges_blockAt_endBlock hblock hrange hend
  have hsuccs (other : Block) : (body'.blockAt other).succs = _ := congrArg Prod.fst (hedges other)
  have hpreds (other : Block) : (body'.blockAt other).preds = _ := congrArg Prod.snd (hedges other)
  constructor
  · intro other target htarget
    rw [hterminator] at htarget
    rw [hsize]
    split at htarget
    · exact hrange target htarget
    · exact h.inRange other target htarget
  · intro other
    rw [hsuccs, hterminator, h.succs]
    split
    · rename_i heq
      rw [heq, hmissing]
      rfl
    · exact List.append_nil _
  · intro other
    rw [hpreds, h.preds, List.flatMap_append, List.flatMap_singleton]
    rfl
  · intro other source
    rw [hpreds, hterminator, List.count_append, h.counts, List.count_replicate]
    by_cases hsource : source = block
    · simp [hsource, hmissing, Terminator.successors, Terminator.targets]
    · simp [hsource, Ne.symm hsource]

/-- The blocks that branch to a block are its predecessors, each as often as it branches there. -/
lemma perm_preds (h : body.Linked steps) (block : Block) :
    (body.blockAt block).preds.Perm (body.branchesTo block) := by
  refine List.perm_iff_count.2 fun source => ?_
  rw [h.counts, branchesTo, count_flatMap_replicate _ (nodup_ids body.blocks)]
  split
  · rfl
  · rename_i hmem
    have hout : ¬ source.index < body.blocks.size := fun hlt => hmem (mem_ids.2 hlt)
    rw [blockAt_of_not_lt hout]
    rfl

/-- If blocks were ended in order then predecessors are in order. -/
lemma preds_eq_branchesTo (h : body.Linked steps)
    (hordered : (steps.filterMap Step.ended?).Pairwise fun b b' => b.index ≤ b'.index) (block : Block) :
    (body.blockAt block).preds = body.branchesTo block := by
  refine (h.perm_preds block).eq_of_pairwise
    (fun b b' _ _ hle hle' => Entity.index_injective _ (le_antisymm hle hle')) ?_ ?_
  · rw [h.preds, List.pairwise_flatMap]
    refine ⟨fun step _ => step.pairwise_branchesTo block, (List.pairwise_filterMap.1 hordered).imp ?_⟩
    exact fun hle b hb b' hb' => hle b (Step.ended?_of_mem hb) b' (Step.ended?_of_mem hb')
  · rw [branchesTo, ids_eq_from, Entity.from, List.flatMap_map, List.pairwise_flatMap]
    refine ⟨fun _ _ => List.pairwise_replicate.2 (.inr le_rfl), List.pairwise_le_range'.imp ?_⟩
    intro i j hij b hb b' hb'
    rwa [List.eq_of_mem_replicate hb, List.eq_of_mem_replicate hb']

lemma rewired_eq_self (h : body.Linked steps)
    (hordered : (steps.filterMap Step.ended?).Pairwise fun b b' => b.index ≤ b'.index) :
    body.rewired = body := by
  have hblocks : body.rewired.blocks = body.blocks := by
    apply Table.ext_get?
    intro block
    rw [get?_rewired]
    cases hdata : body.blocks.get? block with
    | none => rfl
    | some data =>
      have hsuccs := h.succs block
      have hpreds := h.preds_eq_branchesTo hordered block
      rw [blockAt_eq hdata] at hsuccs hpreds
      rw [Option.map_some, ← hsuccs, ← hpreds]
  calc body.rewired = { body with blocks := body.rewired.blocks } := rfl
    _ = body := by rw [hblocks]

/-- Without terminators there are no edges. -/
lemma of_empty (hblocks : ∀ block, body.blockAt block = {}) : body.Linked [] where
  inRange block := by simp [hblocks, Terminator.successors, Terminator.targets]
  succs block := by rw [hblocks]; rfl
  preds block := by rw [hblocks]; rfl
  counts block source := by rw [hblocks, hblocks]; rfl

/-- Steps that change one block and leave its end alone. -/
lemma modify (h : body.Linked steps)
    (hsteps : ∀ block, steps'.flatMap (Step.branchesTo block) = steps.flatMap (Step.branchesTo block))
    {f : BlockData → BlockData} (hbody : body'.blocks = body.blocks.modify block f)
    (hblock : block.index < body.blocks.size) (hterminator : ∀ b, (f b).terminator = b.terminator)
    (hedges : ∀ b, (f b).edges = b.edges) : body'.Linked steps' := by
  refine h.congr hsteps (by rw [hbody, Table.size_modify]) (fun other => ?_) fun other => ?_
  · rw [blockAt_modify hbody hblock]
    split
    · exact hterminator _
    · rfl
  · rw [blockAt_modify hbody hblock]
    split
    · exact hedges _
    · rfl

lemma perform (h : body.Linked steps) (step : Step) (hallowed : step.Allowed body)
    (hstep : step.perform body = .ok body') : body'.Linked (steps ++ [step]) := by
  have hsteps (hnone : ∀ block, step.branchesTo block = []) (block : Block) :
      (steps ++ [step]).flatMap (Step.branchesTo block) = steps.flatMap (Step.branchesTo block) := by
    rw [List.flatMap_append, List.flatMap_singleton, hnone, List.append_nil]
  cases step with
  | addBlock =>
    obtain ⟨_, hadd, rfl⟩ := map_eq_ok.1 hstep
    obtain ⟨-, rfl⟩ := addBlock_eq_ok.1 hadd
    exact h.congr (hsteps fun _ => rfl) (by simp) (fun block => by rw [blockAt_append rfl])
      fun block => by rw [blockAt_append rfl]
  | addParam block type =>
    obtain ⟨_, hadd, rfl⟩ := map_eq_ok.1 hstep
    obtain ⟨data, hdata, -, rfl⟩ := addParam_eq_ok.1 hadd
    exact h.modify (hsteps fun _ => rfl) rfl (Table.get?_lt hdata) (fun _ => rfl) fun _ => rfl
  | addValue d =>
    obtain ⟨_, hadd, rfl⟩ := map_eq_ok.1 hstep
    obtain ⟨-, rfl⟩ := addValue_eq_ok.1 hadd
    exact h.congr (hsteps fun _ => rfl) le_rfl (fun _ => rfl) fun _ => rfl
  | append block inst =>
    obtain ⟨hblock, rfl⟩ := appendInst_eq_ok.1 hstep
    exact h.modify (hsteps fun _ => rfl) rfl hblock (fun _ => rfl) fun _ => rfl
  | prepend block inst =>
    obtain ⟨hblock, rfl⟩ := prependInst_eq_ok.1 hstep
    exact h.modify (hsteps fun _ => rfl) rfl hblock (fun _ => rfl) fun _ => rfl
  | endBlock block terminator => exact h.endBlock hallowed.1 hallowed.2 hstep

end Linked

/-! ### Bodies from their start -/

/-- The parameters of the first block are all that a new body has. -/
lemma of_addParams {types : List ValueType} (harranged : body.Arranged []) (hlinked : body.Linked [])
    (h : (body.addParams block types : Except Fault _) = .ok body') :
    body'.Arranged [] ∧ body'.Linked [] := by
  induction types generalizing body with
  | nil =>
    obtain rfl : body = body' := Except.ok.inj h
    exact ⟨harranged, hlinked⟩
  | cons type types ih =>
    obtain ⟨_, hadd, hrest⟩ := bind_eq_ok.1 h
    obtain ⟨data, hdata, -, rfl⟩ := addParam_eq_ok.1 hadd
    have hblock := Table.get?_lt hdata
    refine ih ?_ ?_ hrest
    · rw [← blockAt_eq hdata]
      exact harranged.addParam hblock type rfl
    · exact hlinked.modify (fun _ => rfl) rfl hblock (fun _ => rfl) fun _ => rfl

lemma of_ofType {type : FuncType} (h : (Body.ofType type : Except Fault _) = .ok body) :
    body.Arranged [] ∧ body.Linked [] := by
  obtain ⟨_, hadd, hparams⟩ := bind_eq_ok.1 h
  obtain ⟨-, rfl⟩ := addBlock_eq_ok.1 hadd
  refine of_addParams (.of_empty (fun block => ?_) rfl rfl) (.of_empty fun block => ?_) hparams
  · exact (blockAt_append rfl block).trans rfl
  · exact (blockAt_append rfl block).trans rfl

lemma exists_perform {step : Step} (hallowed : step.Allowed body) (hrange : step.InRange body)
    (hblocks : body.blocks.size < Entity.limit) (hvalues : body.values.size < Entity.limit) :
    ∃ body', step.perform body = .ok body' := by
  cases step with
  | addBlock => exact ⟨_, map_eq_ok.2 ⟨_, addBlock_eq_ok.2 ⟨hblocks, rfl⟩, rfl⟩⟩
  | addParam block type =>
    obtain ⟨data, hdata⟩ := Table.get?_of_lt hrange
    exact ⟨_, map_eq_ok.2 ⟨_, addParam_eq_ok.2 ⟨data, hdata, hvalues, rfl⟩, rfl⟩⟩
  | addValue d => exact ⟨_, map_eq_ok.2 ⟨_, addValue_eq_ok.2 ⟨hvalues, rfl⟩, rfl⟩⟩
  | append block inst => exact ⟨_, appendInst_eq_ok.2 ⟨hrange, rfl⟩⟩
  | prepend block inst => exact ⟨_, prependInst_eq_ok.2 ⟨hrange, rfl⟩⟩
  | endBlock block terminator => exact exists_endBlock hrange hallowed.2

namespace Built

variable {module : Module} {signature : Signature} {steps : List Step}

lemma arranged_linked (h : Built module signature steps body) :
    body.Arranged steps ∧ body.Linked steps := by
  induction h with
  | start htype hbody => exact of_ofType hbody
  | step hbuilt step hallowed hstep ih =>
    exact ⟨ih.1.perform step hallowed hstep, ih.2.perform step hallowed hstep⟩

end Built

/-- What a body says twice it says alike, however it was built. A new body can be had for every
signature, and from there on every allowed step about blocks that are there succeeds while no table is
as large as it can be. At every point the definitions of parameters and the lists of parameters say the
same; every instruction that was placed is in one place of all lists; a value is at home in the block
that lists it, and any other value nowhere; the successors of a block are those of its terminator, and
its predecessors are, in some order, the blocks that branch to it. So entering all edges anew changes
nothing but the order of predecessors, which becomes that of the blocks; doing it again changes
nothing, nor does doing it once if blocks were ended in order. -/
theorem built_agrees (module : Module) (signature : Signature) :
    (∀ type, (module.typeOf signature : Except Fault FuncType) = .ok type →
      type.params.length ≤ Entity.limit → ∃ body, Built module signature [] body) ∧
    ∀ steps body, Built module signature steps body →
      (∀ step : Step, step.Allowed body → step.InRange body → body.blocks.size < Entity.limit →
        body.values.size < Entity.limit → ∃ body', Built module signature (steps ++ [step]) body') ∧
      (∀ value block position type, body.values.get? value = some (.param block position type) ↔
        ∃ data, body.blocks.get? block = some data ∧ data.params[position]? = some (type, value)) ∧
      (body.listing.Perm (steps.filterMap Step.placed?) ∧ body.listing.Nodup ∧
        ∀ value ∈ body.listing, body.IsInst value) ∧
      (∀ block data, body.blocks.get? block = some data →
        (∀ value, value ∈ data.paramValues ∨ value ∈ data.insts → body.home.get value = block) ∧
        data.succs = data.terminator.successors ∧ data.preds.Perm (body.branchesTo block)) ∧
      (∀ value, (∀ data ∈ body.blocks.toList, value ∉ data.paramValues ∧ value ∉ data.insts) →
        body.home.get value = .unset) ∧
      ∃ body', (body.recomputeEdges : Except Fault Body) = .ok body' ∧
        body' = { body with blocks := body'.blocks } ∧
        (∀ block, body'.blocks.get? block = (body.blocks.get? block).map fun data =>
          { data with preds := body.branchesTo block }) ∧
        (body'.recomputeEdges : Except Fault Body) = .ok body' ∧
        ((steps.filterMap Step.ended?).Pairwise (fun b b' => b.index ≤ b'.index) → body' = body) := by
  refine ⟨fun type htype hroom => ?_, fun steps body hbuilt => ?_⟩
  · obtain ⟨body, hbody⟩ := exists_ofType hroom
    exact ⟨body, .start htype hbody⟩
  · obtain ⟨harranged, hlinked⟩ := hbuilt.arranged_linked
    refine ⟨fun step hallowed hrange hblocks hvalues => ?_, fun value block position type => ?_,
      ⟨harranged.perm_listing, ?_, ?_⟩, fun block data hdata => ?_, fun value hvalue => ?_,
      body.rewired, recomputeEdges_eq_rewired hlinked.inRange, rfl, fun block => ?_,
      recomputeEdges_rewired hlinked.inRange, fun hordered => ?_⟩
    · obtain ⟨body', hstep⟩ := exists_perform hallowed hrange hblocks hvalues
      exact ⟨body', hbuilt.step step hallowed hstep⟩
    · rw [harranged.params, getElem?_params_blockAt]
    · exact harranged.perm_listing.nodup_iff.2 harranged.placed.once
    · exact fun value hvalue =>
        harranged.placed.insts value (harranged.perm_listing.mem_iff.1 hvalue)
    · have hat := blockAt_eq hdata
      refine ⟨fun value hvalue => ?_, ?_, ?_⟩
      · exact harranged.homed.home block value (by rwa [Lists, hat])
      · rw [← hat, hlinked.succs]
      · rw [← hat]
        exact hlinked.perm_preds block
    · refine harranged.homed.homeless value fun block hlists => ?_
      obtain ⟨data, hdata, hlisted⟩ := lists_iff.1 hlists
      obtain ⟨hparam, hinst⟩ := hvalue data (Table.mem_of_get? hdata)
      exact hlisted.elim hparam hinst
    · rw [get?_rewired]
      cases hdata : body.blocks.get? block with
      | none => rfl
      | some data =>
        have hsuccs := hlinked.succs block
        rw [blockAt_eq hdata] at hsuccs
        rw [Option.map_some, Option.map_some, ← hsuccs]
    · exact hlinked.rewired_eq_self hordered

/-- A module with one signature, that of functions that take a number. -/
def numberTaking : Module := { signatures := ⟨#[⟨[.i32], []⟩]⟩ }

/-- Steps that end the second block with a branch to itself, and after it the first one with a branch
that goes to the second in either case. -/
def loopSteps : List Step :=
  [.addBlock, .addValue (.inst (.const32 1) [] [.i32]), .append ⟨0⟩ ⟨1⟩, .addValue (.inst .nop [] []),
    .prepend ⟨0⟩ ⟨2⟩, .endBlock ⟨1⟩ (.jump ⟨⟨1⟩, []⟩),
    .endBlock ⟨0⟩ (.branch ⟨0⟩ ⟨⟨1⟩, []⟩ ⟨⟨1⟩, []⟩)]

/-- Entering the edges of these blocks anew puts the predecessors of the second in order. -/
theorem built_agrees_loopSteps : ∃ body body', Built numberTaking ⟨0⟩ loopSteps body ∧
    (body.recomputeEdges : Except Fault Body) = .ok body' ∧
    body.listing = [⟨2⟩, ⟨1⟩] ∧ (body.blockAt ⟨1⟩).preds = [⟨1⟩, ⟨0⟩, ⟨0⟩] ∧
    (body'.blockAt ⟨1⟩).preds = [⟨0⟩, ⟨0⟩, ⟨1⟩] := by
  have hnew : Built numberTaking ⟨0⟩ [] _ := .start rfl rfl
  have hblock := hnew.step .addBlock trivial rfl
  have hone := hblock.step (.addValue (.inst (.const32 1) [] [.i32])) nofun rfl
  have happended := hone.step (.append ⟨0⟩ ⟨1⟩) ⟨⟨_, _, _, rfl⟩, by decide⟩ rfl
  have hnop := happended.step (.addValue (.inst .nop [] [])) nofun rfl
  have hprepended := hnop.step (.prepend ⟨0⟩ ⟨2⟩) ⟨⟨_, _, _, rfl⟩, by decide⟩ rfl
  have hjump := hprepended.step (.endBlock ⟨1⟩ (.jump ⟨⟨1⟩, []⟩)) ⟨rfl, by decide⟩ rfl
  have hbranch := hjump.step (.endBlock ⟨0⟩ (.branch ⟨0⟩ ⟨⟨1⟩, []⟩ ⟨⟨1⟩, []⟩)) ⟨rfl, by decide⟩ rfl
  obtain ⟨-, -, -, -, -, body', hrecomputed, -, hblocks, -⟩ :=
    (built_agrees numberTaking ⟨0⟩).2 _ _ hbranch
  refine ⟨_, body', hbranch, hrecomputed, rfl, rfl, ?_⟩
  rw [blockAt, hblocks]
  rfl

end Body

end EntryTrace
