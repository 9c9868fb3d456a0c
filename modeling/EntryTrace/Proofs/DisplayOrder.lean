import EntryTrace.Proofs.ReadingOrder
import EntryTrace.Proofs.ReplayedBodies

/-!
# The order in which blocks are printed

The entry block is printed first, wherever it stands in the table, and the others follow in the
order of the table. When the text is read, each block gets the number of its place.
-/

namespace EntryTrace

open Source

namespace Body

/-- The blocks in the order in which they are printed. -/
def displayed (body : Body) : List (Block × BlockData) :=
  body.displayOrder.filterMap fun block => (body.blocks.get? block).map (block, ·)

/-- The parameters of all blocks, in the order in which they are printed. -/
def displayedParams (body : Body) : List Value :=
  body.displayed.flatMap fun entry => entry.2.paramValues

/-- The instructions of all blocks, in the order in which they are printed. -/
def displayedInsts (body : Body) : List Value := listingOf (body.displayed.map Prod.snd)

/-- The parameters and instructions of all blocks. -/
def listed (body : Body) : List Value := body.displayedParams ++ body.displayedInsts

/-- The block that has the number of the place at which a block is printed. -/
def place (body : Body) (block : Block) : Block := ⟨body.displayOrder.idxOf block⟩

variable {body : Body} {block : Block} {data : BlockData} {entry : Block × BlockData}

/-- The entry block is printed first. -/
lemma place_entry (body : Body) : body.place body.entry = ⟨0⟩ := by
  simp [place, displayOrder]

lemma mem_displayed : entry ∈ body.displayed ↔ body.blocks.get? entry.1 = some entry.2 := by
  obtain ⟨block, data⟩ := entry
  simp only [displayed, List.mem_filterMap, Option.map_eq_some_iff, Prod.mk.injEq]
  constructor
  · rintro ⟨_, -, _, hdata, rfl, rfl⟩
    exact hdata
  · intro hdata
    refine ⟨block, ?_, data, hdata, rfl, rfl⟩
    rw [displayOrder, List.mem_cons, List.mem_filter, bne_iff_ne]
    by_cases hentry : block = body.entry
    · exact .inl hentry
    · exact .inr ⟨List.mem_map.2 ⟨block.index, List.mem_range.2 (Table.get?_lt hdata), rfl⟩, hentry⟩

lemma mem_displayedInsts {inst : Value} (hentry : entry ∈ body.displayed)
    (hinst : inst ∈ entry.2.insts) : inst ∈ body.displayedInsts :=
  List.mem_flatMap.2 ⟨entry.2, List.mem_map_of_mem hentry, hinst⟩

section InRange

variable (hlt : body.entry.index < body.blocks.size)
include hlt

lemma displayOrder_perm : body.displayOrder.Perm (Entity.from .block 0 body.blocks.size) := by
  have hids : body.blocks.ids = Entity.from .block 0 body.blocks.size := by
    rw [Table.ids, Entity.from, List.range_eq_range']
  have hmem : body.entry ∈ Entity.from .block 0 body.blocks.size :=
    Entity.mem_from.2 ⟨Nat.zero_le _, by omega⟩
  rw [displayOrder, hids, ← (Entity.nodup_from _ _ _).erase_eq_filter]
  exact (List.perm_cons_erase hmem).symm

lemma nodup_displayOrder : body.displayOrder.Nodup :=
  (displayOrder_perm hlt).nodup_iff.2 (Entity.nodup_from _ _ _)

lemma mem_displayOrder : block ∈ body.displayOrder ↔ block.index < body.blocks.size := by
  rw [(displayOrder_perm hlt).mem_iff, Entity.mem_from, Nat.zero_add]
  exact and_iff_right (Nat.zero_le _)

lemma map_fst_displayed : body.displayed.map Prod.fst = body.displayOrder := by
  rw [displayed, List.map_filterMap]
  refine (List.filterMap_congr fun block hblock => ?_).trans List.filterMap_some
  obtain ⟨data, hdata⟩ := Table.get?_of_lt ((mem_displayOrder hlt).1 hblock)
  rw [hdata]
  rfl

lemma getElem?_displayed (hdata : body.blocks.get? block = some data) :
    body.displayed[(body.place block).index]? = some (block, data) := by
  have hmem := (mem_displayOrder hlt).2 (Table.get?_lt hdata)
  have hblock : (body.displayed.map Prod.fst)[(body.place block).index]? = some block := by
    rw [map_fst_displayed hlt, place, List.getElem?_eq_getElem (List.idxOf_lt_length_of_mem hmem),
      List.getElem_idxOf]
  rw [List.getElem?_map, Option.map_eq_some_iff] at hblock
  obtain ⟨⟨_, found⟩, hentry, rfl⟩ := hblock
  obtain rfl := Option.some.inj (hdata.symm.trans (mem_displayed.1 (List.mem_of_getElem? hentry)))
  exact hentry

/-- The places of the blocks are their new numbers, from zero on. -/
lemma map_place : body.displayOrder.map body.place = Entity.from .block 0 body.blocks.size := by
  have hlength : body.displayOrder.length = body.blocks.size := by
    rw [(displayOrder_perm hlt).length_eq, Entity.length_from]
  refine List.ext_getElem (by rw [List.length_map, hlength, Entity.length_from]) fun i hi hi' => ?_
  simp [Entity.from, place, (nodup_displayOrder hlt).idxOf_getElem]

/-- If the entry block is the first in the table, then blocks are printed as they stand there. -/
lemma displayed_eq_entries (hentry : body.entry = ⟨0⟩) : body.displayed = body.blocks.entries := by
  obtain ⟨n, hn⟩ : ∃ n, body.blocks.size = n + 1 := ⟨body.blocks.size - 1, by omega⟩
  rw [displayed, displayOrder_eq hentry hn, ← hn, ← Table.map_fst_entries, List.filterMap_map]
  refine (List.filterMap_congr fun entry hmem => ?_).trans List.filterMap_some
  rw [Function.comp_apply, Table.get?_of_mem_entries hmem]
  rfl

lemma displayedParams_eq (hentry : body.entry = ⟨0⟩) : body.displayedParams = body.paramOrder := by
  rw [displayedParams, displayed_eq_entries hlt hentry, paramOrder, ← Table.map_snd_entries,
    List.flatMap_map]

lemma displayedInsts_eq (hentry : body.entry = ⟨0⟩) : body.displayedInsts = body.listing := by
  rw [displayedInsts, displayed_eq_entries hlt hentry, Table.map_snd_entries, listing]

end InRange

end Body

/-- The blocks of a body in the order in which they are printed, each with the tree that spells
it. -/
lemma Source.BlockTree.SpellAll.displayed {body : Body} {trees : List BlockTree}
    (h : BlockTree.SpellAll body trees) (hlt : body.entry.index < body.blocks.size) :
    List.Forall₂ (fun entry tree => BlockTree.Spells body.values entry.1 entry.2 tree)
      body.displayed trees := by
  rw [SpellAll, ← Body.map_fst_displayed hlt, List.forall₂_map_left_iff] at h
  apply forall₂_imp_of_mem h
  rintro entry hmem tree - ⟨data, hdata, hspells⟩
  obtain rfl := Option.some.inj ((Body.mem_displayed.1 hmem).symm.trans hdata)
  exact hspells

end EntryTrace
