import EntryTrace.Proofs.Edges
import EntryTrace.Proofs.WellFormed

/-!
# Building bodies step by step

A body says several things twice: the definition of a parameter and the list of its block, the list of
a block and the home of what it lists, a terminator and the edges at both ends. The steps by which a
body grows write them at different times and in any order. Each of these agreements has a lemma for
the one step that is about it, and a lemma for all steps that leave alone what it speaks of.
-/

namespace EntryTrace

lemma getElem?_concat_eq_some {α : Type} {l : List α} {a b : α} {i : Nat} :
    (l ++ [a])[i]? = some b ↔ l[i]? = some b ∨ i = l.length ∧ a = b := by
  obtain hlt | rfl | hgt := lt_trichotomy i l.length
  · rw [List.getElem?_append_left hlt, or_iff_left fun h => hlt.ne h.1]
  · simp
  · have hnone : (l ++ [a])[i]? = none := List.getElem?_eq_none (by simpa using hgt)
    rw [hnone, List.getElem?_eq_none hgt.le, or_iff_left fun h => hgt.ne' h.1]

lemma Table.get?_append_eq_some {kind : Kind} {α : Type} {t : Table kind α} {a b : α}
    {e : Entity kind} : (t.append a).get? e = some b ↔ t.get? e = some b ∨ e = ⟨t.size⟩ ∧ a = b := by
  obtain ⟨i⟩ := e
  rw [Table.get?_eq, Table.get?_eq, Table.toList_append, getElem?_concat_eq_some, Table.length_toList,
    Entity.mk.injEq]

namespace Body

/-! ### Steps -/

/-- A step of building a body. -/
inductive Step
  | addBlock
  | addParam (block : Block) (type : ValueType)
  /-- Adds an instruction that is not placed yet, a pointer to a string, or nothing yet. -/
  | addValue (d : Def)
  | append (block : Block) (inst : Value)
  | prepend (block : Block) (inst : Value)
  | endBlock (block : Block) (terminator : Terminator)

/-- What a block is by now. A number that no block has yet stands for the block it will be. -/
def blockAt (body : Body) (block : Block) : BlockData := (body.blocks.get? block).getD {}

namespace Step

/-- Carries out a step, whose new entity is not needed. -/
def perform (body : Body) : Step → Except Fault Body
  | .addBlock => Prod.snd <$> body.addBlock
  | .addParam block type => Prod.snd <$> body.addParam block type
  | .addValue d => Prod.snd <$> body.addValue d
  | .append block inst => body.appendInst block inst
  | .prepend block inst => body.prependInst block inst
  | .endBlock block terminator => body.endBlock block terminator

/-- Parameters are added to blocks only, an instruction is placed once, and a block is ended while its
terminator is missing, with blocks that are there as its targets. -/
def Allowed (body : Body) : Step → Prop
  | .addBlock | .addParam .. => True
  | .addValue d => ∀ block position type, d ≠ .param block position type
  | .append _ inst | .prepend _ inst => body.IsInst inst ∧ inst ∉ body.listing
  | .endBlock block terminator =>
    (body.blockAt block).terminator = .missing ∧
      ∀ other ∈ terminator.successors, other.index < body.blocks.size

/-- The block that a step is about is there. -/
def InRange (body : Body) : Step → Prop
  | .addBlock | .addValue _ => True
  | .addParam block _ | .append block _ | .prepend block _ | .endBlock block _ =>
    block.index < body.blocks.size

/-- The instruction that a step places. -/
def placed? : Step → Option Value
  | .append _ inst | .prepend _ inst => some inst
  | .addBlock | .addParam .. | .addValue _ | .endBlock .. => none

/-- The block that a step gives a terminator. -/
def ended? : Step → Option Block
  | .endBlock block terminator => if terminator = .missing then none else some block
  | .addBlock | .addParam .. | .addValue _ | .append .. | .prepend .. => none

/-- The block that a step ends, once for each branch from it to `destination`. -/
def branchesTo (destination : Block) : Step → List Block
  | .endBlock block terminator => List.replicate (terminator.successors.count destination) block
  | .addBlock | .addParam .. | .addValue _ | .append .. | .prepend .. => []

end Step

/-- The bodies for a function of a signature after some steps, each of which was allowed. -/
inductive Built (module : Module) (signature : Signature) : List Step → Body → Prop
  | start {type : FuncType} {body : Body}
    (htype : (module.typeOf signature : Except Fault FuncType) = .ok type)
    (hbody : (Body.ofType type : Except Fault Body) = .ok body) : Built module signature [] body
  | step {steps : List Step} {body body' : Body} (hbuilt : Built module signature steps body)
    (step : Step) (hallowed : step.Allowed body) (hstep : step.perform body = .ok body') :
    Built module signature (steps ++ [step]) body'

/-! ### Blocks after a step -/

variable {body body' : Body} {block other : Block} {value : Value}

lemma blockAt_eq {data : BlockData} (h : body.blocks.get? block = some data) :
    body.blockAt block = data := by
  rw [blockAt, h, Option.getD_some]

lemma blockAt_of_not_lt (h : ¬ block.index < body.blocks.size) : body.blockAt block = {} := by
  cases hget : body.blocks.get? block with
  | none => rw [blockAt, hget, Option.getD_none]
  | some data => exact absurd (Table.get?_lt hget) h

lemma blockAt_append (h : body'.blocks = body.blocks.append {}) (block : Block) :
    body'.blockAt block = body.blockAt block := by
  rw [blockAt, blockAt, h, Table.get?_append]
  split
  · rename_i hsize
    have hout : ¬ block.index < body.blocks.size := by omega
    exact (blockAt_of_not_lt hout).symm
  · rfl

lemma blockAt_modify {f : BlockData → BlockData} (h : body'.blocks = body.blocks.modify block f)
    (hblock : block.index < body.blocks.size) (other : Block) :
    body'.blockAt other = if other = block then f (body.blockAt other) else body.blockAt other := by
  rw [blockAt, h, Table.get?_modify]
  split
  · rename_i heq
    obtain ⟨data, hdata⟩ := Table.get?_of_lt hblock
    rw [heq, hdata, Option.map_some, Option.getD_some, blockAt_eq hdata]
  · rfl

lemma withoutEdges_blockAt (body : Body) (block : Block) :
    (body.blockAt block).withoutEdges = (body.outline.get? block).getD {} := by
  rw [outline, Table.get?_map, blockAt]
  cases body.blocks.get? block <;> rfl

/-- Ending a block changes no list but those of edges. -/
lemma blockAt_endBlock {terminator : Terminator}
    (h : (body.endBlock block terminator : Except Fault _) = .ok body') (other : Block) :
    (body'.blockAt other).withoutEdges = if other = block
      then { (body.blockAt other).withoutEdges with terminator }
      else (body.blockAt other).withoutEdges := by
  obtain ⟨-, hblock, houtline⟩ := endBlock_effect h
  rw [withoutEdges_blockAt, withoutEdges_blockAt, houtline, Table.get?_modify]
  split
  · rename_i heq
    obtain ⟨data, hdata⟩ := Table.get?_of_lt (body.size_outline.symm ▸ hblock)
    rw [heq, hdata, Option.map_some, Option.getD_some, Option.getD_some]
  · rfl

/-- The block lists the value, as a parameter or as an instruction. -/
def Lists (body : Body) (block : Block) (value : Value) : Prop :=
  value ∈ (body.blockAt block).paramValues ∨ value ∈ (body.blockAt block).insts

lemma getElem?_params_blockAt {position : Nat} {param : ValueType × Value} :
    (body.blockAt block).params[position]? = some param ↔
      ∃ data, body.blocks.get? block = some data ∧ data.params[position]? = some param := by
  rw [blockAt]
  cases body.blocks.get? block <;> simp

lemma lists_iff : body.Lists block value ↔
    ∃ data, body.blocks.get? block = some data ∧ (value ∈ data.paramValues ∨ value ∈ data.insts) := by
  rw [Lists, blockAt]
  cases body.blocks.get? block with
  | none => simp [BlockData.paramValues]
  | some data => simp

/-! ### Parameters -/

/-- The definitions of parameters and the lists of parameters say the same. -/
def ParamsAgree (body : Body) : Prop :=
  ∀ value block position type, body.values.get? value = some (.param block position type) ↔
    (body.blockAt block).params[position]? = some (type, value)

namespace ParamsAgree

lemma congr (h : body.ParamsAgree)
    (hvalues : ∀ value block position type, body'.values.get? value = some (.param block position type) ↔
      body.values.get? value = some (.param block position type))
    (hblocks : ∀ block, (body'.blockAt block).params = (body.blockAt block).params) :
    body'.ParamsAgree := fun value block position type => by
  rw [hvalues, hblocks, h]

lemma withParam (h : body.ParamsAgree) (hblock : block.index < body.blocks.size) (type : ValueType) :
    (body.withParam block (body.blockAt block).params.length type).ParamsAgree := by
  intro value other position type'
  have hvalues : (body.withParam block (body.blockAt block).params.length type).values.get? value =
      some (.param other position type') ↔ _ := Table.get?_append_eq_some
  have hblocks : (body.withParam block (body.blockAt block).params.length type).blockAt other = _ :=
    blockAt_modify rfl hblock other
  rw [hvalues, h, hblocks]
  by_cases hother : other = block
  · subst hother
    rw [if_pos rfl, getElem?_concat_eq_some]
    refine or_congr_right ⟨?_, ?_⟩
    · rintro ⟨rfl, ⟨⟩⟩
      exact ⟨rfl, rfl⟩
    · rintro ⟨rfl, ⟨⟩⟩
      exact ⟨rfl, rfl⟩
  · rw [if_neg hother, or_iff_left]
    rintro ⟨-, ⟨⟩⟩
    exact hother rfl

lemma param_of_mem (h : body.ParamsAgree) (hvalue : value ∈ (body.blockAt block).paramValues) :
    ∃ position type, body.values.get? value = some (.param block position type) := by
  obtain ⟨⟨type, _⟩, hmem, rfl⟩ := List.mem_map.1 hvalue
  obtain ⟨position, hposition⟩ := List.getElem?_of_mem hmem
  exact ⟨position, type, (h _ _ _ _).2 hposition⟩

end ParamsAgree

/-! ### Instructions -/

/-- The instructions that blocks list are those that were placed, each in one place. -/
structure Placed (placed : List Value) (body : Body) : Prop where
  members : ∀ value, value ∈ placed ↔ ∃ block, value ∈ (body.blockAt block).insts
  nodup : ∀ block, (body.blockAt block).insts.Nodup
  insts : ∀ value ∈ placed, body.IsInst value
  once : placed.Nodup

namespace Placed

variable {placed : List Value}

lemma congr (h : body.Placed placed) (hvalues : ∀ value, body.IsInst value → body'.IsInst value)
    (hblocks : ∀ block, (body'.blockAt block).insts = (body.blockAt block).insts) :
    body'.Placed placed where
  members value := by simp only [h.members, hblocks]
  nodup block := hblocks block ▸ h.nodup block
  insts value hvalue := hvalues value (h.insts value hvalue)
  once := h.once

lemma place (h : body.Placed placed) (hinst : body.IsInst value) (hnew : value ∉ placed)
    (hvalues : body'.values = body.values)
    (hblocks : ∀ other, (body'.blockAt other).insts.Perm
      (if other = block then value :: (body.blockAt other).insts else (body.blockAt other).insts)) :
    body'.Placed (placed ++ [value]) where
  members v := by
    simp only [List.mem_append, List.mem_singleton, h.members, (hblocks _).mem_iff]
    constructor
    · rintro (⟨other, hv⟩ | rfl)
      · refine ⟨other, ?_⟩
        split
        · exact List.mem_cons_of_mem _ hv
        · exact hv
      · exact ⟨block, by simp⟩
    · rintro ⟨other, hv⟩
      split at hv
      · obtain rfl | hv := List.mem_cons.1 hv
        · exact .inr rfl
        · exact .inl ⟨other, hv⟩
      · exact .inl ⟨other, hv⟩
  nodup other := by
    rw [(hblocks other).nodup_iff]
    split
    · exact List.nodup_cons.2 ⟨fun hv => hnew ((h.members value).2 ⟨other, hv⟩), h.nodup other⟩
    · exact h.nodup other
  insts v hv := by
    unfold IsInst
    rw [hvalues]
    obtain hv | hv := List.mem_append.1 hv
    · exact h.insts v hv
    · rwa [List.mem_singleton.1 hv]
  once := (List.perm_append_singleton value placed).nodup_iff.2 (List.nodup_cons.2 ⟨hnew, h.once⟩)

end Placed

/-! ### Homes -/

/-- A value is at home in the block that lists it, and one that no block lists is nowhere at home. -/
structure Homed (body : Body) : Prop where
  home : ∀ block value, body.Lists block value → body.home.get value = block
  homeless : ∀ value, (∀ block, ¬ body.Lists block value) → body.home.get value = .unset

namespace Homed

lemma congr (h : body.Homed) (hhome : body'.home = body.home)
    (hlists : ∀ block value, body'.Lists block value ↔ body.Lists block value) : body'.Homed where
  home block value hvalue := by
    rw [hhome]
    exact h.home block value ((hlists block value).1 hvalue)
  homeless value hvalue := by
    rw [hhome]
    exact h.homeless value fun block hlists' => hvalue block ((hlists block value).2 hlists')

/-- A value that no block lists gets a home in one that lists it now. -/
lemma settle (h : body.Homed) (hnew : ∀ block, ¬ body.Lists block value)
    (hhome : body'.home = body.home.set value block)
    (hlists : ∀ other v, body'.Lists other v ↔ body.Lists other v ∨ other = block ∧ v = value) :
    body'.Homed where
  home other v hv := by
    rw [hhome, SideTable.get_set]
    obtain hv | ⟨rfl, rfl⟩ := (hlists other v).1 hv
    · have hne : v ≠ value := fun heq => hnew other (heq ▸ hv)
      rw [if_neg hne, h.home other v hv]
    · rw [if_pos rfl]
  homeless v hv := by
    have hne : v ≠ value := fun heq => hv block ((hlists block v).2 (.inr ⟨rfl, heq⟩))
    rw [hhome, SideTable.get_set, if_neg hne]
    exact h.homeless v fun other hold => hv other ((hlists other v).2 (.inl hold))

end Homed

/-! ### All of these agreements -/

/-- What a body says twice about its values it says alike, after these steps. -/
structure Arranged (steps : List Step) (body : Body) : Prop where
  params : body.ParamsAgree
  placed : body.Placed (steps.filterMap Step.placed?)
  homed : body.Homed

namespace Arranged

variable {steps steps' : List Step}

/-- Steps that add no parameter and place no instruction. -/
lemma congr (h : body.Arranged steps) (hsteps : steps'.filterMap Step.placed? = steps.filterMap Step.placed?)
    (hvalues : body'.values = body.values ∨
      ∃ d, (∀ block position type, d ≠ .param block position type) ∧ body'.values = body.values.append d)
    (hparams : ∀ block, (body'.blockAt block).params = (body.blockAt block).params)
    (hinsts : ∀ block, (body'.blockAt block).insts = (body.blockAt block).insts)
    (hhome : body'.home = body.home) : body'.Arranged steps' where
  params := by
    refine h.params.congr (fun value block position type => ?_) hparams
    obtain hvalues | ⟨d, hd, hvalues⟩ := hvalues
    · rw [hvalues]
    · rw [hvalues, Table.get?_append_eq_some, or_iff_left fun hnew => hd block position type hnew.2]
  placed := by
    rw [hsteps]
    refine h.placed.congr (fun value ⟨op, args, types, hinst⟩ => ⟨op, args, types, ?_⟩) hinsts
    obtain hvalues | ⟨d, -, hvalues⟩ := hvalues
    · rw [hvalues, hinst]
    · rw [hvalues, Table.get?_append_eq_some]
      exact .inl hinst
  homed := by
    refine h.homed.congr hhome fun block value => ?_
    rw [Lists, Lists, BlockData.paramValues, BlockData.paramValues, hparams, hinsts]

/-- Values that are listed have numbers. -/
lemma lt_of_lists (h : body.Arranged steps) (hvalue : body.Lists block value) :
    value.index < body.values.size := by
  obtain hparam | hinst := hvalue
  · obtain ⟨position, type, hget⟩ := h.params.param_of_mem hparam
    exact Table.get?_lt hget
  · obtain ⟨op, args, types, hget⟩ := h.placed.insts value ((h.placed.members value).2 ⟨block, hinst⟩)
    exact Table.get?_lt hget

/-- An instruction that was not placed is in no list. -/
lemma not_lists (h : body.Arranged steps) (hinst : body.IsInst value)
    (hnew : value ∉ steps.filterMap Step.placed?) (block : Block) : ¬ body.Lists block value := by
  rintro (hparam | hlisted)
  · obtain ⟨position, type, hget⟩ := h.params.param_of_mem hparam
    obtain ⟨op, args, types, hget'⟩ := hinst
    cases hget.symm.trans hget'
  · exact hnew ((h.placed.members value).2 ⟨block, hlisted⟩)

lemma addParam (h : body.Arranged steps) (hblock : block.index < body.blocks.size) (type : ValueType)
    (hsteps : steps'.filterMap Step.placed? = steps.filterMap Step.placed?) :
    (body.withParam block (body.blockAt block).params.length type).Arranged steps' := by
  have hblocks (other : Block) :
      (body.withParam block (body.blockAt block).params.length type).blockAt other = _ :=
    blockAt_modify rfl hblock other
  have hinsts (other : Block) :
      ((body.withParam block (body.blockAt block).params.length type).blockAt other).insts =
        (body.blockAt other).insts := by
    rw [hblocks]
    split <;> rfl
  constructor
  · exact h.params.withParam hblock type
  · rw [hsteps]
    exact h.placed.congr (fun value ⟨op, args, types, hinst⟩ =>
      ⟨op, args, types, (Table.PrefixOf.append _ _).get? hinst⟩) hinsts
  · have hfresh (other : Block) : ¬ body.Lists other ⟨body.values.size⟩ := fun hlisted =>
      lt_irrefl _ (h.lt_of_lists hlisted)
    refine h.homed.settle hfresh rfl fun other v => ?_
    rw [Lists, Lists, hinsts, hblocks, or_right_comm]
    refine or_congr_left ?_
    split
    · rename_i heq
      simp [BlockData.paramValues, heq]
    · rename_i hne
      simp [hne]

lemma place (h : body.Arranged steps) {step : Step} (hstep : step.placed? = some value)
    (hinst : body.IsInst value) (hnew : value ∉ steps.filterMap Step.placed?)
    (hvalues : body'.values = body.values) (hhome : body'.home = body.home.set value block)
    (hparams : ∀ other, (body'.blockAt other).params = (body.blockAt other).params)
    (hinsts : ∀ other, (body'.blockAt other).insts.Perm
      (if other = block then value :: (body.blockAt other).insts else (body.blockAt other).insts)) :
    body'.Arranged (steps ++ [step]) := by
  constructor
  · exact h.params.congr (fun _ _ _ _ => by rw [hvalues]) hparams
  · have hplaced : (steps ++ [step]).filterMap Step.placed? =
        steps.filterMap Step.placed? ++ [value] := by
      simp [List.filterMap_append, hstep]
    rw [hplaced]
    exact h.placed.place hinst hnew hvalues hinsts
  · refine h.homed.settle (h.not_lists hinst hnew) hhome fun other v => ?_
    rw [Lists, Lists, BlockData.paramValues, BlockData.paramValues, hparams, (hinsts other).mem_iff,
      or_assoc]
    refine or_congr_right ?_
    split
    · rename_i heq
      simp [heq, or_comm]
    · rename_i hne
      simp [hne]

end Arranged

/-! ### Listings -/

lemma mem_listing : value ∈ body.listing ↔ ∃ block, value ∈ (body.blockAt block).insts := by
  rw [listing, listingOf, List.mem_flatMap]
  constructor
  · rintro ⟨data, hdata, hvalue⟩
    obtain ⟨block, hblock⟩ := Table.get?_of_mem hdata
    exact ⟨block, by rwa [blockAt_eq hblock]⟩
  · rintro ⟨block, hvalue⟩
    cases hget : body.blocks.get? block with
    | none =>
      rw [blockAt, hget] at hvalue
      cases hvalue
    | some data =>
      rw [blockAt_eq hget] at hvalue
      exact ⟨data, Table.mem_of_get? hget, hvalue⟩

/-- All lists together hold each instruction that was placed once. -/
lemma Arranged.perm_listing {steps : List Step} (h : body.Arranged steps) :
    body.listing.Perm (steps.filterMap Step.placed?) := by
  have hnodup : body.listing.Nodup := by
    rw [listing, listingOf, List.nodup_flatMap]
    refine ⟨fun data hdata => ?_, List.pairwise_iff_getElem.2 fun i j hi hj hij => ?_⟩
    · obtain ⟨block, hblock⟩ := Table.get?_of_mem hdata
      rw [← blockAt_eq hblock]
      exact h.placed.nodup block
    · have hgeti : body.blocks.get? ⟨i⟩ = some body.blocks.toList[i] := by
        rw [Table.get?_eq, List.getElem?_eq_getElem hi]
      have hgetj : body.blocks.get? ⟨j⟩ = some body.blocks.toList[j] := by
        rw [Table.get?_eq, List.getElem?_eq_getElem hj]
      refine fun value hvalue hvalue' => hij.ne ?_
      rw [← blockAt_eq hgeti] at hvalue
      rw [← blockAt_eq hgetj] at hvalue'
      have hhome := h.homed.home ⟨i⟩ value (.inr hvalue)
      exact congrArg Entity.index (hhome.symm.trans (h.homed.home ⟨j⟩ value (.inr hvalue')))
  refine (List.perm_ext_iff_of_nodup hnodup h.placed.once).2 fun value => ?_
  rw [mem_listing, h.placed.members]

/-! ### Every step keeps them -/

/-- A block and no values: all lists are empty. -/
lemma Arranged.of_empty (hblocks : ∀ block, body.blockAt block = {}) (hvalues : body.values = {})
    (hhome : body.home = {}) : body.Arranged [] where
  params value block position type := by
    rw [hvalues, hblocks]
    simp [Table.get?]
  placed :=
    { members := fun value => by simp [hblocks]
      nodup := fun block => by simp [hblocks]
      insts := nofun
      once := .nil }
  homed :=
    { home := fun block value hvalue => by simp [Lists, hblocks, BlockData.paramValues] at hvalue
      homeless := fun value _ => by
        rw [hhome]
        rfl }

lemma Arranged.perform {steps : List Step} (h : body.Arranged steps) (step : Step)
    (hallowed : step.Allowed body) (hstep : step.perform body = .ok body') :
    body'.Arranged (steps ++ [step]) := by
  have hnew : ∀ inst, inst ∉ body.listing → inst ∉ steps.filterMap Step.placed? :=
    fun inst hinst hplaced => hinst (h.perm_listing.mem_iff.2 hplaced)
  cases step with
  | addBlock =>
    obtain ⟨_, hadd, rfl⟩ := map_eq_ok.1 hstep
    obtain ⟨-, rfl⟩ := addBlock_eq_ok.1 hadd
    exact h.congr (by simp [Step.placed?]) (.inl rfl) (fun block => by rw [blockAt_append rfl])
      (fun block => by rw [blockAt_append rfl]) rfl
  | addParam block type =>
    obtain ⟨_, hadd, rfl⟩ := map_eq_ok.1 hstep
    obtain ⟨data, hdata, -, rfl⟩ := addParam_eq_ok.1 hadd
    rw [← blockAt_eq hdata]
    exact h.addParam (Table.get?_lt hdata) type (by simp [Step.placed?])
  | addValue d =>
    obtain ⟨_, hadd, rfl⟩ := map_eq_ok.1 hstep
    obtain ⟨-, rfl⟩ := addValue_eq_ok.1 hadd
    exact h.congr (by simp [Step.placed?]) (.inr ⟨d, hallowed, rfl⟩) (fun _ => rfl) (fun _ => rfl) rfl
  | append block inst =>
    obtain ⟨hblock, rfl⟩ := appendInst_eq_ok.1 hstep
    refine h.place rfl hallowed.1 (hnew inst hallowed.2) rfl rfl (fun other => ?_) fun other => ?_
    · rw [blockAt_modify rfl hblock]
      split <;> rfl
    · rw [blockAt_modify rfl hblock]
      split
      · exact List.perm_append_singleton _ _
      · exact .refl _
  | prepend block inst =>
    obtain ⟨hblock, rfl⟩ := prependInst_eq_ok.1 hstep
    refine h.place rfl hallowed.1 (hnew inst hallowed.2) rfl rfl (fun other => ?_) fun other => ?_
    · rw [blockAt_modify rfl hblock]
      split <;> rfl
    · rw [blockAt_modify rfl hblock]
      split <;> exact .refl _
  | endBlock block terminator =>
    have hbody := (endBlock_effect hstep).1
    have hsame (other : Block) : (body'.blockAt other).params = (body.blockAt other).params ∧
        (body'.blockAt other).insts = (body.blockAt other).insts := by
      have hat := blockAt_endBlock hstep other
      constructor
      · refine (congrArg BlockData.params hat).trans ?_
        split <;> rfl
      · refine (congrArg BlockData.insts hat).trans ?_
        split <;> rfl
    exact h.congr (by simp [Step.placed?]) (.inl (by rw [hbody])) (fun other => (hsame other).1)
      (fun other => (hsame other).2) (by rw [hbody])

end Body

end EntryTrace
