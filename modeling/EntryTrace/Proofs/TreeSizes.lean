import EntryTrace.Proofs.ParsedModules
import EntryTrace.Proofs.TreeTypes

/-!
# Sizes of trees

A text has at least as many characters as tokens, and a derivation has at least as many tokens as
its tree asks for entities of any kind. So there are numbers enough for what a short text describes.
-/

namespace EntryTrace.Source

/-! ### Tokens -/

lemma length_of_readTokens {line : Nat} {acc located : List Located} {cs : List Char}
    (h : readTokens line acc cs = .ok located) : located.length ≤ acc.length + cs.length := by
  fun_induction readTokens line acc cs with
  | case1 line acc =>
    cases h
    simp
  | case2 => cases h
  | case3 line acc c cs rest hlexeme ih =>
    have hrest := readLexeme_length hlexeme
    have hlocated := ih h
    rw [List.length_cons]
    omega
  | case4 line acc c cs token rest hlexeme ih =>
    have hrest := readLexeme_length hlexeme
    have hlocated := ih h
    rw [List.length_cons] at hlocated ⊢
    omega

lemma length_of_tokens {text : String} {located : List Located} (h : tokens text = .ok located) :
    located.length ≤ text.length := by
  have hlength := length_of_readTokens h
  rwa [List.length_nil, Nat.zero_add, String.length_toList] at hlength

/-! ### Derivations -/

namespace Grammar

variable {α : Type} {item : Rule α} {ts : List Located}

lemma CommaSeparated.length_le {as : List α} (h : CommaSeparated item ts as)
    (hitem : ∀ ts a, item ts a → 0 < ts.length) : as.length ≤ ts.length := by
  induction h with
  | one head => exact hitem _ _ head
  | cons head _ ih =>
    have hhead := hitem _ _ head
    simp only [List.length_append, List.length_cons]
    omega

lemma Parenthesized.length_le {as : List α} (h : Parenthesized item ts as)
    (hitem : ∀ ts a, item ts a → 0 < ts.length) : as.length + 2 ≤ ts.length := by
  cases h with
  | none => exact le_rfl
  | some items =>
    have hitems := items.length_le hitem
    simp only [List.length_append, List.length_cons, List.length_nil]
    omega

/-- Whatever is counted by tokens for an item can be counted for many. -/
lemma Many.sum_le {as : List α} {count : α → Nat} (h : Many item ts as)
    (hitem : ∀ ts a, item ts a → count a ≤ ts.length) : (as.map count).sum ≤ ts.length := by
  induction h with
  | nil => exact le_rfl
  | cons head _ ih =>
    have hhead := hitem _ _ head
    simp only [List.map_cons, List.sum_cons, List.length_append]
    omega

lemma Operand.length_eq {tree : OperandTree} (h : Operand ts tree) : ts.length = 1 := by
  cases h <;> rfl

lemma operands_length_le {trees : List OperandTree} (h : Parenthesized Operand ts trees) :
    trees.length + 2 ≤ ts.length :=
  h.length_le fun _ _ h => h.length_eq.symm ▸ Nat.one_pos

lemma pointerCount_le (trees : List OperandTree) : pointerCount trees ≤ trees.length :=
  List.countP_le_length

lemma Target.length_le {tree : TargetTree} (h : Target ts tree) : tree.args.length ≤ ts.length := by
  obtain ⟨-, hargs⟩ := h
  have hlength := operands_length_le hargs
  dsimp only [List.length_cons]
  omega

lemma Operation.length_le {tree : OpTree} (h : Operation ts tree) :
    tree.operands.length ≤ ts.length := by
  cases h with
  | nop | const32 | const64 => exact Nat.zero_le _
  | binary op hleft hright =>
    simp only [OpTree.operands, List.length_cons, List.length_append, List.length_nil,
      hleft.length_eq, hright.length_eq]
    omega
  | call hname hargs =>
    have hlength := operands_length_le hargs
    simp only [OpTree.operands, List.length_cons]
    omega

lemma Inst.valueCount_le {tree : InstTree} (h : Inst ts tree) : tree.valueCount ≤ ts.length := by
  obtain ⟨-, hop⟩ := h
  have hcount := (pointerCount_le _).trans hop.length_le
  simp only [InstTree.valueCount, List.length_cons]
  omega

lemma Terminator.length_le {line : Nat} {tree : TermTree} (h : Terminator line ts tree) :
    tree.operands.length ≤ ts.length := by
  cases h with
  | jump h =>
    have hlength := h.length_le
    simp only [TermTree.operands, List.length_cons]
    omega
  | branch hcond htrue hfalse =>
    have hlength := htrue.length_le
    have hlength' := hfalse.length_le
    simp only [TermTree.operands, List.length_cons, List.length_append, hcond.length_eq]
    omega
  | retNone => exact Nat.zero_le _
  | ret h =>
    have hlength := h.length_le fun _ _ h => h.length_eq.symm ▸ Nat.one_pos
    simp only [TermTree.operands, List.length_cons]
    omega
  | unreachable => exact Nat.zero_le _

/-- How many entities the tree of a block asks for. -/
def blockCount (tree : BlockTree) : Nat := tree.params.length + tree.valueCount + 1

lemma Block.count_le {tree : BlockTree} (h : Block ts tree) : blockCount tree ≤ ts.length := by
  obtain ⟨-, hparams, hinsts, hterm⟩ := h
  have hparams' := hparams.length_le fun ts a h => by
    obtain ⟨-, -⟩ := h
    exact Nat.succ_pos _
  have hinsts' := hinsts.sum_le fun _ _ h => h.valueCount_le
  have hterm' := (pointerCount_le _).trans hterm.length_le
  simp only [blockCount, BlockTree.valueCount, List.length_cons, List.length_append]
  omega

/-- How many entities the tree of a function asks for. -/
def funcCount (tree : FuncTree) : Nat := ((tree.blocks?.getD []).map blockCount).sum

lemma Function.count_le {line : Nat} {tree : FuncTree} (h : Function line ts tree) :
    funcCount tree ≤ ts.length := by
  cases h with
  | imported => exact Nat.zero_le _
  | defined _ hblocks =>
    have hcount := hblocks.sum_le fun _ _ h => h.count_le
    simp only [funcCount, Option.getD_some, List.length_cons, List.length_append]
    omega

lemma Signature.length_le {type : FuncType} (h : Signature ts type) :
    type.params.length ≤ ts.length := by
  obtain ⟨hparams, -, -⟩ := h
  have hlength := hparams.length_le fun ts a h => by
    obtain ⟨-⟩ := h
    exact Nat.succ_pos _
  simp only [List.length_append]
  omega

/-- How many parameters an item lists if it is a signature. -/
def ItemTree.paramCount (item : ItemTree) : Nat :=
  (item.type?.map fun entry => entry.2.params.length).getD 0

/-- How many entities an item asks for if it is a function. -/
def ItemTree.bodyCount (item : ItemTree) : Nat := (item.func?.map fun entry => funcCount entry.2).getD 0

lemma Item.count_le {item : ItemTree} (h : Item ts item) :
    item.paramCount + item.bodyCount + 1 ≤ ts.length := by
  cases h with
  | type _ htype =>
    have hlength := htype.length_le
    simp only [ItemTree.paramCount, ItemTree.bodyCount, ItemTree.type?, ItemTree.func?,
      Option.map_some, Option.map_none, Option.getD_some, Option.getD_none, List.length_cons]
    omega
  | str => exact Nat.le_add_left 1 2
  | func _ hfunc =>
    have hlength := hfunc.count_le
    simp only [ItemTree.paramCount, ItemTree.bodyCount, ItemTree.type?, ItemTree.func?,
      Option.map_some, Option.map_none, Option.getD_some, Option.getD_none, List.length_cons]
    omega

/-- The things of one kind are some of the items. -/
lemma Numbered.size_le {β : Type} {items : List ItemTree} {f : ItemTree → Option (Nat × β)}
    {table : Array β} (h : Numbered (items.filterMap f) table.toList) : table.size ≤ items.length := by
  rw [← Array.length_toList, ← h.length_eq]
  exact List.length_filterMap_le f items

lemma Numbered.exists_item {β : Type} {items : List ItemTree} {f : ItemTree → Option (Nat × β)}
    {table : Array β} (h : Numbered (items.filterMap f) table.toList) {b : β}
    (hb : b ∈ table.toList) : ∃ item ∈ items, ∃ index, f item = some (index, b) := by
  rw [← h.things] at hb
  obtain ⟨⟨index, b⟩, hentry, rfl⟩ := List.mem_map.1 hb
  obtain ⟨item, hitem, heq⟩ := List.mem_filterMap.1 hentry
  exact ⟨item, hitem, index, heq⟩

end Grammar

lemma length_le_sum_blockCount (blocks : List BlockTree) :
    blocks.length ≤ (blocks.map Grammar.blockCount).sum := by
  induction blocks with
  | nil => exact le_rfl
  | cons block blocks ih =>
    simp only [List.length_cons, List.map_cons, List.sum_cons, Grammar.blockCount]
    omega

lemma valueCount_le_sum_blockCount (type : FuncType) (blocks : List BlockTree) :
    valueCount type blocks ≤ type.params.length + (blocks.map Grammar.blockCount).sum := by
  have hsum (blocks : List BlockTree) : (blocks.map fun block => block.params.length).sum +
      (blocks.map BlockTree.valueCount).sum ≤ (blocks.map Grammar.blockCount).sum := by
    induction blocks with
    | nil => exact le_rfl
    | cons block blocks ih =>
      simp only [List.map_cons, List.sum_cons, Grammar.blockCount]
      omega
  have hblocks := hsum blocks
  cases blocks with
  | nil => exact le_rfl
  | cons block blocks =>
    simp only [List.map_cons, List.sum_cons] at hblocks
    simp only [valueCount, List.tail_cons, List.map_cons, List.sum_cons]
    omega

namespace Grammar

variable {ts : List Located} {items : List ItemTree} {tree : ModuleTree}

lemma sum_count (items : List ItemTree) :
    (items.map fun item => item.paramCount + item.bodyCount + 1).sum =
      (items.map ItemTree.paramCount).sum + (items.map ItemTree.bodyCount).sum + items.length := by
  induction items with
  | nil => rfl
  | cons item items ih =>
    simp only [List.map_cons, List.sum_cons, List.length_cons, ih]
    omega

lemma params_le_sum (htypes : Numbered (items.filterMap ItemTree.type?) tree.types.toList)
    {type : FuncType} (htype : type ∈ tree.types.toList) :
    type.params.length ≤ (items.map ItemTree.paramCount).sum := by
  obtain ⟨item, hitem, index, heq⟩ := htypes.exists_item htype
  have hle := List.le_sum_of_mem (List.mem_map_of_mem (f := ItemTree.paramCount) hitem)
  rwa [ItemTree.paramCount, heq] at hle

lemma funcCount_le_sum (hfuncs : Numbered (items.filterMap ItemTree.func?) tree.funcs.toList)
    {func : FuncTree} (hfunc : func ∈ tree.funcs.toList) :
    funcCount func ≤ (items.map ItemTree.bodyCount).sum := by
  obtain ⟨item, hitem, index, heq⟩ := hfuncs.exists_item hfunc
  have hle := List.le_sum_of_mem (List.mem_map_of_mem (f := ItemTree.bodyCount) hitem)
  rwa [ItemTree.bodyCount, heq] at hle

end Grammar

/-- There are numbers enough for what tokens describe, if they are few enough. The signature of a
function, which its entry block takes its parameters from, is on tokens of its own. -/
theorem withinLimits_of_derives {located : List Located} {tree : ModuleTree}
    (h : Grammar.Module located tree) (hfew : located.length ≤ Entity.limit) : tree.WithinLimits := by
  obtain ⟨hitems, htypes, hstrings, hfuncs⟩ := h
  have hcount := hitems.sum_le fun _ _ h => h.count_le
  rw [Grammar.sum_count] at hcount
  simp only [List.length_cons, List.length_append] at hfew
  refine ⟨?_, ?_, ?_, fun func hfunc blocks hblocks => ?_⟩
  · have hsize := htypes.size_le
    omega
  · have hsize := hstrings.size_le
    omega
  · have hsize := hfuncs.size_le
    omega
  · have hbody := Grammar.funcCount_le_sum hfuncs hfunc
    rw [Grammar.funcCount, hblocks, Option.getD_some] at hbody
    have hlength := length_le_sum_blockCount blocks
    refine ⟨by omega, fun type htype => ?_⟩
    have hparams := Grammar.params_le_sum htypes
      (List.mem_of_getElem? ((Array.getElem?_toList ..).trans htype))
    have hvalues := valueCount_le_sum_blockCount type blocks
    omega

end EntryTrace.Source
