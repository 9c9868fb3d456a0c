import EntryTrace.Proofs.PrintedTokens

/-!
# Reading a module back from its tokens

If everything in a module has a number that can be written, as it has in one that was read from
text, then the tokens of the module form a tree, and this tree spells the module.
-/

namespace EntryTrace

/-! ### Numbers that can be written -/

section Numbers

variable {m : Module} {body : Body} {value : Value} {data : BlockData}

lemma Body.Closed.numbered (h : body.Closed m) (hstrings : m.strings.size ≤ Entity.limit)
    (hvalue : value.index < body.values.size) : Source.Numbered body.values value := by
  refine ⟨hvalue.trans_le h.valueLimit, fun str hget => ?_⟩
  have hclosed : str.index < m.strings.size := h.values _ (Table.mem_of_get? hget)
  exact hclosed.trans_le hstrings

lemma Body.Closed.numberedBlock (h : body.Closed m) (hstrings : m.strings.size ≤ Entity.limit)
    (hdata : data ∈ body.blocks.toList) (hfinished : data.terminator ≠ .missing) :
    Source.Reader.NumberedBlock m body.values data where
  params p hp := ((h.blocks data hdata).params p hp).trans_le h.valueLimit
  insts v hv := by
    obtain ⟨op, args, types, hget⟩ := (h.blocks data hdata).insts v hv
    have hclosed : (Def.inst op args types).Closed m body.values.size :=
      h.values _ (Table.mem_of_get? hget)
    refine ⟨(Table.get?_lt hget).trans_le h.valueLimit, op, args, types, hget, hclosed.1, ?_⟩
    exact fun arg harg => h.numbered hstrings (hclosed.2 arg harg)
  term :=
    { operands := fun v hv => h.numbered hstrings ((h.blocks data hdata).operands v hv)
      targets := fun target ht =>
        ((h.blocks data hdata).targets target ht).trans_le h.blockLimit }
  finished := hfinished

lemma Body.Closed.lt_of_mem_displayOrder {block : Block} (h : body.Closed m)
    (hblock : block ∈ body.displayOrder) : block.index < body.blocks.size := by
  rw [Body.displayOrder, List.mem_cons] at hblock
  rcases hblock with rfl | hblock
  · exact h.entry
  · obtain ⟨i, hi, rfl⟩ := List.mem_map.1 (List.mem_of_mem_filter hblock)
    exact List.mem_range.1 hi

lemma Body.Closed.numberedBody (h : body.Closed m) (hstrings : m.strings.size ≤ Entity.limit)
    (hfinished : body.Finished) : Source.Reader.NumberedBody m body := by
  intro block hblock
  have hlt := h.lt_of_mem_displayOrder hblock
  obtain ⟨data, hget⟩ := Table.get?_of_lt hlt
  have hdata := Table.mem_of_get? hget
  exact ⟨hlt.trans_le h.blockLimit, data, hget, h.numberedBlock hstrings hdata (hfinished data hdata)⟩

lemma Module.Readable.numberedDecl {decl : Decl} (h : m.Readable) (hdecl : decl ∈ m.funcs.toList) :
    Source.Reader.NumberedDecl m decl where
  signature := (h.signatures decl hdecl).trans_le h.signatureLimit
  body body hbody := (h.bodies decl hdecl body hbody).numberedBody h.stringLimit
    (h.finished decl hdecl body hbody)

/-- Everything in the module has a number that can be written, and no type has two results. -/
structure Module.Writable (m : Module) : Prop where
  returns : ∀ type ∈ m.signatures.toList, type.returns.length ≤ 1
  decls : ∀ decl ∈ m.funcs.toList, Source.Reader.NumberedDecl m decl
  signatureLimit : m.signatures.size ≤ Entity.limit
  stringLimit : m.strings.size ≤ Entity.limit
  funcLimit : m.funcs.size ≤ Entity.limit

lemma Module.Readable.writable (h : m.Readable) : m.Writable :=
  ⟨h.returns, fun _ hdecl => h.numberedDecl hdecl, h.signatureLimit, h.stringLimit, h.funcLimit⟩

end Numbers

namespace Source

/-! ### Items -/

/-- The tree spells the first signatures, strings and functions of a module, so many of each. -/
structure ModuleTree.SpellsFirst (m : Module) (types strings funcs : Nat) (tree : ModuleTree) :
    Prop where
  types : tree.types.toList = m.signatures.toList.take types
  strings : tree.strings.toList = m.strings.toList.take strings
  funcs : List.Forall₂ FuncTree.Spells (m.funcs.toList.take funcs) tree.funcs.toList

namespace Reader

variable {m : Module} {tree : ModuleTree} {rest : List Token} {types strings funcs : Nat}

lemma gives_nextSignature (h : m.Writable) {entry : Signature × FuncType}
    (hentry : m.signatures.entries[types]? = some entry)
    (htree : ModuleTree.SpellsFirst m types strings funcs tree) :
    (item tree).Gives (.word entry.1.text :: entry.2.printedTokens) rest
      (ModuleTree.SpellsFirst m (types + 1) strings funcs) := by
  obtain ⟨hentity, hget⟩ := Table.getElem?_entries hentry
  obtain ⟨hlt, -⟩ := List.getElem?_eq_some_iff.1 hget
  have hsize : tree.types.size = types := by
    rw [← Array.length_toList, htree.types, List.length_take_of_le hlt.le]
  have hroom : tree.types.size < Entity.limit := by
    rw [hsize]
    exact (m.signatures.length_toList ▸ hlt).trans_le h.signatureLimit
  rw [hentity, ← hsize]
  refine (gives_item_type (h.returns _ (List.mem_of_getElem? hget)) hroom).imp ?_
  rintro _ rfl
  exact { htree with
    types := by
      rw [Array.toList_push, htree.types, hsize, List.take_add_one, hget, Option.toList_some] }

lemma gives_nextString (h : m.Writable) {entry : Str × String}
    (hentry : m.strings.entries[strings]? = some entry)
    (htree : ModuleTree.SpellsFirst m types strings funcs tree) :
    (item tree).Gives [.word entry.1.text, .equals, .str entry.2] rest
      (ModuleTree.SpellsFirst m types (strings + 1) funcs) := by
  obtain ⟨hentity, hget⟩ := Table.getElem?_entries hentry
  obtain ⟨hlt, -⟩ := List.getElem?_eq_some_iff.1 hget
  have hsize : tree.strings.size = strings := by
    rw [← Array.length_toList, htree.strings, List.length_take_of_le hlt.le]
  have hroom : tree.strings.size < Entity.limit := by
    rw [hsize]
    exact (m.strings.length_toList ▸ hlt).trans_le h.stringLimit
  rw [hentity, ← hsize]
  refine (gives_item_string hroom).imp ?_
  rintro _ rfl
  exact { htree with
    strings := by
      rw [Array.toList_push, htree.strings, hsize, List.take_add_one, hget, Option.toList_some] }

lemma gives_nextFunc (h : m.Writable) {entry : Func × Decl}
    (hentry : m.funcs.entries[funcs]? = some entry)
    (htree : ModuleTree.SpellsFirst m types strings funcs tree) :
    (item tree).Gives (.word entry.1.text :: entry.2.printedTokens) rest
      (ModuleTree.SpellsFirst m types strings (funcs + 1)) := by
  obtain ⟨hentity, hget⟩ := Table.getElem?_entries hentry
  obtain ⟨hlt, -⟩ := List.getElem?_eq_some_iff.1 hget
  have hsize : tree.funcs.size = funcs := by
    rw [← Array.length_toList, ← htree.funcs.length_eq, List.length_take_of_le hlt.le]
  have hroom : tree.funcs.size < Entity.limit := by
    rw [hsize]
    exact (m.funcs.length_toList ▸ hlt).trans_le h.funcLimit
  rw [hentity, ← hsize]
  refine (gives_item_func h.funcLimit (h.decls _ (List.mem_of_getElem? hget)) hroom).imp ?_
  rintro _ ⟨func, hfunc, rfl⟩
  exact { htree with
    funcs := by
      rw [Array.toList_push, hsize, List.take_add_one, hget, Option.toList_some]
      exact List.rel_append htree.funcs (.cons hfunc .nil) }

/-- What an item of a module does as a round. It is not the closing brace of the module. -/
lemma gives_itemRound {name : String} {ts : List Token} {P : ModuleTree → Prop} (h : (item tree).Gives (.word name :: ts) rest P) :
    Gives (do
      if ← eat .closeBrace then
        pure (Sum.inr tree)
      else
        pure (.inl (← item tree))) (.word name :: ts) rest fun r => ∃ tree', r = .inl tree' ∧ P tree' := by
  refine gives_bind_none (gives_eat_none (by simp)) fun _ hfound => ?_
  rw [hfound, if_neg Bool.false_ne_true]
  rw [← List.append_nil (Token.word name :: ts)]
  exact gives_bind h fun tree' htree => gives_pure ⟨tree', rfl, htree⟩

lemma gives_items_of_module (h : m.Writable) {n : Nat}
    (hn : m.signatures.size + m.strings.size + m.funcs.size < n) :
    (rounds (fun tree => do
      if ← eat .closeBrace then pure (Sum.inr tree) else pure (.inl (← item tree))) n {}).Gives
      (m.signatures.entries.flatMap (fun p => .word p.1.text :: p.2.printedTokens) ++
        (m.strings.entries.flatMap (fun p => [.word p.1.text, .equals, .str p.2]) ++
          (m.funcs.entries.flatMap (fun p => .word p.1.text :: p.2.printedTokens) ++ [.closeBrace]))) []
      (ModuleTree.Spells m) := by
  obtain ⟨k, rfl⟩ : ∃ k, n = k + 1 + m.funcs.entries.length + m.strings.entries.length +
      m.signatures.entries.length := by
    simp only [Table.length_entries]
    exact ⟨n - (m.signatures.size + m.strings.size + m.funcs.size) - 1, by omega⟩
  have hnone : ModuleTree.SpellsFirst m 0 0 0 {} := ⟨by simp, by simp, by simp⟩
  refine gives_rounds_each (S := fun i => ModuleTree.SpellsFirst m i 0 0) ?_ ?_ hnone
  · intro i entry tree rest hentry htree
    exact gives_itemRound (gives_nextSignature h hentry htree)
  intro tree htree
  refine gives_rounds_each (S := fun i => ModuleTree.SpellsFirst m _ i 0) ?_ ?_ htree
  · intro i entry tree rest hentry htree
    exact gives_itemRound (gives_nextString h hentry htree)
  intro tree htree
  refine gives_rounds_each (S := fun i => ModuleTree.SpellsFirst m _ _ i) ?_ ?_ htree
  · intro i entry tree rest hentry htree
    exact gives_itemRound (gives_nextFunc h hentry htree)
  intro tree htree
  apply gives_rounds_last
  refine gives_bind_one gives_eat fun _ hfound => ?_
  rw [hfound, if_pos rfl]
  refine gives_pure ⟨tree, rfl, ?_⟩
  simp only [Table.length_entries, ← Table.length_toList] at htree
  exact ⟨by simpa using htree.types, by simpa using htree.strings, by simpa using htree.funcs⟩

lemma gives_module (h : m.Writable) : Reader.module.Gives m.printedTokens [] (ModuleTree.Spells m) := by
  have hsignatures : m.signatures.entries.length ≤
      (m.signatures.entries.flatMap fun p => Token.word p.1.text :: p.2.printedTokens).length :=
    le_length_flatMap fun _ _ => by simp
  have hstrings : m.strings.entries.length ≤
      (m.strings.entries.flatMap fun p => [Token.word p.1.text, .equals, .str p.2]).length :=
    le_length_flatMap fun _ _ => by simp
  have hfuncs : m.funcs.entries.length ≤
      (m.funcs.entries.flatMap fun p => Token.word p.1.text :: p.2.printedTokens).length :=
    le_length_flatMap fun _ _ => by simp
  unfold Reader.module Module.printedTokens
  refine gives_bind_one gives_expect fun _ _ => ?_
  refine gives_bind_one gives_expect fun _ _ => ?_
  rw [← List.append_nil (List.flatMap _ m.signatures.entries ++ _)]
  refine gives_bind (gives_iterate fun n hn => gives_items_of_module h ?_) fun tree htree => ?_
  · simp only [List.length_append, Table.length_entries] at hn hsignatures hstrings hfuncs
    omega
  refine gives_bind_none gives_peek fun token htoken => ?_
  rw [htoken]
  exact gives_pure htree

end Reader

/-- A module can be read from its tokens, wherever they are, as a tree that spells it. -/
theorem exists_tree_of_writable {m : Module} {located : List Located} (h : m.Writable)
    (htokens : located.map Located.token = m.printedTokens) :
    ∃ tree : ModuleTree, parse located = .ok tree ∧ tree.Spells m := by
  obtain ⟨tree, rest, hread, htree, -⟩ :=
    Reader.gives_module h (Extent.of located) located (by rw [htokens, List.append_nil]) (le_refl _)
  exact ⟨tree, by rw [parse, hread]; rfl, htree⟩

/-- A readable module can be read from its tokens, wherever they are, as a tree that spells it. -/
theorem parse_of_tokens {m : Module} {located : List Located} (h : m.Readable)
    (htokens : located.map Located.token = m.printedTokens) :
    ∃ tree : ModuleTree, parse located = .ok tree ∧ tree.Spells m :=
  exists_tree_of_writable h.writable htokens

end Source

end EntryTrace
