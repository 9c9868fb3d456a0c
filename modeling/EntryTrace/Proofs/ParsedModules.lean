import EntryTrace.Proofs.ParsedBlocks

/-!
# The parser and its grammar

The parser answers a tree just where the tokens are a derivation of a module, and then the tree is
that of the derivation. So no tokens form two trees, and tokens after a module are an error.
-/

namespace EntryTrace.Source

open Grammar (Names Rule Many Parenthesized Numbered ItemTree)

/-! ### Numbered items -/

namespace Grammar

/-- The tree with one more item, if the item has the number that comes next. -/
def ItemTree.addTo? (tree : ModuleTree) : ItemTree → Option ModuleTree
  | .type index t =>
    if index = tree.types.size then some { tree with types := tree.types.push t } else none
  | .str index s =>
    if index = tree.strings.size then some { tree with strings := tree.strings.push s } else none
  | .func index f =>
    if index = tree.funcs.size then some { tree with funcs := tree.funcs.push f } else none

variable {α : Type} {entries : List (Nat × α)} {things mid : List α} {index : Nat} {a : α}

lemma numbered_nil : Numbered ([] : List (Nat × α)) things ↔ things = [] :=
  ⟨fun h => h.things.symm, fun h => ⟨rfl, h.symm⟩⟩

lemma Numbered.length_eq (h : Numbered entries things) : entries.length = things.length := by
  rw [← h.things, List.length_map]

lemma numbered_concat : Numbered (entries ++ [(index, a)]) things ↔
    ∃ mid, Numbered entries mid ∧ index = mid.length ∧ things = mid ++ [a] := by
  constructor
  · rintro ⟨hnumbers, rfl⟩
    rw [List.map_append, List.length_append, List.length_singleton, List.range_succ] at hnumbers
    obtain ⟨hfront, hlast⟩ := List.append_inj' hnumbers rfl
    refine ⟨entries.map Prod.snd, ⟨hfront, rfl⟩, ?_, by rw [List.map_append]; rfl⟩
    rw [List.length_map]
    exact (List.cons.inj hlast).1
  · rintro ⟨mid, h, rfl, rfl⟩
    refine ⟨?_, by rw [List.map_append, h.things]; rfl⟩
    rw [List.map_append, List.length_append, List.length_singleton, List.range_succ, h.numbers,
      h.length_eq]
    rfl

/-- Adding a thing to a table numbers it with the size of the table. -/
lemma numbered_push {table : Array α} :
    Numbered (entries ++ [(index, a)]) table.toList ↔ ∃ before : Array α,
      Numbered entries before.toList ∧ index = before.size ∧ before.push a = table := by
  rw [numbered_concat]
  constructor
  · rintro ⟨mid, h, hindex, htable⟩
    exact ⟨mid.toArray, h, hindex, Array.toList_inj.1 (by simp [htable])⟩
  · rintro ⟨before, h, hindex, rfl⟩
    exact ⟨before.toList, h, by simpa using hindex, Array.toList_push⟩

/-- Items that are added one after the other are those of each kind, numbered in order. -/
lemma foldlM_addTo? (items : List ItemTree) (tree : ModuleTree) :
    items.foldlM ItemTree.addTo? {} = some tree ↔
      Numbered (items.filterMap ItemTree.type?) tree.types.toList ∧
        Numbered (items.filterMap ItemTree.str?) tree.strings.toList ∧
          Numbered (items.filterMap ItemTree.func?) tree.funcs.toList := by
  induction items using List.reverseRecOn generalizing tree with
  | nil =>
    obtain ⟨types, strings, funcs⟩ := tree
    simp [numbered_nil, eq_comm]
  | append_singleton items item ih =>
    simp only [List.foldlM_append, List.foldlM_cons, List.foldlM_nil, Option.bind_eq_bind,
      Option.bind_eq_some_iff, ih, List.filterMap_append, Option.pure_def, Option.some.injEq,
      exists_eq_right]
    cases item with
    | type index t =>
      simp only [ItemTree.addTo?, ItemTree.type?, ItemTree.str?, ItemTree.func?,
        List.filterMap_cons, List.filterMap_nil, List.append_nil, numbered_push,
        Option.ite_none_right_eq_some, Option.some.injEq]
      constructor
      · rintro ⟨mid, ⟨htypes, hstrings, hfuncs⟩, hindex, rfl⟩
        exact ⟨⟨_, htypes, hindex, rfl⟩, hstrings, hfuncs⟩
      · rintro ⟨⟨before, htypes, hindex, hpush⟩, hstrings, hfuncs⟩
        exact ⟨{ tree with types := before }, ⟨htypes, hstrings, hfuncs⟩, hindex, by rw [hpush]⟩
    | str index s =>
      simp only [ItemTree.addTo?, ItemTree.type?, ItemTree.str?, ItemTree.func?,
        List.filterMap_cons, List.filterMap_nil, List.append_nil, numbered_push,
        Option.ite_none_right_eq_some, Option.some.injEq]
      constructor
      · rintro ⟨mid, ⟨htypes, hstrings, hfuncs⟩, hindex, rfl⟩
        exact ⟨htypes, ⟨_, hstrings, hindex, rfl⟩, hfuncs⟩
      · rintro ⟨htypes, ⟨before, hstrings, hindex, hpush⟩, hfuncs⟩
        exact ⟨{ tree with strings := before }, ⟨htypes, hstrings, hfuncs⟩, hindex, by rw [hpush]⟩
    | func index f =>
      simp only [ItemTree.addTo?, ItemTree.type?, ItemTree.str?, ItemTree.func?,
        List.filterMap_cons, List.filterMap_nil, List.append_nil, numbered_push,
        Option.ite_none_right_eq_some, Option.some.injEq]
      constructor
      · rintro ⟨mid, ⟨htypes, hstrings, hfuncs⟩, hindex, rfl⟩
        exact ⟨htypes, hstrings, _, hfuncs, hindex, rfl⟩
      · rintro ⟨htypes, hstrings, before, hfuncs, hindex, hpush⟩
        exact ⟨{ tree with funcs := before }, ⟨htypes, hstrings, hfuncs⟩, hindex, by rw [hpush]⟩

end Grammar

namespace Reader

variable {α : Type}

/-! ### Items -/

lemma reads_ite {x y : Reader α} {R S : Phrase α} {p : Prop} [Decidable p] (hx : p → x.Reads R)
    (hy : ¬ p → y.Reads S) :
    (if p then x else y).Reads fun ts a rest => p ∧ R ts a rest ∨ ¬ p ∧ S ts a rest := by
  split
  · rename_i hp
    exact (hx hp).congr fun ts a rest => by simp [hp]
  · rename_i hp
    exact (hy hp).congr fun ts a rest => by simp [hp]

/-- What follows the signature of a function. -/
lemma reads_funcRest (line kindLine signature : Nat) (kind name : String) :
    (match kind with
      | "import" => pure { line, name, signature, blocks? := none }
      | "func" => do
        expect .openBrace
        let blocks ← blocks
        if blocks.isEmpty then
          fail line (.grammar (.noBlocks name))
        else
          pure { line, name, signature, blocks? := some blocks }
      | other => fail kindLine (.grammar (.unexpected .importOrFunc (.word other))) :
        Reader FuncTree).Reads fun ts tree _ =>
      (kind = "import" ∧ ts = [] ∧ tree = { line, name, signature, blocks? := none }) ∨
      (kind = "func" ∧ ∃ line₁ us line₂ trees, ts = ⟨.openBrace, line₁⟩ :: (us ++ [⟨.closeBrace, line₂⟩]) ∧
        Many Grammar.Block us trees ∧ trees ≠ [] ∧
          tree = { line, name, signature, blocks? := some trees }) := by
  split
  · exact (reads_pure _).congr fun ts tree rest => by simp
  · refine (reads_expectBind (reads_bind reads_blocks fun trees => reads_ite
      (fun _ => reads_fail line _) (fun _ => reads_pure _))).congr fun ts tree rest => ?_
    simp only [String.reduceEq, false_and, false_or, true_and, and_false]
    constructor
    · rintro ⟨line₁, _, rfl, _, _, trees, rfl, ⟨us, line₂, rfl, htrees⟩, hsome, rfl, rfl⟩
      refine ⟨line₁, us, line₂, trees, by rw [List.append_nil], htrees, ?_, rfl⟩
      rintro rfl
      exact hsome rfl
    · rintro ⟨line₁, us, line₂, trees, rfl, htrees, hsome, rfl⟩
      refine ⟨line₁, _, rfl, _, [], trees, (List.append_nil _).symm, ⟨us, line₂, rfl, htrees⟩, ?_,
        rfl, rfl⟩
      simpa using hsome
  · rename_i himport hfunc
    refine (reads_fail kindLine _).congr fun ts tree rest => ?_
    constructor
    · rintro ⟨⟩
    · rintro (⟨h, -⟩ | ⟨h, -⟩)
      · exact himport h
      · exact hfunc h

lemma reads_func (line : Nat) : (func line).Reads fun ts tree _ =>
    ∃ line' us, ts = ⟨.equals, line'⟩ :: us ∧ Grammar.Function line us tree := by
  refine (reads_expectBind (reads_lineBindOne reads_word fun kindLine kind =>
    reads_bindOne reads_stringLiteral fun name => reads_expectBind (reads_entityBind
      fun signature => reads_funcRest line kindLine signature kind name))).congr
        fun ts tree rest => exists_congr fun line' => exists_congr fun us =>
          and_congr_right fun _ => ?_
  constructor
  · rintro ⟨⟨_, line₁⟩, _, kind, rfl, rfl, ⟨_, line₂⟩, _, name, rfl, rfl, line₃, _, rfl, word,
      line₄, vs, signature, rfl, hsignature, ⟨rfl, rfl, rfl⟩ |
      ⟨rfl, line₅, ws, line₆, trees, rfl, htrees, hsome, rfl⟩⟩
    · exact .imported hsignature
    · exact .defined hsignature htrees hsome
  · rintro (⟨hsignature⟩ | ⟨hsignature, hblocks, hsome⟩)
    · exact ⟨_, _, _, rfl, rfl, _, _, _, rfl, rfl, _, _, rfl, _, _, _, _, rfl, hsignature,
        .inl ⟨rfl, rfl, rfl⟩⟩
    · exact ⟨_, _, _, rfl, rfl, _, _, _, rfl, rfl, _, _, rfl, _, _, _, _, rfl, hsignature,
        .inr ⟨rfl, _, _, _, _, rfl, hblocks, hsome, rfl⟩⟩

lemma reads_funcType (line : Nat) : (funcType line).Reads fun ts type _ =>
    ∃ line' us, ts = ⟨.equals, line'⟩ :: us ∧ Grammar.Signature us type := by
  refine (reads_expectBind (reads_bind (reads_parenthesized reads_valueType worded_typeName)
    fun params => reads_expectBind (reads_bind (reads_parenthesized reads_valueType worded_typeName)
      fun returns => reads_ite (fun _ => reads_fail line _) (fun _ => reads_pure _)))).congr
        fun ts type rest => exists_congr fun line' => exists_congr fun us =>
          and_congr_right fun _ => ?_
  constructor
  · rintro ⟨vs, _, params, rfl, hparams, line₁, _, rfl, ws, _, returns, rfl, hreturns,
      ⟨-, ⟨⟩⟩ | ⟨hone, rfl, rfl⟩⟩
    rw [List.append_nil]
    exact .intro hparams hreturns (Nat.le_of_not_lt hone)
  · rintro ⟨hparams, hreturns, hone⟩
    exact ⟨_, _, _, rfl, hparams, _, _, rfl, _, [], _, (List.append_nil _).symm, hreturns,
      .inr ⟨Nat.not_lt_of_le hone, rfl, rfl⟩⟩

/-- Checking a number before reading on. -/
lemma reads_numberBind {line index size : Nat} {kind : Kind} {name : String} {x : Reader α}
    {R : Phrase α} (hx : x.Reads R) :
    (checkNumber line kind index size name >>= fun _ => x).Reads fun ts a rest =>
      index = size ∧ R ts a rest := by
  by_cases hindex : index = size
  · have hcheck : checkNumber line kind index size name = pure () := if_pos hindex
    rw [hcheck, pure_bind]
    exact hx.congr fun ts a rest => by simp [hindex]
  · intro extent located _ a rest
    have hcheck : checkNumber line kind index size name = fail line _ := if_neg hindex
    rw [hcheck]
    constructor
    · rintro ⟨⟩
    · rintro ⟨ts, -, h, -⟩
      exact absurd h hindex

lemma item_cons {name : String} {line : Nat} {us : List Located} {entry : ItemTree} :
    Grammar.Item (⟨.word name, line⟩ :: us) entry ↔
      (∃ index, Names .signature index name ∧ ∃ line' vs type, us = ⟨.equals, line'⟩ :: vs ∧
        Grammar.Signature vs type ∧ entry = .type index type) ∨
      (∃ index, Names .str index name ∧ ∃ line' line'' s,
        us = [⟨.equals, line'⟩, ⟨.str s, line''⟩] ∧ entry = .str index s) ∨
      ∃ index, Names .func index name ∧ ∃ line' vs func, us = ⟨.equals, line'⟩ :: vs ∧
        Grammar.Function line vs func ∧ entry = .func index func := by
  constructor
  · rintro (⟨hname, htype⟩ | ⟨hname⟩ | ⟨hname, hfunc⟩)
    · exact .inl ⟨_, hname, _, _, _, rfl, htype, rfl⟩
    · exact .inr (.inl ⟨_, hname, _, _, _, rfl, rfl⟩)
    · exact .inr (.inr ⟨_, hname, _, _, _, rfl, hfunc, rfl⟩)
  · rintro (⟨index, hname, line', vs, type, rfl, htype, rfl⟩ |
      ⟨index, hname, line', line'', s, rfl, rfl⟩ | ⟨index, hname, line', vs, func, rfl, hfunc, rfl⟩)
    · exact .type hname htype
    · exact .str hname
    · exact .func hname hfunc

/-- What follows the first word of an item. -/
lemma reads_itemRest (tree : ModuleTree) (line : Nat) (name : String) :
    (if let some index := entityIndex? .signature name then do
        checkNumber line .signature index tree.types.size name
        let type ← funcType line
        pure { tree with types := tree.types.push type }
      else if let some index := entityIndex? .str name then do
        checkNumber line .str index tree.strings.size name
        expect .equals
        let s ← stringLiteral
        pure { tree with strings := tree.strings.push s }
      else if let some index := entityIndex? .func name then do
        checkNumber line .func index tree.funcs.size name
        let func ← func line
        pure { tree with funcs := tree.funcs.push func }
      else
        fail line (.grammar (.unexpected .moduleItem (.word name))) : Reader ModuleTree).Reads
      fun us tree' _ => ∃ entry, Grammar.Item (⟨.word name, line⟩ :: us) entry ∧
        entry.addTo? tree = some tree' := by
  have hother {kind kind' : Kind} {index : Nat} (h : entityIndex? kind name = some index)
      (hne : kind' ≠ kind) (index' : Nat) : ¬ Names kind' index' name :=
    fun h' => hne (h'.kind_eq (entityIndex?_eq_some.1 h))
  have hadd {kind : Kind} {index size : Nat} {made tree' : ModuleTree}
      (h : entityIndex? kind name = some index) (index' : Nat) (h' : Names kind index' name) :
      (if index' = size then some made else none) = some tree' ↔ index = size ∧ tree' = made := by
    obtain rfl := h'.index_eq (entityIndex?_eq_some.1 h)
    rw [Option.ite_none_right_eq_some, Option.some.injEq, eq_comm (a := made)]
  split
  · rename_i index hindex
    have hname := entityIndex?_eq_some.1 hindex
    refine (reads_numberBind (reads_bindPure (reads_funcType line))).congr fun us tree' rest => ?_
    simp only [item_cons, hother hindex (by decide : Kind.str ≠ _),
      hother hindex (by decide : Kind.func ≠ _), false_and, exists_false, or_false]
    constructor
    · rintro ⟨hnext, type, ⟨line', vs, rfl, htype⟩, rfl⟩
      exact ⟨_, ⟨index, hname, line', vs, type, rfl, htype, rfl⟩, if_pos hnext⟩
    · rintro ⟨_, ⟨index', hname', line', vs, type, rfl, htype, rfl⟩, h⟩
      obtain ⟨hnext, rfl⟩ := (hadd hindex index' hname').1 h
      exact ⟨hnext, type, ⟨line', vs, rfl, htype⟩, rfl⟩
  · rename_i htype
    split
    · rename_i index hindex
      have hname := entityIndex?_eq_some.1 hindex
      refine (reads_numberBind (reads_expectBind (reads_bindPure reads_stringLiteral))).congr
        fun us tree' rest => ?_
      simp only [item_cons, hother hindex (by decide : Kind.signature ≠ _),
        hother hindex (by decide : Kind.func ≠ _), false_and, exists_false, or_false, false_or]
      constructor
      · rintro ⟨hnext, line', _, rfl, s, ⟨⟨_, line''⟩, rfl, rfl⟩, rfl⟩
        exact ⟨_, ⟨index, hname, line', line'', s, rfl, rfl⟩, if_pos hnext⟩
      · rintro ⟨_, ⟨index', hname', line', line'', s, rfl, rfl⟩, h⟩
        obtain ⟨hnext, rfl⟩ := (hadd hindex index' hname').1 h
        exact ⟨hnext, line', _, rfl, s, ⟨_, rfl, rfl⟩, rfl⟩
    · rename_i hstr
      split
      · rename_i index hindex
        have hname := entityIndex?_eq_some.1 hindex
        refine (reads_numberBind (reads_bindPure (reads_func line))).congr fun us tree' rest => ?_
        simp only [item_cons, hother hindex (by decide : Kind.signature ≠ _),
          hother hindex (by decide : Kind.str ≠ _), false_and, exists_false, false_or]
        constructor
        · rintro ⟨hnext, func, ⟨line', vs, rfl, hfunc⟩, rfl⟩
          exact ⟨_, ⟨index, hname, line', vs, func, rfl, hfunc, rfl⟩, if_pos hnext⟩
        · rintro ⟨_, ⟨index', hname', line', vs, func, rfl, hfunc, rfl⟩, h⟩
          obtain ⟨hnext, rfl⟩ := (hadd hindex index' hname').1 h
          exact ⟨hnext, func, ⟨line', vs, rfl, hfunc⟩, rfl⟩
      · rename_i hfunc
        refine (reads_fail line _).congr fun us tree' rest => ?_
        simp only [item_cons, entityIndex?_eq_none.1 (Option.eq_none_iff_forall_ne_some.2 htype),
          entityIndex?_eq_none.1 (Option.eq_none_iff_forall_ne_some.2 hstr),
          entityIndex?_eq_none.1 (Option.eq_none_iff_forall_ne_some.2 hfunc), false_and,
          exists_false, or_false]

lemma worded_item : Worded Grammar.Item := by
  intro ts entry h
  cases h <;> exact ⟨_, _, _, rfl⟩

lemma reads_item (tree : ModuleTree) : (item tree).Reads fun ts tree' _ =>
    ∃ entry, Grammar.Item ts entry ∧ entry.addTo? tree = some tree' := by
  refine (reads_lineBindOne reads_word (reads_itemRest tree)).congr fun ts tree' rest => ?_
  constructor
  · rintro ⟨⟨_, line⟩, us, name, rfl, rfl, hentry⟩
    exact hentry
  · rintro ⟨entry, hentry, hadd⟩
    obtain ⟨name, line, us, rfl⟩ := worded_item _ _ hentry
    exact ⟨_, us, name, rfl, rfl, entry, hentry, hadd⟩

/-- A round of the items of a module. -/
def itemsRound (tree : ModuleTree) : Phrase (ModuleTree ⊕ ModuleTree) := fun ts r _ =>
  (∃ entry tree', Grammar.Item ts entry ∧ entry.addTo? tree = some tree' ∧ r = .inl tree') ∨
    ∃ line, ts = [⟨.closeBrace, line⟩] ∧ r = .inr tree

lemma reads_itemsRound (tree : ModuleTree) :
    (do
      if ← eat .closeBrace then pure (.inr tree) else pure (.inl (← item tree)) :
        Reader (ModuleTree ⊕ ModuleTree)).Reads (itemsRound tree) := by
  refine (reads_eatBind (reads_pure _) (reads_bindPure (reads_item tree))).congr
    fun ts r rest => ?_
  constructor
  · rintro (⟨line, _, rfl, rfl, rfl⟩ | ⟨-, tree', ⟨entry, hentry, hadd⟩, rfl⟩)
    · exact .inr ⟨line, rfl, rfl⟩
    · exact .inl ⟨entry, tree', hentry, hadd, rfl⟩
  · rintro (⟨entry, tree', hentry, hadd, rfl⟩ | ⟨line, rfl, rfl⟩)
    · refine .inr ⟨?_, tree', ⟨entry, hentry, hadd⟩, rfl⟩
      obtain ⟨name, line, us, rfl⟩ := worded_item _ _ hentry
      simp [NotNext]
    · exact .inl ⟨line, [], rfl, rfl, rfl⟩

lemma ne_nil_of_itemsRound {tree tree' : ModuleTree} {ts rest : List Located}
    (h : itemsRound tree ts (.inl tree') rest) : ts ≠ [] := by
  obtain ⟨entry, -, hentry, -, -⟩ | ⟨line, -, heq⟩ := h
  · exact worded_item.ne_nil ts entry hentry
  · cases heq

lemma repeats_itemsRound {tree tree' : ModuleTree} {ts rest : List Located} :
    Repeats itemsRound tree ts tree' rest ↔ ∃ us items line, ts = us ++ [⟨.closeBrace, line⟩] ∧
      Many Grammar.Item us items ∧ items.foldlM ItemTree.addTo? tree = some tree' := by
  constructor
  · intro h
    induction h with
    | last h =>
      obtain ⟨_, _, -, -, heq⟩ | ⟨line, rfl, heq⟩ := h
      · cases heq
      · obtain rfl := Sum.inr.inj heq
        exact ⟨[], [], line, rfl, .nil, rfl⟩
    | more h _ ih =>
      obtain ⟨us, items, line, rfl, hitems, hfold⟩ := ih
      obtain ⟨entry, mid, hentry, hadd, heq⟩ | ⟨line, -, heq⟩ := h
      · obtain rfl := Sum.inl.inj heq
        refine ⟨_, entry :: items, line, (List.append_assoc ..).symm, .cons hentry hitems, ?_⟩
        rw [List.foldlM_cons, hadd]
        exact hfold
      · cases heq
  · rintro ⟨us, items, line, rfl, hitems, hfold⟩
    induction hitems generalizing tree with
    | nil =>
      obtain rfl := Option.some.inj hfold
      exact .last (.inr ⟨line, rfl, rfl⟩)
    | @cons us vs entry items head _ ih =>
      rw [List.foldlM_cons, Option.bind_eq_bind, Option.bind_eq_some_iff] at hfold
      obtain ⟨mid, hadd, hfold⟩ := hfold
      rw [List.append_assoc]
      exact .more (.inl ⟨entry, mid, head, hadd, rfl⟩) (ih hfold)

/-- The items of a module up to its closing brace. -/
lemma reads_items :
    (iterate (fun tree => do
      if ← eat .closeBrace then pure (.inr tree) else pure (.inl (← item tree))) {} :
        Reader ModuleTree).Reads fun ts tree _ => ∃ us items line,
      ts = us ++ [⟨.closeBrace, line⟩] ∧ Many Grammar.Item us items ∧
        Numbered (items.filterMap ItemTree.type?) tree.types.toList ∧
          Numbered (items.filterMap ItemTree.str?) tree.strings.toList ∧
            Numbered (items.filterMap ItemTree.func?) tree.funcs.toList := by
  refine (reads_iterate reads_itemsRound (fun _ _ _ _ => ne_nil_of_itemsRound) {}).congr
    fun ts tree rest => ?_
  simp only [repeats_itemsRound, Grammar.foldlM_addTo?]

/-- A module, whatever comes after it. -/
def front : Reader ModuleTree := do
  expect (.word "module")
  expect .openBrace
  iterate (fun tree => do
    if ← eat .closeBrace then pure (.inr tree) else pure (.inl (← item tree))) {}

lemma reads_front : front.Reads fun ts tree _ => Grammar.Module ts tree := by
  refine (reads_expectBind (reads_expectBind reads_items)).congr fun ts tree rest => ?_
  constructor
  · rintro ⟨line₁, _, rfl, line₂, _, rfl, us, items, line₃, rfl, hitems, htypes, hstrings, hfuncs⟩
    exact .intro hitems htypes hstrings hfuncs
  · rintro ⟨hitems, htypes, hstrings, hfuncs⟩
    exact ⟨_, _, rfl, _, _, rfl, _, _, _, rfl, hitems, htypes, hstrings, hfuncs⟩

/-- After a module nothing may follow. -/
def closing (tree : ModuleTree) : Reader ModuleTree := do
  match ← peek? with
  | none => pure tree
  | some _ => fail (← line) (.grammar .trailingInput)

lemma module_eq : module = front >>= closing := by
  refine ((bind_assoc _ _ _).trans (congrArg _ (funext fun _ => ?_))).symm
  exact bind_assoc _ _ _

/-- What is said of a module that was read with some tokens left. -/
def ended (tree : ModuleTree) : List Located → Except SourceError (ModuleTree × List Located)
  | [] => .ok (tree, [])
  | l :: _ => .error ⟨l.line, .grammar .trailingInput⟩

lemma module_apply (extent : Extent) (located : List Located) :
    module extent located = front extent located >>= fun p => ended p.1 p.2 := by
  rw [module_eq, bind_apply]
  congr 1
  funext p
  obtain ⟨tree, rest⟩ := p
  cases rest <;> rfl

end Reader

open Reader

lemma parse_eq_ok {located : List Located} {tree : ModuleTree} :
    parse located = .ok tree ↔ Grammar.Module located tree := by
  have hfront := reads_front (Extent.of located) located le_rfl tree []
  simp only [List.append_nil, exists_eq_left'] at hfront
  rw [← hfront, parse, module_apply]
  cases hread : front (Extent.of located) located with
  | error e => exact ⟨nofun, nofun⟩
  | ok p =>
    obtain ⟨found, rest⟩ := p
    cases rest with
    | nil => simp [Except.map, ended]
    | cons l rest => exact ⟨nofun, nofun⟩

/-- The parser accepts exactly its grammar, and answers the tree of the derivation. So a derivation
of the same tokens has the same tree, and tokens that are left over are an error on the line of the
first of them. -/
theorem parse_eq_ok_iff (located : List Located) :
    (∀ tree, parse located = .ok tree ↔ Grammar.Module located tree) ∧
      (∀ tree tree', Grammar.Module located tree → Grammar.Module located tree' → tree = tree') ∧
      ∀ tree, Grammar.Module located tree → ∀ (l : Located) (extra : List Located),
        parse (located ++ l :: extra) = .error ⟨l.line, .grammar .trailingInput⟩ := by
  refine ⟨fun tree => parse_eq_ok, fun tree tree' h h' => ?_, fun tree h l extra => ?_⟩
  · exact Except.ok.inj ((parse_eq_ok.2 h).symm.trans (parse_eq_ok.2 h'))
  · have hfront := (reads_front (Extent.of (located ++ l :: extra)) _ le_rfl tree (l :: extra)).2
      ⟨located, rfl, h⟩
    rw [parse, module_apply, hfront]
    rfl

end EntryTrace.Source
