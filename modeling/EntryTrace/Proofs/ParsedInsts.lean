import EntryTrace.Proofs.Derivations
import EntryTrace.Proofs.Phrases

/-!
# Readers of instructions

The readers of single words, of lists between parentheses and of operators take exactly the
derivations of their rules. Where such a phrase ends does not depend on what comes next.
-/

namespace EntryTrace.Source

open Grammar (Names Rule Many CommaSeparated Parenthesized)

/-! ### Entities -/

lemma Grammar.number_eq {digits : List Char} (h : ∀ c ∈ digits, c.isDigit = true) :
    digits.foldl (fun n c => n * 10 + (c.toNat - '0'.toNat)) 0 =
      Nat.ofDigits 10 (digits.reverse.map digitValue) := by
  rw [Nat.ofDigits_eq_foldr, List.map_reverse, List.foldr_reverse, List.foldl_map]
  refine List.foldl_ext _ _ _ fun n c hc => ?_
  rw [digitValue, if_pos (h c hc), Nat.add_comm, Nat.mul_comm]
  rfl

theorem entityIndex?_eq_some {kind : Kind} {name : String} {index : Nat} :
    entityIndex? kind name = some index ↔ Names kind index name := by
  have hsplit (digits : List Char) : kind.label.toList.isPrefixOf? name.toList = some digits ↔
      name = kind.label ++ String.ofList digits := by
    rw [List.isPrefixOf?_eq_some_iff_append_eq, ← String.toList_inj, String.toList_append,
      String.toList_ofList, eq_comm]
  unfold entityIndex? Names
  constructor
  · intro h
    split at h
    · cases h
    rename_i digits hdigits
    split at h
    · cases h
    rename_i hcond
    rw [Bool.or_eq_true, not_or, List.isEmpty_iff, Bool.not_eq_true', Bool.not_eq_false,
      List.all_eq_true] at hcond
    dsimp only at h
    split at h
    · rename_i hlt
      obtain rfl := Option.some.inj h
      exact ⟨digits, hcond.1, hcond.2, (hsplit digits).1 hdigits, Grammar.number_eq hcond.2, hlt⟩
    · cases h
  · rintro ⟨digits, hne, hall, hname, rfl, hlt⟩
    have hempty : digits.isEmpty = false := by simpa using hne
    have hdigits : digits.all Char.isDigit = true := List.all_eq_true.2 hall
    have hlt' : Nat.ofDigits 10 (digits.reverse.map digitValue) < UInt64.size := hlt
    simp only [(hsplit digits).2 hname, hempty, hdigits, Grammar.number_eq hall, hlt',
      Bool.not_true, Bool.or_self, Bool.false_eq_true, if_false, if_true]

lemma entityIndex?_eq_none {kind : Kind} {name : String} :
    entityIndex? kind name = none ↔ ∀ index, ¬ Names kind index name := by
  simp only [← entityIndex?_eq_some, Option.eq_none_iff_forall_ne_some, ne_eq]

namespace Grammar

variable {kind kind' : Kind} {name : String} {index index' : Nat}

/-- A word names entities of one kind. -/
lemma Names.kind_eq (h : Names kind index name) (h' : Names kind' index' name) : kind = kind' := by
  obtain ⟨digits, hne, hall, rfl, -⟩ := h
  obtain ⟨digits', hne', hall', hname, -⟩ := h'
  obtain ⟨c, digits, rfl⟩ := List.exists_cons_of_ne_nil hne
  obtain ⟨c', digits', rfl⟩ := List.exists_cons_of_ne_nil hne'
  have hc := hall c List.mem_cons_self
  have hc' := hall' c' List.mem_cons_self
  rw [← String.toList_inj, String.toList_append, String.toList_append, String.toList_ofList,
    String.toList_ofList] at hname
  cases kind <;> cases kind' <;> simp_all [Kind.label, Char.isDigit]

lemma Names.index_eq (h : Names kind index name) (h' : Names kind index' name) : index = index' :=
  Option.some.inj ((entityIndex?_eq_some.2 h).symm.trans (entityIndex?_eq_some.2 h'))

/-- The words that have a meaning of their own name no entities. -/
lemma not_names_keyword {keyword : String} (h : keyword ∈ ["module", "import", "func", "nop",
    "i32.const", "i64.const", "call", "br", "if", "return", "unreachable"]) :
    ¬ Names kind index keyword := by
  rw [← entityIndex?_eq_some]
  cases kind <;> fin_cases h <;> exact nofun

end Grammar

namespace Reader

variable {α β : Type} {f : Nat → Reader β} {T : Nat → Phrase β}

/-! ### Single tokens -/

lemma reads_entity (kind : Kind) : (entity kind).Reads fun ts index _ =>
    ∃ l, ts = [l] ∧ ∃ name, l.token = .word name ∧ Names kind index name := by
  refine reads_take.congr fun ts index rest => exists_congr fun l => and_congr_right fun _ => ?_
  cases htoken : l.token with
  | word name =>
    cases hindex : entityIndex? kind name with
    | none => simp [hindex, entityIndex?_eq_none.1 hindex]
    | some found => simp [← entityIndex?_eq_some, hindex]
  | int => simp
  | str => simp
  | openParen => simp
  | closeParen => simp
  | openBrace => simp
  | closeBrace => simp
  | colon => simp
  | comma => simp
  | equals => simp
  | arrow => simp

lemma reads_entityBind {kind : Kind} (hf : ∀ index, (f index).Reads (T index)) :
    (entity kind >>= f).Reads fun ts b rest => ∃ name line us index,
      ts = ⟨.word name, line⟩ :: us ∧ Names kind index name ∧ T index us b rest := by
  refine (reads_bindOne (reads_entity kind) hf).congr fun ts b rest => ?_
  constructor
  · rintro ⟨⟨_, line⟩, us, index, rfl, ⟨name, rfl, hname⟩, hus⟩
    exact ⟨name, line, us, index, rfl, hname, hus⟩
  · rintro ⟨name, line, us, index, rfl, hname, hus⟩
    exact ⟨⟨.word name, line⟩, us, index, rfl, ⟨name, rfl, hname⟩, hus⟩

lemma name_eq_of_ofName? {name : String} {type : ValueType} :
    ValueType.ofName? name = some type ↔ name = type.name := by
  constructor
  · intro h
    unfold ValueType.ofName? at h
    split at h
    · obtain rfl := Option.some.inj h
      rfl
    · obtain rfl := Option.some.inj h
      rfl
    · obtain rfl := Option.some.inj h
      rfl
    · cases h
  · rintro rfl
    exact ValueType.ofName?_name type

lemma reads_valueType : valueType.Reads fun ts type _ => Grammar.TypeName ts type := by
  refine reads_take.congr fun ts type rest => ?_
  constructor
  · rintro ⟨⟨token, line⟩, rfl, haccept⟩
    cases token with
    | word name =>
      cases hname : ValueType.ofName? name with
      | none => simp [hname] at haccept
      | some found =>
        simp only [hname, Except.ok.injEq] at haccept
        obtain rfl := name_eq_of_ofName?.1 hname
        rw [haccept]
        exact .intro type
    | _ => cases haccept
  · rintro ⟨type⟩
    exact ⟨_, rfl, by simp⟩

lemma reads_operand : operand.Reads fun ts tree _ => Grammar.Operand ts tree := by
  refine reads_take.congr fun ts tree rest => ?_
  constructor
  · rintro ⟨⟨token, line⟩, rfl, haccept⟩
    cases token with
    | word name =>
      cases hstr : entityIndex? .str name with
      | some index =>
        simp only [hstr, Except.ok.injEq] at haccept
        rw [← haccept]
        exact .str (entityIndex?_eq_some.1 hstr)
      | none =>
        cases hvalue : entityIndex? .value name with
        | none => simp [hstr, hvalue] at haccept
        | some index =>
          simp only [hstr, hvalue, Except.ok.injEq] at haccept
          rw [← haccept]
          exact .value (entityIndex?_eq_some.1 hvalue)
    | _ => cases haccept
  · intro h
    cases h with
    | value hname =>
      have hstr : entityIndex? .str _ = none := entityIndex?_eq_none.2 fun index h =>
        absurd (hname.kind_eq h) (by decide)
      exact ⟨_, rfl, by simp [hstr, entityIndex?_eq_some.2 hname]⟩
    | str hname => exact ⟨_, rfl, by simp [entityIndex?_eq_some.2 hname]⟩

lemma reads_stringLiteral :
    stringLiteral.Reads fun ts s _ => ∃ l, ts = [l] ∧ l.token = .str s := by
  refine reads_take.congr fun ts s rest => exists_congr fun l => and_congr_right fun _ => ?_
  cases l.token <;> simp

lemma reads_integerLiteral :
    integerLiteral.Reads fun ts n _ => ∃ l, ts = [l] ∧ l.token = .int n := by
  refine reads_take.congr fun ts n rest => exists_congr fun l => and_congr_right fun _ => ?_
  cases l.token <;> simp

/-! ### Lists -/

section Lists

variable {item : Reader α} {g : Rule α}

/-- A round of a list between parentheses: an item, and what comes after it. -/
def itemRound (g : Rule α) (acc : List α) : Phrase (List α ⊕ List α) := fun ts r _ =>
  ∃ us line a, g us a ∧
    (ts = us ++ [⟨.closeParen, line⟩] ∧ r = .inr (acc.reverse ++ [a]) ∨
      ts = us ++ [⟨.comma, line⟩] ∧ r = .inl (a :: acc))

lemma reads_itemRound (hitem : item.Reads fun ts a _ => g ts a) (acc : List α) :
    (do
      let items := (← item) :: acc
      if ← eat .closeParen then
        pure (.inr items.reverse)
      else
        expect .comma
        pure (.inl items) : Reader (List α ⊕ List α)).Reads (itemRound g acc) := by
  refine (reads_bind hitem fun a => reads_eatBind (reads_pure _)
    (reads_expectBind (reads_pure _))).congr fun ts r rest => ?_
  constructor
  · rintro ⟨us, vs, a, rfl, hus, ⟨line, _, rfl, rfl, rfl⟩ | ⟨-, line, _, rfl, rfl, rfl⟩⟩
    · exact ⟨us, line, a, hus, .inl ⟨rfl, by rw [List.reverse_cons]⟩⟩
    · exact ⟨us, line, a, hus, .inr ⟨rfl, rfl⟩⟩
  · rintro ⟨us, line, a, hus, ⟨rfl, rfl⟩ | ⟨rfl, rfl⟩⟩
    · exact ⟨us, _, a, rfl, hus, .inl ⟨line, [], rfl, rfl, by rw [List.reverse_cons]⟩⟩
    · exact ⟨us, _, a, rfl, hus, .inr ⟨by simp [NotNext], line, [], rfl, rfl, rfl⟩⟩

lemma ne_nil_of_itemRound {acc acc' : List α} {ts rest : List Located}
    (h : itemRound g acc ts (.inl acc') rest) : ts ≠ [] := by
  obtain ⟨us, line, a, -, ⟨-, heq⟩ | ⟨rfl, -⟩⟩ := h
  · cases heq
  · simp

lemma repeats_itemRound {acc as : List α} {ts rest : List Located} :
    Repeats (itemRound g) acc ts as rest ↔ ∃ us line bs,
      ts = us ++ [⟨.closeParen, line⟩] ∧ CommaSeparated g us bs ∧ as = acc.reverse ++ bs := by
  constructor
  · intro h
    induction h with
    | last h =>
      obtain ⟨us, line, a, hus, ⟨rfl, heq⟩ | ⟨-, heq⟩⟩ := h
      · obtain rfl := Sum.inr.inj heq
        exact ⟨us, line, [a], rfl, .one hus, rfl⟩
      · cases heq
    | more h _ ih =>
      obtain ⟨us, line, bs, rfl, hbs, rfl⟩ := ih
      obtain ⟨vs, line', a, hvs, ⟨-, heq⟩ | ⟨rfl, heq⟩⟩ := h
      · cases heq
      · obtain rfl := Sum.inl.inj heq
        exact ⟨vs ++ ⟨.comma, line'⟩ :: us, line, a :: bs, by simp, .cons hvs hbs, by simp⟩
  · rintro ⟨us, line, bs, rfl, hbs, rfl⟩
    induction hbs generalizing acc with
    | @one us a head => exact .last ⟨us, line, a, head, .inl ⟨rfl, rfl⟩⟩
    | @cons us vs line' a bs head _ ih =>
      have hround : itemRound g acc (us ++ [⟨.comma, line'⟩]) (.inl (a :: acc))
          ((vs ++ [⟨.closeParen, line⟩]) ++ rest) := ⟨us, line', a, head, .inr ⟨rfl, rfl⟩⟩
      have hall := Repeats.more hround (@ih (a :: acc))
      simpa using hall

/-- Every derivation starts with a word. -/
def Worded (g : Rule α) : Prop := ∀ ts a, g ts a → ∃ name line us, ts = ⟨.word name, line⟩ :: us

lemma Worded.commaSeparated (hg : Worded g) : Worded (CommaSeparated g) := by
  intro ts as h
  cases h with
  | one head => exact hg _ _ head
  | cons head _ =>
    obtain ⟨name, line, us, rfl⟩ := hg _ _ head
    exact ⟨name, line, _, rfl⟩

lemma reads_parenthesized (hitem : item.Reads fun ts a _ => g ts a) (hg : Worded g) :
    (parenthesized item).Reads fun ts as _ => Parenthesized g ts as := by
  refine (reads_expectBind (reads_eatBind (reads_pure [])
    (reads_iterate (reads_itemRound hitem) (fun _ _ _ _ => ne_nil_of_itemRound) []))).congr
      fun ts as rest => ?_
  constructor
  · rintro ⟨line, _, rfl, ⟨line', _, rfl, rfl, rfl⟩ | ⟨-, hrepeats⟩⟩
    · exact .none
    · obtain ⟨us, line', bs, rfl, hbs, rfl⟩ := repeats_itemRound.1 hrepeats
      exact .some hbs
  · intro h
    cases h with
    | none => exact ⟨_, _, rfl, .inl ⟨_, [], rfl, rfl, rfl⟩⟩
    | some items =>
      refine ⟨_, _, rfl, .inr ⟨?_, repeats_itemRound.2 ⟨_, _, _, rfl, items, rfl⟩⟩⟩
      obtain ⟨name, line, us, rfl⟩ := hg.commaSeparated _ _ items
      simp [NotNext]

end Lists

lemma worded_operand : Worded Grammar.Operand := by
  intro ts tree h
  cases h with
  | value => exact ⟨_, _, [], rfl⟩
  | str => exact ⟨_, _, [], rfl⟩

lemma worded_operation : Worded Grammar.Operation := by
  intro ts tree h
  cases h <;> exact ⟨_, _, _, rfl⟩

lemma worded_typeName : Worded Grammar.TypeName := by
  rintro ts type ⟨⟩
  exact ⟨_, _, [], rfl⟩

lemma worded_blockParam : Worded Grammar.BlockParam := by
  rintro ts tree ⟨⟩
  exact ⟨_, _, _, rfl⟩

lemma reads_operands : (parenthesized operand).Reads fun ts trees _ =>
    Parenthesized Grammar.Operand ts trees :=
  reads_parenthesized reads_operand worded_operand

/-! ### Instructions -/

lemma reads_target : target.Reads fun ts tree _ => Grammar.Target ts tree := by
  refine (reads_entityBind fun block => reads_bindPure reads_operands).congr fun ts tree rest => ?_
  constructor
  · rintro ⟨name, line, us, block, rfl, hname, args, hargs, rfl⟩
    exact .intro hname hargs
  · rintro ⟨hname, hargs⟩
    exact ⟨_, _, _, _, rfl, hname, _, hargs, rfl⟩

lemma mnemonic_eq_of_ofMnemonic? {name : String} {op : BinaryOp} :
    BinaryOp.ofMnemonic? name = some op ↔ name = op.mnemonic := by
  constructor
  · intro h
    have hname : op.mnemonic = name := by simpa using List.find?_some h
    exact hname.symm
  · rintro rfl
    exact BinaryOp.ofMnemonic?_mnemonic op

lemma reads_commaBind {x : Reader α} {f : α → α → β} {g : Rule α}
    (hx : x.Reads fun ts a _ => g ts a) :
    (x >>= fun left => expect .comma >>= fun _ => x >>= fun right => pure (f left right)).Reads
      fun ts b _ => ∃ us vs line left right, ts = us ++ ⟨.comma, line⟩ :: vs ∧ g us left ∧
        g vs right ∧ b = f left right := by
  refine (reads_bind hx fun left => reads_expectBind (reads_bindPure hx)).congr fun ts b rest => ?_
  constructor
  · rintro ⟨us, _, left, rfl, hus, line, vs, rfl, right, hvs, rfl⟩
    exact ⟨us, vs, line, left, right, rfl, hus, hvs, rfl⟩
  · rintro ⟨us, vs, line, left, right, rfl, hus, hvs, rfl⟩
    exact ⟨us, _, left, rfl, hus, line, vs, rfl, right, hvs, rfl⟩

lemma operation_cons {name : String} {line : Nat} {us : List Located} {tree : OpTree} :
    Grammar.Operation (⟨.word name, line⟩ :: us) tree ↔
      (name = "nop" ∧ us = [] ∧ tree = .nop) ∨
      (name = "i32.const" ∧ ∃ n line', us = [⟨.int n, line'⟩] ∧ tree = .const32 n) ∨
      (name = "i64.const" ∧ ∃ n line', us = [⟨.int n, line'⟩] ∧ tree = .const64 n) ∨
      (name = "call" ∧ ∃ callee line' index vs args, us = ⟨.word callee, line'⟩ :: vs ∧
        Names .func index callee ∧ Parenthesized Grammar.Operand vs args ∧ tree = .call index args) ∨
      ∃ op : BinaryOp, name = op.mnemonic ∧ ∃ vs ws line' left right,
        us = vs ++ ⟨.comma, line'⟩ :: ws ∧ Grammar.Operand vs left ∧ Grammar.Operand ws right ∧
          tree = .binary op left right := by
  constructor
  · generalize hts : (⟨.word name, line⟩ : Located) :: us = ts
    intro h
    cases h with
    | nop =>
      obtain ⟨⟨⟩, rfl⟩ := List.cons.inj hts
      exact .inl ⟨rfl, rfl, rfl⟩
    | const32 n =>
      obtain ⟨⟨⟩, rfl⟩ := List.cons.inj hts
      exact .inr (.inl ⟨rfl, _, _, rfl, rfl⟩)
    | const64 n =>
      obtain ⟨⟨⟩, rfl⟩ := List.cons.inj hts
      exact .inr (.inr (.inl ⟨rfl, _, _, rfl, rfl⟩))
    | call hname hargs =>
      obtain ⟨⟨⟩, rfl⟩ := List.cons.inj hts
      exact .inr (.inr (.inr (.inl ⟨rfl, _, _, _, _, _, rfl, hname, hargs, rfl⟩)))
    | binary op hleft hright =>
      obtain ⟨⟨⟩, rfl⟩ := List.cons.inj hts
      exact .inr (.inr (.inr (.inr ⟨op, rfl, _, _, _, _, _, rfl, hleft, hright, rfl⟩)))
  · rintro (⟨rfl, rfl, rfl⟩ | ⟨rfl, n, line', rfl, rfl⟩ | ⟨rfl, n, line', rfl, rfl⟩ |
      ⟨rfl, callee, line', index, vs, args, rfl, hname, hargs, rfl⟩ |
      ⟨op, rfl, vs, ws, line', left, right, rfl, hleft, hright, rfl⟩)
    · exact .nop
    · exact .const32 n
    · exact .const64 n
    · exact .call hname hargs
    · exact .binary op hleft hright

lemma ne_mnemonic (op : BinaryOp) : "nop" ≠ op.mnemonic ∧ "i32.const" ≠ op.mnemonic ∧
    "i64.const" ≠ op.mnemonic ∧ "call" ≠ op.mnemonic := by
  cases op <;> decide

/-- What follows the word that an operator starts with. -/
lemma reads_operands_of (line line' : Nat) (name : String) :
    (match name with
      | "nop" => pure .nop
      | "i32.const" => .const32 <$> integerLiteral
      | "i64.const" => .const64 <$> integerLiteral
      | "call" => do
        let callee ← entity .func
        let args ← parenthesized operand
        pure (.call callee args)
      | other =>
        match BinaryOp.ofMnemonic? other with
        | some op => do
          let left ← operand
          expect .comma
          let right ← operand
          pure (.binary op left right)
        | none => fail line (.grammar (.unknownOperator other)) : Reader OpTree).Reads
      fun us tree _ => Grammar.Operation (⟨.word name, line'⟩ :: us) tree := by
  split
  · refine (reads_pure OpTree.nop).congr fun us tree rest => ?_
    simp [operation_cons, ne_mnemonic]
  · refine (reads_map reads_integerLiteral).congr fun us tree rest => ?_
    rw [operation_cons]
    constructor
    · rintro ⟨n, ⟨⟨_, line⟩, rfl, rfl⟩, rfl⟩
      exact .inr (.inl ⟨rfl, n, line, rfl, rfl⟩)
    · simp only [ne_mnemonic, String.reduceEq, false_and, exists_false, or_false, false_or, true_and]
      rintro ⟨n, line, rfl, rfl⟩
      exact ⟨n, ⟨_, rfl, rfl⟩, rfl⟩
  · refine (reads_map reads_integerLiteral).congr fun us tree rest => ?_
    rw [operation_cons]
    constructor
    · rintro ⟨n, ⟨⟨_, line⟩, rfl, rfl⟩, rfl⟩
      exact .inr (.inr (.inl ⟨rfl, n, line, rfl, rfl⟩))
    · simp only [ne_mnemonic, String.reduceEq, false_and, exists_false, or_false, false_or, true_and]
      rintro ⟨n, line, rfl, rfl⟩
      exact ⟨n, ⟨_, rfl, rfl⟩, rfl⟩
  · refine (reads_entityBind fun callee => reads_bindPure reads_operands).congr
      fun us tree rest => ?_
    rw [operation_cons]
    constructor
    · rintro ⟨callee, line', vs, index, rfl, hname, args, hargs, rfl⟩
      exact .inr (.inr (.inr (.inl ⟨rfl, callee, line', index, vs, args, rfl, hname, hargs, rfl⟩)))
    · simp only [ne_mnemonic, String.reduceEq, false_and, exists_false, or_false, false_or, true_and]
      rintro ⟨callee, line', index, vs, args, rfl, hname, hargs, rfl⟩
      exact ⟨callee, line', vs, index, rfl, hname, args, hargs, rfl⟩
  · rename_i hnop hconst32 hconst64 hcall
    cases hop : BinaryOp.ofMnemonic? name with
    | none =>
      refine (reads_fail line _).congr fun us tree rest => ?_
      rw [operation_cons]
      constructor
      · rintro ⟨⟩
      · rintro (⟨rfl, -⟩ | ⟨rfl, -⟩ | ⟨rfl, -⟩ | ⟨rfl, -⟩ | ⟨op, rfl, -⟩)
        · exact hnop rfl
        · exact hconst32 rfl
        · exact hconst64 rfl
        · exact hcall rfl
        · simp at hop
    | some op =>
      obtain rfl := mnemonic_eq_of_ofMnemonic?.1 hop
      refine (reads_commaBind reads_operand).congr fun us tree rest => ?_
      rw [operation_cons]
      constructor
      · rintro ⟨vs, ws, line', left, right, rfl, hleft, hright, rfl⟩
        exact .inr (.inr (.inr (.inr ⟨op, rfl, vs, ws, line', left, right, rfl, hleft, hright, rfl⟩)))
      · rintro (⟨hname, -⟩ | ⟨hname, -⟩ | ⟨hname, -⟩ | ⟨hname, -⟩ |
          ⟨op', hname, vs, ws, line', left, right, rfl, hleft, hright, rfl⟩)
        · exact absurd hname hnop
        · exact absurd hname hconst32
        · exact absurd hname hconst64
        · exact absurd hname hcall
        · rw [hname, BinaryOp.ofMnemonic?_mnemonic] at hop
          obtain rfl := Option.some.inj hop
          exact ⟨vs, ws, line', left, right, rfl, hleft, hright, rfl⟩

lemma reads_operation : operation.Reads fun ts tree _ => Grammar.Operation ts tree := by
  refine (reads_lineBindOne reads_word fun line name => reads_operands_of line line name).congr
    fun ts tree rest => ?_
  constructor
  · rintro ⟨⟨_, line⟩, us, name, rfl, rfl, hus⟩
    exact hus
  · intro h
    obtain ⟨name, line, us, rfl⟩ := worded_operation _ _ h
    exact ⟨_, us, name, rfl, rfl, h⟩

end Reader

end EntryTrace.Source
