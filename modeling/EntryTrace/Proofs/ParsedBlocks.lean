import EntryTrace.Proofs.ParsedInsts

/-!
# Readers of blocks

The readers of terminators and blocks take exactly the derivations of their rules. A `return` may
stand without values and nothing closes a list of its values, so where a terminator ends depends on
what comes next. Within a function that is always a block or the closing brace.
-/

namespace EntryTrace.Source

open Grammar (Names Rule Many CommaSeparated Parenthesized)

namespace Reader

variable {α β : Type}

/-! ### Terminators -/

/-- An operand comes next. -/
def OperandNext (rest : List Located) : Prop := ∃ ts tree us, rest = ts ++ us ∧ Grammar.Operand ts tree

lemma operandNext_iff {rest : List Located} : OperandNext rest ↔
    ∃ name line us, rest = ⟨.word name, line⟩ :: us ∧
      ((entityIndex? .value name).isSome || (entityIndex? .str name).isSome) = true := by
  simp only [Bool.or_eq_true, Option.isSome_iff_exists, entityIndex?_eq_some]
  constructor
  · rintro ⟨ts, tree, us, rfl, h⟩
    cases h with
    | value h => exact ⟨_, _, us, rfl, .inl ⟨_, h⟩⟩
    | str h => exact ⟨_, _, us, rfl, .inr ⟨_, h⟩⟩
  · rintro ⟨name, line, us, rfl, ⟨index, h⟩ | ⟨index, h⟩⟩
    · exact ⟨[⟨.word name, line⟩], _, us, rfl, .value h⟩
    · exact ⟨[⟨.word name, line⟩], _, us, rfl, .str h⟩

lemma atOperand_apply (extent : Extent) (located : List Located) :
    ∃ found : Bool, atOperand extent located = .ok (found, located) ∧
      (found = true ↔ OperandNext located) := by
  cases located with
  | nil => exact ⟨false, rfl, by simp [operandNext_iff]⟩
  | cons l located =>
    obtain ⟨token, line⟩ := l
    cases token with
    | word name => exact ⟨_, rfl, by simp [operandNext_iff]⟩
    | _ => exact ⟨false, rfl, by simp [operandNext_iff]⟩

lemma reads_atOperandBind {x y : Reader α} {R S : Phrase α} (hx : x.Reads R) (hy : y.Reads S) :
    (atOperand >>= fun found => if found then x else y).Reads fun ts a rest =>
      OperandNext (ts ++ rest) ∧ R ts a rest ∨ ¬ OperandNext (ts ++ rest) ∧ S ts a rest := by
  intro extent located hsize a rest
  obtain ⟨found, hfound, hiff⟩ := atOperand_apply extent located
  rw [bind_apply, hfound, ok_bind]
  cases found with
  | true =>
    have hnext := hiff.1 rfl
    rw [if_pos rfl, hx extent located hsize]
    constructor
    · rintro ⟨ts, rfl, hts⟩
      exact ⟨ts, rfl, .inl ⟨hnext, hts⟩⟩
    · rintro ⟨ts, rfl, ⟨-, hts⟩ | ⟨hnot, -⟩⟩
      · exact ⟨ts, rfl, hts⟩
      · exact absurd hnext hnot
  | false =>
    have hnext : ¬ OperandNext located := fun h => Bool.false_ne_true (hiff.2 h)
    rw [if_neg Bool.false_ne_true, hy extent located hsize]
    constructor
    · rintro ⟨ts, rfl, hts⟩
      exact ⟨ts, rfl, .inr ⟨hnext, hts⟩⟩
    · rintro ⟨ts, rfl, ⟨hyes, -⟩ | ⟨-, hts⟩⟩
      · exact absurd hyes hnext
      · exact ⟨ts, rfl, hts⟩

/-- A round of a list that nothing closes. It ends before what is no comma. -/
def bareRound (g : Rule α) (acc : List α) : Phrase (List α ⊕ List α) := fun ts r rest =>
  ∃ us a, g us a ∧ ((∃ line, ts = us ++ [⟨.comma, line⟩] ∧ r = .inl (a :: acc)) ∨
    ts = us ∧ NotNext .comma rest ∧ r = .inr (acc.reverse ++ [a]))

lemma reads_bareRound {item : Reader α} {g : Rule α} (hitem : item.Reads fun ts a _ => g ts a)
    (acc : List α) :
    (do
      let values := (← item) :: acc
      if ← eat .comma then pure (.inl values) else pure (.inr values.reverse) :
        Reader (List α ⊕ List α)).Reads (bareRound g acc) := by
  refine (reads_bind hitem fun a => reads_eatBind (reads_pure _) (reads_pure _)).congr
    fun ts r rest => ?_
  constructor
  · rintro ⟨us, vs, a, rfl, hus, ⟨line, _, rfl, rfl, rfl⟩ | ⟨hnext, rfl, rfl⟩⟩
    · exact ⟨us, a, hus, .inl ⟨line, rfl, rfl⟩⟩
    · exact ⟨us, a, hus, .inr ⟨List.append_nil us, hnext, by rw [List.reverse_cons]⟩⟩
  · rintro ⟨us, a, hus, ⟨line, rfl, rfl⟩ | ⟨rfl, hnext, rfl⟩⟩
    · exact ⟨us, _, a, rfl, hus, .inl ⟨line, [], rfl, rfl, rfl⟩⟩
    · exact ⟨ts, [], a, (List.append_nil ts).symm, hus, .inr ⟨hnext, rfl, by rw [List.reverse_cons]⟩⟩

lemma ne_nil_of_bareRound {g : Rule α} {acc acc' : List α} {ts rest : List Located}
    (h : bareRound g acc ts (.inl acc') rest) : ts ≠ [] := by
  obtain ⟨us, a, -, ⟨line, rfl, -⟩ | ⟨-, -, heq⟩⟩ := h
  · simp
  · cases heq

lemma repeats_bareRound {g : Rule α} {acc as : List α} {ts rest : List Located} :
    Repeats (bareRound g) acc ts as rest ↔
      NotNext .comma rest ∧ ∃ bs, CommaSeparated g ts bs ∧ as = acc.reverse ++ bs := by
  constructor
  · intro h
    induction h with
    | last h =>
      obtain ⟨us, a, hus, ⟨line, -, heq⟩ | ⟨rfl, hnext, heq⟩⟩ := h
      · cases heq
      · obtain rfl := Sum.inr.inj heq
        exact ⟨hnext, [a], .one hus, rfl⟩
    | more h _ ih =>
      obtain ⟨hnext, bs, hbs, rfl⟩ := ih
      obtain ⟨us, a, hus, ⟨line, rfl, heq⟩ | ⟨-, -, heq⟩⟩ := h
      · obtain rfl := Sum.inl.inj heq
        refine ⟨hnext, a :: bs, ?_, by simp⟩
        rw [List.append_assoc]
        exact .cons hus hbs
      · cases heq
  · rintro ⟨hnext, bs, hbs, rfl⟩
    induction hbs generalizing acc with
    | @one us a head => exact .last ⟨us, a, head, .inr ⟨rfl, hnext, rfl⟩⟩
    | @cons us vs line a bs head _ ih =>
      have hround : bareRound g acc (us ++ [⟨.comma, line⟩]) (.inl (a :: acc)) (vs ++ rest) :=
        ⟨us, a, head, .inl ⟨line, rfl, rfl⟩⟩
      have hall := Repeats.more hround (@ih (a :: acc))
      simpa using hall

lemma operandNext_of_commaSeparated {ts : List Located} {values : List OperandTree}
    (h : CommaSeparated Grammar.Operand ts values) (rest : List Located) : OperandNext (ts ++ rest) := by
  cases h with
  | one head => exact ⟨_, _, _, rfl, head⟩
  | cons head _ => exact ⟨_, _, _, List.append_assoc .., head⟩

lemma reads_bareOperands : bareOperands.Reads fun ts values rest =>
    (ts = [] ∧ values = [] ∧ ¬ OperandNext rest) ∨
      CommaSeparated Grammar.Operand ts values ∧ NotNext .comma rest := by
  refine (reads_atOperandBind (reads_iterate (reads_bareRound reads_operand)
    (fun _ _ _ _ => ne_nil_of_bareRound) []) (reads_pure [])).congr fun ts values rest => ?_
  rw [repeats_bareRound]
  constructor
  · rintro (⟨-, hnext, _, hvalues, rfl⟩ | ⟨hnone, rfl, rfl⟩)
    · exact .inr ⟨hvalues, hnext⟩
    · exact .inl ⟨rfl, rfl, hnone⟩
  · rintro (⟨rfl, rfl, hnone⟩ | ⟨hvalues, hnext⟩)
    · exact .inr ⟨hnone, rfl, rfl⟩
    · exact .inl ⟨operandNext_of_commaSeparated hvalues rest, hnext, values, hvalues, rfl⟩

/-- What comes after a terminator does not go on with it. -/
def EndsBefore (rest : List Located) : TermTree → Prop
  | .ret [] => ¬ OperandNext rest
  | .ret _ => NotNext .comma rest
  | _ => True

lemma terminator_cons {name : String} {line line' : Nat} {us : List Located} {tree : TermTree} :
    Grammar.Terminator line (⟨.word name, line'⟩ :: us) tree ↔ line' = line ∧
      ((name = "br" ∧ ∃ target, Grammar.Target us target ∧ tree = .jump target) ∨
      (name = "if" ∧ ∃ vs ws xs line₁ line₂ cond onTrue onFalse,
        us = vs ++ ⟨.comma, line₁⟩ :: (ws ++ ⟨.comma, line₂⟩ :: xs) ∧ Grammar.Operand vs cond ∧
          Grammar.Target ws onTrue ∧ Grammar.Target xs onFalse ∧
            tree = .branch cond onTrue onFalse) ∨
      (name = "return" ∧ (us = [] ∧ tree = .ret [] ∨
        ∃ values, CommaSeparated Grammar.Operand us values ∧ tree = .ret values)) ∨
      (name = "unreachable" ∧ us = [] ∧ tree = .unreachable)) := by
  constructor
  · generalize hts : (⟨.word name, line'⟩ : Located) :: us = ts
    intro h
    cases h with
    | jump h =>
      obtain ⟨⟨⟩, rfl⟩ := List.cons.inj hts
      exact ⟨rfl, .inl ⟨rfl, _, h, rfl⟩⟩
    | branch hcond htrue hfalse =>
      obtain ⟨⟨⟩, rfl⟩ := List.cons.inj hts
      exact ⟨rfl, .inr (.inl ⟨rfl, _, _, _, _, _, _, _, _, rfl, hcond, htrue, hfalse, rfl⟩)⟩
    | retNone =>
      obtain ⟨⟨⟩, rfl⟩ := List.cons.inj hts
      exact ⟨rfl, .inr (.inr (.inl ⟨rfl, .inl ⟨rfl, rfl⟩⟩))⟩
    | ret h =>
      obtain ⟨⟨⟩, rfl⟩ := List.cons.inj hts
      exact ⟨rfl, .inr (.inr (.inl ⟨rfl, .inr ⟨_, h, rfl⟩⟩))⟩
    | unreachable =>
      obtain ⟨⟨⟩, rfl⟩ := List.cons.inj hts
      exact ⟨rfl, .inr (.inr (.inr ⟨rfl, rfl, rfl⟩))⟩
  · rintro ⟨rfl, ⟨rfl, target, h, rfl⟩ | ⟨rfl, vs, ws, xs, line₁, line₂, cond, onTrue, onFalse, rfl,
      hcond, htrue, hfalse, rfl⟩ | ⟨rfl, ⟨rfl, rfl⟩ | ⟨values, h, rfl⟩⟩ | ⟨rfl, rfl, rfl⟩⟩
    · exact .jump h
    · exact .branch hcond htrue hfalse
    · exact .retNone
    · exact .ret h
    · exact .unreachable

lemma reads_branch : (do
      let cond ← operand
      expect .comma
      let onTrue ← target
      expect .comma
      let onFalse ← target
      pure (.branch cond onTrue onFalse) : Reader TermTree).Reads fun us tree _ =>
    ∃ vs ws xs line₁ line₂ cond onTrue onFalse,
      us = vs ++ ⟨.comma, line₁⟩ :: (ws ++ ⟨.comma, line₂⟩ :: xs) ∧ Grammar.Operand vs cond ∧
        Grammar.Target ws onTrue ∧ Grammar.Target xs onFalse ∧
          tree = .branch cond onTrue onFalse := by
  refine (reads_bind reads_operand fun cond => reads_expectBind (reads_bind reads_target
    fun onTrue => reads_expectBind (reads_bindPure reads_target))).congr fun us tree rest => ?_
  constructor
  · rintro ⟨vs, _, cond, rfl, hcond, line₁, _, rfl, ws, _, onTrue, rfl, htrue, line₂, xs, rfl,
      onFalse, hfalse, rfl⟩
    exact ⟨vs, ws, xs, line₁, line₂, cond, onTrue, onFalse, rfl, hcond, htrue, hfalse, rfl⟩
  · rintro ⟨vs, ws, xs, line₁, line₂, cond, onTrue, onFalse, rfl, hcond, htrue, hfalse, rfl⟩
    exact ⟨vs, _, cond, rfl, hcond, line₁, _, rfl, ws, _, onTrue, rfl, htrue, line₂, xs, rfl,
      onFalse, hfalse, rfl⟩

lemma reads_terminator (line : Nat) (keyword : String) :
    (terminator line keyword).Reads fun us tree rest =>
      Grammar.Terminator line (⟨.word keyword, line⟩ :: us) tree ∧ EndsBefore rest tree := by
  simp only [terminator_cons, true_and]
  unfold terminator
  split
  · refine (reads_map reads_target).congr fun us tree rest => ?_
    simp only [String.reduceEq, false_and, or_false, true_and]
    constructor
    · rintro ⟨target, h, rfl⟩
      exact ⟨⟨target, h, rfl⟩, trivial⟩
    · exact And.left
  · refine reads_branch.congr fun us tree rest => ?_
    simp only [String.reduceEq, false_and, or_false, false_or, true_and]
    constructor
    · rintro ⟨vs, ws, xs, line₁, line₂, cond, onTrue, onFalse, rfl, hcond, htrue, hfalse, rfl⟩
      exact ⟨⟨vs, ws, xs, line₁, line₂, cond, onTrue, onFalse, rfl, hcond, htrue, hfalse, rfl⟩,
        trivial⟩
    · exact And.left
  · refine (reads_map reads_bareOperands).congr fun us tree rest => ?_
    simp only [String.reduceEq, false_and, or_false, false_or, true_and]
    constructor
    · rintro ⟨values, ⟨rfl, rfl, hnone⟩ | ⟨hvalues, hnext⟩, rfl⟩
      · exact ⟨.inl ⟨rfl, rfl⟩, hnone⟩
      · refine ⟨.inr ⟨values, hvalues, rfl⟩, ?_⟩
        cases hvalues <;> exact hnext
    · rintro ⟨⟨rfl, rfl⟩ | ⟨values, hvalues, rfl⟩, hends⟩
      · exact ⟨[], .inl ⟨rfl, rfl, hends⟩, rfl⟩
      · refine ⟨values, .inr ⟨hvalues, ?_⟩, rfl⟩
        cases hvalues <;> exact hends
  · refine (reads_pure TermTree.unreachable).congr fun us tree rest => ?_
    simp only [String.reduceEq, false_and, false_or, true_and]
    constructor
    · rintro ⟨rfl, rfl⟩
      exact ⟨⟨rfl, rfl⟩, trivial⟩
    · exact And.left
  · rename_i hbr hif hreturn hunreachable
    refine (reads_fail line _).congr fun us tree rest => ?_
    constructor
    · rintro ⟨⟩
    · rintro ⟨⟨h, -⟩ | ⟨h, -⟩ | ⟨h, -⟩ | ⟨h, -⟩, -⟩
      · exact hbr h
      · exact hif h
      · exact hreturn h
      · exact hunreachable h

/-! ### Blocks -/

lemma reads_blockParam : blockParam.Reads fun ts param _ => Grammar.BlockParam ts param := by
  refine (reads_entityBind fun name => reads_expectBind (reads_bindPure reads_valueType)).congr
    fun ts param rest => ?_
  constructor
  · rintro ⟨name, line, _, index, rfl, hname, line', us, rfl, type, htype, rfl⟩
    exact .intro hname htype
  · rintro ⟨hname, htype⟩
    exact ⟨_, _, _, _, rfl, hname, _, _, rfl, _, htype, rfl⟩

/-- A round of a list that an ending closes: one more item, or the ending. -/
def closedRound (g : Rule α) (follow : α → List Located → Prop) (ending : List α → Phrase β)
    (acc : List α) : Phrase (List α ⊕ β) := fun ts r rest =>
  (∃ a, g ts a ∧ follow a rest ∧ r = .inl (a :: acc)) ∨ ∃ b, ending acc ts b rest ∧ r = .inr b

/-- An item need not be told apart from what comes next where neither another item nor the ending
goes on with it. -/
lemma repeats_closedRound {g : Rule α} {follow : α → List Located → Prop}
    {ending : List α → Phrase β} (hitem : ∀ a ts a' rest, g ts a' → follow a (ts ++ rest))
    (hending : ∀ a acc ts b rest, ending acc ts b rest → follow a (ts ++ rest)) {acc : List α} {b : β}
    {ts rest : List Located} :
    Repeats (closedRound g follow ending) acc ts b rest ↔ ∃ us vs as,
      ts = us ++ vs ∧ Many g us as ∧ ending (as.reverse ++ acc) vs b rest := by
  constructor
  · intro h
    induction h with
    | last h =>
      obtain ⟨a, -, -, heq⟩ | ⟨b, hb, heq⟩ := h
      · cases heq
      · obtain rfl := Sum.inr.inj heq
        exact ⟨[], _, [], rfl, .nil, hb⟩
    | more h _ ih =>
      obtain ⟨us, vs, as, rfl, has, hb⟩ := ih
      obtain ⟨a, ha, -, heq⟩ | ⟨b, -, heq⟩ := h
      · obtain rfl := Sum.inl.inj heq
        exact ⟨_, vs, a :: as, (List.append_assoc ..).symm, .cons ha has, by simpa using hb⟩
      · cases heq
  · rintro ⟨us, vs, as, rfl, has, hb⟩
    induction has generalizing acc with
    | nil => exact .last (.inr ⟨b, hb, rfl⟩)
    | @cons us' us a as head tail ih =>
      rw [List.append_assoc]
      refine .more (.inl ⟨a, head, ?_, rfl⟩) (ih (by simpa using hb))
      cases tail with
      | nil => exact hending a _ vs b rest hb
      | cons head' _ =>
        rw [List.append_assoc, List.append_assoc]
        exact hitem a _ _ _ head'

lemma ne_nil_of_closedRound {g : Rule α} {follow : α → List Located → Prop}
    {ending : List α → Phrase β} (hg : ∀ ts a, g ts a → ts ≠ []) {acc acc' : List α}
    {ts rest : List Located} (h : closedRound g follow ending acc ts (.inl acc') rest) : ts ≠ [] := by
  obtain ⟨a, ha, -⟩ | ⟨b, -, heq⟩ := h
  · exact hg ts a ha
  · cases heq

lemma Worded.ne_nil {g : Rule α} (hg : Worded g) (ts : List Located) (a : α) (h : g ts a) : ts ≠ [] := by
  obtain ⟨name, line, us, rfl⟩ := hg ts a h
  exact List.cons_ne_nil _ _

lemma worded_inst : Worded Grammar.Inst := by
  rintro ts tree ⟨⟩
  exact ⟨_, _, _, rfl⟩

lemma worded_terminator (line : Nat) : Worded (Grammar.Terminator line) := by
  intro ts tree h
  cases h <;> exact ⟨_, _, _, rfl⟩

lemma worded_block : Worded Grammar.Block := by
  rintro ts tree ⟨⟩
  exact ⟨_, _, _, rfl⟩

/-- The terminator of a block, which the instructions before it do not read on. -/
def blockEnding (acc : List InstTree) : Phrase (List InstTree × TermTree × Nat) := fun ts r rest =>
  ∃ term line, Grammar.Terminator line ts term ∧ EndsBefore rest term ∧ r = (acc.reverse, term, line)

lemma terminator_line {name : String} {line line' : Nat} {us : List Located} {tree : TermTree}
    (h : Grammar.Terminator line (⟨.word name, line'⟩ :: us) tree) : line' = line :=
  (terminator_cons.1 h).1

lemma entityIndex?_of_terminator {name : String} {line line' : Nat} {us : List Located}
    {tree : TermTree} (h : Grammar.Terminator line (⟨.word name, line'⟩ :: us) tree) :
    entityIndex? .value name = none := by
  rw [entityIndex?_eq_none]
  intro index
  apply Grammar.not_names_keyword
  obtain ⟨-, ⟨rfl, -⟩ | ⟨rfl, -⟩ | ⟨rfl, -⟩ | ⟨rfl, -⟩⟩ := terminator_cons.1 h <;> decide

/-- The first word tells an instruction from a terminator. -/
lemma reads_insideRound (acc : List InstTree) :
    (do
      let line ← line
      let keyword ← word .instOrTerminator
      match entityIndex? .value keyword with
      | some result =>
        expect .equals
        let op ← operation
        pure (.inl (⟨line, result, op⟩ :: acc))
      | none =>
        let term ← terminator line keyword
        pure (.inr (acc.reverse, term, line)) :
          Reader (List InstTree ⊕ List InstTree × TermTree × Nat)).Reads
      (closedRound Grammar.Inst (fun _ _ => True) blockEnding acc) := by
  have hrest (line : Nat) (keyword : String) :
      (match entityIndex? .value keyword with
        | some result => do
          expect .equals
          let op ← operation
          pure (.inl (⟨line, result, op⟩ :: acc))
        | none => do
          let term ← terminator line keyword
          pure (.inr (acc.reverse, term, line)) :
            Reader (List InstTree ⊕ List InstTree × TermTree × Nat)).Reads fun us r rest =>
        (∃ result line' vs op, Names .value result keyword ∧ us = ⟨.equals, line'⟩ :: vs ∧
          Grammar.Operation vs op ∧ r = .inl (⟨line, result, op⟩ :: acc)) ∨
        ∃ term, Grammar.Terminator line (⟨.word keyword, line⟩ :: us) term ∧ EndsBefore rest term ∧
          r = .inr (acc.reverse, term, line) := by
    cases hkeyword : entityIndex? .value keyword with
    | some result =>
      refine (reads_expectBind (reads_bindPure reads_operation)).congr fun us r rest => ?_
      have hnames := entityIndex?_eq_some.1 hkeyword
      constructor
      · rintro ⟨line', vs, rfl, op, hop, rfl⟩
        exact .inl ⟨result, line', vs, op, hnames, rfl, hop, rfl⟩
      · rintro (⟨result', line', vs, op, hnames', rfl, hop, rfl⟩ | ⟨term, hterm, -⟩)
        · obtain rfl := hnames.index_eq hnames'
          exact ⟨line', vs, rfl, op, hop, rfl⟩
        · rw [entityIndex?_of_terminator hterm] at hkeyword
          cases hkeyword
    | none =>
      refine (reads_bindPure (reads_terminator line keyword)).congr fun us r rest => ?_
      constructor
      · rintro ⟨term, ⟨hterm, hends⟩, rfl⟩
        exact .inr ⟨term, hterm, hends, rfl⟩
      · rintro (⟨result, line', vs, op, hnames, -⟩ | ⟨term, hterm, hends, rfl⟩)
        · exact absurd hnames (entityIndex?_eq_none.1 hkeyword result)
        · exact ⟨term, ⟨hterm, hends⟩, rfl⟩
  refine (reads_lineBindOne reads_word hrest).congr fun ts r rest => ?_
  constructor
  · rintro ⟨⟨_, line⟩, us, keyword, rfl, rfl,
      ⟨result, line', vs, op, hnames, rfl, hop, rfl⟩ | ⟨term, hterm, hends, rfl⟩⟩
    · exact .inl ⟨_, .intro hnames hop, trivial, rfl⟩
    · exact .inr ⟨_, ⟨term, line, hterm, hends, rfl⟩, rfl⟩
  · rintro (⟨_, ⟨hnames, hop⟩, -, rfl⟩ | ⟨_, ⟨term, line, hterm, hends, rfl⟩, rfl⟩)
    · exact ⟨_, _, _, rfl, rfl, .inl ⟨_, _, _, _, hnames, rfl, hop, rfl⟩⟩
    · obtain ⟨name, line', us, rfl⟩ := worded_terminator line _ _ hterm
      obtain rfl := terminator_line hterm
      exact ⟨_, us, name, rfl, rfl, .inr ⟨term, hterm, hends, rfl⟩⟩

lemma reads_blockInside : blockInside.Reads fun ts r rest => ∃ us vs insts term line,
    ts = us ++ vs ∧ Many Grammar.Inst us insts ∧ Grammar.Terminator line vs term ∧
      EndsBefore rest term ∧ r = (insts, term, line) := by
  refine (reads_iterate reads_insideRound
    (fun _ _ _ _ => ne_nil_of_closedRound worded_inst.ne_nil) []).congr fun ts r rest => ?_
  rw [repeats_closedRound (fun _ _ _ _ _ => trivial) (fun _ _ _ _ _ _ => trivial)]
  constructor
  · rintro ⟨us, vs, insts, rfl, hinsts, term, line, hterm, hends, rfl⟩
    exact ⟨us, vs, insts, term, line, rfl, hinsts, hterm, hends, by simp⟩
  · rintro ⟨us, vs, insts, term, line, rfl, hinsts, hterm, hends, rfl⟩
    exact ⟨us, vs, insts, rfl, hinsts, term, line, hterm, hends, by simp⟩

lemma reads_block : block.Reads fun ts tree rest =>
    Grammar.Block ts tree ∧ EndsBefore rest tree.term := by
  refine (reads_lineBindOne (reads_entity .block) fun line name =>
    reads_bind (reads_parenthesized reads_blockParam worded_blockParam) fun params =>
      reads_expectBind (reads_bindPure reads_blockInside)).congr fun ts tree rest => ?_
  constructor
  · rintro ⟨⟨_, line⟩, _, name, rfl, ⟨word, rfl, hname⟩, us, _, params, rfl, hparams, line', _, rfl,
      _, ⟨vs, ws, insts, term, termLine, rfl, hinsts, hterm, hends, rfl⟩, rfl⟩
    exact ⟨.intro hname hparams hinsts hterm, hends⟩
  · rintro ⟨⟨hname, hparams, hinsts, hterm⟩, hends⟩
    exact ⟨_, _, _, rfl, ⟨_, rfl, hname⟩, _, _, _, rfl, hparams, _, _, rfl,
      _, ⟨_, _, _, _, _, rfl, hinsts, hterm, hends, rfl⟩, rfl⟩

lemma EndsBefore.intro {rest : List Located} (hoperand : ¬ OperandNext rest)
    (hcomma : NotNext .comma rest) (term : TermTree) : EndsBefore rest term := by
  cases term with
  | ret values =>
    cases values with
    | nil => exact hoperand
    | cons => exact hcomma
  | jump => trivial
  | branch => trivial
  | unreachable => trivial

/-- The name of a block goes on with no terminator before it. -/
lemma endsBefore_block {ts : List Located} {tree : BlockTree} (h : Grammar.Block ts tree)
    (term : TermTree) (rest : List Located) : EndsBefore (ts ++ rest) term := by
  obtain ⟨hname, -, -, -⟩ := h
  refine EndsBefore.intro ?_ (by simp [NotNext]) term
  rintro ⟨ts, tree, us, heq, h⟩
  cases h with
  | value hvalue =>
    obtain ⟨⟨⟩, -⟩ := List.cons.inj heq
    exact absurd (hname.kind_eq hvalue) (by decide)
  | str hstr =>
    obtain ⟨⟨⟩, -⟩ := List.cons.inj heq
    exact absurd (hname.kind_eq hstr) (by decide)

lemma endsBefore_closeBrace (term : TermTree) (line : Nat) (rest : List Located) :
    EndsBefore (⟨.closeBrace, line⟩ :: rest) term :=
  EndsBefore.intro (by simp [operandNext_iff]) (by simp [NotNext]) term

/-- The closing brace of a list. -/
def braceEnding (acc : List α) : Phrase (List α) := fun ts as _ =>
  ∃ line, ts = [⟨.closeBrace, line⟩] ∧ as = acc.reverse

lemma reads_blocksRound (acc : List BlockTree) :
    (do
      if ← eat .closeBrace then pure (.inr acc.reverse) else pure (.inl ((← block) :: acc)) :
        Reader (List BlockTree ⊕ List BlockTree)).Reads
      (closedRound Grammar.Block (fun tree rest => EndsBefore rest tree.term) braceEnding acc) := by
  refine (reads_eatBind (reads_pure _) (reads_bindPure reads_block)).congr fun ts r rest => ?_
  constructor
  · rintro (⟨line, _, rfl, rfl, rfl⟩ | ⟨-, tree, ⟨htree, hends⟩, rfl⟩)
    · exact .inr ⟨_, ⟨line, rfl, rfl⟩, rfl⟩
    · exact .inl ⟨tree, htree, hends, rfl⟩
  · rintro (⟨tree, htree, hends, rfl⟩ | ⟨_, ⟨line, rfl, rfl⟩, rfl⟩)
    · refine .inr ⟨?_, tree, ⟨htree, hends⟩, rfl⟩
      obtain ⟨name, line, us, rfl⟩ := worded_block _ _ htree
      simp [NotNext]
    · exact .inl ⟨line, [], rfl, rfl, rfl⟩

lemma reads_blocks : blocks.Reads fun ts trees _ => ∃ us line,
    ts = us ++ [⟨.closeBrace, line⟩] ∧ Many Grammar.Block us trees := by
  refine (reads_iterate reads_blocksRound
    (fun _ _ _ _ => ne_nil_of_closedRound worded_block.ne_nil) []).congr fun ts trees rest => ?_
  rw [repeats_closedRound (fun tree _ _ rest h => endsBefore_block h tree.term rest)]
  · constructor
    · rintro ⟨us, _, trees, rfl, htrees, line, rfl, rfl⟩
      exact ⟨us, line, rfl, by simpa using htrees⟩
    · rintro ⟨us, line, rfl, htrees⟩
      exact ⟨us, _, trees, rfl, htrees, line, rfl, by simp⟩
  · rintro tree acc _ trees rest ⟨line, rfl, rfl⟩
    exact endsBefore_closeBrace tree.term line rest

end Reader

end EntryTrace.Source
