import EntryTrace.Proofs.RenamedTokens
import EntryTrace.Proofs.RenamedTrees

/-!
# Reading trees with other names

The grammar does not compare the names of values and blocks. Renamed tokens form trees that are the
same up to these names, or errors of the same kind on the same line.
-/

namespace EntryTrace.Source

open Grammar (Names not_names_keyword)

/-- A token that is always written in the same way. -/
def Token.isMark : Token → Bool
  | .word _ | .int _ | .str _ => false
  | _ => true

lemma ne_word_of_isMark {t : Token} (h : t.isMark = true) (name : String) : t ≠ .word name := by
  rintro rfl
  cases h

/-! ### Readers that agree -/

namespace Reader

variable {r : Nat → Renaming} {k : Nat} {α α' β β' σ σ' : Type}

/-- On renamed tokens, from function `k` on, the readers end alike; in what they answer a relation
holds, which knows the function that the tokens left are in. -/
def Agrees (r : Nat → Renaming) (k : Nat) (x : Reader α) (y : Reader β) (R : Nat → α → β → Prop) :
    Prop :=
  ∀ extent located located', RenamedTokens r k located located' →
    Source.Parallel (fun p q => ∃ k', RenamedTokens r k' p.2 q.2 ∧ R k' p.1 q.1)
      (x extent located) (y extent located')

/-- What was read does not close the function. -/
def Within (k : Nat) (R : α → β → Prop) : Nat → α → β → Prop := fun k' a b => k' = k ∧ R a b

variable {x : Reader α} {y : Reader β} {R R' : Nat → α → β → Prop} {R₀ : α → β → Prop}
  {S : Nat → α' → β' → Prop} {f : α → Reader α'} {g : β → Reader β'}

lemma Agrees.imp (h : Agrees r k x y R) (himp : ∀ k' a b, R k' a b → R' k' a b) :
    Agrees r k x y R' := fun extent located located' hlocated =>
  (h extent located located' hlocated).imp fun _ _ ⟨k', hrest, hR⟩ => ⟨k', hrest, himp k' _ _ hR⟩

lemma agrees_pure {a : α} {b : β} (h : R k a b) : Agrees r k (pure a) (pure b) R :=
  fun _ _ _ hlocated => .ok ⟨k, hlocated, h⟩

lemma agrees_fail {line : Nat} {cause cause' : Cause} (h : cause.Alike cause') :
    Agrees r k (fail line cause) (fail line cause') R := fun _ _ _ _ => .error h

lemma Agrees.bind (hx : Agrees r k x y R) (hf : ∀ k' a b, R k' a b → Agrees r k' (f a) (g b) S) :
    Agrees r k (x >>= f) (y >>= g) S := by
  intro extent located located' hlocated
  have hend := hx extent located located' hlocated
  rw [bind_apply, bind_apply]
  generalize x extent located = p at hend ⊢
  generalize y extent located' = q at hend ⊢
  cases hend with
  | error h => exact .error h
  | ok h =>
    obtain ⟨k', hrest, hR⟩ := h
    exact hf k' _ _ hR extent _ _ hrest

lemma Agrees.bindWithin (hx : Agrees r k x y (Within k R₀))
    (hf : ∀ a b, R₀ a b → Agrees r k (f a) (g b) S) : Agrees r k (x >>= f) (y >>= g) S :=
  hx.bind fun _ a b ⟨hk, hR⟩ => hk ▸ hf a b hR

/-- Both readers answer the same. -/
lemma Agrees.bindEq {x y : Reader α} {f : α → Reader α'} {g : α → Reader β'}
    (hx : Agrees r k x y (Within k Eq)) (hf : ∀ a, Agrees r k (f a) (g a) S) :
    Agrees r k (x >>= f) (y >>= g) S :=
  hx.bindWithin fun a _ hab => hab ▸ hf a

lemma Agrees.map {f : α → α'} {g : β → β'} (hx : Agrees r k x y (Within k R₀)) {S₀ : α' → β' → Prop}
    (hf : ∀ a b, R₀ a b → S₀ (f a) (g b)) : Agrees r k (f <$> x) (g <$> y) (Within k S₀) := by
  rw [map_eq_pure_bind, map_eq_pure_bind]
  exact hx.bindWithin fun a b hR => agrees_pure ⟨rfl, hf a b hR⟩

/-! ### Single tokens -/

lemma agrees_line : Agrees r k line line (Within k Eq) := by
  intro extent located located' hlocated
  cases hlocated with
  | nil => exact .ok ⟨k, .nil, rfl, rfl⟩
  | cons head tail => exact .ok ⟨k, .cons head tail, rfl, rfl⟩

lemma agrees_peek? : Agrees r k peek? peek? (Within k (Option.Rel (r k).Tokens)) := by
  intro extent located located' hlocated
  cases hlocated with
  | nil => exact .ok ⟨k, .nil, rfl, .none⟩
  | cons head tail => exact .ok ⟨k, .cons head tail, rfl, .some head⟩

lemma agrees_take {expected : Expected} {accept : Token → Except GrammarCause α}
    {accept' : Token → Except GrammarCause β} (h : ∀ t t', (r k).Tokens t t' →
      (∃ cause cause', accept t = .error cause ∧ accept' t' = .error cause') ∨
        ∃ a b, accept t = .ok a ∧ accept' t' = .ok b ∧ R (t.functionAfter k) a b) :
    Agrees r k (take expected accept) (take expected accept') R := by
  intro extent located located' hlocated
  cases hlocated with
  | nil => exact .error .grammar
  | @cons _ line t t' ts ts' head tail =>
    simp only [take]
    obtain ⟨cause, cause', hread, hread'⟩ | ⟨a, b, hread, hread', hR⟩ := h t t' head
    · rw [hread, hread']
      exact .error .grammar
    · rw [hread, hread']
      exact .ok ⟨_, tail, hR⟩

/-- A reader that takes words only. -/
lemma agrees_takeWord {expected : Expected} {accept : Token → Except GrammarCause α}
    {accept' : Token → Except GrammarCause β} (h : ∀ name name', (r k).Words name name' →
      (∃ cause cause', accept (.word name) = .error cause ∧ accept' (.word name') = .error cause') ∨
        ∃ a b, accept (.word name) = .ok a ∧ accept' (.word name') = .ok b ∧ R₀ a b)
    (hother : ∀ t, (∀ name, t ≠ .word name) →
      ∃ cause cause', accept t = .error cause ∧ accept' t = .error cause') :
    Agrees r k (take expected accept) (take expected accept') (Within k R₀) := by
  refine agrees_take fun t t' ht => ?_
  cases ht with
  | word hwords =>
    obtain herror | ⟨a, b, ha, hb, hR⟩ := h _ _ hwords
    · exact .inl herror
    · exact .inr ⟨a, b, ha, hb, rfl, hR⟩
  | other ht => exact .inl (hother t ht)

/-- A reader that takes no words, and nothing that closes a function. -/
lemma agrees_takeOther {expected : Expected} {accept : Token → Except GrammarCause α}
    (hword : ∀ name, ∃ cause, accept (.word name) = .error cause)
    (hclose : ∃ cause, accept .closeBrace = .error cause) :
    Agrees r k (take expected accept) (take expected accept) (Within k Eq) := by
  refine agrees_take fun t t' ht => ?_
  cases ht with
  | @word name name' _ =>
    obtain ⟨cause, hcause⟩ := hword name
    obtain ⟨cause', hcause'⟩ := hword name'
    exact .inl ⟨cause, cause', hcause, hcause'⟩
  | other =>
    cases haccept : accept t with
    | error cause => exact .inl ⟨cause, cause, rfl, rfl⟩
    | ok a =>
      have hne : t ≠ .closeBrace := by
        rintro rfl
        obtain ⟨cause, hcause⟩ := hclose
        rw [hcause] at haccept
        cases haccept
      exact .inr ⟨a, a, rfl, rfl, if_neg hne, rfl⟩

lemma agrees_expect (t : Token) (hmark : t.isMark = true) (hclose : t ≠ .closeBrace) :
    Agrees r k (expect t) (expect t) (Within k Eq) :=
  agrees_takeOther (fun name => ⟨_, if_neg (ne_word_of_isMark hmark name).symm⟩)
    ⟨_, if_neg hclose.symm⟩

lemma agrees_expectWord {keyword : String} (hkeyword : ∀ kind index, ¬ Names kind index keyword) :
    Agrees r k (expect (.word keyword)) (expect (.word keyword)) (Within k Eq) := by
  refine agrees_takeWord (fun name name' hwords => ?_) fun t ht => ?_
  · by_cases hname : name = keyword
    · have hname' := (hwords.keyword_iff hkeyword).1 hname
      exact .inr ⟨(), (), if_pos (by rw [hname]), if_pos (by rw [hname']), rfl⟩
    · have hname' : name' ≠ keyword := fun h => hname ((hwords.keyword_iff hkeyword).2 h)
      exact .inl ⟨_, _, if_neg (by simpa using hname), if_neg (by simpa using hname')⟩
  · exact ⟨_, _, if_neg (ht keyword), if_neg (ht keyword)⟩

/-- Whether a mark comes next; a brace that does closes the function. -/
lemma agrees_eat (t : Token) (hmark : t.isMark = true) : Agrees r k (eat t) (eat t)
    fun k' found found' => found' = found ∧ k' = if found then t.functionAfter k else k := by
  intro extent located located' hlocated
  cases hlocated with
  | nil => exact .ok ⟨k, .nil, rfl, rfl⟩
  | @cons _ line u u' ts ts' head tail =>
    have hiff : u = t ↔ u' = t := by
      cases head with
      | word =>
        exact ⟨fun h => absurd h.symm (ne_word_of_isMark hmark _),
          fun h => absurd h.symm (ne_word_of_isMark hmark _)⟩
      | other => exact Iff.rfl
    simp only [eat]
    by_cases hu : u = t
    · rw [if_pos hu, if_pos (hiff.1 hu)]
      exact .ok ⟨_, tail, rfl, by rw [hu, if_pos rfl]⟩
    · rw [if_neg hu, if_neg fun h => hu (hiff.2 h)]
      exact .ok ⟨k, .cons head tail, rfl, rfl⟩

lemma agrees_eatMark (t : Token) (hmark : t.isMark = true) (hclose : t ≠ .closeBrace) :
    Agrees r k (eat t) (eat t) (Within k Eq) := by
  refine (agrees_eat t hmark).imp fun k' found found' h => ?_
  have hk : t.functionAfter k = k := if_neg hclose
  obtain ⟨rfl, rfl⟩ := h
  exact ⟨by rw [hk, ite_self], rfl⟩

lemma agrees_word (expected : Expected) :
    Agrees r k (word expected) (word expected) (Within k (r k).Words) := by
  refine agrees_takeWord (fun name name' hwords => .inr ⟨name, name', rfl, rfl, hwords⟩) ?_
  intro t ht
  cases t with
  | word name => exact absurd rfl (ht name)
  | _ => exact ⟨_, _, rfl, rfl⟩

lemma agrees_entity {kind : Kind} {P : Nat → Nat → Prop} (h : ∀ name name', (r k).Words name name' →
    Option.Rel P (entityIndex? kind name) (entityIndex? kind name')) :
    Agrees r k (entity kind) (entity kind) (Within k P) := by
  refine agrees_takeWord (fun name name' hwords => ?_) fun t ht => ?_
  · have hindex := h name name' hwords
    dsimp only
    generalize entityIndex? kind name = index at hindex ⊢
    generalize entityIndex? kind name' = index' at hindex ⊢
    cases hindex with
    | none => exact .inl ⟨_, _, rfl, rfl⟩
    | some hindex => exact .inr ⟨_, _, rfl, rfl, hindex⟩
  · cases t with
    | word name => exact absurd rfl (ht name)
    | _ => exact ⟨_, _, rfl, rfl⟩

lemma agrees_valueName : Agrees r k (entity .value) (entity .value) (Within k (r k).Values) :=
  agrees_entity fun _ _ hwords => hwords.valueIndex

lemma agrees_blockName : Agrees r k (entity .block) (entity .block) (Within k (r k).Blocks) :=
  agrees_entity fun _ _ hwords => hwords.blockIndex

lemma agrees_otherName (kind : Kind) (hvalue : kind ≠ .value) (hblock : kind ≠ .block) :
    Agrees r k (entity kind) (entity kind) (Within k Eq) := by
  refine agrees_entity fun name name' hwords => ?_
  rw [hwords.otherIndex hvalue hblock]
  cases entityIndex? kind name with
  | none => exact .none
  | some index => exact .some rfl

lemma agrees_stringLiteral : Agrees r k stringLiteral stringLiteral (Within k Eq) :=
  agrees_takeOther (fun _ => ⟨_, rfl⟩) ⟨_, rfl⟩

lemma agrees_integerLiteral : Agrees r k integerLiteral integerLiteral (Within k Eq) :=
  agrees_takeOther (fun _ => ⟨_, rfl⟩) ⟨_, rfl⟩

lemma agrees_valueType : Agrees r k valueType valueType (Within k Eq) := by
  refine agrees_takeWord (fun name name' hwords => ?_) fun t ht => ?_
  · obtain rfl | ⟨kind, index, index', -, h, h'⟩ := hwords.eq_or_names
    · dsimp only
      cases ValueType.ofName? name' with
      | none => exact .inl ⟨_, _, rfl, rfl⟩
      | some type => exact .inr ⟨type, type, rfl, rfl, rfl⟩
    · dsimp only
      rw [ofName?_of_names h, ofName?_of_names h']
      exact .inl ⟨_, _, rfl, rfl⟩
  · cases t with
    | word name => exact absurd rfl (ht name)
    | _ => exact ⟨_, _, rfl, rfl⟩

/-! ### Loops -/

section Loops

variable {round : σ → Reader (σ ⊕ α)} {round' : σ' → Reader (σ' ⊕ β)}

lemma agrees_rounds {P : Nat → σ → σ' → Prop} (hround : ∀ k s s', P k s s' →
    Agrees r k (round s) (round' s') fun k' q q' => Sum.LiftRel (P k') (R k') q q') {s : σ} {s' : σ'}
    (h : P k s s') (n : Nat) : Agrees r k (rounds round n s) (rounds round' n s') R := by
  induction n generalizing k s s' with
  | zero => exact fun _ _ _ _ => .error .grammar
  | succ n ih =>
    refine (hround k s s' h).bind fun k' q q' hq => ?_
    cases hq with
    | inl hs => exact ih hs
    | inr ha => exact agrees_pure ha

lemma agrees_iterate {P : Nat → σ → σ' → Prop} (hround : ∀ k s s', P k s s' →
    Agrees r k (round s) (round' s') fun k' q q' => Sum.LiftRel (P k') (R k') q q') {s : σ} {s' : σ'}
    (h : P k s s') : Agrees r k (iterate round s) (iterate round' s') R :=
  fun extent => agrees_rounds hround h (extent.size + 1) extent

/-- A loop inside a function. -/
lemma agrees_iterateWithin {P : σ → σ' → Prop} (hround : ∀ s s', P s s' →
    Agrees r k (round s) (round' s') (Within k (Sum.LiftRel P R₀))) {s : σ} {s' : σ'} (h : P s s') :
    Agrees r k (iterate round s) (iterate round' s') (Within k R₀) := by
  have hrounds : ∀ k' s s', Within k P k' s s' →
      Agrees r k' (round s) (round' s') fun k'' q q' =>
        Sum.LiftRel (Within k P k'') (Within k R₀ k'') q q' := by
    rintro _ s s' ⟨rfl, hs⟩
    refine (hround s s' hs).imp ?_
    rintro _ q q' ⟨rfl, hq⟩
    exact hq.mono (fun _ _ h => ⟨rfl, h⟩) fun _ _ h => ⟨rfl, h⟩
  exact agrees_iterate hrounds ⟨rfl, h⟩

lemma agrees_parenthesized {item : Reader α} {item' : Reader β}
    (hitem : Agrees r k item item' (Within k R₀)) :
    Agrees r k (parenthesized item) (parenthesized item') (Within k (List.Forall₂ R₀)) := by
  refine (agrees_expect .openParen rfl (by decide)).bindEq fun _ => ?_
  refine (agrees_eatMark .closeParen rfl (by decide)).bindEq fun found => ?_
  cases found with
  | true => exact agrees_pure ⟨rfl, .nil⟩
  | false =>
    refine agrees_iterateWithin (P := List.Forall₂ R₀) (fun items items' hitems => ?_) .nil
    refine hitem.bindWithin fun a b hab => ?_
    refine (agrees_eatMark .closeParen rfl (by decide)).bindEq fun found => ?_
    cases found with
    | true => exact agrees_pure ⟨rfl, .inr (List.rel_reverse (.cons hab hitems))⟩
    | false =>
      refine (agrees_expect .comma rfl (by decide)).bindEq fun _ => ?_
      exact agrees_pure ⟨rfl, .inl (.cons hab hitems)⟩

end Loops

/-! ### Instructions -/

lemma agrees_operand : Agrees r k operand operand (Within k (OperandTree.Renamed (r k))) := by
  refine agrees_takeWord (fun name name' hwords => ?_) fun t ht => ?_
  · have hstr : entityIndex? .str name' = entityIndex? .str name :=
      hwords.otherIndex (by decide) (by decide)
    have hvalue := hwords.valueIndex
    dsimp only
    rw [hstr]
    generalize entityIndex? .str name = str
    generalize entityIndex? .value name = index at hvalue ⊢
    generalize entityIndex? .value name' = index' at hvalue ⊢
    cases str with
    | some str => exact .inr ⟨_, _, rfl, rfl, .str str⟩
    | none =>
      cases hvalue with
      | none => exact .inl ⟨_, _, rfl, rfl⟩
      | some hvalue => exact .inr ⟨_, _, rfl, rfl, .value hvalue⟩
  · cases t with
    | word name => exact absurd rfl (ht name)
    | _ => exact ⟨_, _, rfl, rfl⟩

lemma agrees_operands : Agrees r k (parenthesized operand) (parenthesized operand)
    (Within k (List.Forall₂ (OperandTree.Renamed (r k)))) :=
  agrees_parenthesized agrees_operand

/-- Whether an operand comes next is the same: a value and a string are told apart from other words
by their labels. -/
lemma agrees_atOperand : Agrees r k atOperand atOperand (Within k Eq) := by
  refine Agrees.bindWithin agrees_peek? fun next next' hnext => ?_
  cases hnext with
  | none => exact agrees_pure ⟨rfl, rfl⟩
  | @some t t' ht =>
    cases ht with
    | @word name name' hwords =>
      have hstr : entityIndex? .str name' = entityIndex? .str name :=
        hwords.otherIndex (by decide) (by decide)
      have hvalue := hwords.valueIndex
      dsimp only
      rw [hstr]
      generalize entityIndex? .value name = index at hvalue ⊢
      generalize entityIndex? .value name' = index' at hvalue ⊢
      cases hvalue with
      | none => exact agrees_pure ⟨rfl, rfl⟩
      | some => exact agrees_pure ⟨rfl, rfl⟩
    | other ht =>
      cases t with
      | word name => exact absurd rfl (ht name)
      | _ => exact agrees_pure ⟨rfl, rfl⟩

lemma agrees_target : Agrees r k target target (Within k (TargetTree.Renamed (r k))) :=
  Agrees.bindWithin agrees_blockName fun _ _ hblock =>
    Agrees.bindWithin agrees_operands fun _ _ hargs => agrees_pure ⟨rfl, hblock, hargs⟩

lemma agrees_operation : Agrees r k operation operation (Within k (OpTree.Renamed (r k))) := by
  refine Agrees.bindEq agrees_line fun line => ?_
  refine (agrees_word _).bindWithin fun mnemonic mnemonic' hwords => ?_
  obtain rfl | ⟨kind, index, index', -, h, h'⟩ := hwords.eq_or_names
  · split
    · exact agrees_pure ⟨rfl, .nop⟩
    · exact Agrees.map agrees_integerLiteral fun value _ hvalue => hvalue ▸ .const32 value
    · exact Agrees.map agrees_integerLiteral fun value _ hvalue => hvalue ▸ .const64 value
    · refine (agrees_otherName .func (by decide) (by decide)).bindEq fun callee => ?_
      exact Agrees.bindWithin agrees_operands fun args args' hargs =>
        agrees_pure ⟨rfl, .call callee hargs⟩
    · split
      · rename_i op _
        exact Agrees.bindWithin agrees_operand fun left left' hleft =>
          (agrees_expect .comma rfl (by decide)).bindEq fun _ =>
            Agrees.bindWithin agrees_operand fun right right' hright =>
              agrees_pure ⟨rfl, .binary op hleft hright⟩
      · exact agrees_fail .grammar
  · -- The name of an entity is no operator.
    split
    case h_5 =>
      simp only [ofMnemonic?_of_names h]
      split
      case h_5 =>
        simp only [ofMnemonic?_of_names h']
        exact agrees_fail .grammar
      all_goals exact absurd h' (not_names_keyword (by simp))
    all_goals exact absurd h (not_names_keyword (by simp))

lemma agrees_bareOperands : Agrees r k bareOperands bareOperands
    (Within k (List.Forall₂ (OperandTree.Renamed (r k)))) := by
  refine Agrees.bindEq agrees_atOperand fun found => ?_
  cases found with
  | false => exact agrees_pure ⟨rfl, .nil⟩
  | true =>
    refine agrees_iterateWithin (P := List.Forall₂ (OperandTree.Renamed (r k)))
      (fun values values' hvalues => ?_) .nil
    refine Agrees.bindWithin agrees_operand fun value value' hvalue => ?_
    refine (agrees_eatMark .comma rfl (by decide)).bindEq fun more => ?_
    cases more with
    | true => exact agrees_pure ⟨rfl, .inl (.cons hvalue hvalues)⟩
    | false => exact agrees_pure ⟨rfl, .inr (List.rel_reverse (.cons hvalue hvalues))⟩

lemma agrees_terminator (line : Nat) {keyword keyword' : String} (hwords : (r k).Words keyword keyword') :
    Agrees r k (terminator line keyword) (terminator line keyword')
      (Within k (TermTree.Renamed (r k))) := by
  unfold terminator
  obtain rfl | ⟨kind, index, index', -, h, h'⟩ := hwords.eq_or_names
  · split
    · exact Agrees.map agrees_target fun _ _ htarget => .jump htarget
    · exact Agrees.bindWithin agrees_operand fun _ _ hcond =>
        (agrees_expect .comma rfl (by decide)).bindEq fun _ =>
          Agrees.bindWithin agrees_target fun _ _ htrue =>
            (agrees_expect .comma rfl (by decide)).bindEq fun _ =>
              Agrees.bindWithin agrees_target fun _ _ hfalse =>
                agrees_pure ⟨rfl, .branch hcond htrue hfalse⟩
    · exact Agrees.map agrees_bareOperands fun _ _ hvalues => .ret hvalues
    · exact agrees_pure ⟨rfl, .unreachable⟩
    · exact agrees_fail .grammar
  · split
    case h_5 =>
      split
      case h_5 => exact agrees_fail .grammar
      all_goals exact absurd h' (not_names_keyword (by simp))
    all_goals exact absurd h (not_names_keyword (by simp))

/-! ### Blocks -/

lemma agrees_blockParam :
    Agrees r k blockParam blockParam (Within k (ParamRenamed (r k))) := by
  refine Agrees.bindWithin agrees_valueName fun _ _ hname => ?_
  refine (agrees_expect .colon rfl (by decide)).bindEq fun _ => ?_
  exact Agrees.bindWithin agrees_valueType fun _ _ htype => agrees_pure ⟨rfl, hname, htype.symm⟩

/-- Instructions, a terminator and its line. -/
def InsideRenamed (ren : Renaming) (inside inside' : List InstTree × TermTree × Nat) : Prop :=
  List.Forall₂ (InstTree.Renamed ren) inside.1 inside'.1 ∧
    inside.2.1.Renamed ren inside'.2.1 ∧ inside'.2.2 = inside.2.2

lemma agrees_blockInside :
    Agrees r k blockInside blockInside (Within k (InsideRenamed (r k))) := by
  refine agrees_iterateWithin (P := List.Forall₂ (InstTree.Renamed (r k)))
    (fun insts insts' hinsts => ?_) .nil
  refine Agrees.bindEq agrees_line fun line => ?_
  refine (agrees_word _).bindWithin fun keyword keyword' hwords => ?_
  have hindex := hwords.valueIndex
  generalize entityIndex? .value keyword = index at hindex ⊢
  generalize entityIndex? .value keyword' = index' at hindex ⊢
  cases hindex with
  | some hresult =>
    exact (agrees_expect .equals rfl (by decide)).bindEq fun _ =>
      Agrees.bindWithin agrees_operation fun _ _ hop =>
        agrees_pure ⟨rfl, .inl (.cons ⟨rfl, hresult, hop⟩ hinsts)⟩
  | none =>
    exact (agrees_terminator line hwords).bindWithin fun _ _ hterm =>
      agrees_pure ⟨rfl, .inr ⟨List.rel_reverse hinsts, hterm, rfl⟩⟩

lemma agrees_block : Agrees r k block block (Within k (BlockTree.Renamed (r k))) := by
  refine Agrees.bindEq agrees_line fun line => ?_
  refine Agrees.bindWithin agrees_blockName fun name name' hname => ?_
  refine (agrees_parenthesized agrees_blockParam).bindWithin fun params params' hparams => ?_
  refine (agrees_expect .colon rfl (by decide)).bindEq fun _ => ?_
  refine Agrees.bindWithin agrees_blockInside fun inside inside' hinside => ?_
  obtain ⟨hinsts, hterm, htermLine⟩ := hinside
  exact agrees_pure ⟨rfl, rfl, hname, hparams, hinsts, hterm, htermLine⟩

/-- The blocks of a function up to the brace that closes it. -/
lemma agrees_blocks : Agrees r k blocks blocks fun _ blocks blocks' =>
    List.Forall₂ (BlockTree.Renamed (r k)) blocks blocks' := by
  refine agrees_iterate (P := Within k (List.Forall₂ (BlockTree.Renamed (r k)))) ?_ ⟨rfl, .nil⟩
  rintro _ acc acc' ⟨rfl, hacc⟩
  refine (agrees_eat .closeBrace rfl).bind fun k' _ found heat => ?_
  obtain ⟨hfound, hk⟩ := heat
  subst hfound
  cases found with
  | true => exact agrees_pure (.inr (List.rel_reverse hacc))
  | false =>
    subst hk
    exact Agrees.bindWithin agrees_block fun _ _ hblock => agrees_pure (.inl ⟨rfl, .cons hblock hacc⟩)

/-! ### Modules -/

/-- Functions are read with the names of the one that the tokens are in. -/
lemma agrees_func (line : Nat) :
    Agrees r k (func line) (func line) fun _ func func' => func.Renamed func' := by
  refine (agrees_expect .equals rfl (by decide)).bindEq fun _ => ?_
  refine Agrees.bindEq agrees_line fun kindLine => ?_
  refine (agrees_word _).bindWithin fun kind kind' hwords => ?_
  refine Agrees.bindEq agrees_stringLiteral fun name => ?_
  refine (agrees_expect .colon rfl (by decide)).bindEq fun _ => ?_
  refine (agrees_otherName .signature (by decide) (by decide)).bindEq fun signature => ?_
  obtain rfl | ⟨found, index, index', -, h, h'⟩ := hwords.eq_or_names
  · split
    · exact agrees_pure ⟨rfl, rfl, rfl, .none⟩
    · refine (agrees_expect .openBrace rfl (by decide)).bindEq fun _ => ?_
      refine Agrees.bind agrees_blocks fun k' blocks blocks' hblocks => ?_
      cases hblocks with
      | nil => exact agrees_fail .grammar
      | cons hblock hblocks => exact agrees_pure ⟨rfl, rfl, rfl, .some ⟨r k, .cons hblock hblocks⟩⟩
    · exact agrees_fail .grammar
  · split
    case h_3 =>
      split
      case h_3 => exact agrees_fail .grammar
      all_goals exact absurd h' (not_names_keyword (by simp))
    all_goals exact absurd h (not_names_keyword (by simp))

lemma agrees_funcType (line : Nat) : Agrees r k (funcType line) (funcType line) (Within k Eq) := by
  have htypes : Agrees r k (parenthesized valueType) (parenthesized valueType) (Within k Eq) :=
    (agrees_parenthesized agrees_valueType).imp fun k' types types' ⟨hk, htypes⟩ =>
      ⟨hk, List.forall₂_eq_eq_eq ▸ htypes⟩
  refine (agrees_expect .equals rfl (by decide)).bindEq fun _ => ?_
  refine htypes.bindEq fun params => ?_
  refine (agrees_expect .arrow rfl (by decide)).bindEq fun _ => ?_
  refine htypes.bindEq fun returns => ?_
  split
  · exact agrees_fail .typing
  · exact agrees_pure ⟨rfl, rfl⟩

lemma agrees_checkNumber (line : Nat) (kind : Kind) (found size : Nat) (name : String) :
    Agrees r k (checkNumber line kind found size name) (checkNumber line kind found size name)
      (Within k Eq) := by
  unfold checkNumber
  split
  · exact agrees_pure ⟨rfl, rfl⟩
  · exact agrees_fail .grammar

/-- An item adds the same to both trees, apart from the names in a function. -/
lemma agrees_item {tree tree' : ModuleTree} (htree : tree.Renamed tree') :
    Agrees r k (item tree) (item tree') fun _ tree tree' => tree.Renamed tree' := by
  obtain ⟨htypes, hstrings, hfuncs⟩ := htree
  have hsize : tree'.funcs.size = tree.funcs.size := by
    have := hfuncs.length_eq
    rwa [Array.length_toList, Array.length_toList, eq_comm] at this
  unfold item
  refine Agrees.bindEq agrees_line fun line => ?_
  refine (agrees_word _).bindWithin fun name name' hwords => ?_
  obtain rfl | ⟨kind, index, index', hkind, h, h'⟩ := hwords.eq_or_names
  · rw [htypes, hstrings, hsize]
    split
    · refine (agrees_checkNumber _ _ _ _ _).bindEq fun _ => ?_
      refine (agrees_funcType _).bindEq fun type => ?_
      exact agrees_pure ⟨rfl, rfl, hfuncs⟩
    · split
      · refine (agrees_checkNumber _ _ _ _ _).bindEq fun _ => ?_
        refine (agrees_expect .equals rfl (by decide)).bindEq fun _ => ?_
        refine Agrees.bindEq agrees_stringLiteral fun s => ?_
        exact agrees_pure ⟨rfl, rfl, hfuncs⟩
      · split
        · refine (agrees_checkNumber _ _ _ _ _).bindEq fun _ => ?_
          refine (agrees_func _).bind fun k' func func' hfunc => ?_
          refine agrees_pure ⟨rfl, rfl, ?_⟩
          rw [Array.toList_push, Array.toList_push]
          exact List.rel_append hfuncs (.cons hfunc .nil)
        · exact agrees_fail .grammar
  · -- The name of a value or a block starts no item.
    have hnone {word : String} {i : Nat} (hword : Names kind i word) :
        entityIndex? .signature word = none ∧ entityIndex? .str word = none ∧
          entityIndex? .func word = none := by
      refine ⟨entityIndex?_of_names hword ?_, entityIndex?_of_names hword ?_,
        entityIndex?_of_names hword ?_⟩ <;> rcases hkind with rfl | rfl <;> decide
    obtain ⟨hsignature, hstr, hfunc⟩ := hnone h
    obtain ⟨hsignature', hstr', hfunc'⟩ := hnone h'
    rw [hsignature, hstr, hfunc, hsignature', hstr', hfunc']
    exact agrees_fail .grammar

theorem agrees_module : Agrees r k module module fun _ tree tree' => tree.Renamed tree' := by
  refine (agrees_expectWord fun _ _ => not_names_keyword (by simp)).bindEq fun _ => ?_
  refine (agrees_expect .openBrace rfl (by decide)).bindEq fun _ => ?_
  have hitems : Agrees r k
      (iterate (fun tree => do
        if ← eat .closeBrace then pure (.inr tree) else pure (.inl (← item tree))) {})
      (iterate (fun tree => do
        if ← eat .closeBrace then pure (.inr tree) else pure (.inl (← item tree))) {})
      fun _ tree tree' => tree.Renamed tree' := by
    refine agrees_iterate (P := fun _ tree tree' => tree.Renamed tree') ?_ ⟨rfl, rfl, .nil⟩
    intro k tree tree' htree
    refine (agrees_eat .closeBrace rfl).bind fun k' _ found heat => ?_
    obtain ⟨hfound, -⟩ := heat
    subst hfound
    cases found with
    | true => exact agrees_pure (.inr htree)
    | false => exact (agrees_item htree).bind fun _ _ _ htree => agrees_pure (.inl htree)
  refine hitems.bind fun k' tree tree' htree => ?_
  refine Agrees.bindWithin agrees_peek? fun next next' hnext => ?_
  cases hnext with
  | none => exact agrees_pure htree
  | some =>
    refine Agrees.bindEq agrees_line fun line => ?_
    exact agrees_fail .grammar

end Reader

lemma RenamedTokens.lines {r : Nat → Renaming} {k : Nat} {ts ts' : List Located}
    (h : RenamedTokens r k ts ts') : ts.map Located.line = ts'.map Located.line := by
  induction h with
  | nil => rfl
  | cons _ _ ih => rw [List.map_cons, List.map_cons, ih]

/-- Renamed tokens form renamed trees, or none on the same line. -/
theorem parse_renamed {r : Nat → Renaming} {ts ts' : List Located} (h : RenamedTokens r 0 ts ts') :
    Parallel ModuleTree.Renamed (parse ts) (parse ts') := by
  have hextent : Extent.of ts = Extent.of ts' := by
    have hlength := congrArg List.length h.lines
    rw [List.length_map, List.length_map] at hlength
    rw [Extent.of, Extent.of, hlength, ← List.getLast?_map, ← List.getLast?_map, h.lines]
  have hend := Reader.agrees_module (Extent.of ts) ts ts' h
  rw [parse, parse, ← hextent]
  generalize Reader.module (Extent.of ts) ts = p at hend ⊢
  generalize Reader.module (Extent.of ts) ts' = q at hend ⊢
  cases hend with
  | error h => exact .error h
  | ok h =>
    obtain ⟨_, -, htree⟩ := h
    exact .ok htree

end EntryTrace.Source
