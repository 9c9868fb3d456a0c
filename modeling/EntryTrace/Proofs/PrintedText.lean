import EntryTrace.Proofs.PrintedModules
import EntryTrace.Print

/-!
# The text of a printed module

What printing writes stands for the tokens of the module. A text that ends in a word or a number
does so in front of what does not prolong it, and a sealed text in front of anything. The comments
of the verbose form stand for no tokens.
-/

namespace EntryTrace

open Source

/-- In front of anything that does not prolong its last word, the text stands for the tokens. -/
def Stands (s : String) (ts : List Token) : Prop :=
  ∀ ⦃rest us⦄, Apart rest → Renders rest us → Renders (s.toList ++ rest) (ts ++ us)

/-- In front of anything the text stands for the tokens. -/
def Sealed (s : String) (ts : List Token) : Prop :=
  ∀ ⦃rest us⦄, Renders rest us → Renders (s.toList ++ rest) (ts ++ us)

/-- A sealed text that prolongs no word. -/
structure Separator (s : String) (ts : List Token) : Prop where
  seals : Sealed s ts
  apart : ∀ rest, Apart (s.toList ++ rest)

section Texts

variable {s s' : String} {ts us : List Token}

lemma Sealed.stands (h : Sealed s ts) : Stands s ts := fun _ _ _ hrest => h hrest

lemma Sealed.append (h : Sealed s ts) (h' : Sealed s' us) : Sealed (s ++ s') (ts ++ us) := by
  intro rest vs hrest
  rw [String.toList_append, List.append_assoc, List.append_assoc]
  exact h (h' hrest)

lemma Sealed.append_stands (h : Sealed s ts) (h' : Stands s' us) : Stands (s ++ s') (ts ++ us) := by
  intro rest vs hapart hrest
  rw [String.toList_append, List.append_assoc, List.append_assoc]
  exact h (h' hapart hrest)

lemma Stands.append (h : Stands s ts) (h' : Separator s' us) : Sealed (s ++ s') (ts ++ us) := by
  intro rest vs hrest
  rw [String.toList_append, List.append_assoc, List.append_assoc]
  exact h (h'.apart rest) (h'.seals hrest)

/-! ### Separators -/

lemma apart_of_cons {c : Char} (hs : s.toList.head? = some c) (hc : isWordPart c = false)
    (rest : List Char) : Apart (s.toList ++ rest) := by
  intro c' hc'
  rw [List.head?_append, hs] at hc'
  obtain rfl : c = c' := by simpa using hc'
  exact hc

lemma sealed_empty : Sealed "" [] := fun _ _ hrest => hrest

lemma separator_space : Separator " " [] where
  seals _ _ hrest := .blank (by decide) hrest
  apart := apart_of_cons rfl (by decide)

lemma separator_comma : Separator ", " [.comma] where
  seals _ _ hrest := .mark (by decide) (.blank (by decide) hrest)
  apart := apart_of_cons rfl (by decide)

lemma separator_openParen : Separator "(" [.openParen] where
  seals _ _ hrest := .mark (by decide) hrest
  apart := apart_of_cons rfl (by decide)

lemma separator_closeParen : Separator ")" [.closeParen] where
  seals _ _ hrest := .mark (by decide) hrest
  apart := apart_of_cons rfl (by decide)

lemma separator_header : Separator "):" [.closeParen, .colon] where
  seals _ _ hrest := .mark (by decide) (.mark (by decide) hrest)
  apart := apart_of_cons rfl (by decide)

lemma separator_equals : Separator " = " [.equals] where
  seals _ _ hrest := .blank (by decide) (.mark (by decide) (.blank (by decide) hrest))
  apart := apart_of_cons rfl (by decide)

lemma separator_param : Separator ": " [.colon] where
  seals _ _ hrest := .mark (by decide) (.blank (by decide) hrest)
  apart := apart_of_cons rfl (by decide)

lemma separator_type : Separator " : " [.colon] where
  seals _ _ hrest := .blank (by decide) (separator_param.seals hrest)
  apart := apart_of_cons rfl (by decide)

lemma separator_openBrace : Separator " \x7b" [.openBrace] where
  seals _ _ hrest := .blank (by decide) (.mark (by decide) hrest)
  apart := apart_of_cons rfl (by decide)

lemma separator_results : Separator ") -> (" [.closeParen, .arrow, .openParen] where
  seals _ _ hrest := .mark (by decide) (.blank (by decide) (.arrow (.blank (by decide)
    (.mark (by decide) hrest))))
  apart := apart_of_cons rfl (by decide)

end Texts

/-! ### Words and numbers -/

instance {name : String} : Decidable (IsWord name) :=
  decidable_of_iff ((name.toList.head?.any isWordStart && name.toList.tail.all isWordPart) = true) <| by
    rw [IsWord]
    cases name.toList <;> simp

lemma stands_word {name : String} (h : IsWord name) : Stands name [.word name] :=
  fun _ _ hapart hrest => .word h hapart hrest

lemma stands_nat {n : Nat} (h : n < literalLimit) : Stands (toString n) [.int n] :=
  fun _ _ hapart hrest => .nat h hapart hrest

lemma sealed_string (s : String) : Sealed (Quoted.encode s) [.str s] := fun _ _ hrest => .str hrest

lemma Source.IsWord.append {name s : String} {cs : List Char} (h : IsWord name)
    (hs : s.toList = name.toList ++ cs) (hcs : ∀ c ∈ cs, isWordPart c = true) : IsWord s := by
  obtain ⟨c, letters, heq, hc, hletters⟩ := h
  refine ⟨c, letters ++ cs, by rw [hs, heq, List.cons_append], hc, ?_⟩
  intro c' hc'
  rcases List.mem_append.1 hc' with hc' | hc'
  · exact hletters c' hc'
  · exact hcs c' hc'

lemma isWord_label (kind : Kind) : IsWord kind.label := by cases kind <;> decide

lemma isWord_text {kind : Kind} {e : Entity kind} (h : e.index < Entity.limit) : IsWord e.text := by
  have htext : e.text.toList = kind.label.toList ++ Nat.toDigits 10 e.index := by
    rw [text_eq h, String.toList_append, Nat.toString_eq_repr, Nat.toList_repr]
  exact (isWord_label kind).append htext fun c hc =>
    isWordPart_of_isDigit (isDigit_of_mem_toDigits hc)

lemma stands_entity {kind : Kind} {e : Entity kind} (h : e.index < Entity.limit) :
    Stands e.text [.word e.text] := stands_word (isWord_text h)

lemma stands_valueType (type : ValueType) : Stands type.name [.word type.name] := by
  cases type <;> exact stands_word (by decide)

lemma stands_mnemonic (op : BinaryOp) : Stands op.mnemonic [.word op.mnemonic] := by
  cases op <;> exact stands_word (by decide)

/-! ### Lists -/

section Lists

variable {β : Type} {items : List β} {text : β → String} {tokensOf : β → List Token}

lemma stands_commaSeparated (h : ∀ b ∈ items, Stands (text b) (tokensOf b)) :
    Stands (commaSeparated (items.map text)) (commaTokens (items.map tokensOf)) := by
  induction items with
  | nil => exact sealed_empty.stands
  | cons b items ih =>
    have hb := h b List.mem_cons_self
    have hrest := ih fun b' hb' => h b' (List.mem_cons_of_mem _ hb')
    cases items with
    | nil => simpa [commaSeparated, commaTokens] using hb
    | cons b' items =>
      have hboth := (hb.append separator_comma).append_stands hrest
      simpa [commaSeparated, commaTokens, String.intercalate_cons_cons] using hboth

end Lists

/-! ### Parts of a body -/

section Bodies

variable {module : Module} {body : Body}

lemma stands_operand {value : Value} (h : Numbered body.values value) :
    Stands (body.operandText value) (body.operandTokens value) := by
  rcases Reader.operandText_cases h with ⟨str, hstr, htext, -⟩ | ⟨htext, -⟩
  · rw [Body.operandTokens, htext]
    exact stands_entity hstr
  · rw [Body.operandTokens, htext]
    exact stands_entity h.1

lemma stands_operands {values : List Value} (h : ∀ v ∈ values, Numbered body.values v) :
    Stands (body.operandsText values) (body.operandsTokens values) :=
  stands_commaSeparated fun v hv => stands_operand (h v hv)

lemma sealed_withOperands {s : String} {ts : List Token} {values : List Value} (hs : Stands s ts)
    (h : ∀ v ∈ values, Numbered body.values v) :
    Sealed (s ++ "(" ++ body.operandsText values ++ ")")
      (ts ++ parenTokens (values.map body.operandTokens)) := by
  have hboth := ((hs.append separator_openParen).append_stands (stands_operands h)).append
    separator_closeParen
  simpa [parenTokens, Body.operandsTokens] using hboth

lemma sealed_target {target : Target} (h : Reader.NumberedTarget body.values target) :
    Sealed (body.targetText target) (body.targetTokens target) :=
  sealed_withOperands (stands_entity h.1) h.2

lemma stands_inst {op : Operator} {args : List Value} (hfuncs : module.funcs.size ≤ Entity.limit)
    (haccepts : op.Accepts module args) (hargs : ∀ arg ∈ args, Numbered body.values arg) :
    Stands (body.instText op args) (body.opTokens op args) := by
  cases op with
  | nop =>
    obtain rfl : args = [] := haccepts
    have hword : Stands "nop" [.word "nop"] := stands_word (by decide)
    exact hword
  | const32 c =>
    obtain rfl : args = [] := haccepts
    have hc : c.toNat < literalLimit := c.toNat_lt.trans (by decide)
    have hword : Stands "i32.const" [.word "i32.const"] := stands_word (by decide)
    exact (hword.append separator_space).append_stands (stands_nat hc)
  | const64 c =>
    obtain rfl : args = [] := haccepts
    have hc : c.toNat < literalLimit := c.toNat_lt.trans (by decide)
    have hword : Stands "i64.const" [.word "i64.const"] := stands_word (by decide)
    exact (hword.append separator_space).append_stands (stands_nat hc)
  | binary op =>
    obtain ⟨left, right, rfl⟩ := haccepts
    exact ((stands_mnemonic op).append separator_space).append_stands (stands_operands hargs)
  | call callee =>
    have hcallee : callee.index < Entity.limit := Nat.lt_of_lt_of_le haccepts hfuncs
    have hword : Stands "call" [.word "call"] := stands_word (by decide)
    have hname := (hword.append separator_space).append_stands (stands_entity hcallee)
    exact (sealed_withOperands hname hargs).stands

lemma stands_terminator {term : Terminator} (h : Reader.NumberedTerminator body.values term) :
    Stands (body.terminatorText term) (body.terminatorTokens term) := by
  cases term with
  | jump target =>
    have hword : Stands "br" [.word "br"] := stands_word (by decide)
    have htarget := sealed_target (h.target List.mem_cons_self)
    exact ((hword.append separator_space).append htarget).stands
  | branch cond onTrue onFalse =>
    have hword : Stands "if" [.word "if"] := stands_word (by decide)
    have hcond := stands_operand (h.operands cond List.mem_cons_self)
    have htrue : Reader.NumberedTarget body.values onTrue := h.target (by simp [Terminator.targets])
    have hfalse : Reader.NumberedTarget body.values onFalse :=
      h.target (by simp [Terminator.targets])
    have hall := (((((hword.append separator_space).append_stands hcond).append separator_comma).append
      (sealed_target htrue)).append separator_comma.seals).append (sealed_target hfalse)
    simpa [Body.terminatorText, Body.terminatorTokens, String.append_assoc] using hall.stands
  | ret values =>
    have hword : Stands "return" [.word "return"] := stands_word (by decide)
    cases values with
    | nil => exact hword
    | cons v values => exact (hword.append separator_space).append_stands (stands_operands h.operands)
  | unreachable =>
    have hword : Stands "unreachable" [.word "unreachable"] := stands_word (by decide)
    exact hword
  | missing =>
    have hword : Stands "no_terminator" [.word "no_terminator"] := stands_word (by decide)
    exact hword

end Bodies

/-! ### Lines -/

/-- Before the end of a line the text stands for the tokens. -/
def IsLine (line : String) (ts : List Token) : Prop :=
  ∀ ⦃rest us⦄, Renders ('\n' :: rest) us → Renders (line.toList ++ '\n' :: rest) (ts ++ us)

/-- The lines together stand for the tokens. -/
inductive AreLines : List String → List Token → Prop
  | nil : AreLines [] []
  | cons {line ts lines us} : IsLine line ts → AreLines lines us → AreLines (line :: lines) (ts ++ us)

section Lines

variable {line s : String} {lines lines' : List String} {ts us : List Token}

lemma Stands.isLine (h : Stands line ts) : IsLine line ts := fun _ _ hrest =>
  h (fun c hc => by
    obtain rfl : '\n' = c := by simpa using hc
    decide) hrest

lemma Stands.isLine_comment (h : Stands s ts) {comment : List Char} (hcomment : '\n' ∉ comment)
    (hline : line.toList = s.toList ++ ' ' :: ' ' :: '#' :: comment) : IsLine line ts := by
  intro rest us hrest
  rw [hline, List.append_assoc]
  have htail : Renders (' ' :: ' ' :: '#' :: (comment ++ '\n' :: rest)) us :=
    .blank (by decide) (.blank (by decide) (.comment hcomment hrest))
  exact h (fun c hc => by
    obtain rfl : ' ' = c := by simpa using hc
    decide) htail

lemma IsLine.indent (h : IsLine line ts) : IsLine ("  " ++ line) ts := by
  intro rest us hrest
  rw [String.toList_append, List.append_assoc]
  exact .blank (by decide) (.blank (by decide) (h hrest))

lemma AreLines.indent (h : AreLines lines ts) : AreLines (lines.map ("  " ++ ·)) ts := by
  induction h with
  | nil => exact .nil
  | cons hline _ ih => exact .cons hline.indent ih

lemma AreLines.append (h : AreLines lines ts) (h' : AreLines lines' us) :
    AreLines (lines ++ lines') (ts ++ us) := by
  induction h with
  | nil => exact h'
  | cons hline _ ih =>
    rw [List.append_assoc]
    exact .cons hline ih

lemma areLines_singleton (h : IsLine line ts) : AreLines [line] ts := by
  rw [← List.append_nil ts]
  exact .cons h .nil

lemma areLines_of_forall (h : ∀ line ∈ lines, IsLine line []) : AreLines lines [] := by
  induction lines with
  | nil => exact .nil
  | cons line lines ih =>
    exact .cons (h line List.mem_cons_self) (ih fun line' h' => h line' (List.mem_cons_of_mem _ h'))

lemma AreLines.sealed (h : AreLines lines ts) : Sealed (textOfLines "  " lines) ts := by
  induction h with
  | nil => exact sealed_empty
  | @cons line ts lines us hline _ ih =>
    intro rest vs hrest
    have hall := hline.indent (.blank (show isBlank '\n' = true by decide) (ih hrest))
    simpa [textOfLines, String.toList_append, List.append_assoc] using hall

lemma areLines_map {β : Type} {items : List β} {text : β → String} {tokensOf : β → List Token}
    (h : ∀ b ∈ items, IsLine (text b) (tokensOf b)) :
    AreLines (items.map text) (items.flatMap tokensOf) := by
  induction items with
  | nil => exact .nil
  | cons b items ih =>
    exact .cons (h b List.mem_cons_self) (ih fun b' hb' => h b' (List.mem_cons_of_mem _ hb'))

lemma areLines_mapM {β : Type} {items : List β} {f : β → Except Fault String}
    {tokensOf : β → List Token}
    (h : ∀ b ∈ items, ∃ line, f b = .ok line ∧ IsLine line (tokensOf b)) :
    ∃ lines, items.mapM f = .ok lines ∧ AreLines lines (items.flatMap tokensOf) := by
  induction items with
  | nil => exact ⟨[], rfl, .nil⟩
  | cons b items ih =>
    obtain ⟨line, hf, hline⟩ := h b List.mem_cons_self
    obtain ⟨lines, hmap, hlines⟩ := ih fun b' hb' => h b' (List.mem_cons_of_mem _ hb')
    exact ⟨line :: lines, by simp [hf, hmap], .cons hline hlines⟩

lemma areLines_mapM_flatten {β : Type} {items : List β} {f : β → Except Fault (List String)}
    {tokensOf : β → List Token}
    (h : ∀ b ∈ items, ∃ lines, f b = .ok lines ∧ AreLines lines (tokensOf b)) :
    ∃ pages, items.mapM f = .ok pages ∧ AreLines pages.flatten (items.flatMap tokensOf) := by
  induction items with
  | nil => exact ⟨[], rfl, .nil⟩
  | cons b items ih =>
    obtain ⟨lines, hf, hlines⟩ := h b List.mem_cons_self
    obtain ⟨pages, hmap, hpages⟩ := ih fun b' hb' => h b' (List.mem_cons_of_mem _ hb')
    exact ⟨lines :: pages, by simp [hf, hmap], hlines.append hpages⟩

end Lines

/-! ### The lines of a body -/

/-- No newline is in the name of an entity, be it unset or not. -/
lemma newline_notMem_text {kind : Kind} (e : Entity kind) : '\n' ∉ e.text.toList := by
  have hlabel : '\n' ∉ kind.label.toList := by cases kind <;> decide
  have hdigits : '\n' ∉ Nat.toDigits 10 e.index := fun h =>
    absurd (isDigit_of_mem_toDigits h) (by decide)
  rw [Entity.text, String.toList_append, List.mem_append]
  rintro (h | h)
  · exact hlabel h
  · split at h
    · simp at h
    · rw [Nat.toString_eq_repr, Nat.toList_repr] at h
      exact hdigits h

lemma newline_notMem_typeNames (types : List ValueType) :
    '\n' ∉ (commaSeparated (types.map ValueType.name)).toList := by
  have hname (type : ValueType) : '\n' ∉ type.name.toList := by cases type <;> decide
  induction types with
  | nil => simp [commaSeparated]
  | cons type types ih =>
    cases types with
    | nil => simpa [commaSeparated] using hname type
    | cons type' types =>
      simp only [commaSeparated, List.map_cons, String.intercalate_cons_cons, String.toList_append,
        List.mem_append, not_or] at ih ⊢
      exact ⟨⟨hname type, by decide⟩, ih⟩

section Bodies

variable {module : Module} {body : Body}

lemma isLine_inst {value : Value} {op : Operator} {args : List Value} {types : List ValueType}
    (hfuncs : module.funcs.size ≤ Entity.limit) (hvalue : value.index < Entity.limit)
    (hget : body.values.get? value = some (.inst op args types)) (haccepts : op.Accepts module args)
    (hargs : ∀ arg ∈ args, Numbered body.values arg) (verbose : Bool) (block : Block) :
    ∃ line, body.instLine verbose block value = .ok line ∧ IsLine line (body.instTokens value) := by
  have hindent : Sealed "  " [] := separator_space.seals.append separator_space.seals
  have hstands := (((hindent.append_stands (stands_entity hvalue)).append
    separator_equals)).append_stands (stands_inst hfuncs haccepts hargs)
  have htokens : body.instTokens value = .word value.text :: .equals :: body.opTokens op args := by
    rw [Body.instTokens, hget]
  rw [htokens]
  have hfound : (body.values.get value : Except Fault Def) = .ok (.inst op args types) :=
    Table.get_eq_ok.2 hget
  simp only [Body.instLine, hfound, ok_bind, pure_eq_ok]
  split
  · have hcomment : '\n' ∉ ' ' :: (commaSeparated (types.map ValueType.name)).toList := by
      simpa using newline_notMem_typeNames types
    refine ⟨_, rfl, hstands.isLine_comment hcomment ?_⟩
    simp [String.toList_append]
  · exact ⟨_, rfl, hstands.isLine⟩

lemma areLines_edges (data : BlockData) : AreLines (Body.edgeLines data) [] := by
  have hedge (label : String) (hlabel : '\n' ∉ label.toList) (block : Block) :
      ∀ line : String, line.toList = ' ' :: ' ' :: '#' :: (label ++ block.text).toList →
        IsLine line [] := by
    intro line hline
    refine sealed_empty.stands.isLine_comment ?_ hline
    rw [String.toList_append, List.mem_append, not_or]
    exact ⟨hlabel, newline_notMem_text block⟩
  refine areLines_of_forall fun line hline => ?_
  rw [Body.edgeLines, List.mem_append, List.mem_map, List.mem_map] at hline
  rcases hline with ⟨block, -, rfl⟩ | ⟨block, -, rfl⟩
  · exact hedge " pred: " (by decide) block _ (by simp [String.toList_append])
  · exact hedge " succ: " (by decide) block _ (by simp [String.toList_append])

lemma stands_blockParam {p : ValueType × Value} (h : p.2.index < Entity.limit) :
    Stands (p.2.text ++ ": " ++ p.1.name) [.word p.2.text, .colon, .word p.1.name] :=
  ((stands_entity h).append separator_param).append_stands (stands_valueType p.1)

lemma sealed_header {block : Block} {data : BlockData} (hblock : block.index < Entity.limit)
    (h : ∀ p ∈ data.params, p.2.index < Entity.limit) :
    Sealed (Body.headerLine block data) (.word block.text ::
      (parenTokens (data.params.map fun p => [.word p.2.text, .colon, .word p.1.name]) ++
        [.colon])) := by
  have hparams := stands_commaSeparated fun p hp => stands_blockParam (h p hp)
  have hall := (((stands_entity hblock).append separator_openParen).append_stands hparams).append
    separator_header
  simpa [Body.headerLine, parenTokens] using hall

lemma areLines_block {block : Block} {data : BlockData} (hfuncs : module.funcs.size ≤ Entity.limit)
    (hblock : block.index < Entity.limit) (hget : body.blocks.get? block = some data)
    (h : Reader.NumberedBlock module body.values data) (verbose : Bool) :
    ∃ lines, body.blockLines verbose block = .ok lines ∧ AreLines lines (body.blockTokens block) := by
  have hinsts : ∀ v ∈ data.insts, ∃ line, body.instLine verbose block v = .ok line ∧
      IsLine line (body.instTokens v) := by
    intro v hv
    obtain ⟨hnumber, op, args, types, hvalue, haccepts, hargs⟩ := h.insts v hv
    exact isLine_inst hfuncs hnumber hvalue haccepts hargs verbose block
  obtain ⟨lines, hmap, hlines⟩ := areLines_mapM hinsts
  have hedges : AreLines (if verbose then Body.edgeLines data else []) [] := by
    cases verbose
    · exact .nil
    · exact areLines_edges data
  have hterm : AreLines ["  " ++ body.terminatorText data.terminator]
      (body.terminatorTokens data.terminator) :=
    areLines_singleton (stands_terminator h.term).isLine.indent
  have hheader := (sealed_header hblock h.params).stands.isLine
  have hall := (((AreLines.cons hheader hedges).append hlines).append hterm)
  have hfound : (body.blocks.get block : Except Fault BlockData) = .ok data := Table.get_eq_ok.2 hget
  refine ⟨_, by simp only [Body.blockLines, hfound, hmap, ok_bind, pure_eq_ok]; rfl, ?_⟩
  rw [Body.blockTokens, hget]
  simpa using hall

lemma areLines_body (hfuncs : module.funcs.size ≤ Entity.limit) (h : Reader.NumberedBody module body)
    (verbose : Bool) : ∃ lines, body.lines verbose = .ok lines ∧
      AreLines lines (body.displayOrder.flatMap body.blockTokens) := by
  have hblocks : ∀ block ∈ body.displayOrder, ∃ lines, body.blockLines verbose block = .ok lines ∧
      AreLines lines (body.blockTokens block) := by
    intro block hblock
    obtain ⟨hnumber, data, hget, hdata⟩ := h block hblock
    exact areLines_block hfuncs hnumber hget hdata verbose
  obtain ⟨pages, hmap, hpages⟩ := areLines_mapM_flatten hblocks
  exact ⟨pages.flatten, by simp [Body.lines, hmap], hpages⟩

end Bodies

/-! ### The lines of a module -/

lemma separator_import : Separator " = import " [.equals, .word "import"] where
  seals :=
    have hword : Stands "import" [.word "import"] := stands_word (by decide)
    (separator_equals.seals.append_stands hword).append separator_space
  apart := apart_of_cons rfl (by decide)

lemma separator_func : Separator " = func " [.equals, .word "func"] where
  seals :=
    have hword : Stands "func" [.word "func"] := stands_word (by decide)
    (separator_equals.seals.append_stands hword).append separator_space
  apart := apart_of_cons rfl (by decide)

/-- How the line of a function starts, `s` being what it says besides its name and signature. -/
lemma stands_signed {func : Func} {signature : Signature} {s : String} {ts : List Token}
    (hs : Separator s ts) (hfunc : func.index < Entity.limit)
    (hsignature : signature.index < Entity.limit) (name : String) :
    Stands (func.text ++ s ++ Quoted.encode name ++ " : " ++ signature.text)
      (.word func.text :: (ts ++ [.str name, .colon, .word signature.text])) := by
  have hall := ((((stands_entity hfunc).append hs).append (sealed_string name)).append
    separator_type.seals).append_stands (stands_entity hsignature)
  simpa using hall

lemma areLines_decl {module : Module} {decl : Decl} {func : Func}
    (hfuncs : module.funcs.size ≤ Entity.limit) (hfunc : func.index < Entity.limit)
    (h : Reader.NumberedDecl module decl) (verbose : Bool) :
    ∃ lines, decl.lines verbose func = .ok lines ∧
      AreLines lines (.word func.text :: decl.printedTokens) := by
  cases decl with
  | imported signature name =>
    exact ⟨_, rfl, areLines_singleton (stands_signed separator_import hfunc h.signature name).isLine⟩
  | defined signature name body =>
    obtain ⟨lines, hprinted, hlines⟩ := areLines_body hfuncs (h.body body rfl) verbose
    have hhead := (stands_signed separator_func hfunc h.signature name).append separator_openBrace
    have hclose : Sealed "\x7d" [.closeBrace] := fun _ _ hrest => .mark (by decide) hrest
    have hall := (AreLines.cons hhead.stands.isLine hlines.indent).append
      (areLines_singleton hclose.stands.isLine)
    refine ⟨_, by simp only [Decl.lines, hprinted, ok_bind, pure_eq_ok]; rfl, ?_⟩
    simpa [Decl.printedTokens] using hall

lemma stands_funcType (type : FuncType) :
    Stands type.text (typesTokens type.params ++ .arrow :: typesTokens type.returns) := by
  have htypes (types : List ValueType) :=
    stands_commaSeparated fun type (_ : type ∈ types) => stands_valueType type
  have hall := (((separator_openParen.seals.append_stands (htypes type.params)).append
    separator_results).append_stands (htypes type.returns)).append separator_closeParen
  simpa [FuncType.text, typesTokens, parenTokens, String.append_assoc] using hall.stands

lemma areLines_entries {kind : Kind} {α : Type} {t : Table kind α} {text : α → String}
    {tokensOf : α → List Token} (hlimit : t.size ≤ Entity.limit)
    (h : ∀ a, Stands (text a) (tokensOf a)) :
    AreLines (t.entries.map fun p => p.1.text ++ " = " ++ text p.2)
      (t.entries.flatMap fun p => .word p.1.text :: .equals :: tokensOf p.2) := by
  refine areLines_map fun p hp => ?_
  have hnumber : p.1.index < Entity.limit :=
    (Table.get?_lt (Table.get?_of_mem_entries hp)).trans_le hlimit
  exact (((stands_entity hnumber).append separator_equals).append_stands (h p.2)).isLine

/-- A module can be printed, and what is printed stands for its tokens. -/
theorem renders_of_writable {m : Module} (h : m.Writable) (verbose : Bool) :
    ∃ text, m.render verbose = .ok text ∧ Renders text.toList m.printedTokens := by
  have hfuncs : ∀ p ∈ m.funcs.entries, ∃ lines, p.2.lines verbose p.1 = .ok lines ∧
      AreLines lines (.word p.1.text :: p.2.printedTokens) := by
    intro p hp
    have hget := Table.get?_of_mem_entries hp
    exact areLines_decl h.funcLimit ((Table.get?_lt hget).trans_le h.funcLimit)
      (h.decls _ (Table.mem_of_get? hget)) verbose
  obtain ⟨pages, hmap, hpages⟩ := areLines_mapM_flatten hfuncs
  have hinner := ((areLines_entries h.signatureLimit stands_funcType).append
    (areLines_entries h.stringLimit fun s => (sealed_string s).stands)).append hpages
  have hword : Stands "module" [.word "module"] := stands_word (by decide)
  have hopen := hword.append separator_openBrace
  have hall := hinner.sealed (.mark (show Token.ofChar? '\x7d' = some .closeBrace by decide)
    (.blank (show isBlank '\n' = true by decide) .nil))
  refine ⟨_, by simp only [Module.render, Module.innerLines, hmap, ok_bind, pure_eq_ok]; rfl, ?_⟩
  have htext := hopen (.blank (show isBlank '\n' = true by decide) hall)
  simpa [Module.printedTokens, FuncType.printedTokens] using htext

/-- What is printed of a readable module stands for its tokens. -/
theorem renders_of_render {m : Module} (h : m.Readable) (verbose : Bool) :
    ∃ text, m.render verbose = .ok text ∧ Renders text.toList m.printedTokens :=
  renders_of_writable h.writable verbose

end EntryTrace
