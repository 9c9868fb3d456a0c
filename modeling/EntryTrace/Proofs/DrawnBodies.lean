import EntryTrace.Generate.Module
import EntryTrace.Proofs.CheckedBodies

/-!
# Bodies that are drawn

Whatever the supply, a body can be drawn for a function that takes and gives words, and there is a
text that it is read from. Each step of drawing adds at most one instruction, which the text adds
as well; so drafts are followed by the scope in which every word has its number for a name.
-/

namespace EntryTrace

open Source

lemma Supply.choose_mem {α : Type} (first : α) (others : List α) (supply : Supply) :
    (choose first others supply).1 ∈ first :: others := by
  have h := @between_mem 8 0 others.length (Nat.zero_le _) supply
  simp only [choose]
  rw [List.getD_eq_getElem _ _ (by rw [List.length_cons]; omega)]
  exact List.getElem_mem _

/-- The type of functions that compute a word from words. -/
structure FuncType.OfWords (type : FuncType) : Prop where
  params : ∀ param ∈ type.params, param = .i32
  returns : type.returns = [.i32]

/-- Every type of the module is one of functions that compute a word from words. -/
structure Module.OfWords (m : Module) : Prop where
  signatures : m.SignaturesInRange
  types : ∀ type ∈ m.signatures.toList, type.OfWords

/-- The body has one block and computes nothing but words, and calls only functions before the one
of index `limit`. -/
structure Body.OfWords (limit : Nat) (body : Body) : Prop where
  entry : body.entry = ⟨0⟩
  oneBlock : body.blocks.size = 1
  words : ∀ d ∈ body.values.toList, d.type? = some .i32
  calls : ∀ callee args types, .inst (.call callee) args types ∈ body.values.toList →
    callee.index < limit

namespace Module.OfWords

variable {module : Module} {func : Func}

lemma funcType (h : module.OfWords) (hfunc : func.index < module.funcs.size) :
    ∃ type, (module.funcType func : Except Fault _) = .ok type ∧ type.OfWords := by
  obtain ⟨type, htype⟩ := h.signatures.funcType_of_lt hfunc
  obtain ⟨decl, -, hget⟩ := funcType_eq_ok.1 htype
  exact ⟨type, htype, h.types type (Table.mem_of_get? hget)⟩

end Module.OfWords

namespace Body

variable {limit : Nat} {body : Body}

lemma OfWords.hasTypes (h : body.OfWords limit) {values : List Value} {types : List ValueType}
    (hvalues : ∀ v ∈ values, v.index < body.values.size) (htypes : ∀ type ∈ types, type = .i32)
    (hlength : values.length = types.length) : body.HasTypes values types := by
  refine List.forall₂_iff_zip.2 ⟨hlength, fun {v type} hpair => ?_⟩
  obtain ⟨hv, htype⟩ := List.of_mem_zip hpair
  obtain ⟨d, hd⟩ := Table.get?_of_lt (hvalues v hv)
  rw [hd, htypes type htype]
  exact h.words d (Table.mem_of_get? hd)

lemma OfWords.entry_lt (h : body.OfWords limit) : body.entry.index < body.blocks.size := by
  rw [h.entry, h.oneBlock]
  exact Nat.one_pos

lemma OfWords.withInst (h : body.OfWords limit) (block : Block) {op : Operator} {args : List Value}
    (hop : ∀ callee, op = .call callee → callee.index < limit) :
    (body.withInst block (.inst op args [.i32])).OfWords limit where
  entry := h.entry
  oneBlock := (Table.size_modify _ _ _).trans h.oneBlock
  words d hd := by
    rw [Body.withInst, Body.withValue, Table.toList_append, List.mem_append,
      List.mem_singleton] at hd
    rcases hd with hd | rfl
    · exact h.words d hd
    · rfl
  calls callee args' types hmem := by
    rw [Body.withInst, Body.withValue, Table.toList_append, List.mem_append,
      List.mem_singleton] at hmem
    rcases hmem with hmem | heq
    · exact h.calls callee args' types hmem
    · obtain ⟨rfl, -, -⟩ := Def.inst.inj heq
      exact hop callee rfl

end Body

lemma Source.Scope.addInsts_append {module : Module} {block : Block} {trees trees' : List InstTree}
    {r s t : Scope} (h : Answers (r.addInsts module block trees) s)
    (h' : Answers (s.addInsts module block trees') t) :
    Answers (r.addInsts module block (trees ++ trees')) t := by
  induction trees generalizing r with
  | nil =>
    rw [addInsts, answers_pure] at h
    rwa [← h]
  | cons tree trees ih =>
    rw [addInsts, answers_bind] at h
    obtain ⟨next, hnext, hrest⟩ := h
    rw [List.cons_append, addInsts, answers_bind]
    exact ⟨next, hnext, ih hrest⟩

namespace Generate

/-! ### Drawing never fails -/

section Draws

variable {α β : Type} {x : Drawing (Except Fault) α} {f : α → Drawing (Except Fault) β}
  {P : α → Prop} {Q : β → Prop} {a : α}

/-- Whatever the supply, the drawing succeeds, and its answer has the property. -/
def Draws (x : Drawing (Except Fault) α) (P : α → Prop) : Prop :=
  ∀ supply, ∃ a rest, x supply = .ok (a, rest) ∧ P a

lemma Draws.bind (hx : Draws x P) (hf : ∀ a, P a → Draws (f a) Q) : Draws (x >>= f) Q := by
  intro supply
  obtain ⟨a, rest, hxa, ha⟩ := hx supply
  obtain ⟨b, rest', hfb, hb⟩ := hf a ha rest
  refine ⟨b, rest', ?_, hb⟩
  change (x supply >>= fun r => f r.1 r.2) = _
  rw [hxa]
  exact hfb

lemma Draws.imp {P' : α → Prop} (h : Draws x P) (himp : ∀ a, P a → P' a) : Draws x P' := by
  intro supply
  obtain ⟨a, rest, hxa, ha⟩ := h supply
  exact ⟨a, rest, hxa, himp a ha⟩

lemma draws_pure (ha : P a) : Draws (pure a) P := fun supply => ⟨a, supply, rfl, ha⟩

lemma draws_lift {x : Except Fault α} (hx : x = .ok a) (ha : P a) :
    Draws (liftM x : Drawing (Except Fault) α) P := by
  subst hx
  exact fun supply => ⟨a, supply, rfl, ha⟩

lemma draws_ok {x : Except Fault α} (hx : x = .ok a) :
    Draws (liftM x : Drawing (Except Fault) α) fun b => a = b :=
  draws_lift hx rfl

lemma draws_draw {f : Supply → α × Supply} (h : ∀ supply, P (f supply).1) : Draws (draw f) P :=
  fun supply => ⟨(f supply).1, (f supply).2, rfl, h supply⟩

lemma draws_any (f : Supply → α × Supply) : Draws (draw f) fun _ => True :=
  draws_draw fun _ => trivial

lemma draws_choose (first : α) (others : List α) :
    Draws (draw (Supply.choose first others)) fun b => b ∈ first :: others :=
  draws_draw (Supply.choose_mem first others)

lemma draws_upTo (width high : Nat) : Draws (draw (Supply.between width 0 high)) fun n => n ≤ high :=
  draws_draw fun supply => (Supply.between_mem (Nat.zero_le high) supply).2

end Draws

/-! ### Drafts -/

namespace Draft

variable {module : Module} {draft draft' draft'' : Draft} {op : Operator} {args : List Value}

/-- The scope of a text that makes the draft, with the numbers of words for their names. -/
def scope (draft : Draft) : Scope :=
  ⟨draft.body, (draft.words.map fun v => (v.index, v)).reverse, [(0, ⟨0⟩)]⟩

/-- The draft with one more instruction. -/
def withInst (draft : Draft) (op : Operator) (args : List Value) : Draft :=
  ⟨draft.body.withInst draft.body.entry (.inst op args [.i32]),
    draft.words ++ [⟨draft.body.values.size⟩]⟩

/-- A draft of a body for a module that has all functions before this one. -/
structure Sound (module : Module) (draft : Draft) : Prop where
  body : draft.body.OfWords module.funcs.size
  returns : draft.body.returns = [.i32]
  words : ∀ v ∈ draft.words, v.index < draft.body.values.size

/-- A text of instructions makes the second draft out of the first, with at most `n` more values. -/
structure Grows (module : Module) (n : Nat) (draft draft' : Draft) : Prop where
  sound : draft'.Sound module
  size : draft'.body.values.size ≤ draft.body.values.size + n
  text : ∃ trees, Answers (draft.scope.addInsts module ⟨0⟩ trees) draft'.scope

namespace Grows

variable {n n' : Nat}

lemma refl (h : draft.Sound module) : draft.Grows module n draft :=
  ⟨h, Nat.le_add_right _ _, [], by rw [Scope.addInsts, answers_pure]⟩

lemma trans (h : draft.Grows module n draft') (h' : draft'.Grows module n' draft'') :
    draft.Grows module (n + n') draft'' where
  sound := h'.sound
  size := by
    have := h.size
    have := h'.size
    omega
  text := by
    obtain ⟨trees, htrees⟩ := h.text
    obtain ⟨trees', htrees'⟩ := h'.text
    exact ⟨trees ++ trees', Scope.addInsts_append htrees htrees'⟩

end Grows

/-! ### The text of a draft -/

lemma canonical_scope (draft : Draft) : draft.scope.canonical = draft.scope := by
  simp only [Scope.canonical, scope, List.map_reverse, List.map_map]
  rfl

lemma lookup_word {v : Value} (hv : v ∈ draft.words) :
    draft.scope.values.lookup v.index = some v := by
  have hmem : (v.index, v) ∈ draft.scope.values :=
    List.mem_reverse.2 (List.mem_map_of_mem (f := fun v : Value => (v.index, v)) hv)
  rw [← canonical_scope]
  exact lookup_index_of_mem hmem

lemma Sound.lookup_next (h : draft.Sound module) :
    draft.scope.values.lookup draft.body.values.size = none := by
  rw [← canonical_scope]
  refine lookup_index_eq_none fun p hp => ?_
  obtain ⟨v, hv, rfl⟩ := List.mem_map.1 (List.mem_reverse.1 hp)
  exact h.words v hv

lemma answers_operand {v : Value} (hv : v ∈ draft.words) :
    Answers (draft.scope.operand module 0 (.value v.index)) (v, draft.scope) :=
  Scope.answers_operand.2 (.inl ⟨v.index, rfl, lookup_word hv, rfl⟩)

lemma answers_operands (hargs : args ⊆ draft.words) :
    Answers (draft.scope.operands module 0 (args.map fun v => .value v.index))
      (args, draft.scope) := by
  induction args with
  | nil => exact Scope.answers_operands_nil.2 rfl
  | cons v args ih =>
    obtain ⟨hv, hargs⟩ := List.cons_subset.1 hargs
    exact Scope.answers_operands_cons.2 ⟨v, _, args, _, answers_operand hv, ih hargs, rfl⟩

/-- An instruction can be added if a text can say it. -/
lemma Sound.addInst {inputs : List ValueType} (h : draft.Sound module)
    (hroom : draft.body.values.size < Entity.limit) (hargs : args ⊆ draft.words)
    (htext : ∃ tree, Answers (draft.scope.operation module 0 tree) (op, args, draft.scope))
    (hinputs : (op.inputTypes module : Except Fault _) = .ok inputs)
    (htypes : ∀ type ∈ inputs, type = .i32) (hlength : args.length = inputs.length)
    (houtputs : (op.outputTypes module : Except Fault _) = .ok [.i32])
    (hcallee : ∀ callee, op = .call callee → callee.index < module.funcs.size) :
    (draft.addInst op args [.i32] : Except Fault _) = .ok (draft.withInst op args) ∧
      draft.Grows module 1 (draft.withInst op args) := by
  have hblock := h.body.entry_lt
  have hsize : (draft.withInst op args).body.values.size = draft.body.values.size + 1 :=
    Table.size_append _ _
  refine ⟨?_, ⟨h.body.withInst _ hcallee, h.returns, fun v hv => ?_⟩, hsize.le, ?_⟩
  · have happend : ((draft.body.withValue (.inst op args [.i32])).appendInst draft.body.entry
        ⟨draft.body.values.size⟩ : Except Fault _) =
          .ok (draft.body.withInst draft.body.entry (.inst op args [.i32])) :=
      Body.appendInst_eq_ok.2 ⟨hblock, rfl⟩
    exact bind_eq_ok.2 ⟨_, Body.addValue_eq_ok.2 ⟨hroom, rfl⟩, bind_eq_ok.2 ⟨_, happend, rfl⟩⟩
  · rw [hsize]
    rcases List.mem_append.1 hv with hv | hv
    · exact Nat.lt_succ_of_lt (h.words v hv)
    · rw [List.mem_singleton.1 hv]
      exact Nat.lt_succ_self _
  · obtain ⟨tree, htree⟩ := htext
    have hvalues := h.body.hasTypes (fun v hv => h.words v (hargs hv)) htypes hlength
    have hadd : Answers (draft.scope.addInst module draft.body.entry
        ⟨0, draft.body.values.size, tree⟩) (draft.withInst op args).scope :=
      Scope.answers_addInst.2 ⟨op, args, draft.scope, inputs, [.i32], htree, hinputs, hvalues,
        houtputs, hroom, hblock, h.lookup_next, by simp [withInst, scope]⟩
    rw [h.body.entry] at hadd
    exact ⟨[⟨0, draft.body.values.size, tree⟩], by simpa [Scope.addInsts] using hadd⟩

lemma Sound.addConst (h : draft.Sound module) (hroom : draft.body.values.size < Entity.limit)
    (value : UInt32) :
    (draft.addInst (.const32 value) [] [.i32] : Except Fault _) =
        .ok (draft.withInst (.const32 value) []) ∧
      draft.Grows module 1 (draft.withInst (.const32 value) []) := by
  refine h.addInst hroom (List.nil_subset _) ⟨.const32 value.toNat, ?_⟩ rfl (by simp) rfl rfl nofun
  exact Scope.answers_operation.2 ⟨Scope.fits_toNat_32 value, by rw [Scope.ofInt_toNat_32]⟩

lemma Sound.addSum (h : draft.Sound module) (hroom : draft.body.values.size < Entity.limit)
    {left right : Value} (hleft : left ∈ draft.words) (hright : right ∈ draft.words) :
    (draft.addInst (.binary .add32) [left, right] [.i32] : Except Fault _) =
        .ok (draft.withInst (.binary .add32) [left, right]) ∧
      draft.Grows module 1 (draft.withInst (.binary .add32) [left, right]) := by
  refine h.addInst hroom ?_ ⟨.binary .add32 (.value left.index) (.value right.index), ?_⟩ rfl
    (by simp [BinaryOp.operandType]) rfl rfl nofun
  · simp [hleft, hright]
  · exact Scope.answers_operation.2 ⟨left, _, right, _, answers_operand hleft,
      answers_operand hright, rfl⟩

lemma Sound.addCall (h : draft.Sound module) (hroom : draft.body.values.size < Entity.limit)
    {callee : Func} {type : FuncType} (htype : (module.funcType callee : Except Fault _) = .ok type)
    (hwords : type.OfWords) (hargs : args ⊆ draft.words)
    (hlength : args.length = type.params.length) :
    (draft.addInst (.call callee) args [.i32] : Except Fault _) =
        .ok (draft.withInst (.call callee) args) ∧
      draft.Grows module 1 (draft.withInst (.call callee) args) := by
  obtain ⟨decl, hdecl, -⟩ := Module.funcType_eq_ok.1 htype
  have hcallee := Table.get?_lt hdecl
  have hinputs : ((Operator.call callee).inputTypes module : Except Fault _) = .ok type.params := by
    simp [Operator.inputTypes, htype]
  refine h.addInst hroom hargs ⟨.call callee.index (args.map fun v => .value v.index), ?_⟩
    hinputs hwords.params hlength ?_ ?_
  · exact Scope.answers_operation.2 ⟨args, _, hcallee, answers_operands hargs, rfl⟩
  · simp [Operator.outputTypes, htype, hwords.returns]
  · rintro _ ⟨⟩
    exact hcallee

/-! ### Drawing instructions -/

lemma draws_drawArgs (first : Value) (others : List Value) (types : List ValueType) :
    Draws (drawArgs first others types) fun args =>
      args ⊆ first :: others ∧ args.length = types.length := by
  induction types with
  | nil => exact draws_pure ⟨List.nil_subset _, rfl⟩
  | cons type types ih =>
    refine (draws_choose first others).bind fun arg harg => ?_
    refine ih.bind fun args ⟨hargs, hlength⟩ => draws_pure ⟨?_, ?_⟩
    · exact List.cons_subset.2 ⟨harg, hargs⟩
    · rw [List.length_cons, List.length_cons, hlength]

lemma Sound.drawCall (h : draft.Sound module) (hroom : draft.body.values.size < Entity.limit)
    (hmodule : module.OfWords) (hfuncs : 0 < module.funcs.size) :
    Draws (draft.drawCall module) (draft.Grows module 1) := by
  refine (draws_upTo 8 (module.funcs.size - 1)).bind fun callee hcallee => ?_
  have hlt : (⟨callee⟩ : Func).index < module.funcs.size := by
    simp only
    omega
  obtain ⟨type, htype, hwords⟩ := hmodule.funcType hlt
  have hinputs : ((Operator.call ⟨callee⟩).inputTypes module : Except Fault _) = .ok type.params := by
    simp [Operator.inputTypes, htype]
  have houtputs : ((Operator.call ⟨callee⟩).outputTypes module : Except Fault _) = .ok [.i32] := by
    simp [Operator.outputTypes, htype, hwords.returns]
  have hcall {args : List Value} (hargs : args ⊆ draft.words)
      (hlength : args.length = type.params.length) :
      Draws (do
        let types ← liftM ((Operator.call ⟨callee⟩).outputTypes module : Except Fault _)
        liftM (draft.addInst (.call ⟨callee⟩) args types : Except Fault _)) (draft.Grows module 1) := by
    obtain ⟨hadd, hgrows⟩ := h.addCall hroom htype hwords hargs hlength
    refine (draws_ok houtputs).bind ?_
    rintro _ rfl
    exact draws_lift hadd hgrows
  refine (draws_ok hinputs).bind ?_
  rintro _ rfl
  split
  · rename_i hparams
    exact hcall (List.nil_subset _) (by simp [hparams])
  · exact draws_pure (.refl h)
  · rename_i first others hlist _
    refine (draws_drawArgs first others type.params).bind fun args hdrawn => ?_
    obtain ⟨hargs, hlength⟩ := hdrawn
    exact hcall (hlist ▸ hargs) hlength

lemma Sound.drawInst (h : draft.Sound module) (hroom : draft.body.values.size < Entity.limit)
    (hmodule : module.OfWords) : Draws (draft.drawInst module) (draft.Grows module 1) := by
  refine (draws_any _).bind fun kind _ => ?_
  split
  · refine (draws_any _).bind fun value _ => ?_
    obtain ⟨hadd, hgrows⟩ := h.addConst hroom value
    exact draws_lift hadd hgrows
  · rename_i first others hwords
    refine (draws_choose first others).bind fun left hleft => ?_
    refine (draws_choose first others).bind fun right hright => ?_
    rw [← hwords] at hleft hright
    obtain ⟨hadd, hgrows⟩ := h.addSum hroom hleft hright
    exact draws_lift hadd hgrows
  · split
    · exact draws_pure (.refl h)
    · rename_i hfuncs
      refine h.drawCall hroom hmodule (Nat.pos_of_ne_zero fun hzero => hfuncs ?_)
      exact Array.isEmpty_iff_size_eq_zero.2 hzero
  · exact draws_pure (.refl h)

lemma Sound.drawInsts (hmodule : module.OfWords) {n : Nat} (h : draft.Sound module)
    (hroom : draft.body.values.size + n ≤ Entity.limit) :
    Draws (drawInsts module n draft) (draft.Grows module n) := by
  induction n generalizing draft with
  | zero => exact draws_pure (.refl h)
  | succ n ih =>
    refine (h.drawInst (by omega) hmodule).bind fun draft' hgrows => ?_
    have hsize := hgrows.size
    have hrest := ih hgrows.sound (by omega)
    rw [Nat.add_comm n 1]
    exact hrest.imp fun draft'' hgrows' => hgrows.trans hgrows'

/-! ### Beginning and end of a body -/

/-- A body can end with the return of any word. -/
lemma Sound.exists_endBlock (h : draft.Sound module) {value : Value} (hvalue : value ∈ draft.words) :
    ∃ body, (draft.body.endBlock draft.body.entry (.ret [value]) : Except Fault _) = .ok body ∧
      body.OfWords module.funcs.size ∧ body.values = draft.body.values ∧
      Answers (draft.scope.terminator module 0 (.ret [.value value.index]))
        (.ret [value], draft.scope) := by
  have hword : [value] ⊆ draft.words := by simpa using hvalue
  have hvalues : ∀ v ∈ [value], v.index < draft.body.values.size :=
    fun v hv => h.words v (hword hv)
  have htypes : draft.body.HasTypes [value] draft.body.returns := by
    rw [h.returns]
    exact h.body.hasTypes hvalues (by simp) rfl
  refine ⟨_, bind_eq_ok.2 ⟨_, rfl, bind_eq_ok.2 ⟨_, Table.update_eq_ok.2 ⟨h.body.entry_lt, rfl⟩,
    rfl⟩⟩, ⟨h.body.entry, (Table.size_modify _ _ _).trans h.body.oneBlock, h.body.words, h.body.calls⟩,
    rfl, ?_⟩
  exact Scope.answers_terminator.2 ⟨[value], _, answers_operands hword, htypes, rfl⟩

/-- A finished body returns a word, which is added if there was none. -/
lemma Sound.exists_finish (h : draft.Sound module) (hroom : draft.body.values.size < Entity.limit) :
    ∃ draft' value, draft.Grows module 1 draft' ∧ value ∈ draft'.words ∧
      (draft.finish : Except Fault _) =
        draft'.body.endBlock draft'.body.entry (.ret [value]) := by
  unfold finish
  cases hlast : draft.words.getLast? with
  | some value => exact ⟨draft, value, .refl h, List.mem_of_getLast? hlast, rfl⟩
  | none =>
    obtain ⟨hadd, hgrows⟩ := h.addConst hroom 0
    have hwords : (draft.withInst (.const32 0) []).words = [⟨draft.body.values.size⟩] := by
      rw [withInst, List.getLast?_eq_none_iff.1 hlast, List.nil_append]
    refine ⟨_, _, hgrows, by rw [hwords]; exact List.mem_singleton_self _, ?_⟩
    rw [hadd, ok_bind, hwords]

/-- The draft that a body begins with, and how a text begins it. -/
lemma exists_start {type : FuncType} (hwords : type.OfWords)
    (hroom : type.params.length ≤ Entity.limit) :
    ∃ empty data, (Body.ofType type : Except Fault _) = .ok empty ∧
      empty.blocks.get? empty.entry = some data ∧ (⟨empty, data.paramValues⟩ : Draft).Sound module ∧
      empty.values.size = type.params.length ∧
      ∃ params, ∀ tree : BlockTree, tree.name = 0 → tree.params = params →
        Answers (Scope.openBlocks { body := empty } [] [tree])
          ([(tree, ⟨0⟩)], (⟨empty, data.paramValues⟩ : Draft).scope) := by
  obtain ⟨empty, hempty⟩ := Body.exists_ofType hroom
  obtain ⟨params, htypes, hopened, hheading⟩ := Body.opened_ofType hempty
  have hentry : empty.entry = ⟨0⟩ := congrArg (fun p => p.2.2) hheading
  have hone : empty.blocks.size = 1 := hopened.size_blocks
  obtain ⟨data, hdata⟩ : ∃ data, empty.blocks.get? empty.entry = some data := by
    apply Table.get?_of_lt
    rw [hentry, hone]
    exact Nat.one_pos
  obtain rfl : params = data.params := by simpa [hentry] using hopened.get?_block hdata
  have hparam : ∀ d ∈ empty.values.toList, ∃ position, d = .param ⟨0⟩ position .i32 := by
    intro d hd
    obtain ⟨v, hv⟩ := Table.get?_of_mem hd
    have hlisted : v ∈ [data.params].flatMap (List.map Prod.snd) :=
      hopened.order.mem_iff.2 ⟨Nat.zero_le _, Table.get?_lt hv⟩
    rw [List.flatMap_singleton] at hlisted
    obtain ⟨p, hp, rfl⟩ := List.mem_map.1 hlisted
    obtain ⟨position, hposition⟩ := List.getElem?_of_mem hp
    have hdef := hopened.defs (data.params, 0) (by simp) (p, position)
      (List.mk_mem_zipIdx_iff_getElem?.2 hposition)
    have hword : p.1 = .i32 := hwords.params p.1 (htypes ▸ List.mem_map_of_mem hp)
    rw [hv, hword] at hdef
    exact ⟨position, Option.some.inj hdef⟩
  refine ⟨empty, data, hempty, hdata, ⟨⟨hentry, hone, fun d hd => ?_, fun callee args types hmem => ?_⟩,
    (congrArg (fun p => p.2.1) hheading).trans hwords.returns, fun v hv => ?_⟩, ?_,
    data.params.map fun p => (p.2.index, p.1), fun tree hname hparams => ?_⟩
  · obtain ⟨position, rfl⟩ := hparam d hd
    rfl
  · obtain ⟨position, hposition⟩ := hparam _ hmem
    cases hposition
  · obtain ⟨p, hp, rfl⟩ := List.mem_map.1 hv
    exact hopened.index_lt (List.mem_singleton_self _) hp
  · rw [hopened.size_values, ← htypes]
    simp
  · have hdistinct : data.paramValues.Nodup := by
      simpa [BlockData.paramValues] using hopened.order.nodup
    have hopen := Scope.openEntry_answers hdata hdistinct hparams
    rw [hentry] at hopen
    refine Scope.answers_openBlocks_first.2 ⟨_, _, rfl, hopen, Scope.answers_openBlocks_nil.2 ?_⟩
    simp [scope, hname]

end Draft

/-- A body can be drawn for every function that computes a word from words, and a text says it. -/
lemma draws_drawBody {module : Module} {signature : Signature} {type : FuncType}
    (hmodule : module.OfWords) (htype : module.signatures.get? signature = some type)
    (hroom : type.params.length + maxInsts < Entity.limit) :
    Draws (drawBody module signature) fun body => body.OfWords module.funcs.size ∧
      body.values.size ≤ type.params.length + maxInsts + 1 ∧
      ∃ tree, Answers (resolveBody module signature [tree]) body := by
  have hwords := hmodule.types type (Table.mem_of_get? htype)
  obtain ⟨empty, data, hempty, hdata, hsound, hsize, params, hopen⟩ :=
    @Draft.exists_start module _ hwords (by omega)
  refine (draws_ok (Table.get_eq_ok.2 htype)).bind ?_
  rintro _ rfl
  refine (draws_ok hempty).bind ?_
  rintro _ rfl
  refine (draws_ok (Table.get_eq_ok.2 hdata)).bind ?_
  rintro _ rfl
  refine (draws_upTo 8 maxInsts).bind fun count hcount => ?_
  refine (hsound.drawInsts hmodule (show empty.values.size + count ≤ Entity.limit by omega)).bind
    fun draft hgrows => ?_
  have hdrawn := hgrows.size
  simp only [hsize] at hdrawn
  obtain ⟨draft', value, hgrows', hvalue, hfinish⟩ := hgrows.sound.exists_finish (by omega)
  obtain ⟨body, hend, hbody, hvalues, hterm⟩ := hgrows'.sound.exists_endBlock hvalue
  refine draws_lift (hfinish.trans hend) ⟨hbody, ?_, ?_⟩
  · have := hgrows'.size
    rw [hvalues]
    omega
  · obtain ⟨trees, htrees⟩ := (hgrows.trans hgrows').text
    rw [hgrows'.sound.body.entry] at hend
    let tree : BlockTree := ⟨0, 0, params, trees, .ret [.value value.index], 0⟩
    have hfill : Answers ((⟨empty, data.paramValues⟩ : Draft).scope.fillBlocks module [(tree, ⟨0⟩)])
        { draft'.scope with body } := by
      rw [Scope.fillBlocks, answers_bind]
      exact ⟨_, Scope.answers_fillBlock.2 ⟨_, _, _, body, htrees, hterm, hend, rfl⟩,
        answers_pure.2 rfl⟩
    exact ⟨tree, answers_resolveBody.2
      ⟨type, empty, _, _, _, htype, hempty, hopen tree rfl rfl, hfill, rfl⟩⟩

end Generate

end EntryTrace
