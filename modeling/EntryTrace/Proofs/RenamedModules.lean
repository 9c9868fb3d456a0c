import EntryTrace.Proofs.RenamedReaders
import EntryTrace.Proofs.TotalReading

/-!
# Names carry no meaning

Names of values and blocks are only looked up. Two trees that differ in such names resolve alike: to
the same module, or to errors of the same kind on the same line. So a text means the same whatever
the values and blocks in it are called.
-/

namespace EntryTrace

open Source

namespace Source

/-! ### Work that ends alike -/

section Alongside

variable {α α' β β' : Type} {R : α → β → Prop} {S : α' → β' → Prop}

/-- Two works run into the same fault, or end alike. -/
inductive Alongside (R : α → β → Prop) (x : Resolving (Except Fault) α)
    (y : Resolving (Except Fault) β) : Prop
  | fault (f : Fault) (hx : x.run = .error f) (hy : y.run = .error f)
  | ended {p : Except SourceError α} {q : Except SourceError β} (hx : x.run = .ok p)
    (hy : y.run = .ok q) (h : Parallel R p q)

variable {x : Resolving (Except Fault) α} {y : Resolving (Except Fault) β}
  {f : α → Resolving (Except Fault) α'} {g : β → Resolving (Except Fault) β'}

lemma alongside_pure {a : α} {b : β} (h : R a b) : Alongside R (pure a) (pure b) :=
  .ended rfl rfl (.ok h)

lemma alongside_refuse {line : Nat} {cause cause' : Cause} (h : cause.Alike cause') :
    Alongside R (refuse line cause) (refuse line cause') := .ended rfl rfl (.error h)

/-- A part of the text that is given already, or that could not be read. -/
lemma alongside_given {p : Except SourceError α} {q : Except SourceError β} (h : Parallel R p q) :
    Alongside R (ExceptT.mk (pure p)) (ExceptT.mk (pure q)) := .ended rfl rfl h

lemma Alongside.bind (hx : Alongside R x y) (hf : ∀ a b, R a b → Alongside S (f a) (g b)) :
    Alongside S (x >>= f) (y >>= g) := by
  cases hx with
  | fault fault hx hy =>
    exact .fault fault (by rw [ExceptT.run_bind, hx]; rfl) (by rw [ExceptT.run_bind, hy]; rfl)
  | ended hx hy h =>
    cases h with
    | error h =>
      exact .ended (by rw [ExceptT.run_bind, hx]; rfl) (by rw [ExceptT.run_bind, hy]; rfl) (.error h)
    | @ok a b h =>
      have hfx : (x >>= f).run = (f a).run := by rw [ExceptT.run_bind, hx]; rfl
      have hgy : (y >>= g).run = (g b).run := by rw [ExceptT.run_bind, hy]; rfl
      cases hf a b h with
      | fault fault hx hy => exact .fault fault (hfx.trans hx) (hgy.trans hy)
      | ended hx hy h => exact .ended (hfx.trans hx) (hgy.trans hy) h

/-- Both works answer the same. -/
lemma Alongside.bindEq {x y : Resolving (Except Fault) α} {f : α → Resolving (Except Fault) α'}
    {g : α → Resolving (Except Fault) β'} (hx : Alongside Eq x y)
    (hf : ∀ a, Alongside S (f a) (g a)) : Alongside S (x >>= f) (y >>= g) :=
  hx.bind fun a _ hab => hab ▸ hf a

/-- A step that is the same for both. -/
lemma alongside_step {x : Except Fault α} {f : α → Resolving (Except Fault) α'}
    {g : α → Resolving (Except Fault) β'} (hf : ∀ a, Alongside S (f a) (g a)) :
    Alongside S (step x >>= f) (step x >>= g) := by
  have hstep : Alongside Eq (step x) (step x) := by
    cases x with
    | error fault => exact .fault fault rfl rfl
    | ok a => exact .ended rfl rfl (.ok rfl)
  exact hstep.bindEq hf

end Alongside

/-! ### Looking names up -/

section Lookup

variable {α : Type} {P : Nat → Nat → Prop} {names names' : List (Nat × α)} {n n' : Nat}

/-- The same things under other names. -/
def NamesRenamed (P : Nat → Nat → Prop) (names names' : List (Nat × α)) : Prop :=
  List.Forall₂ (fun p p' => P p.1 p'.1 ∧ p'.2 = p.2) names names'

lemma lookup_renamed (hP : ∀ i i' j j', P i i' → P j j' → (i = j ↔ i' = j'))
    (h : NamesRenamed P names names') (hn : P n n') :
    names'.lookup n' = names.lookup n := by
  induction h with
  | nil => rfl
  | @cons p p' names names' hp _ ih =>
    obtain ⟨i, a⟩ := p
    obtain ⟨i', a'⟩ := p'
    obtain ⟨hi, rfl⟩ := hp
    have hiff := hP n n' i i' hn hi
    rw [List.lookup_cons, List.lookup_cons, ih]
    have hbeq : (n' == i') = (n == i) := by
      rw [Bool.eq_iff_iff, beq_iff_eq, beq_iff_eq, hiff]
    rw [hbeq]

end Lookup

variable {ren : Renaming}

lemma Renaming.values_iff (i i' j j' : Nat) (h : ren.Values i i') (h' : ren.Values j j') :
    i = j ↔ i' = j' := by
  obtain ⟨hi, rfl⟩ := h
  obtain ⟨hj, rfl⟩ := h'
  exact (ren.value_injOn.eq_iff hi hj).symm

lemma Renaming.blocks_iff (i i' j j' : Nat) (h : ren.Blocks i i') (h' : ren.Blocks j j') :
    i = j ↔ i' = j' := by
  obtain ⟨hi, rfl⟩ := h
  obtain ⟨hj, rfl⟩ := h'
  exact (ren.block_injOn.eq_iff hi hj).symm

namespace Scope

/-- The same body in the making, in which things have got other names. -/
structure Renamed (ren : Renaming) (s s' : Scope) : Prop where
  body : s'.body = s.body
  values : NamesRenamed ren.Values s.values s'.values
  blocks : NamesRenamed ren.Blocks s.blocks s'.blocks

/-- The same answer, with scopes in which things have got other names. -/
def AnswersRenamed {α : Type} (ren : Renaming) (r r' : α × Scope) : Prop :=
  r'.1 = r.1 ∧ r.2.Renamed ren r'.2

lemma alongside_bind {α β β' : Type} {x y : Resolving (Except Fault) (α × Scope)}
    {f : α × Scope → Resolving (Except Fault) β} {g : α × Scope → Resolving (Except Fault) β'}
    {S : β → β' → Prop} (hx : Alongside (AnswersRenamed ren) x y)
    (hf : ∀ a t t', Renamed ren t t' → Alongside S (f (a, t)) (g (a, t'))) :
    Alongside S (x >>= f) (y >>= g) := by
  refine hx.bind ?_
  rintro ⟨a, t⟩ ⟨_, t'⟩ ⟨rfl, ht⟩
  exact hf _ t t' ht

variable {s s' : Scope} {module : Module} {line : Nat} {block : Block}

lemma Renamed.withBody (h : s.Renamed ren s') (body : Body) :
    Renamed ren { s with body } { s' with body } := ⟨rfl, h.values, h.blocks⟩

lemma Renamed.withBlock (h : s.Renamed ren s') {name name' : Nat} (hname : ren.Blocks name name')
    (block : Block) :
    Renamed ren { s with blocks := (name, block) :: s.blocks }
      { s' with blocks := (name', block) :: s'.blocks } :=
  ⟨h.body, h.values, .cons ⟨hname, rfl⟩ h.blocks⟩

lemma alongside_define (h : s.Renamed ren s') {name name' : Nat} (hname : ren.Values name name')
    (value : Value) :
    Alongside (Renamed ren) (s.define line name value) (s'.define line name' value) := by
  have hlookup := lookup_renamed ren.values_iff h.values hname
  unfold define
  rw [hlookup]
  cases s.values.lookup name with
  | some _ => exact alongside_refuse .grammar
  | none => exact alongside_pure ⟨h.body, .cons ⟨hname, rfl⟩ h.values, h.blocks⟩

lemma alongside_defineAll (h : s.Renamed ren s') {names names' : List (Nat × Value)}
    (hnames : NamesRenamed ren.Values names names') :
    Alongside (Renamed ren) (s.defineAll line names) (s'.defineAll line names') := by
  induction hnames generalizing s s' with
  | nil => exact alongside_pure h
  | @cons p p' names names' hp _ ih =>
    obtain ⟨hname, hvalue⟩ := hp
    rw [defineAll, defineAll, hvalue]
    exact (alongside_define h hname p.2).bind fun t t' ht => ih ht

lemma alongside_addParams (h : s.Renamed ren s') {params params' : List (Nat × ValueType)}
    (hparams : List.Forall₂ (ParamRenamed ren) params params') :
    Alongside (Renamed ren) (s.addParams line block params) (s'.addParams line block params') := by
  induction hparams generalizing s s' with
  | nil => exact alongside_pure h
  | @cons param param' params params' hparam _ ih =>
    obtain ⟨hname, htype⟩ := hparam
    rw [addParams, addParams, htype, h.body]
    refine alongside_step fun r => ?_
    exact (alongside_define (h.withBody r.2) hname r.1).bind fun t t' ht => ih ht

lemma zip_renamed {params params' : List (Nat × ValueType)}
    (h : List.Forall₂ (ParamRenamed ren) params params') (values : List Value) :
    NamesRenamed ren.Values ((params.map Prod.fst).zip values)
      ((params'.map Prod.fst).zip values) := by
  induction h generalizing values with
  | nil => exact .nil
  | cons hparam _ ih =>
    cases values with
    | nil => exact .nil
    | cons value values => exact .cons ⟨hparam.1, rfl⟩ (ih values)

lemma alongside_openEntry (h : s.Renamed ren s') {tree tree' : BlockTree}
    (htree : tree.Renamed ren tree') :
    Alongside (AnswersRenamed ren) (s.openEntry tree) (s'.openEntry tree') := by
  have htypes : tree'.params.map Prod.snd = tree.params.map Prod.snd :=
    (map_eq_of_forall₂ (htree.params.imp fun _ _ hparam => hparam.2.symm)).symm
  unfold openEntry
  rw [h.body, htypes, htree.line]
  refine alongside_step fun data => ?_
  dsimp only
  split
  · exact alongside_refuse .typing
  · exact (alongside_defineAll h (zip_renamed htree.params _)).bind fun t t' ht =>
      alongside_pure ⟨rfl, ht⟩

lemma alongside_openNext (h : s.Renamed ren s') {tree tree' : BlockTree}
    (htree : tree.Renamed ren tree') :
    Alongside (AnswersRenamed ren) (s.openNext tree) (s'.openNext tree') := by
  unfold openNext
  rw [h.body, htree.line]
  refine alongside_step fun r => ?_
  exact (alongside_addParams (h.withBody r.2) htree.params).bind fun t t' ht =>
    alongside_pure ⟨rfl, ht⟩

/-- Trees of blocks that were opened as the same blocks. -/
def OpenedRenamed (ren : Renaming) (opened opened' : List (BlockTree × Block)) : Prop :=
  List.Forall₂ (fun p p' => p.1.Renamed ren p'.1 ∧ p'.2 = p.2) opened opened'

lemma alongside_openBlocks (h : s.Renamed ren s') {opened opened' : List (BlockTree × Block)}
    (hopened : OpenedRenamed ren opened opened') {trees trees' : List BlockTree}
    (htrees : List.Forall₂ (BlockTree.Renamed ren) trees trees') :
    Alongside (fun r r' => OpenedRenamed ren r.1 r'.1 ∧ r.2.Renamed ren r'.2)
      (s.openBlocks opened trees) (s'.openBlocks opened' trees') := by
  induction htrees generalizing s s' opened opened' with
  | nil => exact alongside_pure ⟨List.rel_reverse hopened, h⟩
  | @cons tree tree' trees trees' htree _ ih =>
    have hlookup := lookup_renamed ren.blocks_iff h.blocks htree.name
    rw [openBlocks, openBlocks, hlookup, htree.line]
    split
    · exact alongside_refuse .grammar
    · cases hopened with
      | nil =>
        refine alongside_bind (alongside_openEntry h htree) fun block t t' ht => ?_
        exact ih (ht.withBlock htree.name block) (.cons ⟨htree, rfl⟩ .nil)
      | cons hlast hopened =>
        refine alongside_bind (alongside_openNext h htree) fun block t t' ht => ?_
        exact ih (ht.withBlock htree.name block) (.cons ⟨htree, rfl⟩ (.cons hlast hopened))

lemma alongside_operand (h : s.Renamed ren s') {tree tree' : OperandTree}
    (htree : tree.Renamed ren tree') :
    Alongside (AnswersRenamed ren) (s.operand module line tree) (s'.operand module line tree') := by
  cases htree with
  | value hname =>
    have hlookup := lookup_renamed ren.values_iff h.values hname
    unfold operand
    dsimp only
    rw [hlookup]
    split
    · exact alongside_pure ⟨rfl, h⟩
    · exact alongside_refuse .undefined
  | str index =>
    unfold operand
    dsimp only
    rw [h.body]
    split
    · exact alongside_step fun r => alongside_pure ⟨rfl, h.withBody r.2⟩
    · exact alongside_refuse .undefined

lemma alongside_operands (h : s.Renamed ren s') {trees trees' : List OperandTree}
    (htrees : List.Forall₂ (OperandTree.Renamed ren) trees trees') :
    Alongside (AnswersRenamed ren) (s.operands module line trees)
      (s'.operands module line trees') := by
  induction htrees generalizing s s' with
  | nil => exact alongside_pure ⟨rfl, h⟩
  | cons htree _ ih =>
    refine alongside_bind (alongside_operand h htree) fun value t t' ht => ?_
    exact alongside_bind (ih ht) fun values u u' hu => alongside_pure ⟨rfl, hu⟩

/-- What an error calls the consumer of the operands does not matter. -/
lemma alongside_checkTypes (body : Body) (consumer consumer' : Consumer) (values : List Value)
    (types : List ValueType) :
    Alongside (fun _ _ => True) (checkTypes body line consumer values types)
      (checkTypes body line consumer' values types) := by
  have heach (position : Nat) : Alongside (fun _ _ => True)
      (checkEach body line consumer position values types)
      (checkEach body line consumer' position values types) := by
    induction values generalizing types position with
    | nil => exact alongside_pure trivial
    | cons value values ih =>
      cases types with
      | nil => exact alongside_pure trivial
      | cons type types =>
        refine alongside_step fun found => ?_
        split
        · split
          · exact ih types (position + 1)
          · exact alongside_refuse .typing
        · exact alongside_refuse .typing
  unfold checkTypes
  split
  · exact alongside_refuse .typing
  · exact heach 0

lemma alongside_operation (h : s.Renamed ren s') {tree tree' : OpTree}
    (htree : tree.Renamed ren tree') :
    Alongside (fun r r' => r'.1 = r.1 ∧ AnswersRenamed ren r.2 r'.2) (s.operation module line tree)
      (s'.operation module line tree') := by
  cases htree with
  | nop => exact alongside_pure ⟨rfl, rfl, h⟩
  | const32 value =>
    unfold operation
    dsimp only
    split
    · exact alongside_pure ⟨rfl, rfl, h⟩
    · exact alongside_refuse .typing
  | const64 value =>
    unfold operation
    dsimp only
    split
    · exact alongside_pure ⟨rfl, rfl, h⟩
    · exact alongside_refuse .typing
  | binary op hleft hright =>
    refine alongside_bind (alongside_operand h hleft) fun left t t' ht => ?_
    refine alongside_bind (alongside_operand ht hright) fun right u u' hu => ?_
    exact alongside_pure ⟨rfl, rfl, hu⟩
  | call callee hargs =>
    unfold operation
    dsimp only
    split
    · refine alongside_bind (alongside_operands h hargs) fun args t t' ht => ?_
      exact alongside_pure ⟨rfl, rfl, ht⟩
    · exact alongside_refuse .undefined

lemma alongside_addInst (h : s.Renamed ren s') {tree tree' : InstTree}
    (htree : tree.Renamed ren tree') :
    Alongside (Renamed ren) (s.addInst module block tree) (s'.addInst module block tree') := by
  unfold addInst
  rw [htree.line]
  refine (alongside_operation h htree.op).bind ?_
  rintro ⟨op, args, t⟩ ⟨op', args', t'⟩ ⟨hop, hargs, ht⟩
  obtain rfl : op' = op := hop
  obtain rfl : args' = args := hargs
  refine alongside_step fun inputs => ?_
  rw [ht.body]
  refine (alongside_checkTypes _ _ _ _ _).bind fun _ _ _ => ?_
  refine alongside_step fun outputs => ?_
  refine alongside_step fun r => ?_
  refine alongside_step fun body => ?_
  exact alongside_define (ht.withBody body) htree.result r.1

lemma alongside_addInsts (h : s.Renamed ren s') {trees trees' : List InstTree}
    (htrees : List.Forall₂ (InstTree.Renamed ren) trees trees') :
    Alongside (Renamed ren) (s.addInsts module block trees) (s'.addInsts module block trees') := by
  induction htrees generalizing s s' with
  | nil => exact alongside_pure h
  | cons htree _ ih => exact (alongside_addInst h htree).bind fun t t' ht => ih ht

lemma alongside_target (h : s.Renamed ren s') {tree tree' : TargetTree}
    (htree : tree.Renamed ren tree') :
    Alongside (AnswersRenamed ren) (s.target module line tree) (s'.target module line tree') := by
  have hlookup := lookup_renamed ren.blocks_iff h.blocks htree.block
  unfold target
  rw [hlookup]
  cases s.blocks.lookup tree.block with
  | none => exact alongside_refuse .undefined
  | some block =>
    refine alongside_bind (alongside_operands h htree.args) fun args t t' ht => ?_
    dsimp only
    rw [ht.body]
    refine alongside_step fun data => ?_
    exact (alongside_checkTypes _ _ _ _ _).bind fun _ _ _ => alongside_pure ⟨rfl, ht⟩

lemma alongside_terminator (h : s.Renamed ren s') {tree tree' : TermTree}
    (htree : tree.Renamed ren tree') :
    Alongside (AnswersRenamed ren) (s.terminator module line tree)
      (s'.terminator module line tree') := by
  cases htree with
  | jump htarget =>
    refine alongside_bind (alongside_target h htarget) fun target t t' ht => ?_
    exact alongside_pure ⟨rfl, ht⟩
  | branch hcond htrue hfalse =>
    refine alongside_bind (alongside_operand h hcond) fun cond t t' ht => ?_
    dsimp only
    rw [ht.body]
    refine (alongside_checkTypes _ _ _ _ _).bind fun _ _ _ => ?_
    refine alongside_bind (alongside_target ht htrue) fun onTrue u u' hu => ?_
    refine alongside_bind (alongside_target hu hfalse) fun onFalse v v' hv => ?_
    exact alongside_pure ⟨rfl, hv⟩
  | ret hvalues =>
    refine alongside_bind (alongside_operands h hvalues) fun values t t' ht => ?_
    dsimp only
    rw [ht.body]
    exact (alongside_checkTypes _ _ _ _ _).bind fun _ _ _ => alongside_pure ⟨rfl, ht⟩
  | unreachable => exact alongside_pure ⟨rfl, h⟩

lemma alongside_fillBlocks (h : s.Renamed ren s') {opened opened' : List (BlockTree × Block)}
    (hopened : OpenedRenamed ren opened opened') :
    Alongside (Renamed ren) (s.fillBlocks module opened) (s'.fillBlocks module opened') := by
  induction hopened generalizing s s' with
  | nil => exact alongside_pure h
  | @cons p p' opened opened' hp _ ih =>
    obtain ⟨tree, block⟩ := p
    obtain ⟨tree', block'⟩ := p'
    obtain ⟨htree, hblock⟩ := hp
    obtain rfl : block' = block := hblock
    have hfill : Alongside (Renamed ren) (s.fillBlock module tree block')
        (s'.fillBlock module tree' block') := by
      unfold fillBlock
      rw [htree.termLine]
      refine (alongside_addInsts h htree.insts).bind fun t t' ht => ?_
      refine alongside_bind (alongside_terminator ht htree.term) fun term u u' hu => ?_
      dsimp only
      rw [hu.body]
      exact alongside_step fun body => alongside_pure (hu.withBody body)
    exact hfill.bind fun t t' ht => ih ht

end Scope

/-! ### Bodies and modules -/

variable {module : Module}

lemma alongside_resolveBody (signature : Signature) {trees trees' : List BlockTree}
    (htrees : List.Forall₂ (BlockTree.Renamed ren) trees trees') :
    Alongside Eq (resolveBody module signature trees) (resolveBody module signature trees') := by
  refine alongside_step fun type => ?_
  refine alongside_step fun body => ?_
  have hstart : Scope.Renamed ren { body } { body } := ⟨rfl, .nil, .nil⟩
  refine (Scope.alongside_openBlocks hstart .nil htrees).bind fun r r' ⟨hopened, hr⟩ => ?_
  exact (Scope.alongside_fillBlocks hr hopened).bind fun t t' ht => alongside_pure ht.body.symm

lemma alongside_declareFuncs {trees trees' : List FuncTree}
    (htrees : List.Forall₂ FuncTree.Renamed trees trees') :
    Alongside Eq (declareFuncs module trees) (declareFuncs module trees') := by
  induction htrees generalizing module with
  | nil => exact alongside_pure rfl
  | @cons tree tree' trees trees' htree _ ih =>
    have hbody : tree'.blocks?.isSome = tree.blocks?.isSome := by
      have hblocks := htree.blocks
      generalize tree.blocks? = blocks at hblocks ⊢
      generalize tree'.blocks? = blocks' at hblocks ⊢
      cases hblocks <;> rfl
    rw [declareFuncs, declareFuncs, htree.signature, htree.line, htree.name, hbody]
    split
    · exact alongside_step fun r => ih
    · exact alongside_refuse .undefined

lemma alongside_defineFuncs {trees trees' : List FuncTree} (index : Nat)
    (htrees : List.Forall₂ FuncTree.Renamed trees trees') :
    Alongside Eq (defineFuncs module index trees) (defineFuncs module index trees') := by
  induction htrees generalizing module index with
  | nil => exact alongside_pure rfl
  | @cons tree tree' trees trees' htree _ ih =>
    have hblocks := htree.blocks
    rw [defineFuncs, defineFuncs, htree.signature]
    generalize tree.blocks? = blocks at hblocks ⊢
    generalize tree'.blocks? = blocks' at hblocks ⊢
    cases hblocks with
    | none => exact ih (index + 1)
    | some hblocks =>
      obtain ⟨ren, hblocks⟩ := hblocks
      refine (alongside_resolveBody _ hblocks).bindEq fun body => ?_
      refine alongside_step fun _ => ?_
      exact alongside_step fun funcs => ih (index + 1)

theorem resolve_renamed {tree tree' : ModuleTree} (h : tree.Renamed tree') :
    Alongside Eq (resolve tree) (resolve tree') := by
  rw [resolve, resolve, h.types, h.strings]
  refine alongside_step fun m1 => ?_
  refine alongside_step fun m2 => ?_
  refine (alongside_declareFuncs h.funcs).bindEq fun m3 => ?_
  exact alongside_defineFuncs 0 h.funcs

end Source

/-- Reading two such texts, each step ends alike. -/
lemma alongside_ofText {r : Nat → Renaming} {text text' : String}
    (h : Renamed r 0 text.toList text'.toList) :
    Alongside Eq (ExceptT.mk (Module.ofText text)) (ExceptT.mk (Module.ofText text')) := by
  unfold Module.ofText
  simp only [note_silent]
  refine (alongside_given (tokens_renamed h)).bind fun located located' hlocated => ?_
  refine alongside_step fun _ => ?_
  refine (alongside_given (parse_renamed hlocated)).bind fun tree tree' htree => ?_
  refine (resolve_renamed htree).bindEq fun m => ?_
  exact alongside_step fun _ => alongside_pure rfl

/-- Names of values and blocks carry no meaning: two texts that differ in them alone are read as the
same module, or refused with errors of the same kind on the same line. -/
theorem ofText_renamed {r : Nat → Renaming} {text text' : String} (hlength : text.length < Entity.limit)
    (h : Renamed r 0 text.toList text'.toList) :
    (∃ m : Module, (Module.ofText text : Except Fault (Except SourceError Module)) = .ok (.ok m) ∧
      (Module.ofText text' : Except Fault (Except SourceError Module)) = .ok (.ok m)) ∨
    ∃ (line : Nat) (cause cause' : Cause),
      (Module.ofText text : Except Fault (Except SourceError Module)) = .ok (.error ⟨line, cause⟩) ∧
      (Module.ofText text' : Except Fault (Except SourceError Module)) =
        .ok (.error ⟨line, cause'⟩) ∧ cause.Alike cause' := by
  obtain ⟨answer, hanswer⟩ := exists_ofText hlength
  cases alongside_ofText h with
  | fault fault hfault _ =>
    rw [ExceptT.run_mk, hanswer] at hfault
    cases hfault
  | ended hm hm' h =>
    cases h with
    | @ok m m' h => exact .inl ⟨m, hm, h ▸ hm'⟩
    | @error line cause cause' h => exact .inr ⟨line, cause, cause', hm, hm', h⟩

/-! ### Two functions with other names -/

lemma xor_involutive (n : Nat) : Function.Involutive fun i : Nat => i ^^^ n :=
  fun i => Nat.xor_xor_cancel_right i n

/-- Numbers are exchanged by flipping bits. -/
def flipping (value block : Nat) : Renaming where
  value i := i ^^^ value
  block i := i ^^^ block
  value_injOn := (xor_involutive value).injective.injOn
  block_injOn := (xor_involutive block).injective.injOn

lemma inRange_flipping {value block : Nat} (hvalue : value < 2 ^ 64) (hblock : block < 2 ^ 64) :
    (flipping value block).InRange where
  value _ hi := Nat.xor_lt_two_pow hi hvalue
  block _ hi := Nat.xor_lt_two_pow hi hblock

def twoFuncsText : String :=
  "module \x7bsig0=(i32)->(i32)#v0
func0=func\"v0\":sig0\x7bblock0(v0:i32):br block1(v0)block1(v1:i32):return v1\x7d
func1=func\"f\":sig0\x7bblock0(v0:i32):return v0\x7d\x7d"

/-- The same text with other names, which are not the same ones in both functions. -/
def otherTwoFuncsText : String :=
  "module \x7bsig0=(i32)->(i32)#v0
func0=func\"v0\":sig0\x7bblock1(v4:i32):br block0(v4)block0(v5:i32):return v5\x7d
func1=func\"f\":sig0\x7bblock2(v1:i32):return v1\x7d\x7d"

/-- The names in the first function and in the second one are exchanged in different ways. -/
def twoRenamings (k : Nat) : Renaming := if k = 0 then flipping 4 1 else flipping 1 2

lemma inRange_twoRenamings (k : Nat) : (twoRenamings k).InRange := by
  unfold twoRenamings
  split
  · exact inRange_flipping (by decide) (by decide)
  · exact inRange_flipping (by decide) (by decide)

set_option maxRecDepth 4000 in
lemma renameText_twoFuncsText :
    renameText twoRenamings 0 twoFuncsText.toList = otherTwoFuncsText.toList := by
  have hchars : twoFuncsText.toList = _ := String.toList_ofList
  have hotherChars : otherTwoFuncsText.toList = _ := String.toList_ofList
  rw [hchars, hotherChars]
  decide +kernel

set_option maxRecDepth 4000 in
lemma length_twoFuncsText : twoFuncsText.length < Entity.limit := by
  have hlength : twoFuncsText.length = _ := String.length_ofList
  rw [hlength]
  decide +kernel

set_option maxRecDepth 4000 in
lemma exists_ofText_twoFuncsText : ∃ m : Module,
    (Module.ofText twoFuncsText : Except Fault (Except SourceError Module)) = .ok (.ok m) :=
  exists_ofText_ofList (by decide +kernel)

theorem ofText_renamed_twoFuncsText :
    twoFuncsText.length < Entity.limit ∧
      Renamed twoRenamings 0 twoFuncsText.toList otherTwoFuncsText.toList ∧
      ∃ m : Module,
        (Module.ofText twoFuncsText : Except Fault (Except SourceError Module)) = .ok (.ok m) ∧
        (Module.ofText otherTwoFuncsText : Except Fault (Except SourceError Module)) =
          .ok (.ok m) := by
  have hrenamed : Renamed twoRenamings 0 twoFuncsText.toList otherTwoFuncsText.toList := by
    rw [← renameText_twoFuncsText]
    exact renamed_renameText inRange_twoRenamings 0 twoFuncsText.toList
  refine ⟨length_twoFuncsText, hrenamed, ?_⟩
  obtain ⟨m, hm⟩ := exists_ofText_twoFuncsText
  obtain hmodule | ⟨line, cause, cause', herror, -, -⟩ := ofText_renamed length_twoFuncsText hrenamed
  · exact hmodule
  · rw [hm] at herror
    cases herror

end EntryTrace
