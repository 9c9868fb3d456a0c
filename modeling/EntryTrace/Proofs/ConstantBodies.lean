import EntryTrace.Proofs.ConstantSites
import EntryTrace.Proofs.CheckedBlocks

/-!
# Bodies with another constant

A number that does not fit is refused where it is met, with all that comes before it in order. One
that fits becomes a value of the body. What comes later sees no more of that value than its type, so
with another number the same body comes about but for this one value.
-/

namespace EntryTrace

open Source

/-- A body in which one value comes about in another way. -/
def Body.withDef (body : Body) (value : Value) (d : Def) : Body :=
  { body with values := body.values.modify value fun _ => d }

lemma Table.modify_append_of_lt {kind : Kind} {α : Type} {t : Table kind α} {e : Entity kind}
    (h : e.index < t.size) (a : α) (f : α → α) :
    (t.append a).modify e f = (t.modify e f).append a := by
  apply Table.ext_get?
  intro e'
  rw [Table.get?_modify, Table.get?_append, Table.get?_append, Table.size_modify, Table.get?_modify]
  by_cases he : e' = e
  · have hne : e'.index ≠ t.size := by
      rw [he]
      omega
    rw [if_neg hne, if_neg hne]
  · rw [if_neg he, if_neg he]

namespace Body

variable {body : Body} {v : Value} {d₀ d : Def}

lemma get?_withDef (h : body.values.get? v = some d₀) : (body.withDef v d).values.get? v = some d := by
  rw [withDef, Table.get?_modify, if_pos rfl, h]
  rfl

@[simp] lemma size_withDef : (body.withDef v d).values.size = body.values.size :=
  Table.size_modify _ _ _

/-- Types do not show which of two definitions of one type a value has. -/
lemma hasTypes_withDef (h : body.values.get? v = some d₀) (htype : d.type? = d₀.type?)
    {values : List Value} {types : List ValueType} (hall : body.HasTypes values types) :
    (body.withDef v d).HasTypes values types := by
  refine List.Forall₂.imp (fun value type hvalue => ?_) hall
  rw [withDef, Table.get?_modify]
  split
  · rename_i heq
    rw [heq, h] at hvalue ⊢
    exact htype.trans hvalue
  · exact hvalue

lemma withValue_withDef (h : body.values.get? v = some d₀) (e : Def) :
    (body.withDef v d).withValue e = (body.withValue e).withDef v d := by
  rw [withValue, withDef, withValue, withDef, Table.modify_append_of_lt (Table.get?_lt h)]

lemma withInst_withDef (h : body.values.get? v = some d₀) (block : Block) (e : Def) :
    (body.withDef v d).withInst block e = (body.withInst block e).withDef v d := by
  rw [withInst, withInst, withValue_withDef h, size_withDef]
  rfl

lemma get?_withValue (h : body.values.get? v = some d₀) (e : Def) :
    (body.withValue e).values.get? v = some d₀ := by
  rw [withValue, Table.get?_append_of_lt (Table.get?_lt h), h]

lemma endBlock_withDef (block : Block) (term : Terminator) :
    ((body.withDef v d).endBlock block term : Except Fault _) =
      (fun b => b.withDef v d) <$> body.endBlock block term := by
  have hedges (destinations : List Block) (body : Body) :
      ((body.withDef v d).addEdges block destinations : Except Fault _) =
        (fun b => b.withDef v d) <$> body.addEdges block destinations := by
    induction destinations generalizing body with
    | nil => rfl
    | cons destination rest ih =>
      have hedge : ((body.withDef v d).addEdge block destination : Except Fault _) =
          (fun b => b.withDef v d) <$> body.addEdge block destination := by
        simp only [addEdge, map_bind, map_pure]
        rfl
      rw [addEdges, addEdges, hedge, map_bind, bind_map_left]
      exact congrArg _ (funext fun next => ih next)
  rw [endBlock, endBlock, hedges, map_bind, bind_map_left]
  refine congrArg _ (funext fun next => ?_)
  simp only [map_bind, map_pure]
  rfl

end Body

namespace Source

/-! ### What comes after a constant -/

namespace Scope

/-- A scope in whose body one value comes about in another way. -/
def withDef (scope : Scope) (value : Value) (d : Def) : Scope :=
  { scope with body := scope.body.withDef value d }

variable {scope t : Scope} {module : Module} {line : Nat} {block : Block} {v : Value} {d₀ d : Def}

@[simp] lemma size_withDef : (scope.withDef v d).body.values.size = scope.body.values.size :=
  Body.size_withDef

lemma operand_withDef (hv : scope.body.values.get? v = some d₀) {tree : OperandTree}
    {r : Value × Scope} (h : Answers (scope.operand module line tree) r) :
    r.2.body.values.get? v = some d₀ ∧
      Answers ((scope.withDef v d).operand module line tree) (r.1, r.2.withDef v d) := by
  obtain ⟨value, t⟩ := r
  obtain ⟨name, rfl, hname, rfl⟩ | ⟨index, rfl, hindex, hsize, rfl, rfl⟩ := answers_operand.1 h
  · exact ⟨hv, answers_operand.2 (.inl ⟨name, rfl, hname, rfl⟩)⟩
  · refine ⟨Body.get?_withValue hv _, answers_operand.2 (.inr ⟨index, rfl, hindex, ?_, ?_, ?_⟩)⟩
    · rwa [size_withDef]
    · simp
    · rw [withDef, withDef, Body.withValue_withDef hv]

lemma operands_withDef (hv : scope.body.values.get? v = some d₀) {trees : List OperandTree}
    {r : List Value × Scope} (h : Answers (scope.operands module line trees) r) :
    r.2.body.values.get? v = some d₀ ∧
      Answers ((scope.withDef v d).operands module line trees) (r.1, r.2.withDef v d) := by
  induction trees generalizing scope r with
  | nil =>
    obtain rfl := answers_operands_nil.1 h
    exact ⟨hv, answers_operands_nil.2 rfl⟩
  | cons tree trees ih =>
    obtain ⟨value, s, values, t, hvalue, hvalues, rfl⟩ := answers_operands_cons.1 h
    obtain ⟨hs, hvalue'⟩ := operand_withDef hv hvalue
    obtain ⟨ht, hvalues'⟩ := ih hs hvalues
    exact ⟨ht, answers_operands_cons.2 ⟨value, _, values, _, hvalue', hvalues', rfl⟩⟩

lemma operation_withDef (hv : scope.body.values.get? v = some d₀) {tree : OpTree}
    {r : Operator × List Value × Scope} (h : Answers (scope.operation module line tree) r) :
    r.2.2.body.values.get? v = some d₀ ∧
      Answers ((scope.withDef v d).operation module line tree) (r.1, r.2.1, r.2.2.withDef v d) := by
  rw [answers_operation] at h ⊢
  cases tree with
  | nop =>
    subst h
    exact ⟨hv, rfl⟩
  | const32 | const64 =>
    obtain ⟨hfits, rfl⟩ := h
    exact ⟨hv, hfits, rfl⟩
  | binary op left right =>
    obtain ⟨a, s, b, t, hleft, hright, rfl⟩ := h
    obtain ⟨hs, hleft'⟩ := operand_withDef hv hleft
    obtain ⟨ht, hright'⟩ := operand_withDef hs hright
    exact ⟨ht, a, _, b, _, hleft', hright', rfl⟩
  | call callee args =>
    obtain ⟨values, t, hcallee, hargs, rfl⟩ := h
    obtain ⟨ht, hargs'⟩ := operands_withDef hv hargs
    exact ⟨ht, values, _, hcallee, hargs', rfl⟩

/-- Work that sees of the definition of a value no more than its type. -/
def Indifferent (f : Scope → Resolving (Except Fault) Scope) : Prop :=
  ∀ s t v d₀ d, d.type? = d₀.type? → s.body.values.get? v = some d₀ → Answers (f s) t →
    t.body.values.get? v = some d₀ ∧ Answers (f (s.withDef v d)) (t.withDef v d)

lemma Indifferent.bind {f g : Scope → Resolving (Except Fault) Scope} (hf : Indifferent f)
    (hg : Indifferent g) : Indifferent fun s => f s >>= g := by
  intro s u v d₀ d htype hv h
  obtain ⟨t, ht, hu⟩ := answers_bind.1 h
  obtain ⟨hv', ht'⟩ := hf s t v d₀ d htype hv ht
  obtain ⟨hv'', hu'⟩ := hg t u v d₀ d htype hv' hu
  exact ⟨hv'', answers_bind.2 ⟨_, ht', hu'⟩⟩

lemma indifferent_addInst (tree : InstTree) :
    Indifferent fun s => s.addInst module block tree := by
  intro scope t v d₀ d htype hv h
  obtain ⟨op, args, s, inputs, outputs, hop, hin, htypes, hout, hsize, hblock, hname, rfl⟩ :=
    answers_addInst.1 h
  obtain ⟨hs, hop'⟩ := operation_withDef hv hop
  refine ⟨Body.get?_withValue hs _, answers_addInst.2 ⟨op, args, _, inputs, outputs, hop', hin,
    Body.hasTypes_withDef hs htype htypes, hout, ?_, hblock, hname, ?_⟩⟩
  · rwa [size_withDef]
  · simp only [withDef, Body.withInst_withDef hs, Body.size_withDef]

lemma indifferent_addInsts (trees : List InstTree) :
    Indifferent fun s => s.addInsts module block trees := by
  induction trees with
  | nil =>
    intro s t v d₀ d _ hv h
    obtain rfl := answers_pure.1 h
    exact ⟨hv, answers_pure.2 rfl⟩
  | cons tree trees ih => exact (indifferent_addInst tree).bind ih

section Terminators

variable (htype : d.type? = d₀.type?) (hv : scope.body.values.get? v = some d₀)
include htype

include hv in
lemma target_withDef {tree : TargetTree} {r : Target × Scope}
    (h : Answers (scope.target module line tree) r) : r.2.body.values.get? v = some d₀ ∧
      Answers ((scope.withDef v d).target module line tree) (r.1, r.2.withDef v d) := by
  obtain ⟨block, args, t, data, hblock, hargs, hdata, htypes, rfl⟩ := answers_target.1 h
  obtain ⟨ht, hargs'⟩ := operands_withDef hv hargs
  exact ⟨ht, answers_target.2 ⟨block, args, _, data, hblock, hargs', hdata,
    Body.hasTypes_withDef ht htype htypes, rfl⟩⟩

include hv in
lemma terminator_withDef {tree : TermTree} {r : Terminator × Scope}
    (h : Answers (scope.terminator module line tree) r) : r.2.body.values.get? v = some d₀ ∧
      Answers ((scope.withDef v d).terminator module line tree) (r.1, r.2.withDef v d) := by
  rw [answers_terminator] at h ⊢
  cases tree with
  | jump target =>
    obtain ⟨a, t, htarget, rfl⟩ := h
    obtain ⟨ht, htarget'⟩ := target_withDef htype hv htarget
    exact ⟨ht, a, _, htarget', rfl⟩
  | branch cond onTrue onFalse =>
    obtain ⟨c, s, a, s', b, t, hcond, htypes, htrue, hfalse, rfl⟩ := h
    obtain ⟨hs, hcond'⟩ := operand_withDef hv hcond
    obtain ⟨hs', htrue'⟩ := target_withDef htype hs htrue
    obtain ⟨ht, hfalse'⟩ := target_withDef htype hs' hfalse
    exact ⟨ht, c, _, a, _, b, _, hcond', Body.hasTypes_withDef hs htype htypes, htrue', hfalse', rfl⟩
  | ret values =>
    obtain ⟨args, t, hvalues, htypes, rfl⟩ := h
    obtain ⟨ht, hvalues'⟩ := operands_withDef hv hvalues
    exact ⟨ht, args, _, hvalues', Body.hasTypes_withDef ht htype htypes, rfl⟩
  | unreachable =>
    subst h
    exact ⟨hv, rfl⟩

end Terminators

/-- Ending a block once its instructions are there. -/
def close (scope : Scope) (module : Module) (tree : BlockTree) (block : Block) :
    Resolving (Except Fault) Scope := do
  let (terminator, scope) ← scope.terminator module tree.termLine tree.term
  let body ← step (scope.body.endBlock block terminator)
  pure { scope with body }

lemma fillBlock_eq (tree : BlockTree) : scope.fillBlock module tree block =
    scope.addInsts module block tree.insts >>= fun s => s.close module tree block := rfl

lemma indifferent_close (tree : BlockTree) : Indifferent fun s => s.close module tree block := by
  intro s t v d₀ d htype hv h
  simp only [close, answers_bind, answers_step, answers_pure, Prod.exists] at h
  obtain ⟨terminator, s', hterm, body, hend, rfl⟩ := h
  obtain ⟨hs', hterm'⟩ := terminator_withDef htype hv hterm
  refine ⟨?_, ?_⟩
  · rw [(Body.endBlock_effect hend).1]
    exact hs'
  · simp only [close, answers_bind, answers_step, answers_pure, Prod.exists]
    refine ⟨terminator, _, hterm', body.withDef v d, ?_, rfl⟩
    rw [withDef, Body.endBlock_withDef, hend]
    rfl

lemma indifferent_fillBlocks (opened : List (BlockTree × Block)) :
    Indifferent fun s => s.fillBlocks module opened := by
  induction opened with
  | nil =>
    intro s t v d₀ d _ hv h
    obtain rfl := answers_pure.1 h
    exact ⟨hv, answers_pure.2 rfl⟩
  | cons p opened ih =>
    exact ((indifferent_addInsts p.1.insts).bind (indifferent_close p.1)).bind ih

end Scope

/-! ### The constant -/

namespace Width

def bits : Width → Nat
  | .i32 => 32
  | .i64 => 64

def type : Width → ValueType
  | .i32 => .i32
  | .i64 => .i64

/-- The operator of a constant. -/
def operator : Width → Int → Operator
  | .i32, n => .const32 (UInt32.ofInt n)
  | .i64, n => .const64 (UInt64.ofInt n)

/-- The numbers that a constant may have: those of its type read as signed or as unsigned. -/
def Fits (width : Width) (n : Int) : Prop := -2 ^ (width.bits - 1) ≤ n ∧ n ≤ 2 ^ width.bits - 1

lemma fits_iff {width : Width} {n : Int} : Scope.fits width.bits n = true ↔ width.Fits n := by
  cases width with
  | i32 => exact Scope.fits_iff_32
  | i64 => exact Scope.fits_iff_64

/-- The constant as a value of a body. -/
def constant (width : Width) (n : Int) : Def := .inst (width.operator n) [] [width.type]

end Width

namespace InstSite

/-- The error that a number which does not fit is. -/
def refusal (site : InstSite) (n : Int) : SourceError :=
  ⟨site.line, .typing (.doesNotFit n site.width.type)⟩

/-- Work that ends with one number ends with another one in the same scope but for the constant, or
refuses the number if it does not fit. -/
def Settles (site : InstSite) (n₀ : Int) (x : Int → Resolving (Except Fault) Scope) : Prop :=
  ∀ t, Answers (x n₀) t → ∃ v, t.body.values.get? v = some (site.width.constant n₀) ∧ ∀ n,
    (site.width.Fits n → Answers (x n) (t.withDef v (site.width.constant n))) ∧
      (¬ site.width.Fits n → RefusesWith (x n) (site.refusal n))

variable {site : InstSite} {n₀ : Int}

lemma Settles.bind {x : Int → Resolving (Except Fault) Scope} {f : Scope → Resolving (Except Fault) Scope}
    (hx : site.Settles n₀ x) (hf : Scope.Indifferent f) : site.Settles n₀ fun n => x n >>= f := by
  intro u h
  obtain ⟨t, ht, hu⟩ := answers_bind.1 h
  obtain ⟨v, hv, hall⟩ := hx t ht
  have hrest (n : Int) := hf t u v (site.width.constant n₀) (site.width.constant n) rfl hv hu
  refine ⟨v, (hrest n₀).1, fun n => ⟨fun hfits => ?_, fun hnot => ?_⟩⟩
  · exact answers_bind.2 ⟨_, (hall n).1 hfits, (hrest n).2⟩
  · exact ((hall n).2 hnot).bind

lemma Settles.after {y : Resolving (Except Fault) Scope} {x : Int → Scope → Resolving (Except Fault) Scope}
    (hx : ∀ s, site.Settles n₀ fun n => x n s) : site.Settles n₀ fun n => y >>= x n := by
  intro t h
  obtain ⟨s, hs, ht⟩ := answers_bind.1 h
  obtain ⟨v, hv, hall⟩ := hx s t ht
  refine ⟨v, hv, fun n => ⟨fun hfits => ?_, fun hnot => ?_⟩⟩
  · exact answers_bind.2 ⟨s, hs, (hall n).1 hfits⟩
  · exact hs.refusesWith_bind ((hall n).2 hnot)

variable {module : Module} {block : Block}

lemma answers_operation_tree {scope : Scope} {n : Int} {r : Operator × List Value × Scope} :
    Answers (scope.operation module site.line (site.width.tree n)) r ↔
      site.width.Fits n ∧ r = (site.width.operator n, [], scope) := by
  rw [← Width.fits_iff, Scope.answers_operation]
  cases site.width <;> rfl

lemma refuses_operation_tree {scope : Scope} {n : Int} (h : ¬ site.width.Fits n) :
    RefusesWith (scope.operation module site.line (site.width.tree n)) (site.refusal n) := by
  rw [← Width.fits_iff] at h
  unfold refusal
  generalize site.width = width at *
  cases width
  all_goals
    unfold Scope.operation
    exact congrArg ExceptT.run (if_neg h)

lemma inputTypes_operator (n : Int) :
    ((site.width.operator n).inputTypes module : Except Fault _) = .ok [] := by
  cases site.width <;> rfl

lemma outputTypes_operator (n : Int) :
    ((site.width.operator n).outputTypes module : Except Fault _) = .ok [site.width.type] := by
  cases site.width <;> rfl

/-- Adding the constant. -/
lemma settles_addInst (scope : Scope) :
    site.Settles n₀ fun n => scope.addInst module block (site.tree n) := by
  intro t h
  obtain ⟨op, args, s, inputs, outputs, hop, -, -, hout, hsize, hblock, hname, rfl⟩ :=
    Scope.answers_addInst.1 h
  obtain ⟨-, hr⟩ := answers_operation_tree.1 hop
  cases hr
  rw [outputTypes_operator, Except.ok.injEq] at hout
  subst hout
  refine ⟨⟨scope.body.values.size⟩, Table.get?_append_size _ _, fun n => ⟨fun hfits => ?_, fun hnot => ?_⟩⟩
  · refine Scope.answers_addInst.2 ⟨_, _, _, _, _, answers_operation_tree.2 ⟨hfits, rfl⟩,
      inputTypes_operator n, .nil, outputTypes_operator n, hsize, hblock, hname, ?_⟩
    have hbody : (scope.body.withInst block (site.width.constant n₀)).withDef ⟨scope.body.values.size⟩
        (site.width.constant n) = scope.body.withInst block (site.width.constant n) := by
      simp only [Body.withDef, Body.withInst, Body.withValue, Table.modify_append_size]
    exact congrArg (fun body => (⟨body, _, _⟩ : Scope)) hbody
  · exact (refuses_operation_tree hnot).bind

end InstSite

/-! ### Blocks around the constant -/

namespace Scope

variable {scope : Scope} {module : Module} {block : Block}

lemma addInsts_append_eq (xs ys : List InstTree) :
    (scope.addInsts module block (xs ++ ys) : Resolving (Except Fault) Scope) =
      scope.addInsts module block xs >>= fun s => s.addInsts module block ys := by
  induction xs generalizing scope with
  | nil => exact (pure_bind _ _).symm
  | cons x xs ih =>
    rw [List.cons_append, addInsts, addInsts, bind_assoc]
    exact congrArg _ (funext fun s => ih)

lemma fillBlocks_append_eq (xs ys : List (BlockTree × Block)) :
    (scope.fillBlocks module (xs ++ ys) : Resolving (Except Fault) Scope) =
      scope.fillBlocks module xs >>= fun s => s.fillBlocks module ys := by
  induction xs generalizing scope with
  | nil => exact (pure_bind _ _).symm
  | cons x xs ih =>
    rw [List.cons_append, fillBlocks, fillBlocks, bind_assoc]
    exact congrArg _ (funext fun s => ih)

/-- What of a block is looked at before any instruction is. -/
def headOf (tree : BlockTree) : Nat × Nat × List (Nat × ValueType) :=
  (tree.line, tree.name, tree.params)

lemma answers_openBlocks_cons {opened : List (BlockTree × Block)} {tree : BlockTree}
    {rest : List BlockTree} {r : List (BlockTree × Block) × Scope} :
    Answers (scope.openBlocks opened (tree :: rest)) r ↔
      ∃ block s, scope.blocks.lookup tree.name = none ∧
        Answers (if opened.isEmpty then scope.openEntry tree else scope.openNext tree) (block, s) ∧
        Answers (openBlocks { s with blocks := (tree.name, block) :: s.blocks }
          ((tree, block) :: opened) rest) r := by
  cases opened with
  | nil => exact answers_openBlocks_first
  | cons last opened => exact answers_openBlocks_next

/-- Trees of the same heads are opened as the same blocks. -/
lemma openBlocks_congr {opened : List (BlockTree × Block)} {trees : List BlockTree}
    {r : List (BlockTree × Block) × Scope} (h : Answers (scope.openBlocks opened trees) r) :
    ∃ blocks : List Block, blocks.length = trees.length ∧ r.1 = opened.reverse ++ trees.zip blocks ∧
      ∀ (opened' : List (BlockTree × Block)) (trees' : List BlockTree),
        opened'.isEmpty = opened.isEmpty → trees'.map headOf = trees.map headOf →
          Answers (scope.openBlocks opened' trees') (opened'.reverse ++ trees'.zip blocks, r.2) := by
  induction trees generalizing scope opened with
  | nil =>
    obtain rfl := answers_openBlocks_nil.1 h
    refine ⟨[], rfl, by simp, fun opened' trees' _ hheads => ?_⟩
    obtain rfl : trees' = [] := by simpa using hheads
    simp [answers_openBlocks_nil]
  | cons tree trees ih =>
    obtain ⟨block, s, hname, hmade, hrest⟩ := answers_openBlocks_cons.1 h
    obtain ⟨blocks, hlength, hr, hall⟩ := ih hrest
    refine ⟨block :: blocks, congrArg (· + 1) hlength, by simp [hr], fun opened' trees' hsame hheads => ?_⟩
    obtain ⟨tree', rest, rfl, hhead, hheads⟩ := List.map_eq_cons_iff.1 hheads
    simp only [headOf, Prod.mk.injEq] at hhead
    obtain ⟨hline, hnames, hparams⟩ := hhead
    have hentry : scope.openEntry tree' = (scope.openEntry tree : Resolving (Except Fault) _) := by
      rw [openEntry, openEntry, hline, hparams]
    have hnext : scope.openNext tree' = (scope.openNext tree : Resolving (Except Fault) _) := by
      rw [openNext, openNext, hline, hparams]
    have hanswer := hall ((tree', block) :: opened') rest rfl hheads
    rw [answers_openBlocks_cons, hnames, hsame, hentry, hnext]
    exact ⟨block, s, hname, hmade, by simpa using hanswer⟩

end Scope

namespace FuncSite

variable {module : Module} {block : Block} {n₀ : Int}

lemma settles_fillBlock (site : BlockSite) (scope : Scope) :
    site.inst.Settles n₀ fun n => scope.fillBlock module (site.tree n) block := by
  have hinsts : site.inst.Settles n₀ fun n => scope.addInsts module block (site.tree n).insts := by
    simp only [BlockSite.tree, Gap.fill, Scope.addInsts_append_eq]
    exact .after fun s => (site.inst.settles_addInst s).bind (Scope.indifferent_addInsts _)
  simp only [Scope.fillBlock_eq]
  exact hinsts.bind (Scope.indifferent_close site.block)

lemma settles_fillBlocks (site : BlockSite) (before after : List (BlockTree × Block)) (scope : Scope) :
    site.inst.Settles n₀ fun n => scope.fillBlocks module (before ++ (site.tree n, block) :: after) := by
  simp only [Scope.fillBlocks_append_eq]
  exact .after fun s => (settles_fillBlock site s).bind (Scope.indifferent_fillBlocks after)

/-- With another number the trees of a function resolve to the same body but for the constant, or the
number is refused because it does not fit. -/
theorem settles_resolveBody (site : FuncSite) {signature : Signature} {body₀ : Body}
    (h : Answers (resolveBody module signature (site.trees n₀)) body₀) :
    ∃ v, body₀.values.get? v = some (site.block.inst.width.constant n₀) ∧ ∀ n,
      (site.block.inst.width.Fits n → Answers (resolveBody module signature (site.trees n))
        (body₀.withDef v (site.block.inst.width.constant n))) ∧
      (¬ site.block.inst.width.Fits n →
        RefusesWith (resolveBody module signature (site.trees n)) (site.block.inst.refusal n)) := by
  obtain ⟨type, empty, opened, s, t, htype, hempty, hopen, hfill, rfl⟩ := answers_resolveBody.1 h
  obtain ⟨blocks, hlength, hopened, hall⟩ := Scope.openBlocks_congr hopen
  have hheads (n : Int) : (site.trees n).map Scope.headOf = (site.trees n₀).map Scope.headOf := by
    simp only [trees, Gap.fill, List.map_append, List.map_cons]
    rfl
  -- The blocks that are made do not depend on the number.
  have hopens (n : Int) : Answers (Scope.openBlocks { body := empty } [] (site.trees n))
      ((site.trees n).zip blocks, s) := hall [] (site.trees n) rfl (hheads n)
  obtain ⟨firsts, rest, rfl, hfirsts⟩ :
      ∃ firsts rest, blocks = firsts ++ rest ∧ site.blocks.before.length = firsts.length := by
    refine ⟨blocks.take site.blocks.before.length, blocks.drop _, (List.take_append_drop ..).symm, ?_⟩
    rw [List.length_take, hlength]
    simp [trees, Gap.fill]
  obtain ⟨block, lasts, rfl⟩ : ∃ block lasts, rest = block :: lasts := by
    apply List.exists_cons_of_length_pos
    simp only [trees, Gap.fill, List.length_append, List.length_cons] at hlength
    omega
  have hzip (n : Int) : (site.trees n).zip (firsts ++ block :: lasts) = site.blocks.before.zip firsts ++
      (site.block.tree n, block) :: site.blocks.after.zip lasts := by
    rw [trees, Gap.fill, List.zip_append hfirsts, List.zip_cons_cons]
  obtain rfl : opened = (site.trees n₀).zip (firsts ++ block :: lasts) := hopened
  rw [hzip] at hfill
  obtain ⟨v, hv, hsettles⟩ := settles_fillBlocks site.block _ _ s t hfill
  refine ⟨v, hv, fun n => ⟨fun hfits => ?_, fun hnot => ?_⟩⟩
  · have hanswers := (hsettles n).1 hfits
    simp only [← hzip] at hanswers
    exact answers_resolveBody.2 ⟨type, empty, _, s, _, htype, hempty, hopens n, hanswers, rfl⟩
  · have hrefuses := (hsettles n).2 hnot
    simp only [← hzip] at hrefuses
    exact (answers_step.2 (Table.get_eq_ok.2 htype)).refusesWith_bind ((answers_step.2 hempty).refusesWith_bind
      ((hopens n).refusesWith_bind hrefuses.bind))

end FuncSite

end Source

end EntryTrace
