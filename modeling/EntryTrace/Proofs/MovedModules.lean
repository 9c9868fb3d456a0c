import EntryTrace.Proofs.MovedReaders
import EntryTrace.Proofs.Characters

/-!
# Lines carry no meaning

Resolving a tree on other lines ends as it did before: in the same module, in the same fault, or in an
error for the same cause on the line that its line was moved to. So what comes of a list of tokens does
not depend on their lines, and an error is on a line that was there to be handed on.
-/

namespace EntryTrace

open Source

namespace Source

variable {f : Nat → Nat} {α α' β β' : Type}

/-- The second work ends like the first one, but for the lines that `f` moves. -/
def Shifts (f : Nat → Nat) (g : α → β) (x : Resolving (Except Fault) α)
    (y : Resolving (Except Fault) β) : Prop :=
  y.run = x.run.map (movedEnd f g)

section Shifts

variable {g : α → β} {h : α' → β'} {x : Resolving (Except Fault) α} {y : Resolving (Except Fault) β}
  {k : α → Resolving (Except Fault) α'}

lemma shifts_pure (a : α) : Shifts f g (pure a) (pure (g a)) := rfl

lemma shifts_refuse (line : Nat) (cause : Cause) :
    Shifts f g (refuse line cause) (refuse (f line) cause) := rfl

lemma shifts_given {r : Except SourceError α} {r' : Except SourceError β} (hr : r' = movedEnd f g r) :
    Shifts f g (ExceptT.mk (pure r)) (ExceptT.mk (pure r')) := by
  subst hr
  rfl

lemma Shifts.bind {k' : β → Resolving (Except Fault) β'} (hx : Shifts f g x y)
    (hk : ∀ a, Shifts f h (k a) (k' (g a))) : Shifts f h (x >>= k) (y >>= k') := by
  unfold Shifts at hx ⊢
  rw [ExceptT.run_bind, ExceptT.run_bind, hx]
  rcases x.run with fault | e | a
  · rfl
  · rfl
  · exact hk a

/-- There are no lines in what the first work answers. -/
lemma Shifts.bindSame {x' : Resolving (Except Fault) α} {k' : α → Resolving (Except Fault) β'}
    (hx : Shifts f id x x') (hk : ∀ a, Shifts f h (k a) (k' a)) : Shifts f h (x >>= k) (x' >>= k') :=
  hx.bind hk

lemma shifts_step (x : Except Fault α) : Shifts f id (step x) (step x) := by
  cases x <;> rfl

lemma shifts_ite {p : Prop} [Decidable p] {x' : Resolving (Except Fault) α}
    {y' : Resolving (Except Fault) β} (hx : Shifts f g x y) (hx' : Shifts f g x' y') :
    Shifts f g (if p then x else x') (if p then y else y') := by
  split
  · exact hx
  · exact hx'

end Shifts

namespace Scope

variable (s : Scope) (module : Module) (line : Nat)

lemma shifts_define (name : Nat) (value : Value) :
    Shifts f id (s.define line name value) (s.define (f line) name value) := by
  unfold define
  split
  · exact shifts_refuse line _
  · exact shifts_pure _

lemma shifts_defineAll (names : List (Nat × Value)) :
    Shifts f id (s.defineAll line names) (s.defineAll (f line) names) := by
  induction names generalizing s with
  | nil => exact shifts_pure s
  | cons name names ih => exact (s.shifts_define line _ _).bindSame fun s => ih s

lemma shifts_addParams (block : Block) (params : List (Nat × ValueType)) :
    Shifts f id (s.addParams line block params) (s.addParams (f line) block params) := by
  induction params generalizing s with
  | nil => exact shifts_pure s
  | cons param params ih =>
    exact (shifts_step _).bindSame fun r => (shifts_define _ line _ _).bindSame fun s => ih s

lemma shifts_openEntry (tree : BlockTree) :
    Shifts f id (s.openEntry tree) (s.openEntry (tree.moved f)) :=
  (shifts_step _).bindSame fun _ => shifts_ite (shifts_refuse tree.line _)
    ((s.shifts_defineAll tree.line _).bindSame fun _ => shifts_pure _)

lemma shifts_openNext (tree : BlockTree) :
    Shifts f id (s.openNext tree) (s.openNext (tree.moved f)) :=
  (shifts_step _).bindSame fun _ => (shifts_addParams _ tree.line _ _).bindSame fun _ => shifts_pure _

/-- Blocks that were opened, whose trees are moved. -/
def movedOpened (f : Nat → Nat) (opened : List (BlockTree × Block)) : List (BlockTree × Block) :=
  opened.map (Prod.map (BlockTree.moved f) id)

lemma shifts_openBlocks (opened : List (BlockTree × Block)) (trees : List BlockTree) :
    Shifts f (Prod.map (movedOpened f) id) (s.openBlocks opened trees)
      (s.openBlocks (movedOpened f opened) (trees.map (BlockTree.moved f))) := by
  induction trees generalizing s opened with
  | nil =>
    rw [List.map_nil, openBlocks, openBlocks, movedOpened, ← List.map_reverse]
    exact shifts_pure (opened.reverse, s)
  | cons tree trees ih =>
    have hempty : (movedOpened f opened).isEmpty = opened.isEmpty := List.isEmpty_map
    rw [List.map_cons, openBlocks, openBlocks, hempty]
    exact shifts_ite (shifts_refuse tree.line _) (shifts_ite
      ((s.shifts_openEntry tree).bindSame fun r => ih _ ((tree, r.1) :: opened))
      ((s.shifts_openNext tree).bindSame fun r => ih _ ((tree, r.1) :: opened)))

lemma shifts_operand (tree : OperandTree) :
    Shifts f id (s.operand module line tree) (s.operand module (f line) tree) := by
  cases tree with
  | value name =>
    unfold operand
    dsimp only
    split
    · exact shifts_pure _
    · exact shifts_refuse line _
  | str index =>
    exact shifts_ite ((shifts_step _).bindSame fun _ => shifts_pure _) (shifts_refuse line _)

lemma shifts_operands (trees : List OperandTree) :
    Shifts f id (s.operands module line trees) (s.operands module (f line) trees) := by
  induction trees generalizing s with
  | nil => exact shifts_pure _
  | cons tree trees ih =>
    exact (s.shifts_operand module line tree).bindSame fun r =>
      (ih r.2).bindSame fun _ => shifts_pure _

lemma shifts_checkTypes (body : Body) (consumer : Consumer) (values : List Value)
    (types : List ValueType) : Shifts f id (checkTypes body line consumer values types)
      (checkTypes body (f line) consumer values types) := by
  have heach (position : Nat) : Shifts f id (checkEach body line consumer position values types)
      (checkEach body (f line) consumer position values types) := by
    induction values generalizing types position with
    | nil => exact shifts_pure ()
    | cons value values ih =>
      cases types with
      | nil => exact shifts_pure ()
      | cons type types =>
        refine (shifts_step _).bindSame fun found => ?_
        split
        · exact shifts_ite (ih types (position + 1)) (shifts_refuse line _)
        · exact shifts_refuse line _
  exact shifts_ite (shifts_refuse line _) (heach 0)

lemma shifts_operation (tree : OpTree) :
    Shifts f id (s.operation module line tree) (s.operation module (f line) tree) := by
  cases tree with
  | nop => exact shifts_pure _
  | const32 | const64 => exact shifts_ite (shifts_pure _) (shifts_refuse line _)
  | binary op left right =>
    exact (s.shifts_operand module line left).bindSame fun l =>
      (l.2.shifts_operand module line right).bindSame fun _ => shifts_pure _
  | call callee args =>
    exact shifts_ite ((s.shifts_operands module line args).bindSame fun _ => shifts_pure _)
      (shifts_refuse line _)

lemma shifts_addInst (block : Block) (tree : InstTree) :
    Shifts f id (s.addInst module block tree) (s.addInst module block (tree.moved f)) :=
  (s.shifts_operation module tree.line tree.op).bindSame fun _ => (shifts_step _).bindSame fun _ =>
    (shifts_checkTypes tree.line _ _ _ _).bindSame fun _ => (shifts_step _).bindSame fun _ =>
      (shifts_step _).bindSame fun _ => (shifts_step _).bindSame fun _ =>
        shifts_define _ tree.line _ _

lemma shifts_addInsts (block : Block) (trees : List InstTree) :
    Shifts f id (s.addInsts module block trees)
      (s.addInsts module block (trees.map (InstTree.moved f))) := by
  induction trees generalizing s with
  | nil => exact shifts_pure s
  | cons tree trees ih => exact (s.shifts_addInst module block tree).bindSame fun s => ih s

lemma shifts_target (tree : TargetTree) :
    Shifts f id (s.target module line tree) (s.target module (f line) tree) := by
  unfold target
  split
  · exact shifts_refuse line _
  · exact (s.shifts_operands module line _).bindSame fun _ => (shifts_step _).bindSame fun _ =>
      (shifts_checkTypes line _ _ _ _).bindSame fun _ => shifts_pure _

lemma shifts_terminator (tree : TermTree) :
    Shifts f id (s.terminator module line tree) (s.terminator module (f line) tree) := by
  cases tree with
  | jump target => exact (s.shifts_target module line target).bindSame fun _ => shifts_pure _
  | branch cond onTrue onFalse =>
    exact (s.shifts_operand module line cond).bindSame fun c =>
      (shifts_checkTypes line _ _ _ _).bindSame fun _ =>
        (c.2.shifts_target module line onTrue).bindSame fun t =>
          (t.2.shifts_target module line onFalse).bindSame fun _ => shifts_pure _
  | ret values =>
    exact (s.shifts_operands module line values).bindSame fun _ =>
      (shifts_checkTypes line _ _ _ _).bindSame fun _ => shifts_pure _
  | unreachable => exact shifts_pure _

lemma shifts_fillBlock (tree : BlockTree) (block : Block) :
    Shifts f id (s.fillBlock module tree block) (s.fillBlock module (tree.moved f) block) :=
  (s.shifts_addInsts module block tree.insts).bindSame fun s =>
    (s.shifts_terminator module tree.termLine tree.term).bindSame fun _ =>
      (shifts_step _).bindSame fun _ => shifts_pure _

lemma shifts_fillBlocks (opened : List (BlockTree × Block)) :
    Shifts f id (s.fillBlocks module opened) (s.fillBlocks module (movedOpened f opened)) := by
  induction opened generalizing s with
  | nil => exact shifts_pure s
  | cons p opened ih => exact (s.shifts_fillBlock module p.1 p.2).bindSame fun s => ih s

end Scope

/-! ### Modules -/

lemma shifts_resolveBody (m : Module) (signature : Signature) (trees : List BlockTree) :
    Shifts f id (resolveBody m signature trees)
      (resolveBody m signature (trees.map (BlockTree.moved f))) :=
  (shifts_step _).bindSame fun _ => (shifts_step _).bindSame fun _ =>
    (Scope.shifts_openBlocks _ [] trees).bind fun r =>
      (r.2.shifts_fillBlocks m r.1).bindSame fun _ => shifts_pure _

lemma shifts_declareFuncs (m : Module) (trees : List FuncTree) :
    Shifts f id (declareFuncs m trees) (declareFuncs m (trees.map (FuncTree.moved f))) := by
  induction trees generalizing m with
  | nil => exact shifts_pure m
  | cons tree trees ih =>
    have hsome : (tree.moved f).blocks?.isSome = tree.blocks?.isSome := Option.isSome_map
    rw [List.map_cons, declareFuncs, declareFuncs, hsome]
    exact shifts_ite ((shifts_step _).bindSame fun r => ih r.2) (shifts_refuse tree.line _)

lemma shifts_defineFuncs (m : Module) (index : Nat) (trees : List FuncTree) :
    Shifts f id (defineFuncs m index trees)
      (defineFuncs m index (trees.map (FuncTree.moved f))) := by
  induction trees generalizing m index with
  | nil => exact shifts_pure m
  | cons tree trees ih =>
    rw [List.map_cons, defineFuncs, defineFuncs, FuncTree.moved]
    cases tree.blocks? with
    | none => exact ih m (index + 1)
    | some blocks =>
      exact (shifts_resolveBody m _ blocks).bindSame fun _ => (shifts_step _).bindSame fun _ =>
        (shifts_step _).bindSame fun funcs => ih { m with funcs } (index + 1)

lemma shifts_resolve (tree : ModuleTree) : Shifts f id (resolve tree) (resolve (tree.moved f)) := by
  have hfuncs : (tree.moved f).funcs.toList = tree.funcs.toList.map (FuncTree.moved f) :=
    Array.toList_map
  unfold resolve
  rw [hfuncs]
  exact (shifts_step _).bindSame fun _ => (shifts_step _).bindSame fun m =>
    (shifts_declareFuncs m _).bindSame fun m => shifts_defineFuncs m 0 _

/-- Without tokens, the error that some are missing is on line 1. -/
lemma shifts_understand (located : List Located) (hfirst : located = [] → f 1 = 1) :
    Shifts f id (understand located) (understand (located.map (Located.moved f))) := by
  have hextent : Extent.of (located.map (Located.moved f)) = (Extent.of located).moved f := by
    unfold Extent.of Extent.moved
    rw [List.length_map, List.getLast?_map]
    cases hlast : located.getLast? with
    | none =>
      simp [hfirst (List.getLast?_eq_none_iff.1 hlast)]
    | some l => rfl
  have hparse : parse (located.map (Located.moved f)) =
      movedEnd f (ModuleTree.moved f) (parse located) := by
    rw [parse, parse, hextent, Reader.carries_module]
    cases Reader.module (Extent.of located) located <;> rfl
  exact (shifts_given hparse).bind fun tree => shifts_resolve tree

/-- An error is on the line of a token, and on line 1 if there are none. -/
theorem line_of_understand {located : List Located} {e : SourceError}
    (h : (understand located).run = .ok (.error e)) :
    e.line ∈ located.map Located.line ∨ located = [] ∧ e.line = 1 := by
  by_contra hnot
  rw [not_or, List.mem_map] at hnot
  -- If only the line of the error is moved, then no token is, so that the error stays where it was.
  let f : Nat → Nat := fun line => if line = e.line then line + 1 else line
  have hfixed {line : Nat} (hne : line ≠ e.line) : f line = line := if_neg hne
  have hfirst : located = [] → f 1 = 1 := fun hnil => hfixed fun heq => hnot.2 ⟨hnil, heq.symm⟩
  have hsame : located.map (Located.moved f) = located := by
    refine (List.map_congr_left fun l hl => ?_).trans (List.map_id located)
    have hne : l.line ≠ e.line := fun heq => hnot.1 ⟨l, hl, heq⟩
    rw [Located.moved, hfixed hne, id]
  have hshift := shifts_understand located hfirst
  rw [Shifts, hsame, h] at hshift
  have hline : e.line = f e.line :=
    congrArg SourceError.line (Except.error.inj (Except.ok.inj hshift))
  rw [show f e.line = e.line + 1 from if_pos rfl] at hline
  omega

/-- On other lines the same tokens come to the same, or to an error for the same cause. -/
theorem understand_congr {located located' : List Located}
    (h : located'.map Located.token = located.map Located.token) :
    (understand located').run.map (Except.mapError SourceError.cause) =
      (understand located).run.map (Except.mapError SourceError.cause) := by
  have hone (ts : List Located) :
      (understand (ts.map (Located.moved fun _ => 1))).run.map (Except.mapError SourceError.cause) =
        (understand ts).run.map (Except.mapError SourceError.cause) := by
    rw [shifts_understand ts fun _ => rfl]
    rcases (understand ts).run with fault | e | m <;> rfl
  have hmoved (ts : List Located) :
      ts.map (Located.moved fun _ => 1) = (ts.map Located.token).map fun t => ⟨t, 1⟩ := by
    rw [List.map_map]
    rfl
  rw [← hone located', ← hone located, hmoved, hmoved, h]

end Source

end EntryTrace
