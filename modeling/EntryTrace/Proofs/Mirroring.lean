import EntryTrace.Proofs.FaultFree
import EntryTrace.Read

/-!
# Resolving with a journal

Keeping a journal does not change what comes of resolving a tree: with one, each step ends as it does
without, with the same answer, refusal or fault. The only notes that could fault are the printed
bodies.
-/

namespace EntryTrace

namespace Recorded

variable {α β : Type}

/-- With a journal, whatever is in it and whatever it admits, it ends as it does without. -/
def Mirrors (x : Recorded α) (y : Except Fault α) : Prop :=
  ∀ threshold records, (x.after threshold records).1 = y

lemma mirrors_pure (a : α) : Mirrors (pure a) (pure a) := fun _ _ => rfl

lemma mirrors_fault (f : Fault) : Mirrors (fault f : Recorded α) (fault f) := fun _ _ => rfl

lemma Mirrors.bind {x : Recorded α} {y : Except Fault α} {f : α → Recorded β}
    {g : α → Except Fault β} (hx : Mirrors x y) (hf : ∀ a, y = .ok a → Mirrors (f a) (g a)) :
    Mirrors (x >>= f) (y >>= g) := by
  intro threshold records
  have hread := hx threshold records
  rw [after_bind]
  rcases hafter : x.after threshold records with ⟨_ | a, records'⟩
  · rw [hafter] at hread
    rw [← hread]
    rfl
  · rw [hafter] at hread
    rw [← hread]
    exact hf a hread.symm threshold records'

lemma mirrors_notePrinted {level : Level} {text : Unit → Except Fault String} {s : String}
    (h : text () = .ok s) : Mirrors (notePrinted level text) (notePrinted level text) := by
  intro threshold records
  obtain ⟨records', hafter⟩ := after_note threshold records h
  exact congrArg Prod.fst hafter

lemma mirrors_note (level : Level) (text : Unit → String) :
    Mirrors (note level text) (note level text) :=
  mirrors_notePrinted rfl

lemma mirrors_ite {p : Prop} [Decidable p] {x x' : Recorded α} {y y' : Except Fault α}
    (hx : Mirrors x y) (hx' : Mirrors x' y') :
    Mirrors (if p then x else x') (if p then y else y') := by
  split
  · exact hx
  · exact hx'

lemma mirrors_map {x : Recorded α} {y : Except Fault α} (h : Mirrors x y) (f : α → β) :
    Mirrors (f <$> x) (f <$> y) := by
  rw [map_eq_pure_bind, map_eq_pure_bind]
  exact h.bind fun a _ => mirrors_pure (f a)

/-! ### Tables -/

section Tables

variable {kind : Kind}

lemma mirrors_push (t : Table kind α) (a : α) : Mirrors (t.push a) (t.push a) :=
  (mirrors_ite (mirrors_pure _) (mirrors_fault _)).bind fun _ _ => mirrors_pure _

lemma mirrors_get (t : Table kind α) (e : Entity kind) : Mirrors (t.get e) (t.get e) := by
  unfold Table.get
  cases t.get? e with
  | none => exact mirrors_fault _
  | some a => exact mirrors_pure a

lemma mirrors_update (t : Table kind α) (e : Entity kind) (f : α → α) :
    Mirrors (t.update e f) (t.update e f) :=
  mirrors_ite (mirrors_pure _) (mirrors_fault _)

end Tables

/-! ### Building bodies and modules -/

section Building

variable (body : Body) (module : Module)

lemma mirrors_addBlock : Mirrors body.addBlock body.addBlock :=
  (mirrors_push _ _).bind fun _ _ => (mirrors_note _ _).bind fun _ _ => mirrors_pure _

lemma mirrors_addValue (d : Def) : Mirrors (body.addValue d) (body.addValue d) :=
  (mirrors_note _ _).bind fun _ _ => (mirrors_push _ _).bind fun _ _ =>
    (mirrors_note _ _).bind fun _ _ => mirrors_pure _

lemma mirrors_addParam (block : Block) (type : ValueType) :
    Mirrors (body.addParam block type) (body.addParam block type) :=
  (mirrors_get _ _).bind fun _ _ => (mirrors_addValue _ _).bind fun _ _ =>
    (mirrors_update _ _ _).bind fun _ _ => mirrors_pure _

lemma mirrors_addParams (block : Block) (types : List ValueType) :
    Mirrors (body.addParams block types) (body.addParams block types) := by
  induction types generalizing body with
  | nil => exact mirrors_pure _
  | cons type types ih => exact (mirrors_addParam _ _ _).bind fun _ _ => ih _

lemma mirrors_appendInst (block : Block) (value : Value) :
    Mirrors (body.appendInst block value) (body.appendInst block value) :=
  (mirrors_update _ _ _).bind fun _ _ => mirrors_pure _

lemma mirrors_addEdges (source : Block) (destinations : List Block) :
    Mirrors (body.addEdges source destinations) (body.addEdges source destinations) := by
  induction destinations generalizing body with
  | nil => exact mirrors_pure _
  | cons destination rest ih =>
    have hedge : Mirrors (body.addEdge source destination) (body.addEdge source destination) :=
      (mirrors_update _ _ _).bind fun _ _ => (mirrors_update _ _ _).bind fun _ _ =>
        (mirrors_note _ _).bind fun _ _ => mirrors_pure _
    exact hedge.bind fun _ _ => ih _

lemma mirrors_endBlock (block : Block) (terminator : Terminator) :
    Mirrors (body.endBlock block terminator) (body.endBlock block terminator) :=
  (mirrors_addEdges _ _ _).bind fun _ _ => (mirrors_update _ _ _).bind fun _ _ => mirrors_pure _

lemma mirrors_ofType (type : FuncType) : Mirrors (Body.ofType type) (Body.ofType type) :=
  (mirrors_addBlock _).bind fun _ _ => mirrors_addParams _ _ _

lemma mirrors_addSignature (type : FuncType) :
    Mirrors (module.addSignature type) (module.addSignature type) :=
  (mirrors_push _ _).bind fun _ _ => mirrors_pure _

lemma mirrors_addString (s : String) : Mirrors (module.addString s) (module.addString s) :=
  (mirrors_push _ _).bind fun _ _ => mirrors_pure _

lemma mirrors_addFunc (decl : Decl) : Mirrors (module.addFunc decl) (module.addFunc decl) :=
  (mirrors_push _ _).bind fun _ _ => mirrors_pure _

lemma mirrors_funcType (func : Func) : Mirrors (module.funcType func) (module.funcType func) :=
  (mirrors_get _ _).bind fun _ _ => mirrors_get _ _

lemma mirrors_inputTypes (op : Operator) : Mirrors (op.inputTypes module) (op.inputTypes module) := by
  cases op with
  | nop | const32 | const64 | binary => exact mirrors_pure _
  | call callee => exact mirrors_map (mirrors_funcType _ _) _

lemma mirrors_outputTypes (op : Operator) :
    Mirrors (op.outputTypes module) (op.outputTypes module) := by
  cases op with
  | nop | const32 | const64 | binary => exact mirrors_pure _
  | call callee => exact mirrors_map (mirrors_funcType _ _) _

end Building

end Recorded

namespace Source

open Recorded (mirrors_addValue mirrors_get)

variable {α β : Type}

/-- Resolving with a journal ends as it does without. -/
def Mirrors (x : Resolving Recorded α) (y : Resolving (Except Fault) α) : Prop :=
  Recorded.Mirrors x.run y.run

lemma mirrors_pure (a : α) : Mirrors (pure a) (pure a) := fun _ _ => rfl

lemma mirrors_refuse (line : Nat) (cause : Cause) :
    Mirrors (refuse line cause : Resolving Recorded α) (refuse line cause) :=
  Recorded.mirrors_pure _

lemma mirrors_step {x : Recorded α} {y : Except Fault α} (h : Recorded.Mirrors x y) :
    Mirrors (step x) (step y) :=
  h.bind fun _ _ => Recorded.mirrors_pure _

lemma Mirrors.bind {x : Resolving Recorded α} {y : Resolving (Except Fault) α}
    {f : α → Resolving Recorded β} {g : α → Resolving (Except Fault) β} (hx : Mirrors x y)
    (hf : ∀ a, Answers y a → Mirrors (f a) (g a)) : Mirrors (x >>= f) (y >>= g) := by
  refine Recorded.Mirrors.bind hx fun result hresult => ?_
  cases result with
  | error e => exact Recorded.mirrors_pure _
  | ok a => exact hf a hresult

lemma mirrors_ite {p : Prop} [Decidable p] {x x' : Resolving Recorded α}
    {y y' : Resolving (Except Fault) α} (hx : Mirrors x y) (hx' : Mirrors x' y') :
    Mirrors (if p then x else x') (if p then y else y') := by
  split
  · exact hx
  · exact hx'

namespace Scope

variable (scope : Scope) (module : Module) (line : Nat)

lemma mirrors_define (name : Nat) (value : Value) :
    Mirrors (scope.define line name value) (scope.define line name value) := by
  unfold define
  split
  · exact mirrors_refuse _ _
  · exact mirrors_pure _

lemma mirrors_defineAll (names : List (Nat × Value)) :
    Mirrors (scope.defineAll line names) (scope.defineAll line names) := by
  induction names generalizing scope with
  | nil => exact mirrors_pure _
  | cons name names ih => exact (mirrors_define _ _ _ _).bind fun _ _ => ih _

lemma mirrors_addParams (block : Block) (params : List (Nat × ValueType)) :
    Mirrors (scope.addParams line block params) (scope.addParams line block params) := by
  induction params generalizing scope with
  | nil => exact mirrors_pure _
  | cons param params ih =>
    exact (mirrors_step (Recorded.mirrors_addParam _ _ _)).bind fun _ _ =>
      (mirrors_define _ _ _ _).bind fun _ _ => ih _

lemma mirrors_openEntry (tree : BlockTree) :
    Mirrors (scope.openEntry tree) (scope.openEntry tree) :=
  (mirrors_step (mirrors_get _ _)).bind fun _ _ => mirrors_ite (mirrors_refuse _ _)
    ((mirrors_defineAll _ _ _).bind fun _ _ => mirrors_pure _)

lemma mirrors_openNext (tree : BlockTree) : Mirrors (scope.openNext tree) (scope.openNext tree) :=
  (mirrors_step (Recorded.mirrors_addBlock _)).bind fun _ _ =>
    (mirrors_addParams _ _ _ _).bind fun _ _ => mirrors_pure _

lemma mirrors_openBlocks (opened : List (BlockTree × Block)) (trees : List BlockTree) :
    Mirrors (scope.openBlocks opened trees) (scope.openBlocks opened trees) := by
  induction trees generalizing scope opened with
  | nil => exact mirrors_pure _
  | cons tree trees ih =>
    exact mirrors_ite (mirrors_refuse _ _)
      (mirrors_ite ((mirrors_openEntry _ _).bind fun _ _ => ih _ _)
        ((mirrors_openNext _ _).bind fun _ _ => ih _ _))

lemma mirrors_operand (tree : OperandTree) :
    Mirrors (scope.operand module line tree) (scope.operand module line tree) := by
  cases tree with
  | value name =>
    unfold operand
    dsimp only
    split
    · exact mirrors_pure _
    · exact mirrors_refuse _ _
  | str index =>
    exact mirrors_ite ((mirrors_step (mirrors_addValue _ _)).bind fun _ _ => mirrors_pure _)
      (mirrors_refuse _ _)

lemma mirrors_operands (trees : List OperandTree) :
    Mirrors (scope.operands module line trees) (scope.operands module line trees) := by
  induction trees generalizing scope with
  | nil => exact mirrors_pure _
  | cons tree trees ih =>
    exact (mirrors_operand _ _ _ _).bind fun _ _ => (ih _).bind fun _ _ => mirrors_pure _

lemma mirrors_checkEach (body : Body) (consumer : Consumer) (position : Nat) (values : List Value)
    (types : List ValueType) :
    Mirrors (checkEach body line consumer position values types)
      (checkEach body line consumer position values types) := by
  induction values generalizing position types with
  | nil => exact mirrors_pure _
  | cons value values ih =>
    cases types with
    | nil => exact mirrors_pure _
    | cons type types =>
      refine (mirrors_step (mirrors_get _ _)).bind fun found _ => ?_
      cases found.type? with
      | none => exact mirrors_refuse _ _
      | some actual => exact mirrors_ite (ih _ _) (mirrors_refuse _ _)

lemma mirrors_checkTypes (body : Body) (consumer : Consumer) (values : List Value)
    (types : List ValueType) :
    Mirrors (checkTypes body line consumer values types)
      (checkTypes body line consumer values types) :=
  mirrors_ite (mirrors_refuse _ _) (mirrors_checkEach _ _ _ _ _ _)

lemma mirrors_operation (tree : OpTree) :
    Mirrors (scope.operation module line tree) (scope.operation module line tree) := by
  cases tree with
  | nop => exact mirrors_pure _
  | const32 value => exact mirrors_ite (mirrors_pure _) (mirrors_refuse _ _)
  | const64 value => exact mirrors_ite (mirrors_pure _) (mirrors_refuse _ _)
  | binary op left right =>
    exact (mirrors_operand _ _ _ _).bind fun _ _ => (mirrors_operand _ _ _ _).bind fun _ _ =>
      mirrors_pure _
  | call callee args =>
    exact mirrors_ite ((mirrors_operands _ _ _ _).bind fun _ _ => mirrors_pure _)
      (mirrors_refuse _ _)

lemma mirrors_addInst (block : Block) (tree : InstTree) :
    Mirrors (scope.addInst module block tree) (scope.addInst module block tree) :=
  (mirrors_operation _ _ _ _).bind fun _ _ =>
    (mirrors_step (Recorded.mirrors_inputTypes _ _)).bind fun _ _ =>
      (mirrors_checkTypes _ _ _ _ _).bind fun _ _ =>
        (mirrors_step (Recorded.mirrors_outputTypes _ _)).bind fun _ _ =>
          (mirrors_step (mirrors_addValue _ _)).bind fun _ _ =>
            (mirrors_step (Recorded.mirrors_appendInst _ _ _)).bind fun _ _ =>
              mirrors_define _ _ _ _

lemma mirrors_addInsts (block : Block) (trees : List InstTree) :
    Mirrors (scope.addInsts module block trees) (scope.addInsts module block trees) := by
  induction trees generalizing scope with
  | nil => exact mirrors_pure _
  | cons tree trees ih => exact (mirrors_addInst _ _ _ _).bind fun _ _ => ih _

lemma mirrors_target (tree : TargetTree) :
    Mirrors (scope.target module line tree) (scope.target module line tree) := by
  unfold target
  split
  · exact mirrors_refuse _ _
  · exact (mirrors_operands _ _ _ _).bind fun _ _ => (mirrors_step (mirrors_get _ _)).bind
      fun _ _ => (mirrors_checkTypes _ _ _ _ _).bind fun _ _ => mirrors_pure _

lemma mirrors_terminator (tree : TermTree) :
    Mirrors (scope.terminator module line tree) (scope.terminator module line tree) := by
  cases tree with
  | jump target => exact (mirrors_target _ _ _ _).bind fun _ _ => mirrors_pure _
  | branch cond onTrue onFalse =>
    exact (mirrors_operand _ _ _ _).bind fun _ _ => (mirrors_checkTypes _ _ _ _ _).bind fun _ _ =>
      (mirrors_target _ _ _ _).bind fun _ _ => (mirrors_target _ _ _ _).bind fun _ _ =>
        mirrors_pure _
  | ret values =>
    exact (mirrors_operands _ _ _ _).bind fun _ _ => (mirrors_checkTypes _ _ _ _ _).bind
      fun _ _ => mirrors_pure _
  | unreachable => exact mirrors_pure _

lemma mirrors_fillBlocks (opened : List (BlockTree × Block)) :
    Mirrors (scope.fillBlocks module opened) (scope.fillBlocks module opened) := by
  induction opened generalizing scope with
  | nil => exact mirrors_pure _
  | cons entry opened ih =>
    obtain ⟨tree, block⟩ := entry
    have hblock : Mirrors (scope.fillBlock module tree block) (scope.fillBlock module tree block) :=
      (mirrors_addInsts _ _ _ _).bind fun _ _ => (mirrors_terminator _ _ _ _).bind fun _ _ =>
        (mirrors_step (Recorded.mirrors_endBlock _ _ _)).bind fun _ _ => mirrors_pure _
    exact hblock.bind fun _ _ => ih _

end Scope

lemma mirrors_resolveBody (module : Module) (signature : Signature) (trees : List BlockTree) :
    Mirrors (resolveBody module signature trees) (resolveBody module signature trees) :=
  (mirrors_step (mirrors_get _ _)).bind fun _ _ =>
    (mirrors_step (Recorded.mirrors_ofType _)).bind fun _ _ =>
      (Scope.mirrors_openBlocks _ _ _).bind fun _ _ =>
        (Scope.mirrors_fillBlocks _ _ _).bind fun _ _ => mirrors_pure _

lemma mirrors_addTypes (module : Module) (types : List FuncType) :
    Recorded.Mirrors (addTypes module types) (addTypes module types) := by
  induction types generalizing module with
  | nil => exact Recorded.mirrors_pure _
  | cons type types ih => exact (Recorded.mirrors_addSignature _ _).bind fun _ _ => ih _

lemma mirrors_addStrings (module : Module) (strings : List String) :
    Recorded.Mirrors (addStrings module strings) (addStrings module strings) := by
  induction strings generalizing module with
  | nil => exact Recorded.mirrors_pure _
  | cons s strings ih => exact (Recorded.mirrors_addString _ _).bind fun _ _ => ih _

lemma mirrors_declareFuncs (module : Module) (trees : List FuncTree) :
    Mirrors (declareFuncs module trees) (declareFuncs module trees) := by
  induction trees generalizing module with
  | nil => exact mirrors_pure _
  | cons tree trees ih =>
    exact mirrors_ite ((mirrors_step (Recorded.mirrors_addFunc _ _)).bind fun _ _ => ih _)
      (mirrors_refuse _ _)

end Source

end EntryTrace
