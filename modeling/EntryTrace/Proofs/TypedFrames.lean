import EntryTrace.Proofs.Frames
import EntryTrace.Proofs.Watching
import EntryTrace.Proofs.WellFormed

/-!
# Activations of well-formed bodies

In an activation every constant has the type of what it stands for, and the values that have one
are those whose definitions were run, as far as they have a type. Each step of a frame keeps this
up. So a value is missing only where its definition was not run, and an operator that has a result
finds the operands it needs.
-/

namespace EntryTrace

/-! ### Operators -/

/-- The operator is no call, and it has a result. -/
def Operator.IsPlain : Operator → Prop
  | .nop | .call _ => False
  | .const32 _ | .const64 _ | .binary _ => True

section Operators

variable {module : Module} {cs : List Constant} {inputs results : List ValueType}

lemma Constant.exists_i32 {c : Constant} (h : c.type = .i32) : ∃ x, c = .i32 x := by
  cases c with
  | i32 x => exact ⟨x, rfl⟩
  | i64 => cases h
  | ptr => cases h

lemma Constant.exists_i64 {c : Constant} (h : c.type = .i64) : ∃ x, c = .i64 x := by
  cases c with
  | i32 => cases h
  | i64 x => exact ⟨x, rfl⟩
  | ptr => cases h

/-- An operator works on words of one size, all of them, and gives such a word. -/
lemma BinaryOp.word_cases (op : BinaryOp) :
    (op.operandType = .i32 ∧ op.resultType = .i32 ∧ ∀ x y, ∃ z, op.eval32 x y = some z) ∨
      (op.operandType = .i64 ∧ op.resultType = .i64 ∧ ∀ x y, ∃ z, op.eval64 x y = some z) := by
  cases op with
  | add32 | sub32 | mul32 | eq32 | less32 => exact .inl ⟨rfl, rfl, fun _ _ => ⟨_, rfl⟩⟩
  | add64 | sub64 | mul64 => exact .inr ⟨rfl, rfl, fun _ _ => ⟨_, rfl⟩⟩

lemma BinaryOp.exists_eval? {op : BinaryOp}
    (h : cs.map Constant.type = [op.operandType, op.operandType]) :
    ∃ c, (Operator.binary op).eval? cs = some c ∧ c.type = op.resultType := by
  obtain ⟨a, b, rfl, ha, hb⟩ :
      ∃ a b, cs = [a, b] ∧ a.type = op.operandType ∧ b.type = op.operandType := by
    simpa [List.map_eq_cons_iff] using h
  rcases op.word_cases with ⟨hoperand, hresult, heval⟩ | ⟨hoperand, hresult, heval⟩
  · rw [hoperand] at ha hb
    obtain ⟨x, rfl⟩ := Constant.exists_i32 ha
    obtain ⟨y, rfl⟩ := Constant.exists_i32 hb
    obtain ⟨z, hz⟩ := heval x y
    exact ⟨.i32 z, by simp [Operator.eval?, hz], hresult.symm⟩
  · rw [hoperand] at ha hb
    obtain ⟨x, rfl⟩ := Constant.exists_i64 ha
    obtain ⟨y, rfl⟩ := Constant.exists_i64 hb
    obtain ⟨z, hz⟩ := heval x y
    exact ⟨.i64 z, by simp [Operator.eval?, hz], hresult.symm⟩

/-- An operator other than a call gives a result of the type that it should, and gives one if it
should. -/
lemma Operator.map_type_eval? {op : Operator} (hop : ∀ callee, op ≠ .call callee)
    (hinputs : (op.inputTypes module : Except Fault _) = .ok inputs)
    (hresults : (op.outputTypes module : Except Fault _) = .ok results)
    (hcs : cs.map Constant.type = inputs) : (op.eval? cs).map Constant.type = results.head? := by
  cases op with
  | call callee => exact absurd rfl (hop callee)
  | nop =>
    cases hresults
    rfl
  | const32 =>
    cases hinputs
    cases hresults
    rw [List.map_eq_nil_iff.1 hcs]
    rfl
  | const64 =>
    cases hinputs
    cases hresults
    rw [List.map_eq_nil_iff.1 hcs]
    rfl
  | binary op =>
    cases hinputs
    cases hresults
    obtain ⟨c, hc, htype⟩ := BinaryOp.exists_eval? hcs
    rw [hc, Option.map_some, htype]
    rfl

lemma Operator.IsPlain.ne_call {op : Operator} (h : op.IsPlain) (callee : Func) :
    op ≠ .call callee := by
  rintro rfl
  exact h

lemma Operator.IsPlain.exists_eval? {op : Operator} (h : op.IsPlain)
    (hinputs : (op.inputTypes module : Except Fault _) = .ok inputs)
    (hcs : cs.map Constant.type = inputs) : ∃ c, op.eval? cs = some c := by
  have hresults : ∃ type, (op.outputTypes module : Except Fault _) = .ok [type] := by
    cases op with
    | nop => exact h.elim
    | call => exact h.elim
    | const32 => exact ⟨_, rfl⟩
    | const64 => exact ⟨_, rfl⟩
    | binary => exact ⟨_, rfl⟩
  obtain ⟨type, hresults⟩ := hresults
  have htype := map_type_eval? h.ne_call hinputs hresults hcs
  obtain ⟨c, hc, -⟩ := Option.map_eq_some_iff.1 htype
  exact ⟨c, hc⟩

lemma Operator.exists_calleeType {callee : Func}
    (hinputs : ((Operator.call callee).inputTypes module : Except Fault _) = .ok inputs)
    (hresults : ((Operator.call callee).outputTypes module : Except Fault _) = .ok results) :
    ∃ type, (module.funcType callee : Except Fault _) = .ok type ∧ type.params = inputs ∧
      type.returns = results := by
  simp only [inputTypes, outputTypes, map_eq_pure_bind, bind_eq_ok] at hinputs hresults
  obtain ⟨type, htype, hparams⟩ := hinputs
  obtain ⟨type', htype', hreturns⟩ := hresults
  cases htype.symm.trans htype'
  exact ⟨type, htype, Except.ok.inj hparams, Except.ok.inj hreturns⟩

end Operators

/-! ### Activations -/

/-- Constants are there for the values whose definitions were run and that have a type, and have
that type. -/
structure Activation.WellTyped (body : Body) (a : Activation) : Prop where
  types : ∀ value c, a.frame.constants.get value = some c →
    (body.values.get? value).bind Def.type? = some c.type
  executed : ∀ value type, (body.values.get? value).bind Def.type? = some type →
    ((∃ c, a.frame.constants.get value = some c) ↔ value ∈ a.executed)

/-- The activation has no constant for a value, as what defines the value was not run in it. -/
structure Activation.Lacks (body : Body) (a : Activation) (value : Value) : Prop where
  read : (a.frame.read body value : Except Fault _) = .ok none
  notExecuted : value ∉ a.executed

/-- The value is one of those that a frame reads to leave a block that ends in `term`. -/
inductive Frame.Reads (body : Body) (frame : Frame) : Terminator → Value → Prop
  | jump {target : Target} {value : Value} : value ∈ target.args → Reads body frame (.jump target) value
  | cond {cond : Value} {onTrue onFalse : Target} : Reads body frame (.branch cond onTrue onFalse) cond
  | branch {cond value : Value} {onTrue onFalse : Target} {c : Constant} :
    (frame.read body cond : Except Fault _) = .ok (some c) →
    value ∈ (if c.isTrue then onTrue else onFalse).args →
    Reads body frame (.branch cond onTrue onFalse) value
  | ret {values : List Value} {value : Value} : value ∈ values → Reads body frame (.ret values) value

/-- The activation cannot do what is pending in a block that ends in `term`: that is the end of a
block that leads nowhere, or needs a value that the activation lacks. -/
inductive Activation.Stuck (body : Body) (a : Activation) (term : Terminator) : List Value → Prop
  | unreachable : term = .unreachable → Stuck body a term []
  | leaving {value : Value} : a.frame.Reads body term value → a.Lacks body value → Stuck body a term []
  | operand {inst value : Value} {op : Operator} {args rest : List Value} {types : List ValueType} :
    body.values.get? inst = some (.inst op args types) → value ∈ args → a.Lacks body value →
    Stuck body a term (inst :: rest)

lemma Body.WellFormed.hasTypes_params {module : Module} {body : Body} {type : FuncType}
    (h : body.WellFormed module type) {block : Block} {data : BlockData}
    (hdata : body.blocks.get? block = some data) : body.HasTypes data.paramValues data.paramTypes := by
  rw [HasTypes, BlockData.paramValues, BlockData.paramTypes, List.forall₂_map_left_iff,
    List.forall₂_map_right_iff, List.forall₂_same]
  intro p hp
  obtain ⟨position, hposition⟩ := List.getElem?_of_mem hp
  rw [(h.params p.2 block position p.1).2 ⟨data, hdata, hposition⟩]
  rfl

namespace Activation.WellTyped

variable {module : Module} {type : FuncType} {body : Body} {a : Activation} {value inst : Value}
  {values executed : List Value} {cs : List Constant}

lemma fresh (func : Func) (block : Block) : WellTyped body ⟨{ func, block }, []⟩ where
  types value c h := by simp [SideTable.get] at h
  executed value type _ := by simp [SideTable.get]

lemma of_mem_iff (h : WellTyped body ⟨a.frame, executed⟩)
    (hexecuted : ∀ value, value ∈ a.executed ↔ value ∈ executed) : a.WellTyped body where
  types := h.types
  executed value type htype := (h.executed value type htype).trans (hexecuted value).symm

lemma ran (h : a.WellTyped body) {result : Option Constant}
    (hresult : result.map Constant.type = (body.values.get? inst).bind Def.type?) :
    (a.ran inst result).WellTyped body := by
  cases result with
  | none =>
    refine ⟨h.types, fun value type htype => ?_⟩
    -- an instruction without a result has no type
    have hne : value ≠ inst := by
      rintro rfl
      rw [htype] at hresult
      cases hresult
    rw [Activation.ran, List.mem_cons, or_iff_right hne]
    exact h.executed value type htype
  | some c =>
    have hget (value : Value) : (a.ran inst (some c)).frame.constants.get value =
        if value = inst then some c else a.frame.constants.get value :=
      SideTable.get_set _ _ _ _
    constructor
    · intro value c' hc'
      rw [hget] at hc'
      split at hc'
      · rename_i heq
        rw [heq, ← hresult, Option.map_some, Option.some.inj hc']
      · exact h.types value c' hc'
    · intro value type htype
      rw [hget, Activation.ran, List.mem_cons]
      split
      · rename_i heq
        exact iff_of_true ⟨c, rfl⟩ (.inl heq)
      · rename_i hne
        rw [or_iff_right hne]
        exact h.executed value type htype

lemma writeAll (h : a.WellTyped body) (htypes : body.HasTypes values (cs.map Constant.type)) :
    WellTyped body ⟨a.frame.writeAll values cs, values ++ a.executed⟩ := by
  induction values generalizing a cs with
  | nil => exact h
  | cons value values ih =>
    cases cs with
    | nil => cases htypes
    | cons c cs =>
      obtain ⟨hvalue, hrest⟩ := List.forall₂_cons.1 htypes
      have hran : (a.ran value (some c)).WellTyped body := h.ran hvalue.symm
      refine of_mem_iff (a := ⟨_, _⟩) (ih hran hrest) fun v => ?_
      simp only [Activation.ran, List.mem_append, List.mem_cons]
      tauto

/-! ### Reading -/

lemma read (h : a.WellTyped body) {type : ValueType}
    (htype : (body.values.get? value).bind Def.type? = some type) :
    (∃ c, (a.frame.read body value : Except Fault _) = .ok (some c) ∧ c.type = type) ∨
      a.Lacks body value := by
  obtain ⟨d, hd, hdtype⟩ := Option.bind_eq_some_iff.1 htype
  have hread : (a.frame.read body value : Except Fault _) = _ := Frame.read_eq hd
  by_cases hpointer : ∃ str, d = .strRef str
  · obtain ⟨str, rfl⟩ := hpointer
    exact .inl ⟨.ptr str, hread, Option.some.inj hdtype⟩
  · have hheld : a.frame.held? value d = a.frame.constants.get value := by
      cases d with
      | strRef str => exact absurd ⟨str, rfl⟩ hpointer
      | param => rfl
      | inst => rfl
      | undefined => rfl
    rw [hheld] at hread
    cases hc : a.frame.constants.get value with
    | some c =>
      rw [hc] at hread
      exact .inl ⟨c, hread, Option.some.inj ((h.types value c hc).symm.trans htype)⟩
    | none =>
      rw [hc] at hread
      refine .inr ⟨hread, fun hmem => ?_⟩
      obtain ⟨c, hsome⟩ := (h.executed value type htype).2 hmem
      rw [hc] at hsome
      cases hsome

lemma readAll (h : a.WellTyped body) {types : List ValueType} (htypes : body.HasTypes values types) :
    (∃ cs, (a.frame.readAll body values : Except Fault _) = .ok (some cs) ∧
        cs.map Constant.type = types) ∨
      (a.frame.readAll body values : Except Fault _) = .ok none ∧ ∃ value ∈ values, a.Lacks body value := by
  induction htypes with
  | nil => exact .inl ⟨[], rfl, rfl⟩
  | @cons value type values types hvalue _ ih =>
    rw [Frame.readAll]
    rcases h.read hvalue with ⟨c, hread, rfl⟩ | hlacks
    · rcases ih with ⟨cs, hrest, rfl⟩ | ⟨hrest, other, hother, hlacks⟩
      · exact .inl ⟨c :: cs, by simp [hread, hrest], rfl⟩
      · exact .inr ⟨by simp [hread, hrest], other, List.mem_cons_of_mem _ hother, hlacks⟩
    · exact .inr ⟨by simp [hlacks.read], value, List.mem_cons_self, hlacks⟩

/-! ### Leaving a block -/

/-- What comes of leaving a block that ends in `term`: the function returns constants of the types
that it should, or the activation is stuck, or it gets to a block of the body. -/
inductive Leaves (body : Body) (a : Activation) (term : Terminator) : Except Outcome Frame → Prop
  | returned {cs : List Constant} : cs.map Constant.type = body.returns →
    Leaves body a term (.error (.returned cs))
  | stuck : a.Stuck body term [] → Leaves body a term (.error a.frame.trap)
  | onward {frame : Frame} : frame.func = a.frame.func → frame.block.index < body.blocks.size →
    WellTyped body ⟨frame, body.paramsAt frame.block ++ a.executed⟩ → Leaves body a term (.ok frame)

lemma follow (h : a.WellTyped body) (hbody : body.WellFormed module type) {term : Terminator}
    {target : Target} (htarget : target.Typed body)
    (hreads : ∀ value ∈ target.args, a.frame.Reads body term value) :
    ∃ r, (a.frame.follow body target : Except Fault _) = .ok r ∧ Leaves body a term r := by
  obtain ⟨data, hdata, hargs⟩ := htarget
  rw [Frame.follow]
  rcases h.readAll hargs with ⟨cs, hread, htypes⟩ | ⟨hread, value, hvalue, hlacks⟩
  · have hget : (body.blocks.get target.block : Except Fault _) = .ok data := Table.get_eq_ok.2 hdata
    refine ⟨_, by simp [hread, hget]; rfl, ?_⟩
    have hparams : body.HasTypes data.paramValues (cs.map Constant.type) := by
      rw [htypes]
      exact hbody.hasTypes_params hdata
    have hwellTyped := h.writeAll hparams
    refine .onward rfl (Table.get?_lt hdata) ?_
    rw [Body.paramsAt_eq hdata]
    exact ⟨hwellTyped.types, hwellTyped.executed⟩
  · exact ⟨_, by simp [hread], .stuck (.leaving (hreads value hvalue) hlacks)⟩

lemma leave (h : a.WellTyped body) (hbody : body.WellFormed module type) {term : Terminator}
    (hterm : term.Typed body) :
    ∃ r, (a.frame.leave body term : Except Fault _) = .ok r ∧ Leaves body a term r := by
  cases term with
  | missing => exact hterm.elim
  | unreachable => exact ⟨_, rfl, .stuck (.unreachable rfl)⟩
  | jump target => exact h.follow hbody hterm fun value hvalue => .jump hvalue
  | branch cond onTrue onFalse =>
    obtain ⟨hcond, hTrue, hFalse⟩ := hterm
    rw [Frame.leave]
    rcases h.read (List.forall₂_cons.1 hcond).1 with ⟨c, hread, -⟩ | hlacks
    · have htarget : (if c.isTrue then onTrue else onFalse).Typed body := by
        split
        · exact hTrue
        · exact hFalse
      rw [hread, ok_bind]
      exact h.follow hbody htarget fun value hvalue => .branch hread hvalue
    · exact ⟨_, by simp [hlacks.read], .stuck (.leaving .cond hlacks)⟩
  | ret values =>
    rw [Frame.leave]
    rcases h.readAll hterm with ⟨cs, hread, htypes⟩ | ⟨hread, value, hvalue, hlacks⟩
    · exact ⟨_, by simp [hread], .returned htypes⟩
    · exact ⟨_, by simp [hread], .stuck (.leaving (.ret hvalue) hlacks)⟩

end Activation.WellTyped

end EntryTrace
