import EntryTrace.Proofs.Extending

/-!
# Resolving in a module that offers more

A function's blocks that resolve to a body in some module resolve to the same body in every module
that offers all that this one does.
-/

namespace EntryTrace.Source

open Scope

variable {m m' : Module} {scope t : Scope} {line : Nat}

namespace Scope

lemma operand_extend {tree : OperandTree} {r : Value × Scope} (hm : m.Extends m')
    (h : Answers (scope.operand m line tree) r) : Answers (scope.operand m' line tree) r := by
  rw [answers_operand] at h ⊢
  rcases h with hvalue | ⟨index, htree, hindex, hrest⟩
  · exact .inl hvalue
  · exact .inr ⟨index, htree, hindex.trans_le hm.strings, hrest⟩

lemma operands_extend {trees : List OperandTree} {r : List Value × Scope} (hm : m.Extends m')
    (h : Answers (scope.operands m line trees) r) : Answers (scope.operands m' line trees) r := by
  induction trees generalizing scope r with
  | nil => exact answers_operands_nil.2 (answers_operands_nil.1 h)
  | cons tree trees ih =>
    obtain ⟨value, s, values, t, hvalue, hvalues, heq⟩ := answers_operands_cons.1 h
    exact answers_operands_cons.2 ⟨value, s, values, t, operand_extend hm hvalue, ih hvalues, heq⟩

lemma operation_extend {tree : OpTree} {r : Operator × List Value × Scope} (hm : m.Extends m')
    (h : Answers (scope.operation m line tree) r) : Answers (scope.operation m' line tree) r := by
  rw [answers_operation] at h ⊢
  cases tree with
  | nop => exact h
  | const32 => exact h
  | const64 => exact h
  | binary op left right =>
    obtain ⟨a, s, b, t, hleft, hright, heq⟩ := h
    exact ⟨a, s, b, t, operand_extend hm hleft, operand_extend hm hright, heq⟩
  | call callee args =>
    obtain ⟨values, t, hcallee, hargs, heq⟩ := h
    exact ⟨values, t, hcallee.trans_le hm.size_funcs, operands_extend hm hargs, heq⟩

lemma addInsts_extend {block : Block} {trees : List InstTree} (hm : m.Extends m')
    (h : Answers (scope.addInsts m block trees) t) : Answers (scope.addInsts m' block trees) t := by
  induction trees generalizing scope with
  | nil => exact h
  | cons tree trees ih =>
    rw [addInsts, answers_bind] at h ⊢
    obtain ⟨s, htree, htrees⟩ := h
    obtain ⟨op, args, r, inputs, outputs, hop, hin, htypes, hout, hrest⟩ := answers_addInst.1 htree
    exact ⟨s, answers_addInst.2 ⟨op, args, r, inputs, outputs, operation_extend hm hop,
      hm.inputTypes hin, htypes, hm.outputTypes hout, hrest⟩, ih htrees⟩

lemma target_extend {tree : TargetTree} {r : Target × Scope} (hm : m.Extends m')
    (h : Answers (scope.target m line tree) r) : Answers (scope.target m' line tree) r := by
  obtain ⟨block, args, t, data, hblock, hargs, hrest⟩ := answers_target.1 h
  exact answers_target.2 ⟨block, args, t, data, hblock, operands_extend hm hargs, hrest⟩

lemma terminator_extend {tree : TermTree} {r : Terminator × Scope} (hm : m.Extends m')
    (h : Answers (scope.terminator m line tree) r) : Answers (scope.terminator m' line tree) r := by
  rw [answers_terminator] at h ⊢
  cases tree with
  | jump target =>
    obtain ⟨a, t, htarget, heq⟩ := h
    exact ⟨a, t, target_extend hm htarget, heq⟩
  | branch cond onTrue onFalse =>
    obtain ⟨c, s, a, s', b, t, hcond, htype, htrue, hfalse, heq⟩ := h
    exact ⟨c, s, a, s', b, t, operand_extend hm hcond, htype, target_extend hm htrue,
      target_extend hm hfalse, heq⟩
  | ret values =>
    obtain ⟨args, t, hvalues, hrest⟩ := h
    exact ⟨args, t, operands_extend hm hvalues, hrest⟩
  | unreachable => exact h

lemma fillBlocks_extend {opened : List (BlockTree × Block)} (hm : m.Extends m')
    (h : Answers (scope.fillBlocks m opened) t) : Answers (scope.fillBlocks m' opened) t := by
  induction opened generalizing scope with
  | nil => exact h
  | cons p opened ih =>
    obtain ⟨tree, block⟩ := p
    rw [fillBlocks, answers_bind] at h ⊢
    obtain ⟨s, hfill, hrest⟩ := h
    obtain ⟨r, term, r', body, hinsts, hterm, hend⟩ := answers_fillBlock.1 hfill
    exact ⟨s, answers_fillBlock.2 ⟨r, term, r', body, addInsts_extend hm hinsts,
      terminator_extend hm hterm, hend⟩, ih hrest⟩

end Scope

theorem resolveBody_extend {signature : Signature} {trees : List BlockTree} {body : Body}
    (hm : m.Extends m') (h : Answers (resolveBody m signature trees) body) :
    Answers (resolveBody m' signature trees) body := by
  obtain ⟨type, empty, opened, s, t, htype, hempty, hopen, hfill, heq⟩ := answers_resolveBody.1 h
  exact answers_resolveBody.2 ⟨type, empty, opened, s, t, hm.signatures.get? htype, hempty, hopen,
    fillBlocks_extend hm hfill, heq⟩

end EntryTrace.Source
