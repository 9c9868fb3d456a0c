import EntryTrace.Proofs.Tables
import EntryTrace.Machine.Run

/-!
# Steps of frames

What a frame holds for a value, and where a frame goes on.
-/

namespace EntryTrace

namespace Frame

lemma exists_writeAll_eq (frame : Frame) (values : List Value) (cs : List Constant) :
    ∃ constants, frame.writeAll values cs = { frame with constants } := by
  induction values generalizing frame cs with
  | nil => exact ⟨_, rfl⟩
  | cons value values ih =>
    cases cs with
    | nil => exact ⟨_, rfl⟩
    | cons c cs => exact ih (frame.write value c) cs

@[simp] lemma func_writeAll (frame : Frame) (values : List Value) (cs : List Constant) :
    (frame.writeAll values cs).func = frame.func := by
  obtain ⟨constants, h⟩ := frame.exists_writeAll_eq values cs
  rw [h]

@[simp] lemma block_writeAll (frame : Frame) (values : List Value) (cs : List Constant) :
    (frame.writeAll values cs).block = frame.block := by
  obtain ⟨constants, h⟩ := frame.exists_writeAll_eq values cs
  rw [h]

@[simp] lemma func_keep (frame : Frame) (inst : Value) (result : Option Constant) :
    (frame.keep inst result).func = frame.func := by
  cases result <;> rfl

@[simp] lemma block_keep (frame : Frame) (inst : Value) (result : Option Constant) :
    (frame.keep inst result).block = frame.block := by
  cases result <;> rfl

/-- A frame that goes on is of the same function and at the block of the target. -/
lemma of_follow_eq_ok {frame frame' : Frame} {body : Body} {target : Target}
    (h : (frame.follow body target : Except Fault _) = .ok (.ok frame')) :
    frame'.func = frame.func ∧ frame'.block = target.block := by
  rw [Frame.follow, bind_eq_ok] at h
  obtain ⟨args, -, h⟩ := h
  cases args with
  | none => cases h
  | some args =>
    simp only [note_silent, ok_bind, bind_eq_ok, pure_eq_ok] at h
    obtain ⟨data, -, h⟩ := h
    cases h
    exact ⟨frame.func_writeAll _ _, rfl⟩

lemma of_leave_eq_ok {frame frame' : Frame} {body : Body} {term : Terminator}
    (h : (frame.leave body term : Except Fault _) = .ok (.ok frame')) :
    frame'.func = frame.func ∧ ∃ target ∈ term.targets, target.block = frame'.block := by
  have hfollow {target : Target} (htarget : target ∈ term.targets)
      (h : (frame.follow body target : Except Fault _) = .ok (.ok frame')) :
      frame'.func = frame.func ∧ ∃ target ∈ term.targets, target.block = frame'.block := by
    obtain ⟨hfunc, hblock⟩ := of_follow_eq_ok h
    exact ⟨hfunc, target, htarget, hblock.symm⟩
  cases term with
  | jump target => exact hfollow List.mem_cons_self h
  | branch cond onTrue onFalse =>
    obtain ⟨c, -, h⟩ := bind_eq_ok.1 h
    cases c with
    | none => cases h
    | some c => exact hfollow (by split <;> simp [Terminator.targets]) h
  | ret values =>
    obtain ⟨cs, -, h⟩ := bind_eq_ok.1 h
    cases cs <;> cases h
  | unreachable => cases h
  | missing => cases h

lemma eq_trap_of_follow {frame : Frame} {body : Body} {target : Target} {outcome : Outcome}
    (h : (frame.follow body target : Except Fault _) = .ok (.error outcome)) :
    outcome = frame.trap := by
  rw [Frame.follow, bind_eq_ok] at h
  obtain ⟨args, -, h⟩ := h
  cases args with
  | none =>
    cases h
    rfl
  | some args =>
    simp only [note_silent, ok_bind, bind_eq_ok, pure_eq_ok] at h
    obtain ⟨data, -, h⟩ := h
    cases h

/-- A frame that does not go on after a block is trapped there or returns. -/
lemma of_leave_eq_error {frame : Frame} {body : Body} {term : Terminator} {outcome : Outcome}
    (h : (frame.leave body term : Except Fault _) = .ok (.error outcome)) :
    outcome = frame.trap ∨ ∃ values, outcome = .returned values := by
  cases term with
  | jump target => exact .inl (eq_trap_of_follow h)
  | branch cond onTrue onFalse =>
    obtain ⟨c, -, h⟩ := bind_eq_ok.1 h
    cases c with
    | none =>
      cases h
      exact .inl rfl
    | some c => exact .inl (eq_trap_of_follow h)
  | ret values =>
    obtain ⟨cs, -, h⟩ := bind_eq_ok.1 h
    cases cs with
    | none =>
      cases h
      exact .inl rfl
    | some cs =>
      cases h
      exact .inr ⟨cs, rfl⟩
  | unreachable | missing =>
    cases h
    exact .inl rfl

/-- What a frame holds for a value, given what defines it. -/
def held? (frame : Frame) (value : Value) : Def → Option Constant
  | .strRef str => some (.ptr str)
  | _ => frame.constants.get value

lemma read_eq {frame : Frame} {body : Body} {value : Value} {d : Def}
    (h : body.values.get? value = some d) :
    (frame.read body value : Except Fault _) = .ok (frame.held? value d) := by
  have hget : (body.values.get value : Except Fault Def) = .ok d := Table.get_eq_ok.2 h
  rw [Frame.read, hget, ok_bind]
  cases d with
  | strRef => rfl
  | param => cases hc : frame.constants.get value <;> simp [Frame.held?, hc]
  | inst => cases hc : frame.constants.get value <;> simp [Frame.held?, hc]
  | undefined => cases hc : frame.constants.get value <;> simp [Frame.held?, hc]

end Frame

@[simp] lemma Run.noteArgs_silent (values : List Value) (args : List Constant) :
    (Run.noteArgs values args : Except Fault Unit) = .ok () := by
  induction values generalizing args with
  | nil => rfl
  | cons value values ih =>
    cases args with
    | nil => rfl
    | cons c args => exact ih args

end EntryTrace
