import EntryTrace.Proofs.TypedFrames

/-!
# What operators compute

The two tables of operand and result types and the evaluator say the same of every operator but a
call: there is a result exactly for operands of the types that the operator takes, if it has a result
at all. The result is that of exact arithmetic, cut down to the bits of a word.
-/

namespace EntryTrace

/-- The constant is a word of so many bits that reads as `n` without a sign. -/
inductive Constant.Reads : Constant → Nat → Nat → Prop
  | i32 (x : UInt32) : Reads (.i32 x) 32 x.toNat
  | i64 (x : UInt64) : Reads (.i64 x) 64 x.toNat

/-- What a word of so many bits that reads as `n` without a sign reads as with one. -/
def signed (bits n : Nat) : Int := if n < 2 ^ (bits - 1) then n else n - 2 ^ bits

namespace BinaryOp

/-- The bits of the words that the operator works on. -/
def bits : BinaryOp → Nat
  | .add32 | .sub32 | .mul32 | .eq32 | .less32 => 32
  | .add64 | .sub64 | .mul64 => 64

/-- What the operator makes of two words that read as these numbers, before it is cut down to a word. -/
def exact : BinaryOp → Nat → Nat → Int
  | .add32, x, y | .add64, x, y => x + y
  | .sub32, x, y | .sub64, x, y => x - y
  | .mul32, x, y | .mul64, x, y => x * y
  | .eq32, x, y => if x = y then 1 else 0
  | .less32, x, y => if signed 32 x < signed 32 y then 1 else 0

end BinaryOp

/-- The operator makes this result of these operands, by exact arithmetic and two's complement. -/
inductive Operator.Computes : Operator → List Constant → Constant → Prop
  | const32 (value : UInt32) : Computes (.const32 value) [] (.i32 value)
  | const64 (value : UInt64) : Computes (.const64 value) [] (.i64 value)
  | binary {op : BinaryOp} {a b r : Constant} {x y z : Nat} :
    a.Reads op.bits x → b.Reads op.bits y → r.Reads op.bits z → (z : Int) = op.exact x y % 2 ^ op.bits →
    Computes (.binary op) [a, b] r

/-! ### Words -/

lemma signed_toNat (x : UInt32) : signed 32 x.toNat = x.toInt32.toInt := by
  have hcond := BitVec.toInt_eq_toNat_cond x.toBitVec
  have hx : x.toInt32.toInt = x.toBitVec.toInt := rfl
  have hnat : x.toBitVec.toNat = x.toNat := rfl
  rw [hx, hcond, hnat, signed]
  push_cast
  split <;> split <;> omega

/-- Subtraction adds the complement, which is the same up to a multiple of `m`. -/
lemma sub_emod_eq {m x y : Nat} (hy : y ≤ m) : (((m - y + x) % m : Nat) : Int) = ((x : Int) - y) % m := by
  have hcast : ((m - y + x : Nat) : Int) = (x : Int) - y + m := by omega
  rw [Int.natCast_emod, hcast, Int.add_emod_right]

namespace Constant.Reads

variable {c c' : Constant} {bits n n' : Nat} {op : BinaryOp}

lemma type_eq (h : c.Reads op.bits n) : c.type = op.operandType ∧ c.type = op.resultType := by
  generalize hbits : op.bits = bits at h
  cases h with
  | i32 => cases op <;> first | exact ⟨rfl, rfl⟩ | cases hbits
  | i64 => cases op <;> first | exact ⟨rfl, rfl⟩ | cases hbits

lemma number_eq (h : c.Reads bits n) (h' : c.Reads bits n') : n = n' := by
  cases h <;> cases h' <;> rfl

/-- A word is what it reads as. -/
lemma constant_eq (h : c.Reads bits n) (h' : c'.Reads bits n) : c = c' := by
  cases h with
  | i32 x =>
    generalize hn : x.toNat = n at h'
    cases h' with
    | i32 x' => rw [UInt32.toNat_inj.1 hn]
  | i64 x =>
    generalize hn : x.toNat = n at h'
    cases h' with
    | i64 x' => rw [UInt64.toNat_inj.1 hn]

end Constant.Reads

namespace BinaryOp

variable {op : BinaryOp}

lemma exact_of_eval32 {a b z : UInt32} (h : op.eval32 a b = some z) :
    (z.toNat : Int) = op.exact a.toNat b.toNat % 2 ^ 32 := by
  cases op with
  | add32 =>
    cases h
    rw [UInt32.toNat_add, exact, Int.natCast_emod]
    rfl
  | sub32 =>
    cases h
    rw [UInt32.toNat_sub, exact]
    exact sub_emod_eq b.toNat_lt.le
  | mul32 =>
    cases h
    rw [UInt32.toNat_mul, exact, Int.natCast_emod]
    rfl
  | eq32 =>
    cases h
    simp only [exact, UInt32.toNat_inj]
    split <;> rfl
  | less32 =>
    cases h
    simp only [exact, signed_toNat, Int32.lt_iff_toInt_lt]
    split <;> rfl
  | add64 | sub64 | mul64 => cases h

lemma exact_of_eval64 {a b z : UInt64} (h : op.eval64 a b = some z) :
    (z.toNat : Int) = op.exact a.toNat b.toNat % 2 ^ 64 := by
  cases op with
  | add64 =>
    cases h
    rw [UInt64.toNat_add, exact, Int.natCast_emod]
    rfl
  | sub64 =>
    cases h
    rw [UInt64.toNat_sub, exact]
    exact sub_emod_eq b.toNat_lt.le
  | mul64 =>
    cases h
    rw [UInt64.toNat_mul, exact, Int.natCast_emod]
    rfl
  | add32 | sub32 | mul32 | eq32 | less32 => cases h

lemma bits_of_eval32 {a b z : UInt32} (h : op.eval32 a b = some z) : op.bits = 32 := by
  cases op with
  | add32 | sub32 | mul32 | eq32 | less32 => rfl
  | add64 | sub64 | mul64 => cases h

lemma bits_of_eval64 {a b z : UInt64} (h : op.eval64 a b = some z) : op.bits = 64 := by
  cases op with
  | add64 | sub64 | mul64 => rfl
  | add32 | sub32 | mul32 | eq32 | less32 => cases h

end BinaryOp

/-! ### Operators -/

namespace Operator

variable {op : Operator} {args : List Constant} {r r' : Constant}

lemma computes_of_eval? (h : op.eval? args = some r) : op.Computes args r := by
  unfold eval? at h
  split at h
  · cases h
    exact .const32 _
  · cases h
    exact .const64 _
  · rename_i op a b
    obtain ⟨z, hz, rfl⟩ := Option.map_eq_some_iff.1 h
    have hreads (x : UInt32) : (Constant.i32 x).Reads op.bits x.toNat := by
      rw [BinaryOp.bits_of_eval32 hz]
      exact .i32 x
    refine .binary (hreads a) (hreads b) (hreads z) ?_
    rw [BinaryOp.exact_of_eval32 hz, BinaryOp.bits_of_eval32 hz]
  · rename_i op a b
    obtain ⟨z, hz, rfl⟩ := Option.map_eq_some_iff.1 h
    have hreads (x : UInt64) : (Constant.i64 x).Reads op.bits x.toNat := by
      rw [BinaryOp.bits_of_eval64 hz]
      exact .i64 x
    refine .binary (hreads a) (hreads b) (hreads z) ?_
    rw [BinaryOp.exact_of_eval64 hz, BinaryOp.bits_of_eval64 hz]
  · cases h

/-- What computes has the operands and the result that the tables say, in any module. -/
lemma Computes.types_eq (h : op.Computes args r) (module : Module) :
    (op.inputTypes module : Except Fault _) = .ok (args.map Constant.type) ∧
      (op.outputTypes module : Except Fault _) = .ok [r.type] := by
  cases h with
  | const32 => exact ⟨rfl, rfl⟩
  | const64 => exact ⟨rfl, rfl⟩
  | binary ha hb hr =>
    rw [List.map_cons, List.map_cons, List.map_nil, ha.type_eq.1, hb.type_eq.1, hr.type_eq.2]
    exact ⟨rfl, rfl⟩

lemma Computes.result_eq (h : op.Computes args r) (h' : op.Computes args r') : r = r' := by
  cases h with
  | const32 => cases h'; rfl
  | const64 => cases h'; rfl
  | binary ha hb hr hz =>
    cases h' with
    | binary ha' hb' hr' hz' =>
      obtain rfl := ha.number_eq ha'
      obtain rfl := hb.number_eq hb'
      obtain rfl := Int.natCast_inj.1 (hz.trans hz'.symm)
      exact hr.constant_eq hr'

lemma isPlain_of_outputs {module : Module} {outputs : List ValueType}
    (hop : ∀ callee, op ≠ .call callee)
    (houtputs : (op.outputTypes module : Except Fault _) = .ok outputs) (hne : outputs ≠ []) :
    op.IsPlain := by
  cases op with
  | call callee => exact hop callee rfl
  | nop =>
    cases houtputs
    exact hne rfl
  | const32 | const64 | binary => trivial

/-- Operators other than calls have their types, whatever the module. -/
lemma exists_types (hop : ∀ callee, op ≠ .call callee) (module : Module) : ∃ inputs outputs,
    (op.inputTypes module : Except Fault _) = .ok inputs ∧
    (op.outputTypes module : Except Fault _) = .ok outputs := by
  cases op with
  | call callee => exact absurd rfl (hop callee)
  | nop | const32 | const64 | binary => exact ⟨_, _, rfl, rfl⟩

end Operator

/-- The tables of types and the evaluator agree on every operator but a call, in every module. There is a
result exactly for operands of the types that the operator takes, if it has a result. The result is of the
one type that the operator gives, and it is the one that exact arithmetic and two's complement make of
the operands. -/
theorem evaluator_agrees (op : Operator) (hop : ∀ callee, op ≠ .call callee) (m : Module) :
    ∃ inputs outputs, (op.inputTypes m : Except Fault _) = .ok inputs ∧
      (op.outputTypes m : Except Fault _) = .ok outputs ∧ ∀ args,
        ((∃ r, op.eval? args = some r) ↔ args.map Constant.type = inputs ∧ outputs ≠ []) ∧
        ∀ r, (op.eval? args = some r ↔ op.Computes args r) ∧
          (op.eval? args = some r → outputs = [r.type]) := by
  obtain ⟨inputs, outputs, hinputs, houtputs⟩ := Operator.exists_types hop m
  have htypes {args : List Constant} {r : Constant} (h : op.Computes args r) :
      args.map Constant.type = inputs ∧ outputs = [r.type] := by
    obtain ⟨hin, hout⟩ := h.types_eq m
    exact ⟨Except.ok.inj (hin.symm.trans hinputs), Except.ok.inj (houtputs.symm.trans hout)⟩
  have hexists (args : List Constant) :
      (∃ r, op.eval? args = some r) ↔ args.map Constant.type = inputs ∧ outputs ≠ [] := by
    constructor
    · rintro ⟨r, hr⟩
      obtain ⟨hin, rfl⟩ := htypes (Operator.computes_of_eval? hr)
      exact ⟨hin, List.cons_ne_nil _ _⟩
    · rintro ⟨hin, hne⟩
      exact (Operator.isPlain_of_outputs hop houtputs hne).exists_eval? hinputs hin
  refine ⟨inputs, outputs, hinputs, houtputs, fun args => ⟨hexists args, fun r => ⟨⟨?_, ?_⟩, ?_⟩⟩⟩
  · exact Operator.computes_of_eval?
  · intro hr
    obtain ⟨hin, rfl⟩ := htypes hr
    obtain ⟨r', hr'⟩ := (hexists args).2 ⟨hin, List.cons_ne_nil _ _⟩
    rw [hr', hr.result_eq (Operator.computes_of_eval? hr')]
  · exact fun hr => (htypes (Operator.computes_of_eval? hr)).2

/-- With a sign the greatest word is less than zero, and words of another size are not compared. -/
theorem evaluator_agrees_less32 :
    (∀ callee, Operator.binary .less32 ≠ .call callee) ∧
    (Operator.binary .less32).Computes [.i32 4294967295, .i32 0] (.i32 1) ∧
    ¬ ∃ r, (Operator.binary .less32).eval? [.i64 4294967295, .i64 0] = some r := by
  have hop : ∀ callee, Operator.binary .less32 ≠ .call callee := nofun
  obtain ⟨inputs, outputs, hinputs, -, hagrees⟩ := evaluator_agrees (.binary .less32) hop {}
  have htypes : ¬ [Constant.i64 4294967295, .i64 0].map Constant.type = inputs := by
    cases hinputs
    decide
  refine ⟨hop, ((hagrees _).2 _).1.1 (by decide), fun hexists => ?_⟩
  exact htypes ((hagrees _).1.1 hexists).1

end EntryTrace
