import EntryTrace.Proofs.WellFormed

/-!
# Modules that offer more

A body looks at a module only for how many strings and functions there are and for the types of
functions. So what holds of a body in a module holds in every module that offers all that, and
maybe more.
-/

namespace EntryTrace

/-- A module offers all signatures, strings and functions of another one, by the same numbers.
A function may have got another body. -/
structure Module.Extends (m m' : Module) : Prop where
  signatures : m.signatures.PrefixOf m'.signatures
  strings : m.strings.size ≤ m'.strings.size
  funcs : (m.funcs.toList.map Decl.signature) <+: (m'.funcs.toList.map Decl.signature)

namespace Module.Extends

variable {m m' m'' : Module}

@[refl] lemma refl (m : Module) : m.Extends m := ⟨.refl _, le_refl _, List.prefix_rfl⟩

lemma trans (h : m.Extends m') (h' : m'.Extends m'') : m.Extends m'' where
  signatures := h.signatures.trans h'.signatures
  strings := h.strings.trans h'.strings
  funcs := h.funcs.trans h'.funcs

lemma size_funcs (h : m.Extends m') : m.funcs.size ≤ m'.funcs.size := by
  simpa only [List.length_map, Table.length_toList] using h.funcs.length_le

lemma funcType (h : m.Extends m') {func : Func} {type : FuncType}
    (htype : (m.funcType func : Except Fault _) = .ok type) :
    (m'.funcType func : Except Fault _) = .ok type := by
  obtain ⟨decl, hdecl, hsignature⟩ := Module.funcType_eq_ok.1 htype
  have hget : (m.funcs.toList.map Decl.signature)[func.index]? = some decl.signature := by
    rw [List.getElem?_map, ← Table.get?_eq, hdecl]
    rfl
  obtain ⟨rest, hrest⟩ := h.funcs
  have hget' : (m'.funcs.toList.map Decl.signature)[func.index]? = some decl.signature := by
    rw [← hrest, List.getElem?_append_left (List.getElem?_eq_some_iff.1 hget).1, hget]
  rw [List.getElem?_map, ← Table.get?_eq, Option.map_eq_some_iff] at hget'
  obtain ⟨decl', hdecl', hsame⟩ := hget'
  refine Module.funcType_eq_ok.2 ⟨decl', hdecl', ?_⟩
  rw [hsame]
  exact h.signatures.get? hsignature

lemma inputTypes (h : m.Extends m') {op : Operator} {types : List ValueType}
    (htypes : (op.inputTypes m : Except Fault _) = .ok types) :
    (op.inputTypes m' : Except Fault _) = .ok types := by
  cases op with
  | call callee =>
    simp only [Operator.inputTypes, map_eq_pure_bind, bind_eq_ok] at htypes ⊢
    obtain ⟨type, htype, hparams⟩ := htypes
    exact ⟨type, h.funcType htype, hparams⟩
  | nop => exact htypes
  | const32 => exact htypes
  | const64 => exact htypes
  | binary => exact htypes

lemma outputTypes (h : m.Extends m') {op : Operator} {types : List ValueType}
    (htypes : (op.outputTypes m : Except Fault _) = .ok types) :
    (op.outputTypes m' : Except Fault _) = .ok types := by
  cases op with
  | call callee =>
    simp only [Operator.outputTypes, map_eq_pure_bind, bind_eq_ok] at htypes ⊢
    obtain ⟨type, htype, hreturns⟩ := htypes
    exact ⟨type, h.funcType htype, hreturns⟩
  | nop => exact htypes
  | const32 => exact htypes
  | const64 => exact htypes
  | binary => exact htypes

end Module.Extends

/-- Giving a function its body does not change what a module offers. -/
lemma Module.extends_withBody (m : Module) (func : Func) (body : Body) :
    m.Extends { m with funcs := m.funcs.modify func (Decl.withBody body) } where
  signatures := .refl _
  strings := le_refl _
  funcs := by
    have hsame : (m.funcs.modify func (Decl.withBody body)).map Decl.signature =
        m.funcs.map Decl.signature := Table.map_modify_of_eq fun decl => by cases decl <;> rfl
    rw [← Table.toList_map, ← Table.toList_map, hsame]

variable {m m' : Module} {body : Body}

lemma Def.Closed.extend {d : Def} {width : Nat} (h : d.Closed m width) (hm : m.Extends m') :
    d.Closed m' width := by
  cases d with
  | param => trivial
  | inst op args types =>
    refine ⟨?_, h.2⟩
    cases op with
    | call callee => exact h.1.trans_le hm.size_funcs
    | nop => exact h.1
    | const32 => exact h.1
    | const64 => exact h.1
    | binary => exact h.1
  | strRef => exact h.trans_le hm.strings
  | undefined => exact h

lemma Body.Closed.extend (h : body.Closed m) (hm : m.Extends m') : body.Closed m' :=
  { h with values := fun d hd => (h.values d hd).extend hm }

lemma Body.Offers.extend {before : List Value} {value : Value} (h : body.Offers m before value)
    (hm : m.Extends m') : body.Offers m' before value := by
  unfold Body.Offers at h ⊢
  split at h
  · exact h.trans_le hm.strings
  · trivial
  · exact h
  · exact h.elim

/-- A well-formed body stays well-formed in a module that offers more. -/
lemma Body.WellFormed.extend {type : FuncType} (h : body.WellFormed m type) (hm : m.Extends m') :
    body.WellFormed m' type :=
  { h with
    operands := fun before inst after hlisting op args types hget arg harg =>
      (h.operands before inst after hlisting op args types hget arg harg).extend hm
    terminatorOperands := fun block data hdata arg harg =>
      (h.terminatorOperands block data hdata arg harg).extend hm
    operandTypes := by
      intro inst op args results hget
      obtain ⟨inputs, hin, htypes⟩ := h.operandTypes inst op args results hget
      exact ⟨inputs, hm.inputTypes hin, htypes⟩
    resultTypes := fun inst op args results hget =>
      hm.outputTypes (h.resultTypes inst op args results hget) }

end EntryTrace
