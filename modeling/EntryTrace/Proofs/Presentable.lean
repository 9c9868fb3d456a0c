import EntryTrace.Proofs.PrintedModules
import EntryTrace.Proofs.SpelledBodies

/-!
# Modules that can be presented

What a module has to fulfil so that its text can be read again, however it was made. The entry
block is printed first, wherever it stands in the table; values may have been numbered in any
order, and there may be values that no block lists.
-/

namespace EntryTrace

open Source

/-- An operator that takes operands of so many types can have so many operands. -/
lemma Operator.accepts_of_inputTypes {m : Module} {op : Operator} {args : List Value}
    {inputs : List ValueType} (hin : (op.inputTypes m : Except Fault _) = .ok inputs)
    (hlength : args.length = inputs.length) : op.Accepts m args := by
  cases op with
  | nop =>
    obtain rfl := Except.ok.inj hin
    exact List.length_eq_zero_iff.1 hlength
  | const32 =>
    obtain rfl := Except.ok.inj hin
    exact List.length_eq_zero_iff.1 hlength
  | const64 =>
    obtain rfl := Except.ok.inj hin
    exact List.length_eq_zero_iff.1 hlength
  | binary =>
    obtain rfl := Except.ok.inj hin
    exact List.length_eq_two.1 hlength
  | call callee =>
    simp only [Operator.inputTypes, map_eq_pure_bind, bind_eq_ok] at hin
    obtain ⟨type, htype, -⟩ := hin
    obtain ⟨decl, hdecl, -⟩ := Module.funcType_eq_ok.1 htype
    exact Table.get?_lt hdecl

namespace Body

/-! ### Bodies -/

/-- The value can be used where the instructions `before` are printed before: it points to a string
of the module, or is a parameter of any block, or is one of these instructions. -/
def Provides (module : Module) (body : Body) (before : List Value) (value : Value) : Prop :=
  match body.values.get? value with
  | some (.strRef str) => str.index < module.strings.size
  | some (.param ..) => value ∈ body.displayedParams
  | some (.inst ..) => value ∈ before
  | _ => False

instance (module : Module) (body : Body) (before : List Value) (value : Value) :
    Decidable (body.Provides module before value) :=
  match hd : body.values.get? value with
  | some (.strRef str) => decidable_of_iff (str.index < module.strings.size) (by simp [Provides, hd])
  | some (.param ..) => decidable_of_iff (value ∈ body.displayedParams) (by simp [Provides, hd])
  | some (.inst ..) => decidable_of_iff (value ∈ before) (by simp [Provides, hd])
  | some .undefined => isFalse (by simp [Provides, hd])
  | none => isFalse (by simp [Provides, hd])

lemma Provides.exists_get? {module : Module} {body : Body} {before : List Value} {value : Value}
    (h : body.Provides module before value) : ∃ d, body.values.get? value = some d := by
  unfold Provides at h
  cases hd : body.values.get? value with
  | none => simp [hd] at h
  | some d => exact ⟨d, rfl⟩

lemma Provides.listed {module : Module} {body : Body} {before : List Value} {value : Value}
    (h : body.Provides module before value) (hbefore : before ⊆ body.displayedInsts) :
    (∃ str, body.values.get? value = some (.strRef str)) ∨ value ∈ body.listed := by
  obtain ⟨d, hd⟩ := h.exists_get?
  unfold Provides at h
  rw [hd] at h
  cases d with
  | strRef str => exact .inl ⟨str, hd⟩
  | param => exact .inr (List.mem_append_left _ h)
  | inst => exact .inr (List.mem_append_right _ (hbefore h))
  | undefined => exact h.elim

/-- The value is an instruction that makes sense where the instructions `before` are printed
before: its operands can be used there, and have the types that its operator takes, and it has
the results that its operator gives. -/
def InstFits (module : Module) (body : Body) (before : List Value) (inst : Value) : Prop :=
  ∃ op args results inputs, body.values.get? inst = some (.inst op args results) ∧
    (op.inputTypes module : Except Fault _) = .ok inputs ∧
    (op.outputTypes module : Except Fault _) = .ok results ∧ body.HasTypes args inputs ∧
    ∀ arg ∈ args, body.Provides module before arg

/-- The terminator of a block makes sense in a function of the type, `before` being the blocks that
are printed before. -/
def TerminatorFits (module : Module) (type : FuncType) (body : Body)
    (before : List (Block × BlockData)) (entry : Block × BlockData) : Prop :=
  entry.2.terminator.Typed { body with returns := type.returns } ∧
    ∀ arg ∈ entry.2.terminator.operands,
      body.Provides module (listingOf (before.map Prod.snd) ++ entry.2.insts) arg

/-- What is printed of the body makes sense as that of a function of the given type. -/
structure Presentable (module : Module) (type : FuncType) (body : Body) : Prop where
  entryParams : ∃ data, body.blocks.get? body.entry = some data ∧ data.paramTypes = type.params
  params : ∀ block data, body.blocks.get? block = some data → ∀ position paramType value,
    data.params[position]? = some (paramType, value) →
      body.values.get? value = some (.param block position paramType)
  /-- No value is listed twice. -/
  distinct : body.listed.Nodup
  insts : Stepwise (body.InstFits module) body.displayedInsts
  terminators : Stepwise (body.TerminatorFits module type) body.displayed

end Body

/-- The functions have signatures with at most one result, their bodies can be presented, and there
are no more things of one kind than there are numbers for them. -/
structure Module.Presentable (m : Module) : Prop where
  returns : ∀ type ∈ m.signatures.toList, type.returns.length ≤ 1
  signatures : m.SignaturesInRange
  bodies : ∀ decl ∈ m.funcs.toList, ∀ body ∈ decl.body?,
    ∃ type, m.signatures.get? decl.signature = some type ∧ body.Presentable m type
  signatureLimit : m.signatures.size ≤ Entity.limit
  stringLimit : m.strings.size ≤ Entity.limit
  funcLimit : m.funcs.size ≤ Entity.limit
  blockLimit : ∀ decl ∈ m.funcs.toList, ∀ body ∈ decl.body?, body.blocks.size ≤ Entity.limit
  valueLimit : ∀ decl ∈ m.funcs.toList, ∀ body ∈ decl.body?, body.values.size ≤ Entity.limit

namespace Body.Presentable

variable {m : Module} {type : FuncType} {body : Body} {block : Block} {data : BlockData}
  {value : Value}

section

variable (h : body.Presentable m type)
include h

lemma entry_lt : body.entry.index < body.blocks.size := by
  obtain ⟨data, hdata, -⟩ := h.entryParams
  exact Table.get?_lt hdata

lemma instFits (hinst : value ∈ body.displayedInsts) :
    ∃ before ⊆ body.displayedInsts, body.InstFits m before value := by
  obtain ⟨before, after, hsplit⟩ := List.append_of_mem hinst
  exact ⟨before, by simp [hsplit], h.insts before value after hsplit⟩

lemma terminatorFits (hdata : body.blocks.get? block = some data) :
    data.terminator.Typed { body with returns := type.returns } ∧ ∃ before ⊆ body.displayedInsts,
      ∀ arg ∈ data.terminator.operands, body.Provides m before arg := by
  have hmem : (block, data) ∈ body.displayed := mem_displayed.2 hdata
  obtain ⟨before, after, hsplit⟩ := List.append_of_mem hmem
  obtain ⟨htyped, hargs⟩ := h.terminators before _ after hsplit
  refine ⟨htyped, _, ?_, hargs⟩
  simp [displayedInsts, listingOf, hsplit]

end

/-! ### What is presentable can be written -/

section Numbers

variable (h : body.Presentable m type) (hstrings : m.strings.size ≤ Entity.limit)
  (hvalues : body.values.size ≤ Entity.limit)

omit hstrings in
include hvalues in
lemma index_lt {d : Def} (hd : body.values.get? value = some d) : value.index < Entity.limit :=
  (Table.get?_lt hd).trans_le hvalues

include hstrings hvalues

lemma numbered {before : List Value} (hprovides : body.Provides m before value) :
    Source.Numbered body.values value := by
  obtain ⟨d, hd⟩ := hprovides.exists_get?
  refine ⟨index_lt hvalues hd, fun str hstr => ?_⟩
  unfold Provides at hprovides
  rw [hstr] at hprovides
  exact hprovides.trans_le hstrings

include h

lemma numberedBlock (hblocks : body.blocks.size ≤ Entity.limit)
    (hdata : body.blocks.get? block = some data) :
    Source.Reader.NumberedBlock m body.values data where
  params p hp := by
    obtain ⟨position, hposition⟩ := List.getElem?_of_mem hp
    exact index_lt hvalues (h.params block data hdata position p.1 p.2 hposition)
  insts v hv := by
    have hentry : (block, data) ∈ body.displayed := mem_displayed.2 hdata
    have hinst := mem_displayedInsts hentry hv
    obtain ⟨before, -, op, args, results, inputs, hget, hin, -, htypes, hargs⟩ := h.instFits hinst
    exact ⟨index_lt hvalues hget, op, args, results, hget,
      Operator.accepts_of_inputTypes hin htypes.length_eq,
      fun arg harg => numbered hstrings hvalues (hargs arg harg)⟩
  term := by
    obtain ⟨htyped, before, -, hargs⟩ := h.terminatorFits hdata
    exact
      { operands := fun arg harg => numbered hstrings hvalues (hargs arg harg)
        targets := fun target ht =>
          (htyped.successor_lt (List.mem_map_of_mem ht)).trans_le hblocks }
  finished := by
    obtain ⟨htyped, -⟩ := h.terminatorFits hdata
    intro hmissing
    rw [hmissing] at htyped
    exact htyped

lemma numberedBody (hblocks : body.blocks.size ≤ Entity.limit) :
    Source.Reader.NumberedBody m body := by
  intro block hblock
  have hlt := (mem_displayOrder h.entry_lt).1 hblock
  obtain ⟨data, hdata⟩ := Table.get?_of_lt hlt
  exact ⟨hlt.trans_le hblocks, data, hdata, h.numberedBlock hstrings hvalues hblocks hdata⟩

end Numbers

end Body.Presentable

/-- Everything in a module that can be presented has a number that can be written. -/
lemma Module.Presentable.writable {m : Module} (h : m.Presentable) : m.Writable where
  returns := h.returns
  decls decl hdecl :=
    { signature := (h.signatures decl hdecl).trans_le h.signatureLimit
      body := fun body hbody => by
        obtain ⟨type, -, hpresentable⟩ := h.bodies decl hdecl body hbody
        exact hpresentable.numberedBody h.stringLimit (h.valueLimit decl hdecl body hbody)
          (h.blockLimit decl hdecl body hbody) }
  signatureLimit := h.signatureLimit
  stringLimit := h.stringLimit
  funcLimit := h.funcLimit

/-! ### Well-formed bodies -/

namespace Body

variable {m : Module} {type : FuncType} {body : Body}

/-- A well-formed body whose values are all read once can be presented. -/
lemma WellFormed.presentable (h : body.WellFormed m type) (honce : body.ReadOnce) :
    body.Presentable m type := by
  obtain ⟨first, hfirst, htypes⟩ := h.entryParams
  have hdisplayed := displayed_eq_entries (Table.get?_lt hfirst) h.entry
  have hparams := displayedParams_eq (Table.get?_lt hfirst) h.entry
  have hinsts := displayedInsts_eq (Table.get?_lt hfirst) h.entry
  have hprovides : ∀ before arg, body.Offers m before arg → body.Provides m before arg := by
    intro before arg hoffers
    unfold Offers at hoffers
    unfold Provides
    cases hd : body.values.get? arg with
    | none => simp [hd] at hoffers
    | some d =>
      rw [hd] at hoffers
      cases d with
      | strRef => exact hoffers
      | param block position paramType =>
        obtain ⟨data, hdata, hposition⟩ := (h.params arg block position paramType).1 hd
        rw [hparams]
        exact mem_paramOrder.2 ⟨block, data, position, paramType, hdata, hposition⟩
      | inst => exact hoffers
      | undefined => exact hoffers.elim
  refine ⟨⟨first, hfirst, htypes⟩, ?_, ?_, ?_, ?_⟩
  · intro block data hdata position paramType value hposition
    exact (h.params value block position paramType).2 ⟨data, hdata, hposition⟩
  · rw [listed, hparams, hinsts]
    exact honce.nodup.sublist ((List.Sublist.refl _).append (body.sublist_flatMap_blockOrder _))
  · intro before inst after hsplit
    rw [hinsts] at hsplit
    obtain ⟨op, args, results, hget⟩ := h.insts inst (by simp [hsplit])
    obtain ⟨inputs, hin, hargs⟩ := h.operandTypes inst op args results hget
    exact ⟨op, args, results, inputs, hget, hin, h.resultTypes inst op args results hget, hargs,
      fun arg harg => hprovides _ _ (h.operands before inst after hsplit op args results hget arg harg)⟩
  · rintro before ⟨block, data⟩ after hsplit
    have hplace : body.blocks.entries[before.length]? = some (block, data) := by
      simp [← hdisplayed, hsplit]
    obtain ⟨rfl, hdata⟩ := Table.getElem?_entries hplace
    have hthrough : body.listingThrough ⟨before.length⟩ =
        listingOf (before.map Prod.snd) ++ data.insts := by
      have htake : body.displayed.take (before.length + 1) = before ++ [(⟨before.length⟩, data)] := by
        simp [hsplit, List.take_append]
      rw [listingThrough, ← Table.map_snd_entries, ← hdisplayed, ← List.map_take, htake]
      simp [listingOf]
    have hbody : { body with returns := type.returns } = body := by rw [← h.returns]
    rw [TerminatorFits, hbody, ← hthrough]
    exact ⟨h.terminators data (List.mem_of_getElem? hdata), fun arg harg =>
      hprovides _ _ (h.terminatorOperands _ data (by rw [Table.get?_eq, hdata]) arg harg)⟩

end Body

end EntryTrace
