import EntryTrace.Proofs.Lists
import EntryTrace.Proofs.RenumberedFrames

/-!
# Runs do not depend on the numbers of values

Calls in two modules that differ in nothing but the numbers of values do the same: block by block and
instruction by instruction they read the same constants, call the same functions with the same
arguments and use the same fuel.
-/

namespace EntryTrace

variable {σ : Type}

/-! ### Functions of renumbered modules -/

lemma BlockData.renumber_id (b : BlockData) : b.renumber id = b := by
  simp [BlockData.renumber, Terminator.renumber_id]

lemma Body.RenumberedBy.refl (body : Body) : body.RenumberedBy id body where
  paramCount := rfl
  returns := rfl
  entry := rfl
  blocks := by
    apply Table.ext
    rw [Table.toList_map, funext BlockData.renumber_id, List.map_id']
  size := rfl
  distinct _ _ _ _ := id
  values _ d hd := by rw [Def.renumber_id, id, hd]
  home _ _ := rfl

namespace Decl.RenumberedAs

variable {signature : Signature} {name : String} {body : Body} {decl decl' : Decl}

lemma signature_eq (h : decl.RenumberedAs decl') : decl'.signature = decl.signature := by
  cases h <;> rfl

lemma name_eq (h : decl.RenumberedAs decl') : decl'.name = decl.name := by
  cases h <;> rfl

lemma eq_of_imported (h : (Decl.imported signature name).RenumberedAs decl') :
    decl' = .imported signature name := by
  cases h
  rfl

lemma exists_body (h : (Decl.defined signature name body).RenumberedAs decl') :
    ∃ ρ body', decl' = .defined signature name body' ∧ body.RenumberedBy ρ body' := by
  cases h with
  | same => exact ⟨id, body, rfl, .refl body⟩
  | helper ρ hname hbody => exact ⟨ρ, _, rfl, hbody⟩

end Decl.RenumberedAs

namespace Module.RenumberedAs

variable {m m' : Module}

lemma get?_funcs (h : m.RenumberedAs m') {func : Func} {decl : Decl}
    (hdecl : m.funcs.get? func = some decl) :
    ∃ decl', m'.funcs.get? func = some decl' ∧ decl.RenumberedAs decl' := by
  rw [Table.get?_eq] at hdecl ⊢
  exact getElem?_of_forall₂ h.funcs hdecl

lemma funcNamed?_eq (h : m.RenumberedAs m') (name : String) :
    m'.funcNamed? name = m.funcNamed? name := by
  apply Table.find?_congr
  refine (map_eq_of_forall₂ (h.funcs.imp fun decl decl' hdecl => ?_)).symm
  rw [hdecl.name_eq]

lemma funcType_eq (h : m.RenumberedAs m') {func : Func} (hfunc : func.index < m.funcs.size) :
    (m'.funcType func : Except Fault _) = m.funcType func := by
  obtain ⟨decl, hdecl⟩ := Table.get?_of_lt hfunc
  obtain ⟨decl', hdecl', hrenumbered⟩ := h.get?_funcs hdecl
  have hget : (m.funcs.get func : Except Fault Decl) = .ok decl := Table.get_eq_ok.2 hdecl
  have hget' : (m'.funcs.get func : Except Fault Decl) = .ok decl' := Table.get_eq_ok.2 hdecl'
  rw [Module.funcType, Module.funcType, hget, hget', ok_bind, ok_bind, hrenumbered.signature_eq,
    Module.typeOf, Module.typeOf, h.signatures]

end Module.RenumberedAs

/-! ### Runs side by side -/

/-- The host answers whatever refers to strings of the first module, the same for both modules, and
returns no pointers to other strings. -/
def Host.AnswersBoth (host : Host (Except Fault) σ) (m m' : Module) : Prop :=
  ∀ name args state, (∀ c ∈ args, Constant.InRange m c) → ∃ answer state',
    host m name args state = .ok (answer, state') ∧ host m' name args state = .ok (answer, state') ∧
      ∀ values, answer = .ok values → ∀ c ∈ values, Constant.InRange m c

/-- Two calls end the same, with no pointer out of range. -/
def SameEnd (m : Module) (r r' : Outcome × Run σ) : Prop := r' = r ∧ r.1.InRange m

/-- One way to run the frames of a module does what another one does for the renumbered module. -/
def FramesMatch (m : Module)
    (runFrame runFrame' : Body → Frame → Run σ → Except Fault (Outcome × Run σ)) : Prop :=
  ∀ {func signature name body body' ρ frame frame'},
    m.funcs.get? func = some (.defined signature name body) → body.RenumberedBy ρ body' →
    Frame.Renumbered m func ρ body frame frame' →
      ∀ run, Agree (SameEnd m) (runFrame body frame run) (runFrame' body' frame' run)

namespace Run

variable {m m' : Module} {host : Host (Except Fault) σ}

lemma sameEnd_enter (h : m.RenumberedAs m') (hclosed : m.Closed) (hhost : host.AnswersBoth m m')
    {runFrame runFrame' : Body → Frame → Run σ → Except Fault (Outcome × Run σ)}
    (hframes : FramesMatch m runFrame runFrame') {func : Func} (hfunc : func.index < m.funcs.size)
    {args : List Constant} (hargs : ∀ c ∈ args, Constant.InRange m c) (run : Run σ) :
    Agree (SameEnd m) (enter host m runFrame func args run)
      (enter host m' runFrame' func args run) := by
  obtain ⟨decl, hdecl⟩ := Table.get?_of_lt hfunc
  obtain ⟨decl', hdecl', hrenumbered⟩ := h.get?_funcs hdecl
  have hget : (m.funcs.get func : Except Fault Decl) = .ok decl := Table.get_eq_ok.2 hdecl
  have hget' : (m'.funcs.get func : Except Fault Decl) = .ok decl' := Table.get_eq_ok.2 hdecl'
  cases decl with
  | imported signature name =>
    obtain rfl := hrenumbered.eq_of_imported
    obtain ⟨answer, state', hanswer, hanswer', hrange⟩ := hhost name args run.host hargs
    simp only [enter, hget, hget', ok_bind, hanswer, hanswer']
    cases answer with
    | error message => exact agree_pure ⟨rfl, trivial⟩
    | ok values => exact agree_pure ⟨rfl, hrange values rfl⟩
  | defined signature name body =>
    obtain ⟨ρ, body', rfl, hbodies⟩ := hrenumbered.exists_body
    have hbody : body.Closed m := hclosed.bodies _ (Table.mem_of_get? hdecl) body rfl
    obtain ⟨entry, hentry⟩ := Table.get?_of_lt hbody.entry
    have hentryget : (body.blocks.get body.entry : Except Fault BlockData) = .ok entry :=
      Table.get_eq_ok.2 hentry
    have hentryget' : (body'.blocks.get body.entry : Except Fault BlockData) =
        .ok (entry.renumber ρ) := Table.get_eq_ok.2 (hbodies.get?_blocks hentry)
    simp only [enter, hget, hget', ok_bind, hbodies.entry]
    split
    · exact agree_pure ⟨rfl, trivial⟩
    · simp only [notePrinted_silent, note_silent, ok_bind, hentryget, hentryget', noteArgs_silent,
        entry.paramValues_renumber]
      have hstart : Frame.Renumbered m func ρ body _ _ := (Frame.Renumbered.fresh hbody).writeAll
        (hbodies.embedded.params (hbody.blocks entry (Table.mem_of_get? hentry))) hargs
      refine agree_bind (hframes hdecl hbodies hstart _) ?_
      rintro ⟨outcome, run'⟩ _ ⟨rfl, hrange⟩
      exact agree_pure ⟨rfl, hrange⟩

variable {func : Func} {ρ : Value → Value} {body body' : Body} {frame frame' : Frame}

/-- The evaluations of an instruction come to the same, with no pointer out of range. -/
structure SameResult (m : Module) (r r' : Except Outcome (Option Constant) × Run σ) : Prop where
  eq : r' = r
  ended : ∀ outcome, r.1 = .error outcome → outcome.InRange m
  evaluated : ∀ result, r.1 = .ok result → ∀ c ∈ result, Constant.InRange m c

lemma sameResult_evaluate (hframe : Frame.Renumbered m func ρ body frame frame')
    (hbody : body.Closed m) (hbodies : body.RenumberedBy ρ body')
    {call call' : Func → List Constant → Run σ → Except Fault (Outcome × Run σ)}
    (hcall : ∀ {callee args}, callee.index < m.funcs.size → (∀ c ∈ args, Constant.InRange m c) →
      ∀ run, Agree (SameEnd m) (call callee args run) (call' callee args run))
    {inst : Value} {op : Operator} {args : List Value} {types : List ValueType}
    (hinst : body.values.get? inst = some (.inst op args types)) (run : Run σ) :
    Agree (SameResult m) (evaluate call body inst frame run)
      (evaluate call' body' (ρ inst) frame' run) := by
  have hget : (body.values.get inst : Except Fault Def) = .ok (.inst op args types) :=
    Table.get_eq_ok.2 hinst
  have hget' : (body'.values.get (ρ inst) : Except Fault Def) = .ok (.inst op (args.map ρ) types) :=
    Table.get_eq_ok.2 (hbodies.values inst _ hinst)
  obtain ⟨haccepts, hargs⟩ : (Def.inst op args types).Closed m body.values.size :=
    hbody.values _ (Table.mem_of_get? hinst)
  simp only [evaluate, hget, hget', ok_bind]
  refine agree_bind (hframe.readAll hbody hbodies.embedded hargs) ?_
  rintro _ constants ⟨rfl, hconstants⟩
  cases constants with
  | none =>
    rw [hframe.trap_eq]
    refine agree_pure ⟨rfl, ?_, by simp⟩
    rintro _ ⟨⟩
    trivial
  | some constants =>
    have hplain (op : Operator) : Agree (SameResult m) (pure (.ok (op.eval? constants), run))
        (pure (.ok (op.eval? constants), run)) := by
      refine agree_pure ⟨rfl, by simp, ?_⟩
      rintro _ ⟨⟩ c hc
      exact Operator.eval?_inRange hc
    cases op with
    | call callee =>
      refine agree_bind (hcall haccepts (hconstants constants rfl) run) ?_
      rintro ⟨outcome, run'⟩ _ ⟨rfl, hrange⟩
      cases outcome with
      | returned values =>
        refine agree_pure ⟨rfl, by simp, ?_⟩
        rintro _ ⟨⟩ c hc
        exact hrange c (List.mem_of_mem_head? hc)
      | trapped | outOfFuel | refused =>
        refine agree_pure ⟨rfl, ?_, by simp⟩
        rintro _ ⟨⟩
        trivial
    | nop => exact hplain .nop
    | const32 c => exact hplain (.const32 c)
    | const64 c => exact hplain (.const64 c)
    | binary op => exact hplain (.binary op)

/-- How runs of instructions end: the frames go on alike, in the same state. -/
def SameInsts (m : Module) (func : Func) (ρ : Value → Value) (body : Body)
    (r r' : Except Outcome Frame × Run σ) : Prop :=
  Frame.Renumbered.Onward m func ρ body r.1 r'.1 ∧ r'.2 = r.2

lemma sameInsts_instructions (hframe : Frame.Renumbered m func ρ body frame frame')
    (hbody : body.Closed m) (hbodies : body.RenumberedBy ρ body')
    {call call' : Func → List Constant → Run σ → Except Fault (Outcome × Run σ)}
    (hcall : ∀ {callee args}, callee.index < m.funcs.size → (∀ c ∈ args, Constant.InRange m c) →
      ∀ run, Agree (SameEnd m) (call callee args run) (call' callee args run))
    {insts : List Value}
    (hinsts : ∀ v ∈ insts, ∃ op args types, body.values.get? v = some (.inst op args types))
    (run : Run σ) :
    Agree (SameInsts m func ρ body) (instructions call body insts frame run)
      (instructions call' body' (insts.map ρ) frame' run) := by
  induction insts generalizing frame frame' run with
  | nil => exact agree_pure ⟨.onward hframe, rfl⟩
  | cons inst rest ih =>
    obtain ⟨op, args, types, hinst⟩ := hinsts inst List.mem_cons_self
    rw [List.map_cons, instructions, instructions, note_silent, note_silent, ok_bind, ok_bind]
    refine agree_bind (sameResult_evaluate hframe hbody hbodies hcall hinst run) ?_
    rintro ⟨result, run'⟩ _ ⟨rfl, hended, hevaluated⟩
    cases result with
    | error outcome => exact agree_pure ⟨.ended (hended outcome rfl), rfl⟩
    | ok result =>
      simp only [note_silent, ok_bind]
      have hdistinct (v : Value) (hv : v.index < body.values.size) (heq : ρ v = ρ inst) : v = inst :=
        hbodies.distinct v inst hv (Table.get?_lt hinst) heq
      exact ih (hframe.keep hdistinct (hevaluated result rfl))
        (fun v hv => hinsts v (List.mem_cons_of_mem _ hv)) run'

/-- Frames run the same, however many blocks are run. -/
lemma framesMatch_frame (h : m.RenumberedAs m') (hclosed : m.Closed) (hhost : host.AnswersBoth m m')
    (bound : Nat) : FramesMatch m (Run.frame host m bound) (Run.frame host m' bound) := by
  induction bound with
  | zero => exact fun _ _ _ _ => agree_pure ⟨rfl, trivial⟩
  | succ bound ih =>
    intro func signature name body body' ρ frame frame' hdecl hbodies hframe run
    have hbody : body.Closed m := hclosed.bodies _ (Table.mem_of_get? hdecl) body rfl
    obtain ⟨data, hdata⟩ := Table.get?_of_lt hframe.inBody
    have hdataClosed := hbody.blocks data (Table.mem_of_get? hdata)
    have hget : (body.blocks.get frame.block : Except Fault BlockData) = .ok data :=
      Table.get_eq_ok.2 hdata
    have hget' : (body'.blocks.get frame.block : Except Fault BlockData) = .ok (data.renumber ρ) :=
      Table.get_eq_ok.2 (hbodies.get?_blocks hdata)
    rw [Run.frame, Run.frame, hframe.block]
    split
    · exact agree_pure ⟨rfl, trivial⟩
    · simp only [note_silent, ok_bind, hget, hget']
      refine agree_bind (sameInsts_instructions hframe hbody hbodies
        (fun hcallee hargs run => sameEnd_enter h hclosed hhost ih hcallee hargs run)
        hdataClosed.insts _) ?_
      rintro ⟨_, run'⟩ ⟨_, _⟩ ⟨honward, rfl⟩
      cases honward with
      | ended hrange => exact agree_pure ⟨rfl, hrange⟩
      | onward hframe₁ =>
        refine agree_bind (hframe₁.leave hbody hbodies.embedded hdataClosed) ?_
        rintro _ _ honward
        cases honward with
        | ended hrange => exact agree_pure ⟨rfl, hrange⟩
        | onward hframe₂ => exact ih hdecl hbodies hframe₂ _

end Run

/-- A call in a module whose tables are closed comes to an end, and to the same in a renumbered one:
the outcome, what is left of the budget, and the state of the host are the same. -/
theorem Module.RenumberedAs.call {m m' : Module} (h : m.RenumberedAs m') (hclosed : m.Closed)
    {host : Host (Except Fault) σ} (hhost : host.AnswersBoth m m') {func : Func}
    (hfunc : func.index < m.funcs.size) {args : List Constant}
    (hargs : ∀ c ∈ args, Constant.InRange m c) (run : Run σ) :
    ∃ outcome run', m.call host func args run = .ok (outcome, run') ∧
      m'.call host func args run = .ok (outcome, run') := by
  obtain ⟨⟨outcome, run'⟩, _, hcall, hcall', rfl, -⟩ := Run.sameEnd_enter h hclosed hhost
    (Run.framesMatch_frame h hclosed hhost run.budget.fuel) hfunc hargs run
  exact ⟨outcome, run', hcall, hcall'⟩

end EntryTrace
