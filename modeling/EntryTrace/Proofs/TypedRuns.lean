import EntryTrace.Proofs.FaultFree
import EntryTrace.Proofs.ResolvedModules
import EntryTrace.Proofs.TypedFrames

/-!
# Calls in modules that were read from text

A call with arguments of the right types, and with a host that answers the right types, goes well
at every moment: constants have the types of what they stand for, and operators have results. It
ends with constants of the types that the function returns, unless it runs out of fuel, or the host
refuses an import, or it is trapped; and where it is trapped its last moment says why. Whatever
the arguments and the host are, a call faults only if the host does.
-/

namespace EntryTrace

variable {σ : Type}

/-- Called with arguments of the types that an imported function takes, the host answers constants
of the types that it returns, if it answers any. -/
def Host.Conforms (host : Host (Except Fault) σ) (module : Module) : Prop :=
  ∀ func signature name type, module.funcs.get? func = some (.imported signature name) →
    (module.funcType func : Except Fault _) = .ok type →
      ∀ args state values state', args.map Constant.type = type.params →
        host module name args state = .ok (.ok values, state') →
          values.map Constant.type = type.returns

/-! ### Moments -/

/-- The activation is of a function with this body, at one of its blocks, and well typed. -/
structure Activation.Sound (module : Module) (body : Body) (a : Activation) : Prop
    extends a.WellTyped body where
  func : ∃ signature name, module.funcs.get? a.frame.func = some (.defined signature name body)
  block : a.frame.block.index < body.blocks.size

/-- If the instruction is other than a call, and should have a result, it has one for the constants
of its operands. -/
def Activation.Evaluates (body : Body) (a : Activation) (inst : Value) : Prop :=
  ∀ op args types cs, body.values.get? inst = some (.inst op args types) → op.IsPlain →
    (a.frame.readAll body args : Except Fault _) = .ok (some cs) → ∃ c, op.eval? cs = some c

/-- What holds at every moment of a run that goes well. -/
def Moment.Sound (module : Module) : Moment → Prop
  | .arrived a => ∃ body, a.Sound module body
  | .before a pending => ∃ body data, a.Sound module body ∧
      body.blocks.get? a.frame.block = some data ∧ pending <:+ data.insts ∧
      ∀ inst ∈ pending.head?, a.Evaluates body inst
  | .tooDeep func depth => maxDepth ≤ depth ∧
      ∃ signature name body, module.funcs.get? func = some (.defined signature name body)

/-- The moment is why a run is trapped in this block of a function: too many bodies were active to
enter this one, or its activation is stuck there. -/
inductive Moment.Traps (func : Func) (body : Body) (block : Block) : Moment → Prop
  | tooDeep {depth : Nat} : block = body.entry → maxDepth ≤ depth →
    Traps func body block (.tooDeep func depth)
  | stuck {a : Activation} {pending : List Value} {data : BlockData} : a.frame.func = func →
    a.frame.block = block → body.blocks.get? block = some data →
    a.Stuck body data.terminator pending → Traps func body block (.before a pending)

/-- How a call of a function of this type ends, after the given moments. -/
def Outcome.Explained (module : Module) (type : FuncType) (moments : List Moment) : Outcome → Prop
  | .returned values => values.map Constant.type = type.returns
  | .trapped func block => ∃ signature name body,
      module.funcs.get? func = some (.defined signature name body) ∧
      block.index < body.blocks.size ∧ ∃ moment ∈ moments.getLast?, moment.Traps func body block
  | .outOfFuel => True
  | .refused func _ => ∃ signature name, module.funcs.get? func = some (.imported signature name)

lemma Outcome.Explained.of_ne_returned {module : Module} {type : FuncType} {moments : List Moment}
    {outcome : Outcome} (h : outcome.Explained module type moments)
    (houtcome : ∀ values, outcome ≠ .returned values) (type' : FuncType) :
    outcome.Explained module type' moments := by
  cases outcome with
  | returned values => exact absurd rfl (houtcome values)
  | trapped => exact h
  | outOfFuel => trivial
  | refused => exact h

lemma Activation.Sound.ran {module : Module} {body : Body} {a : Activation}
    (ha : a.Sound module body) {inst : Value} {result : Option Constant}
    (hresult : result.map Constant.type = (body.values.get? inst).bind Def.type?) :
    (a.ran inst result).Sound module body := by
  refine { ha.toWellTyped.ran hresult with func := ?_, block := ?_ }
  · rw [Activation.ran, Frame.func_keep]
    exact ha.func
  · rw [Activation.ran, Frame.block_keep]
    exact ha.block

lemma Module.WellFormed.body {module : Module} (h : module.WellFormed) {func : Func}
    {signature : Signature} {name : String} {body : Body} {type : FuncType}
    (hdecl : module.funcs.get? func = some (.defined signature name body))
    (htype : (module.funcType func : Except Fault _) = .ok type) : body.WellFormed module type := by
  obtain ⟨decl, hdecl', hsignature⟩ := Module.funcType_eq_ok.1 htype
  cases hdecl.symm.trans hdecl'
  obtain ⟨type', hsignature', hbody⟩ := h.bodies _ (Table.mem_of_get? hdecl) body rfl
  cases hsignature.symm.trans hsignature'
  exact hbody

/-- A function is entered with an activation that holds the arguments for the parameters. -/
lemma Activation.Sound.start {module : Module} {type : FuncType} {body : Body}
    (hbody : body.WellFormed module type) {func : Func} {signature : Signature} {name : String}
    (hdecl : module.funcs.get? func = some (.defined signature name body)) {entry : BlockData}
    (hentry : body.blocks.get? body.entry = some entry) {args : List Constant}
    (hargs : args.map Constant.type = entry.paramTypes) {frame : Frame}
    (hframe : frame = Frame.writeAll { func, block := body.entry } entry.paramValues args) :
    Activation.Sound module body ⟨frame, body.paramsAt frame.block⟩ := by
  have hparams : body.HasTypes entry.paramValues (args.map Constant.type) := by
    rw [hargs]
    exact hbody.hasTypes_params hentry
  have hwellTyped := (Activation.WellTyped.fresh func body.entry).writeAll hparams
  have hblock : frame.block = body.entry := by rw [hframe, Frame.block_writeAll]
  have hfunc : frame.func = func := by rw [hframe, Frame.func_writeAll]
  rw [List.append_nil, ← hframe, ← Body.paramsAt_eq hentry, ← hblock] at hwellTyped
  exact { hwellTyped with
    func := ⟨signature, name, hfunc ▸ hdecl⟩
    block := hblock ▸ Table.get?_lt hentry }

namespace Run

/-- All moments that the run remembers are sound. -/
def Sound (module : Module) (run : Run (List Moment × σ)) : Prop :=
  ∀ moment ∈ run.host.1, moment.Sound module

/-- What a call of a function of the type ends in. -/
structure Ends (module : Module) (type : FuncType) (r : Outcome × Run (List Moment × σ)) : Prop where
  sound : r.2.Sound module
  explained : r.1.Explained module type r.2.host.1

/-- Calls end as they should, if arguments have the right types. -/
def CallsEnd (module : Module)
    (call : Func → List Constant → Run (List Moment × σ) →
      Except Fault (Outcome × Run (List Moment × σ))) : Prop :=
  ∀ {func type args run r}, (module.funcType func : Except Fault _) = .ok type →
    args.map Constant.type = type.params → run.Sound module → call func args run = .ok r →
      Ends module type r

/-- Activations end as they should. -/
def ActivationsEnd (module : Module)
    (runFrame : Body → Activation → Run (List Moment × σ) →
      Except Fault (Outcome × Run (List Moment × σ))) : Prop :=
  ∀ {body a type run r}, a.Sound module body →
    (module.funcType a.frame.func : Except Fault _) = .ok type → run.Sound module →
      runFrame body a run = .ok r → Ends module type r

variable {module : Module} {type : FuncType} {body : Body} {run : Run (List Moment × σ)}

lemma Sound.watch (h : run.Sound module) {moment : Moment} (hmoment : moment.Sound module) :
    (run.watch moment).Sound module := by
  intro other hother
  rcases List.mem_append.1 hother with hother | hother
  · exact h other hother
  · rw [List.mem_singleton.1 hother]
    exact hmoment

lemma getLast?_watch (moment : Moment) (run : Run (List Moment × σ)) :
    (run.watch moment).host.1.getLast? = some moment :=
  List.getLast?_concat

end Run

/-! ### Instructions -/

namespace Run

variable {module : Module} {type : FuncType} {body : Body} {a : Activation}
  {run : Run (List Moment × σ)}
  {call : Func → List Constant → Run (List Moment × σ) → Except Fault (Outcome × Run (List Moment × σ))}

/-- What comes of one instruction: the run ends with it, or it has a result of its type, if any. -/
inductive Evaluates (module : Module) (body : Body) (inst : Value) :
    Except Outcome (Option Constant) × Run (List Moment × σ) → Prop
  | ended {outcome : Outcome} {run : Run (List Moment × σ)} : run.Sound module →
    (∀ type, outcome.Explained module type run.host.1) → Evaluates module body inst (.error outcome, run)
  | result {result : Option Constant} {run : Run (List Moment × σ)} : run.Sound module →
    result.map Constant.type = (body.values.get? inst).bind Def.type? →
    Evaluates module body inst (.ok result, run)

lemma Ends.evaluates {outcome : Outcome} {inst : Value} (h : Ends module type (outcome, run))
    (htype : (body.values.get? inst).bind Def.type? = type.returns.head?) :
    match outcome with
    | .returned values => Evaluates module body inst (.ok values.head?, run)
    | other => Evaluates module body inst (.error other, run) := by
  have hother (houtcome : ∀ values, outcome ≠ .returned values) :
      Evaluates module body inst (.error outcome, run) :=
    .ended h.sound (h.explained.of_ne_returned houtcome)
  cases outcome with
  | returned values =>
    refine .result h.sound ?_
    rw [htype, ← h.explained, List.head?_map]
  | trapped => exact hother (by simp)
  | outOfFuel => exact hother (by simp)
  | refused => exact hother (by simp)

lemma evaluates (hbody : body.WellFormed module type) (hcall : CallsEnd module call)
    (ha : a.Sound module body) {data : BlockData}
    (hdata : body.blocks.get? a.frame.block = some data) {inst : Value} {rest : List Value}
    (hinst : body.IsInst inst) (hrun : run.Sound module)
    (hlast : run.host.1.getLast? = some (.before a (inst :: rest)))
    {r : Except Outcome (Option Constant) × Run (List Moment × σ)}
    (h : evaluate call body inst a.frame run = .ok r) : Evaluates module body inst r := by
  obtain ⟨op, args, results, hdef⟩ := hinst
  obtain ⟨inputs, hinputs, hargs⟩ := hbody.operandTypes inst op args results hdef
  have hresults := hbody.resultTypes inst op args results hdef
  have hget : (body.values.get inst : Except Fault _) = .ok (.inst op args results) :=
    Table.get_eq_ok.2 hdef
  have htype : (body.values.get? inst).bind Def.type? = results.head? := by
    rw [hdef]
    rfl
  rw [evaluate, hget, ok_bind] at h
  dsimp only at h
  rcases ha.readAll hargs with ⟨cs, hread, hcs⟩ | ⟨hread, value, hvalue, hlacks⟩
  · rw [hread, ok_bind] at h
    -- only the result of a call is not that of `eval?`
    have hplain (hop : ∀ callee, op ≠ .call callee)
        (h : .ok (.ok (op.eval? cs), run) = (.ok r : Except Fault _)) : Evaluates module body inst r := by
      cases h
      exact .result hrun (htype ▸ op.map_type_eval? hop hinputs hresults hcs)
    cases op with
    | call callee =>
      obtain ⟨⟨outcome, run'⟩, hcalled, h⟩ := bind_eq_ok.1 h
      obtain ⟨calleeType, hcallee, rfl, rfl⟩ := Operator.exists_calleeType hinputs hresults
      have hevaluates := (hcall hcallee hcs hrun hcalled).evaluates htype
      cases outcome <;> cases h <;> exact hevaluates
    | nop => exact hplain (by simp) h
    | const32 => exact hplain (by simp) h
    | const64 => exact hplain (by simp) h
    | binary => exact hplain (by simp) h
  · rw [hread, ok_bind] at h
    cases h
    obtain ⟨signature, name, hdecl⟩ := ha.func
    exact .ended hrun fun _ => ⟨signature, name, body, hdecl, ha.block, _, hlast,
      .stuck rfl rfl hdata (.operand hdef hvalue hlacks)⟩

/-- What comes of the instructions of a block: the run ends with them, or its activation is about to
leave the block. -/
inductive Proceeds (module : Module) (body : Body) (a : Activation) :
    Except Outcome Activation × Run (List Moment × σ) → Prop
  | ended {outcome : Outcome} {run : Run (List Moment × σ)} : run.Sound module →
    (∀ type, outcome.Explained module type run.host.1) → Proceeds module body a (.error outcome, run)
  | leaving {a' : Activation} {run : Run (List Moment × σ)} : run.Sound module → a'.Sound module body →
    a'.frame.func = a.frame.func → a'.frame.block = a.frame.block →
    run.host.1.getLast? = some (.before a' []) → Proceeds module body a (.ok a', run)

lemma Sound.before (hrun : run.Sound module) (hbody : body.WellFormed module type)
    (ha : a.Sound module body) {data : BlockData}
    (hdata : body.blocks.get? a.frame.block = some data) {pending : List Value}
    (hpending : pending <:+ data.insts) : (run.watch (.before a pending)).Sound module := by
  refine hrun.watch ⟨body, data, ha, hdata, hpending, fun inst _ => ?_⟩
  intro op args types cs hdef hop hread
  obtain ⟨inputs, hinputs, hargs⟩ := hbody.operandTypes inst op args types hdef
  rcases ha.readAll hargs with ⟨cs', hread', hcs⟩ | ⟨hread', -⟩
  · cases hread.symm.trans hread'
    exact hop.exists_eval? hinputs hcs
  · cases hread.symm.trans hread'

lemma proceeds_watchedInstructions (hbody : body.WellFormed module type)
    (hcall : CallsEnd module call) {data : BlockData} {insts : List Value} (ha : a.Sound module body)
    (hdata : body.blocks.get? a.frame.block = some data) (hinsts : insts <:+ data.insts)
    (hrun : run.Sound module) {r : Except Outcome Activation × Run (List Moment × σ)}
    (h : watchedInstructions call body insts a run = .ok r) : Proceeds module body a r := by
  induction insts generalizing a run with
  | nil =>
    cases h
    exact .leaving (hrun.before hbody ha hdata hinsts) ha rfl rfl (getLast?_watch _ _)
  | cons inst rest ih =>
    rw [watchedInstructions] at h
    obtain ⟨⟨result, run'⟩, heval, h⟩ := bind_eq_ok.1 h
    have hinst : body.IsInst inst := by
      refine hbody.insts inst (List.mem_flatMap.2 ⟨data, Table.mem_of_get? hdata, ?_⟩)
      exact hinsts.subset List.mem_cons_self
    have hevaluates := evaluates hbody hcall ha hdata hinst (hrun.before hbody ha hdata hinsts)
      (getLast?_watch _ _) heval
    cases hevaluates with
    | ended hsound hexplained =>
      cases h
      exact .ended hsound hexplained
    | @result result run' hsound hresult =>
      have hfunc : (a.ran inst result).frame.func = a.frame.func := a.frame.func_keep inst result
      have hblock : (a.ran inst result).frame.block = a.frame.block := a.frame.block_keep inst result
      have hrest : rest <:+ data.insts := (List.suffix_cons inst rest).trans hinsts
      have hproceeds := ih (ha.ran hresult) (hblock ▸ hdata) hrest hsound h
      cases hproceeds with
      | ended hsound' hexplained => exact .ended hsound' hexplained
      | leaving hsound' ha' hfunc' hblock' hlast =>
        exact .leaving hsound' ha' (hfunc'.trans hfunc) (hblock'.trans hblock) hlast

/-! ### Calls and activations -/

variable {host : Host (Except Fault) σ}

lemma watchDepth_of_imported {func : Func} {signature : Signature} {name : String}
    (hdecl : module.funcs.get? func = some (.imported signature name)) :
    run.watchDepth module func = run := by
  rw [watchDepth, hdecl]

lemma watchDepth_of_defined {func : Func} {signature : Signature} {name : String}
    (hdecl : module.funcs.get? func = some (.defined signature name body)) :
    run.watchDepth module func =
      if run.budget.depth ≥ maxDepth then run.watch (.tooDeep func run.budget.depth) else run := by
  rw [watchDepth, hdecl]

/-- The host ends the call of an imported function as it should. -/
lemma ends_of_imported (hhost : host.Conforms module)
    {runFrame : Body → Activation → Run (List Moment × σ) →
      Except Fault (Outcome × Run (List Moment × σ))} {func : Func} {signature : Signature}
    {name : String} (hdecl : module.funcs.get? func = some (.imported signature name))
    (htype : (module.funcType func : Except Fault _) = .ok type) {args : List Constant}
    (hargs : args.map Constant.type = type.params) (hrun : run.Sound module)
    {r : Outcome × Run (List Moment × σ)}
    (h : watchedEnter host module runFrame func args run = .ok r) : Ends module type r := by
  have hget : (module.funcs.get func : Except Fault _) = .ok _ := Table.get_eq_ok.2 hdecl
  rw [watchedEnter, enter, hget, ok_bind, watchDepth_of_imported hdecl] at h
  obtain ⟨⟨answer, moments, state⟩, hanswer, h⟩ := bind_eq_ok.1 h
  obtain ⟨⟨answer', state'⟩, hplain, hanswer⟩ := bind_eq_ok.1 hanswer
  cases hanswer
  cases answer with
  | ok values =>
    cases h
    exact ⟨hrun, hhost func signature name type hdecl htype args _ values state hargs hplain⟩
  | error message =>
    cases h
    exact ⟨hrun, signature, name, hdecl⟩

/-- The call of a function with a body ends as its activation does, if it is not nested too deeply. -/
lemma ends_of_defined (hwell : module.WellFormed)
    {runFrame : Body → Activation → Run (List Moment × σ) →
      Except Fault (Outcome × Run (List Moment × σ))}
    (hframes : ActivationsEnd module runFrame) {func : Func} {signature : Signature} {name : String}
    (hdecl : module.funcs.get? func = some (.defined signature name body))
    (htype : (module.funcType func : Except Fault _) = .ok type) {args : List Constant}
    (hargs : args.map Constant.type = type.params) (hrun : run.Sound module)
    {r : Outcome × Run (List Moment × σ)}
    (h : watchedEnter host module runFrame func args run = .ok r) : Ends module type r := by
  obtain ⟨entry, hentry, hparamTypes⟩ := (hwell.body hdecl htype).entryParams
  have hget : (module.funcs.get func : Except Fault _) = .ok _ := Table.get_eq_ok.2 hdecl
  have hentryget : (body.blocks.get body.entry : Except Fault _) = .ok entry := Table.get_eq_ok.2 hentry
  rw [watchedEnter, enter, hget, ok_bind, watchDepth_of_defined hdecl] at h
  by_cases hdepth : run.budget.depth ≥ maxDepth
  · have hdepth' : (run.watch (.tooDeep func run.budget.depth)).budget.depth ≥ maxDepth := hdepth
    simp only [if_pos hdepth, if_pos hdepth', pure_eq_ok] at h
    cases h
    exact ⟨hrun.watch ⟨hdepth, signature, name, body, hdecl⟩, signature, name, body, hdecl,
      Table.get?_lt hentry, _, getLast?_watch _ _, .tooDeep rfl hdepth⟩
  · simp only [if_neg hdepth, notePrinted_silent, note_silent, ok_bind, hentryget, noteArgs_silent] at h
    obtain ⟨⟨outcome, run'⟩, hran, h⟩ := bind_eq_ok.1 h
    cases h
    have hstart := Activation.Sound.start (hwell.body hdecl htype) hdecl hentry
      (hargs.trans hparamTypes.symm) rfl
    have hentered : Sound module ⟨⟨run.budget.fuel, run.budget.depth + 1⟩, run.host⟩ := hrun
    have hends := hframes hstart (by rw [Frame.func_writeAll]; exact htype) hentered hran
    exact ⟨hends.sound, hends.explained⟩

lemma callsEnd_watchedEnter (hwell : module.WellFormed) (hhost : host.Conforms module)
    {runFrame : Body → Activation → Run (List Moment × σ) →
      Except Fault (Outcome × Run (List Moment × σ))}
    (hframes : ActivationsEnd module runFrame) : CallsEnd module (watchedEnter host module runFrame) := by
  intro func type args run r htype hargs hrun h
  obtain ⟨decl, hdecl, -⟩ := Module.funcType_eq_ok.1 htype
  cases decl with
  | imported => exact ends_of_imported hhost hdecl htype hargs hrun h
  | defined => exact ends_of_defined hwell hframes hdecl htype hargs hrun h

/-- What is left of an activation ends as it should, once the instructions of its block are run. -/
lemma ends_of_proceeds (hbody : body.WellFormed module type) (ha : a.Sound module body)
    (htype : (module.funcType a.frame.func : Except Fault _) = .ok type) {data : BlockData}
    (hdata : body.blocks.get? a.frame.block = some data)
    {runFrame : Body → Activation → Run (List Moment × σ) →
      Except Fault (Outcome × Run (List Moment × σ))}
    (hframes : ActivationsEnd module runFrame) {result : Except Outcome Activation}
    {r : Outcome × Run (List Moment × σ)}
    (h : (match result with
      | .error outcome => pure (outcome, run)
      | .ok a => do
        match ← a.frame.leave body data.terminator with
        | .error outcome => pure (outcome, run)
        | .ok frame => runFrame body ⟨frame, body.paramsAt frame.block ++ a.executed⟩ run) =
      (.ok r : Except Fault _))
    (hproceeds : Proceeds module body a (result, run)) : Ends module type r := by
  cases hproceeds with
  | ended hsound hexplained =>
    cases h
    exact ⟨hsound, hexplained type⟩
  | @leaving a' run' hsound ha' hfunc hblock hlast =>
    obtain ⟨signature, name, hdecl⟩ := ha.func
    obtain ⟨next, hleave, hleaves⟩ :=
      ha'.leave hbody (hbody.terminators data (Table.mem_of_get? hdata))
    dsimp only at h
    rw [hleave, ok_bind] at h
    cases hleaves with
    | returned hreturns =>
      cases h
      exact ⟨hsound, hreturns.trans hbody.returns⟩
    | stuck hstuck =>
      cases h
      exact ⟨hsound, signature, name, body, hfunc ▸ hdecl, ha'.block, _, hlast,
        .stuck rfl rfl (hblock ▸ hdata) hstuck⟩
    | onward hfunc' hblock' hwellTyped =>
      have hsame := hfunc'.trans hfunc
      refine hframes { hwellTyped with func := ?_, block := hblock' } ?_ hsound h
      · exact ⟨signature, name, by rw [hsame]; exact hdecl⟩
      · rw [hsame]
        exact htype

/-- Activations end as they should, however many blocks are run. The induction is on the bound, which
an activation shares with those that it calls. -/
lemma activationsEnd_watched (hwell : module.WellFormed) (hhost : host.Conforms module)
    (bound : Nat) : ActivationsEnd module (watched host module bound) := by
  induction bound with
  | zero =>
    intro body a type run r ha _ hrun h
    cases h
    exact ⟨hrun.watch ⟨body, ha⟩, trivial⟩
  | succ bound ih =>
    intro body a type run r ha htype hrun h
    obtain ⟨signature, name, hdecl⟩ := ha.func
    have hbody := hwell.body hdecl htype
    obtain ⟨data, hdata⟩ := Table.get?_of_lt ha.block
    have hget : (body.blocks.get a.frame.block : Except Fault _) = .ok data := Table.get_eq_ok.2 hdata
    have harrived : (run.watch (.arrived a)).Sound module := hrun.watch ⟨body, ha⟩
    have hburned : (run.watch (.arrived a)).burn.Sound module := harrived
    rw [watched] at h
    split at h
    · cases h
      exact ⟨harrived, trivial⟩
    · rw [hget, ok_bind] at h
      obtain ⟨⟨result, run'⟩, hinsts, h⟩ := bind_eq_ok.1 h
      have hproceeds := proceeds_watchedInstructions hbody (callsEnd_watchedEnter hwell hhost ih) ha
        hdata (List.suffix_refl _) hburned hinsts
      exact ends_of_proceeds hbody ha htype hdata ih h hproceeds

end Run

/-! ### Calls from outside -/

/-- Calls in a module that was read from text are sound. With and without a journal, and whatever the
arguments are and the host answers, a call faults only by a fault of the host. If the arguments have
the types that the function takes and the host conforms to the module, every moment of the call is
sound, and its last moment explains how the call ends. -/
theorem call_sound {text : String} {m : Module}
    (hread : (Module.ofText text : Except Fault (Except SourceError Module)) = .ok (.ok m))
    {func : Func} (hfunc : func.index < m.funcs.size) (args : List Constant) (run : Run σ) :
    ∃ type, (m.funcType func : Except Fault _) = .ok type ∧
      (∀ (host : Host (Except Fault) σ) fault, m.call host func args run = .error fault →
        ∃ name args state, host m name args state = .error fault) ∧
      (∀ (host : Host Recorded σ) threshold records fault,
        ((m.call host func args run).after threshold records).1 = .error fault →
          ∃ name args state records,
            ((host m name args state).after threshold records).1 = .error fault) ∧
      ∀ host : Host (Except Fault) σ, host.Conforms m → args.map Constant.type = type.params →
        ∀ outcome run', m.call host func args run = .ok (outcome, run') →
          ∃ moments, m.watchedCall host func args ⟨run.budget, [], run.host⟩ =
              .ok (outcome, ⟨run'.budget, moments, run'.host⟩) ∧
            (∀ moment ∈ moments, moment.Sound m) ∧ outcome.Explained m type moments := by
  obtain ⟨located, tree, -, hparse, hresolve⟩ := ofText_eq_ok.1 hread
  have hsound := Source.sound_of_parse hparse
  have hwell := wellFormed_of_resolve hsound hresolve
  have hreadable := (Source.resolve_replay hsound hresolve).1
  obtain ⟨type, htype⟩ := hreadable.signatures.funcType_of_lt hfunc
  refine ⟨type, htype, fun host fault => hreadable.of_call_eq_error hfunc,
    fun host threshold records fault => hreadable.of_call_after_eq_error hfunc,
    fun host hhost hargs outcome run' hcall => ?_⟩
  obtain ⟨moments, hwatched⟩ := Module.exists_watchedCall hcall
  have hframes : Run.ActivationsEnd m (Run.watched host m run.budget.fuel) :=
    Run.activationsEnd_watched hwell hhost run.budget.fuel
  have hstart : Run.Sound m ⟨run.budget, [], run.host⟩ := by
    intro moment hmoment
    simp at hmoment
  have hends := Run.callsEnd_watchedEnter hwell hhost hframes htype hargs hstart hwatched
  exact ⟨moments, hwatched, hends.sound, hends.explained⟩

/-- The host that collects tags conforms to a module that imports nothing but the function for tags,
with the type of such a function. -/
lemma Host.conforms_tagRecorder {m : Module}
    (h : ∀ func signature name, m.funcs.get? func = some (.imported signature name) →
      (m.funcType func : Except Fault _) = .ok ⟨[.ptr], [.i32]⟩) : Host.Conforms tagRecorder m := by
  intro func signature name type hdecl htype args state values state' _ hanswer
  cases (h func signature name hdecl).symm.trans htype
  by_cases hshape : name = tagCallee ∧ ∃ str, args = [.ptr str]
  · obtain ⟨rfl, str, rfl⟩ := hshape
    have htag : ∃ tag, m.strings.get? str = some tag := by
      rw [tagRecorder, if_pos rfl] at hanswer
      obtain ⟨tag, htag, -⟩ := bind_eq_ok.1 hanswer
      exact ⟨tag, Table.get_eq_ok.1 htag⟩
    obtain ⟨tag, htag⟩ := htag
    rw [tagRecorder_tag htag] at hanswer
    cases hanswer
    rfl
  · obtain ⟨message, hmessage⟩ := tagRecorder_other hshape
    rw [hmessage] at hanswer
    cases hanswer

/-- A function that adds what an imported one answers to its argument. -/
def tallyText : String :=
  "module \x7b
    sig0 = (ptr) -> (i32)
    sig1 = (i32) -> (i32)
    str0 = \"hi\"
    func0 = import \"print_tagged_helper\" : sig0
    func1 = func \"tally\" : sig1 \x7b
      block0(v0: i32):
        v1 = call func0(str0)
        v2 = i32.add v0, v1
        return v2
    \x7d
  \x7d"

/-- The module of that text. -/
def tally : Module :=
  let entry : BlockData :=
    { params := [(.i32, ⟨0⟩)]
      insts := [⟨2⟩, ⟨3⟩]
      terminator := .ret [⟨3⟩] }
  let body : Body :=
    { paramCount := 1
      returns := [.i32]
      entry := ⟨0⟩
      blocks := ⟨#[entry]⟩
      values := ⟨#[.param ⟨0⟩ 0 .i32, .strRef ⟨0⟩, .inst (.call ⟨0⟩) [⟨1⟩] [.i32],
        .inst (.binary .add32) [⟨0⟩, ⟨2⟩] [.i32]]⟩
      home := ⟨#[⟨0⟩, .unset, ⟨0⟩, ⟨0⟩]⟩ }
  { signatures := ⟨#[⟨[.ptr], [.i32]⟩, ⟨[.i32], [.i32]⟩]⟩
    strings := ⟨#["hi"]⟩
    funcs := ⟨#[.imported ⟨0⟩ "print_tagged_helper", .defined ⟨1⟩ "tally" body]⟩ }

set_option maxRecDepth 4000 in
lemma ofText_tallyText :
    (Module.ofText tallyText : Except Fault (Except SourceError Module)) = .ok (.ok tally) :=
  (ofText_ofList _).trans (by decide +kernel)

lemma conforms_tally : Host.Conforms Host.tagRecorder tally := by
  apply Host.conforms_tagRecorder
  rintro ⟨i⟩ signature name hdecl
  match i with
  | 0 => rfl
  | 1 => cases hdecl
  | i + 2 => cases hdecl

lemma exists_call_tally : ∃ outcome run,
    (tally.call Host.tagRecorder ⟨1⟩ [.i32 40] ⟨⟨5, 0⟩, #[]⟩ : Except Fault _) = .ok (outcome, run) :=
  ⟨_, _, rfl⟩

/-- A call that goes through the host and ends with a sum. -/
theorem call_sound_tally : ∃ outcome run moments,
    (Module.ofText tallyText : Except Fault (Except SourceError Module)) = .ok (.ok tally) ∧
    1 < tally.funcs.size ∧ (tally.funcType ⟨1⟩ : Except Fault _) = .ok ⟨[.i32], [.i32]⟩ ∧
    Host.Conforms Host.tagRecorder tally ∧ [Constant.i32 40].map Constant.type = [.i32] ∧
    (tally.call Host.tagRecorder ⟨1⟩ [.i32 40] ⟨⟨5, 0⟩, #[]⟩ : Except Fault _) = .ok (outcome, run) ∧
    tally.watchedCall Host.tagRecorder ⟨1⟩ [.i32 40] ⟨⟨5, 0⟩, [], #[]⟩ =
      .ok (outcome, ⟨run.budget, moments, run.host⟩) ∧
    (∀ moment ∈ moments, moment.Sound tally) ∧
    outcome.Explained tally ⟨[.i32], [.i32]⟩ moments := by
  obtain ⟨outcome, run, hcall⟩ := exists_call_tally
  have hfunc : (⟨1⟩ : Func).index < tally.funcs.size := by decide
  obtain ⟨type, htype, -, -, hsound⟩ := call_sound ofText_tallyText hfunc [.i32 40] ⟨⟨5, 0⟩, #[]⟩
  obtain rfl : ⟨[.i32], [.i32]⟩ = type := Except.ok.inj htype
  obtain ⟨moments, hmoments⟩ := hsound Host.tagRecorder conforms_tally rfl outcome run hcall
  exact ⟨outcome, run, moments, ofText_tallyText, hfunc, htype, conforms_tally, rfl, hcall, hmoments⟩

end EntryTrace
