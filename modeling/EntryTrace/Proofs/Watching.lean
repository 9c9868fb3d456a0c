import EntryTrace.Proofs.Tracing

/-!
# Runs that are watched

A watched run does what a run does, and besides keeps a list of its moments: what every activation
of a body holds, whenever it gets to a block, to an instruction or to the end of a block. An
activation is its frame together with the values whose definitions were run in it. Forgetting the
list gives the run back.
-/

namespace EntryTrace

/-- A frame, and the values whose definitions were run in it: the parameters of the blocks that it
got to, and the instructions that gave a result or had none to give. -/
structure Activation where
  frame : Frame
  executed : List Value

/-- The activation after an instruction was run. -/
def Activation.ran (a : Activation) (inst : Value) (result : Option Constant) : Activation :=
  ⟨a.frame.keep inst result, inst :: a.executed⟩

/-- What a watched run remembers. -/
inductive Moment
  /-- An activation got to the start of its block. -/
  | arrived (a : Activation)
  /-- What an activation is about to do in its block: to run the first of these instructions, and if
  there are none, to leave the block. -/
  | before (a : Activation) (pending : List Value)
  /-- A function was called that has a body, while so many bodies were active. -/
  | tooDeep (func : Func) (depth : Nat)

/-- The parameters of a block. -/
def Body.paramsAt (body : Body) (block : Block) : List Value :=
  ((body.blocks.get? block).map BlockData.paramValues).getD []

lemma Body.paramsAt_eq {body : Body} {block : Block} {data : BlockData}
    (h : body.blocks.get? block = some data) : body.paramsAt block = data.paramValues := by
  rw [paramsAt, h, Option.map_some, Option.getD_some]

variable {σ : Type}

/-- A host that does not look at what a watched run remembers. -/
def Host.unaware (host : Host (Except Fault) σ) : Host (Except Fault) (List Moment × σ) :=
  fun module name args (moments, state) => do
    let (answer, state) ← host module name args state
    pure (answer, moments, state)

namespace Run

def watch (moment : Moment) (run : Run (List Moment × σ)) : Run (List Moment × σ) :=
  { run with host := (run.host.1 ++ [moment], run.host.2) }

/-- Remembers that a function is called, if it has a body and too many are active. -/
def watchDepth (module : Module) (func : Func) (run : Run (List Moment × σ)) :
    Run (List Moment × σ) :=
  match module.funcs.get? func with
  | some (.defined ..) =>
    if run.budget.depth ≥ maxDepth then run.watch (.tooDeep func run.budget.depth) else run
  | _ => run

/-- `Run.enter`, where calls that are nested too deeply are remembered. -/
def watchedEnter (host : Host (Except Fault) σ) (module : Module)
    (runFrame : Body → Activation → Run (List Moment × σ) →
      Except Fault (Outcome × Run (List Moment × σ)))
    (func : Func) (args : List Constant) (run : Run (List Moment × σ)) :
    Except Fault (Outcome × Run (List Moment × σ)) :=
  enter host.unaware module (fun body frame => runFrame body ⟨frame, body.paramsAt frame.block⟩) func
    args (run.watchDepth module func)

/-- `Run.instructions`, where what comes before each of them is remembered. -/
def watchedInstructions
    (call : Func → List Constant → Run (List Moment × σ) →
      Except Fault (Outcome × Run (List Moment × σ))) (body : Body) :
    List Value → Activation → Run (List Moment × σ) →
      Except Fault (Except Outcome Activation × Run (List Moment × σ))
  | [], a, run => pure (.ok a, run.watch (.before a []))
  | inst :: rest, a, run => do
    let (result, run) ← evaluate call body inst a.frame (run.watch (.before a (inst :: rest)))
    match result with
    | .error outcome => pure (.error outcome, run)
    | .ok result => watchedInstructions call body rest (a.ran inst result) run

/-- `Run.frame` for an activation. -/
def watched (host : Host (Except Fault) σ) (module : Module) :
    Nat → Body → Activation → Run (List Moment × σ) →
      Except Fault (Outcome × Run (List Moment × σ))
  | 0, _, a, run => pure (.outOfFuel, run.watch (.arrived a))
  | bound + 1, body, a, run => do
    let run := run.watch (.arrived a)
    if run.budget.fuel = 0 then
      pure (.outOfFuel, run)
    else
      let block ← body.blocks.get a.frame.block
      let (result, run) ← watchedInstructions
        (watchedEnter host module (watched host module bound)) body block.insts a run.burn
      match result with
      | .error outcome => pure (outcome, run)
      | .ok a =>
        match ← a.frame.leave body block.terminator with
        | .error outcome => pure (outcome, run)
        | .ok frame =>
          watched host module bound body ⟨frame, body.paramsAt frame.block ++ a.executed⟩ run

end Run

/-- `Module.call`, where moments are remembered. -/
def Module.watchedCall (module : Module) (host : Host (Except Fault) σ) (func : Func)
    (args : List Constant) (run : Run (List Moment × σ)) :
    Except Fault (Outcome × Run (List Moment × σ)) :=
  Run.watchedEnter host module (Run.watched host module run.budget.fuel) func args run

/-! ### Forgetting the moments -/

lemma Host.traces_unaware (host : Host (Except Fault) σ) (module : Module) :
    host.unaware.Traces module host := by
  intro name args state
  dsimp only [unaware]
  cases host module name args state.2 <;> rfl

namespace Run

variable {host : Host (Except Fault) σ} {module : Module}

lemma bare_watchDepth (module : Module) (func : Func) (run : Run (List Moment × σ)) :
    (run.watchDepth module func).bare = run.bare := by
  unfold watchDepth
  split
  · split <;> rfl
  · rfl

lemma traces_watchedEnter
    {watchedFrame : Body → Activation → Run (List Moment × σ) →
      Except Fault (Outcome × Run (List Moment × σ))}
    {plainFrame : Body → Frame → Run σ → Except Fault (Outcome × Run σ)}
    (hframe : ∀ body a run, Traces (watchedFrame body a run) (plainFrame body a.frame run.bare))
    (func : Func) (args : List Constant) (run : Run (List Moment × σ)) :
    Traces (watchedEnter host module watchedFrame func args run)
      (enter host module plainFrame func args run.bare) := by
  rw [watchedEnter, ← bare_watchDepth module func run]
  exact traces_enter (host.traces_unaware module)
    (fun body frame run => hframe body ⟨frame, body.paramsAt frame.block⟩ run) func args _

lemma traces_watchedInstructions
    {watchedCall : Func → List Constant → Run (List Moment × σ) →
      Except Fault (Outcome × Run (List Moment × σ))}
    {plainCall : Func → List Constant → Run σ → Except Fault (Outcome × Run σ)}
    (hcall : ∀ func args run, Traces (watchedCall func args run) (plainCall func args run.bare))
    (body : Body) (insts : List Value) (a : Activation) (run : Run (List Moment × σ)) :
    Traces ((watchedInstructions watchedCall body insts a run).map
        fun r => (r.1.map Activation.frame, r.2))
      (instructions plainCall body insts a.frame run.bare) := by
  induction insts generalizing a run with
  | nil => rfl
  | cons inst rest ih =>
    rw [watchedInstructions, instructions, note_silent, ok_bind]
    have hevaluate : Traces _ _ :=
      traces_evaluate hcall body inst a.frame (run.watch (.before a (inst :: rest)))
    rw [Traces] at hevaluate
    rw [show run.bare = (run.watch (.before a (inst :: rest))).bare from rfl, ← hevaluate]
    cases evaluate watchedCall body inst a.frame (run.watch (.before a (inst :: rest))) with
    | error fault => rfl
    | ok r =>
      obtain ⟨result, run'⟩ := r
      cases result with
      | error outcome => rfl
      | ok result => exact ih (a.ran inst result) run'

lemma traces_watched (bound : Nat) (body : Body) (a : Activation) (run : Run (List Moment × σ)) :
    Traces (watched host module bound body a run)
      (Run.frame host module bound body a.frame run.bare) := by
  induction bound generalizing body a run with
  | zero => rfl
  | succ bound ih =>
    rw [watched, Run.frame]
    dsimp only
    by_cases hfuel : run.budget.fuel = 0
    · rw [if_pos (show (run.watch (.arrived a)).budget.fuel = 0 from hfuel),
        if_pos (show run.bare.budget.fuel = 0 from hfuel)]
      rfl
    · rw [if_neg (show ¬ (run.watch (.arrived a)).budget.fuel = 0 from hfuel),
        if_neg (show ¬ run.bare.budget.fuel = 0 from hfuel), note_silent, ok_bind]
      refine traces_bind_left fun block => ?_
      refine traces_bind_map (p := Except.map Activation.frame)
        (traces_watchedInstructions (traces_watchedEnter ih) body block.insts a
          (run.watch (.arrived a)).burn) fun result run' => ?_
      cases result with
      | error outcome => rfl
      | ok a' =>
        refine traces_bind_left fun next => ?_
        cases next with
        | error outcome => rfl
        | ok frame => exact ih body ⟨frame, _⟩ run'

end Run

/-- Forgetting the moments of a watched call gives the call. -/
theorem Module.traces_watchedCall (module : Module) (host : Host (Except Fault) σ) (func : Func)
    (args : List Constant) (run : Run (List Moment × σ)) :
    Traces (module.watchedCall host func args run) (module.call host func args run.bare) :=
  Run.traces_watchedEnter (Run.traces_watched run.budget.fuel) func args run

lemma Module.exists_watchedCall {module : Module} {host : Host (Except Fault) σ} {func : Func}
    {args : List Constant} {run run' : Run σ} {outcome : Outcome}
    (h : module.call host func args run = .ok (outcome, run')) :
    ∃ moments, module.watchedCall host func args ⟨run.budget, [], run.host⟩ =
      .ok (outcome, ⟨run'.budget, moments, run'.host⟩) :=
  exists_of_traces (module.traces_watchedCall host func args ⟨run.budget, [], run.host⟩) h

end EntryTrace
