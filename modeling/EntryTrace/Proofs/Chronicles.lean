import EntryTrace.Proofs.FaultFree
import EntryTrace.Proofs.Frames
import EntryTrace.Proofs.Tracing

/-!
# Chronicles of runs

A chronicled run does what a run does, and besides keeps a chronicle of everything it does: the
calls, the bodies that become active and cease to be, the blocks, the instructions, and what the
host was asked. It counts the active bodies one up before a body runs and one down after it.
Forgetting the chronicle gives the run back, so the count is always restored.

The chronicle of a call has a form, `Story`, which says what can follow what. What holds of every
chronicle is proved by induction on it.
-/

namespace EntryTrace

/-- What a chronicled run did. -/
inductive Deed
  /-- A function was called, by the caller of the run or by an instruction. -/
  | called (func : Func) (args : List Constant)
  /-- The host answered the call of an imported function. -/
  | asked (call : Host.Call) (answer : Except String (List Constant))
  /-- The body of a function became active. -/
  | entered (func : Func)
  /-- A unit of fuel was used, and a block was started. -/
  | started (func : Func) (block : Block)
  /-- An instruction was run, or the attempt was made. -/
  | ran (func : Func) (inst : Value)
  /-- The body of a function ceased to be active. -/
  | left (func : Func)
  /-- The call of a function ended. -/
  | ended (func : Func) (outcome : Outcome)

/-- The outcome of a call of an imported function. -/
def Outcome.ofAnswer (func : Func) : Except String (List Constant) → Outcome
  | .ok values => .returned values
  | .error message => .refused func message

variable {σ : Type}

namespace Run

def tell (deed : Deed) (run : Run (List Deed × σ)) : Run (List Deed × σ) :=
  { run with host := (run.host.1 ++ [deed], run.host.2) }

/-- The run with one more body active. -/
def deepen (run : Run σ) : Run σ :=
  { run with budget := { run.budget with depth := run.budget.depth + 1 } }

/-- The run with one body less active. -/
def rise (run : Run σ) : Run σ :=
  { run with budget := { run.budget with depth := run.budget.depth - 1 } }

/-- What `Run.enter` does, with a chronicle. -/
def chronicledVisit (host : Host (Except Fault) σ) (module : Module)
    (runFrame : Body → Frame → Run (List Deed × σ) → Except Fault (Outcome × Run (List Deed × σ)))
    (func : Func) (args : List Constant) (run : Run (List Deed × σ)) :
    Except Fault (Outcome × Run (List Deed × σ)) := do
  match ← module.funcs.get func with
  | .imported _ name =>
    let (answer, state) ← host module name args run.host.2
    let run : Run (List Deed × σ) := { run with host := (run.host.1, state) }
    pure (.ofAnswer func answer, run.tell (.asked ⟨name, args⟩ answer))
  | .defined _ _ body =>
    if run.budget.depth ≥ maxDepth then
      pure (.trapped func body.entry, run)
    else
      let entry ← body.blocks.get body.entry
      let frame := ({ func, block := body.entry } : Frame).writeAll entry.paramValues args
      let (outcome, run) ← runFrame body frame (run.deepen.tell (.entered func))
      pure (outcome, run.rise.tell (.left func))

/-- `Run.enter` with a chronicle. -/
def chronicledEnter (host : Host (Except Fault) σ) (module : Module)
    (runFrame : Body → Frame → Run (List Deed × σ) → Except Fault (Outcome × Run (List Deed × σ)))
    (func : Func) (args : List Constant) (run : Run (List Deed × σ)) :
    Except Fault (Outcome × Run (List Deed × σ)) := do
  let (outcome, run) ← chronicledVisit host module runFrame func args (run.tell (.called func args))
  pure (outcome, run.tell (.ended func outcome))

/-- `Run.instructions` with a chronicle. -/
def chronicledInstructions
    (call : Func → List Constant → Run (List Deed × σ) → Except Fault (Outcome × Run (List Deed × σ)))
    (body : Body) : List Value → Frame → Run (List Deed × σ) →
      Except Fault (Except Outcome Frame × Run (List Deed × σ))
  | [], frame, run => pure (.ok frame, run)
  | inst :: rest, frame, run => do
    let (result, run) ← evaluate call body inst frame (run.tell (.ran frame.func inst))
    match result with
    | .error outcome => pure (.error outcome, run)
    | .ok result => chronicledInstructions call body rest (frame.keep inst result) run

/-- `Run.frame` with a chronicle. -/
def chronicled (host : Host (Except Fault) σ) (module : Module) :
    Nat → Body → Frame → Run (List Deed × σ) → Except Fault (Outcome × Run (List Deed × σ))
  | 0, _, _, run => pure (.outOfFuel, run)
  | bound + 1, body, frame, run => do
    if run.budget.fuel = 0 then
      pure (.outOfFuel, run)
    else
      let run := run.burn.tell (.started frame.func frame.block)
      let block ← body.blocks.get frame.block
      let (result, run) ← chronicledInstructions
        (chronicledEnter host module (chronicled host module bound)) body block.insts frame run
      match result with
      | .error outcome => pure (outcome, run)
      | .ok frame =>
        match ← frame.leave body block.terminator with
        | .error outcome => pure (outcome, run)
        | .ok frame => chronicled host module bound body frame run

end Run

/-- `Module.call` with a chronicle. -/
def Module.chronicledCall (module : Module) (host : Host (Except Fault) σ) (func : Func)
    (args : List Constant) (run : Run (List Deed × σ)) :
    Except Fault (Outcome × Run (List Deed × σ)) :=
  Run.chronicledEnter host module (Run.chronicled host module run.budget.fuel) func args run

/-! ### The form of chronicles -/

/-- Was a block started? -/
def Deed.isStart : Deed → Bool
  | .started .. => true
  | .called .. | .asked .. | .entered _ | .ran .. | .left _ | .ended .. => false

/-- How many blocks were started. -/
def blocksRun (chronicle : List Deed) : Nat := chronicle.countP Deed.isStart

/-- The chronicle of a part of a run that `depth` active bodies are below. The part ends the call or
the activation it belongs to with an outcome, or else the activation goes on. -/
inductive Story (module : Module) : Nat → Option Outcome → List Deed → Prop
  | nothing {depth : Nat} : Story module depth none []
  | started {depth : Nat} (func : Func) (block : Block) :
    Story module depth none [.started func block]
  | ran {depth : Nat} (func : Func) (inst : Value) : Story module depth none [.ran func inst]
  | append {depth : Nat} {result : Option Outcome} {chronicle chronicle' : List Deed}
    (h : Story module depth none chronicle) (h' : Story module depth result chronicle') :
    Story module depth result (chronicle ++ chronicle')
  /-- An activation ends by itself, and not because the host refuses to answer. -/
  | ends {depth : Nat} {outcome : Outcome} (h : ∀ func message, outcome ≠ .refused func message) :
    Story module depth (some outcome) []
  /-- What called goes on after the call. -/
  | resumes {depth : Nat} {values : List Constant} {chronicle : List Deed}
    (h : Story module depth (some (.returned values)) chronicle) : Story module depth none chronicle
  | asked {depth : Nat} {func : Func} {signature : Signature} {name : String}
    (hfunc : module.funcs.get? func = some (.imported signature name)) (args : List Constant)
    (answer : Except String (List Constant)) :
    Story module depth (some (.ofAnswer func answer))
      [.called func args, .asked ⟨name, args⟩ answer, .ended func (.ofAnswer func answer)]
  /-- A body is called while no more can be active. -/
  | tooDeep {depth : Nat} {func : Func} {signature : Signature} {name : String} {body : Body}
    (hfunc : module.funcs.get? func = some (.defined signature name body)) (args : List Constant)
    (hdepth : maxDepth ≤ depth) :
    Story module depth (some (.trapped func body.entry))
      [.called func args, .ended func (.trapped func body.entry)]
  | entered {depth : Nat} {func : Func} {signature : Signature} {name : String} {body : Body}
    {outcome : Outcome} {chronicle : List Deed}
    (hfunc : module.funcs.get? func = some (.defined signature name body)) (args : List Constant)
    (hdepth : depth < maxDepth) (h : Story module (depth + 1) (some outcome) chronicle) :
    Story module depth (some outcome)
      (.called func args :: .entered func :: (chronicle ++ [.left func, .ended func outcome]))

namespace Run

variable {host : Host (Except Fault) σ} {module : Module}

/-- The second run went on from the first. What it did is a story, it used a unit of fuel for each
block that it started, and as many bodies are active as before. -/
def Unfolds (module : Module) (result : Option Outcome) (run run' : Run (List Deed × σ)) : Prop :=
  ∃ new, run'.host.1 = run.host.1 ++ new ∧ Story module run.budget.depth result new ∧
    run.budget.fuel = run'.budget.fuel + blocksRun new ∧ run'.budget.depth = run.budget.depth

section Unfolding

variable {run run' run'' : Run (List Deed × σ)} {result : Option Outcome} {outcome : Outcome}

lemma Unfolds.depth_eq (h : Unfolds module result run run') :
    run'.budget.depth = run.budget.depth := by
  obtain ⟨-, -, -, -, hdepth⟩ := h
  exact hdepth

lemma unfolds_nothing (run : Run (List Deed × σ)) : Unfolds module none run run :=
  ⟨[], (List.append_nil _).symm, .nothing, rfl, rfl⟩

lemma unfolds_ends (h : ∀ func message, outcome ≠ .refused func message) (run : Run (List Deed × σ)) :
    Unfolds module (some outcome) run run :=
  ⟨[], (List.append_nil _).symm, .ends h, rfl, rfl⟩

lemma unfolds_trap (frame : Frame) (run : Run (List Deed × σ)) :
    Unfolds module (some frame.trap) run run :=
  unfolds_ends (fun _ _ heq => by cases heq) run

lemma unfolds_outOfFuel (run : Run (List Deed × σ)) : Unfolds module (some .outOfFuel) run run :=
  unfolds_ends (fun _ _ heq => by cases heq) run

lemma unfolds_ran (func : Func) (inst : Value) (run : Run (List Deed × σ)) :
    Unfolds module none run (run.tell (.ran func inst)) :=
  ⟨_, rfl, .ran func inst, rfl, rfl⟩

lemma unfolds_started (hfuel : run.budget.fuel ≠ 0) (func : Func) (block : Block) :
    Unfolds module none run (run.burn.tell (.started func block)) := by
  refine ⟨_, rfl, .started func block, ?_, rfl⟩
  change run.budget.fuel = run.budget.fuel - 1 + 1
  omega

lemma Unfolds.append (h : Unfolds module none run run') (h' : Unfolds module result run' run'') :
    Unfolds module result run run'' := by
  obtain ⟨new, hchronicle, hstory, hfuel, hdepth⟩ := h
  obtain ⟨new', hchronicle', hstory', hfuel', hdepth'⟩ := h'
  rw [hdepth] at hstory'
  refine ⟨new ++ new', ?_, hstory.append hstory', ?_, hdepth'.trans hdepth⟩
  · rw [hchronicle', hchronicle, List.append_assoc]
  · rw [hfuel, hfuel', blocksRun, blocksRun, blocksRun, List.countP_append]
    omega

lemma Unfolds.resumes {values : List Constant}
    (h : Unfolds module (some (.returned values)) run run') : Unfolds module none run run' := by
  obtain ⟨new, hchronicle, hstory, hfuel, hdepth⟩ := h
  exact ⟨new, hchronicle, hstory.resumes, hfuel, hdepth⟩

/-- What an activity of an activation unfolds: the activation goes on, or it ends. -/
def going {α : Type} : Except Outcome α → Option Outcome
  | .ok _ => none
  | .error outcome => some outcome

lemma unfolds_enter {runFrame : Body → Frame → Run (List Deed × σ) →
      Except Fault (Outcome × Run (List Deed × σ))}
    (hframe : ∀ {body frame run outcome run'},
      runFrame body frame run = .ok (outcome, run') → Unfolds module (some outcome) run run')
    {func : Func} {args : List Constant}
    (h : chronicledEnter host module runFrame func args run = .ok (outcome, run')) :
    Unfolds module (some outcome) run run' := by
  obtain ⟨⟨outcome, run₁⟩, hvisit, h⟩ := bind_eq_ok.1 h
  cases h
  obtain ⟨decl, hfunc, hvisit⟩ := bind_eq_ok.1 hvisit
  rw [Table.get_eq_ok] at hfunc
  cases decl with
  | imported signature name =>
    obtain ⟨⟨answer, state⟩, -, hvisit⟩ := bind_eq_ok.1 hvisit
    cases hvisit
    refine ⟨_, ?_, .asked hfunc args answer, rfl, rfl⟩
    simp only [tell, List.append_assoc, List.cons_append, List.nil_append]
  | defined signature name body =>
    dsimp only at hvisit
    split at hvisit
    · rename_i hdepth
      cases hvisit
      refine ⟨_, ?_, .tooDeep hfunc args hdepth, rfl, rfl⟩
      simp only [tell, List.append_assoc, List.cons_append, List.nil_append]
    · rename_i hdepth
      obtain ⟨entry, -, hvisit⟩ := bind_eq_ok.1 hvisit
      obtain ⟨⟨outcome', run₂⟩, hrun, hvisit⟩ := bind_eq_ok.1 hvisit
      cases hvisit
      obtain ⟨new, hchronicle, hstory, hfuel, hdepth'⟩ := hframe hrun
      refine ⟨_, ?_, .entered hfunc args (Nat.lt_of_not_ge hdepth) hstory, ?_, ?_⟩
      · change run₂.host.1 ++ [_] ++ [_] = _
        rw [hchronicle]
        simp only [tell, deepen, List.append_assoc, List.cons_append, List.nil_append]
      · change run.budget.fuel = run₂.budget.fuel + _
        rw [show run.budget.fuel = _ from hfuel]
        simp [blocksRun, Deed.isStart]
      · change run₂.budget.depth - 1 = run.budget.depth
        rw [hdepth']
        rfl

lemma unfolds_evaluate {call : Func → List Constant → Run (List Deed × σ) →
      Except Fault (Outcome × Run (List Deed × σ))}
    (hcall : ∀ {callee args run outcome run'}, call callee args run = .ok (outcome, run') →
      Unfolds module (some outcome) run run') {body : Body} {inst : Value} {frame : Frame}
    {result : Except Outcome (Option Constant)}
    (h : evaluate call body inst frame run = .ok (result, run')) :
    Unfolds module (going result) run run' := by
  obtain ⟨d, -, h⟩ := bind_eq_ok.1 h
  cases d with
  | inst op args types =>
    obtain ⟨constants, -, h⟩ := bind_eq_ok.1 h
    cases constants with
    | none =>
      cases h
      exact unfolds_trap frame run
    | some constants =>
      cases op with
      | call callee =>
        obtain ⟨⟨outcome, run₁⟩, hcalled, h⟩ := bind_eq_ok.1 h
        have hunfolds := hcall hcalled
        cases outcome with
        | returned values =>
          cases h
          exact hunfolds.resumes
        | trapped | outOfFuel | refused =>
          cases h
          exact hunfolds
      | nop | const32 | const64 | binary =>
        cases h
        exact unfolds_nothing run
  | param | strRef | undefined => cases h

lemma unfolds_instructions {call : Func → List Constant → Run (List Deed × σ) →
      Except Fault (Outcome × Run (List Deed × σ))}
    (hcall : ∀ {callee args run outcome run'}, call callee args run = .ok (outcome, run') →
      Unfolds module (some outcome) run run') {body : Body} {insts : List Value} {frame : Frame}
    {result : Except Outcome Frame}
    (h : chronicledInstructions call body insts frame run = .ok (result, run')) :
    Unfolds module (going result) run run' := by
  induction insts generalizing frame run with
  | nil =>
    cases h
    exact unfolds_nothing _
  | cons inst rest ih =>
    obtain ⟨⟨evaluated, run₁⟩, heval, h⟩ := bind_eq_ok.1 h
    have hunfolds := (unfolds_ran frame.func inst run).append (unfolds_evaluate hcall heval)
    cases evaluated with
    | error outcome =>
      cases h
      exact hunfolds
    | ok constant => exact hunfolds.append (ih h)

lemma unfolds_leave {body : Body} {term : Terminator} {frame : Frame}
    (h : (frame.leave body term : Except Fault _) = .ok (.error outcome))
    (run : Run (List Deed × σ)) : Unfolds module (some outcome) run run := by
  rcases Frame.of_leave_eq_error h with rfl | ⟨values, rfl⟩
  · exact unfolds_trap frame run
  · exact unfolds_ends (fun _ _ heq => by cases heq) run

lemma unfolds_chronicled {bound : Nat} {body : Body} {frame : Frame}
    (h : chronicled host module bound body frame run = .ok (outcome, run')) :
    Unfolds module (some outcome) run run' := by
  induction bound generalizing body frame run outcome run' with
  | zero =>
    cases h
    exact unfolds_outOfFuel run
  | succ bound ih =>
    rw [chronicled] at h
    split at h
    · cases h
      exact unfolds_outOfFuel run
    · rename_i hfuel
      obtain ⟨block, -, h⟩ := bind_eq_ok.1 h
      obtain ⟨⟨result, run₁⟩, hinsts, h⟩ := bind_eq_ok.1 h
      have hunfolds := (unfolds_started hfuel frame.func frame.block).append
        (unfolds_instructions (unfolds_enter ih) hinsts)
      cases result with
      | error outcome =>
        cases h
        exact hunfolds
      | ok frame₁ =>
        obtain ⟨next, hleave, h⟩ := bind_eq_ok.1 h
        cases next with
        | error outcome =>
          cases h
          exact hunfolds.append (unfolds_leave hleave run')
        | ok frame₂ => exact hunfolds.append (ih h)

end Unfolding

/-! ### Forgetting the chronicle -/

lemma traces_tell {α : Type} {x : Except Fault (α × Run (List Deed × σ))} {y : Except Fault (α × Run σ)}
    (h : Traces x y) (deed : α → Deed) :
    Traces (x >>= fun r => pure (r.1, r.2.tell (deed r.1))) y := by
  obtain rfl := h
  cases x <;> rfl

section Forgetting

variable {chronicledFrame : Body → Frame → Run (List Deed × σ) →
  Except Fault (Outcome × Run (List Deed × σ))}
variable {plainFrame : Body → Frame → Run σ → Except Fault (Outcome × Run σ)}

/-- Counting down after a body has run gives back the depth from before, for a body that leaves the
depth as it found it. -/
lemma traces_visit
    (hframe : ∀ body frame run,
      Traces (chronicledFrame body frame run) (plainFrame body frame run.bare))
    (hdepth : ∀ {body frame run outcome run'}, chronicledFrame body frame run = .ok (outcome, run') →
      run'.budget.depth = run.budget.depth)
    (func : Func) (args : List Constant) (run : Run (List Deed × σ)) :
    Traces (chronicledVisit host module chronicledFrame func args run)
      (enter host module plainFrame func args run.bare) := by
  unfold chronicledVisit enter
  refine traces_bind_left fun decl => ?_
  cases decl with
  | imported signature name =>
    dsimp only [bare]
    cases host module name args run.host.2 with
    | error fault => rfl
    | ok answered =>
      obtain ⟨answer, state⟩ := answered
      cases answer <;> rfl
  | defined signature name body =>
    dsimp only
    by_cases hdeep : run.budget.depth ≥ maxDepth
    · rw [if_pos hdeep, if_pos (show run.bare.budget.depth ≥ maxDepth from hdeep)]
      exact traces_pure _ _
    · rw [if_neg hdeep, if_neg (show ¬ run.bare.budget.depth ≥ maxDepth from hdeep),
        notePrinted_silent, ok_bind, note_silent, ok_bind]
      refine traces_bind_left fun entry => ?_
      rw [noteArgs_silent, ok_bind]
      have hinner := hframe body (({ func, block := body.entry } : Frame).writeAll entry.paramValues args)
        (run.deepen.tell (.entered func))
      generalize hx : chronicledFrame body _ _ = x at hinner
      rw [Traces] at hinner
      change Traces _ (plainFrame body _ (run.deepen.tell (.entered func)).bare >>= _)
      rw [← hinner]
      cases x with
      | error fault => rfl
      | ok r =>
        obtain ⟨outcome, ⟨fuel, depth⟩, state⟩ := r
        obtain rfl : depth = run.budget.depth + 1 := hdepth hx
        rfl

lemma traces_chronicledEnter
    (hframe : ∀ body frame run,
      Traces (chronicledFrame body frame run) (plainFrame body frame run.bare))
    (hdepth : ∀ {body frame run outcome run'}, chronicledFrame body frame run = .ok (outcome, run') →
      run'.budget.depth = run.budget.depth)
    (func : Func) (args : List Constant) (run : Run (List Deed × σ)) :
    Traces (chronicledEnter host module chronicledFrame func args run)
      (enter host module plainFrame func args run.bare) :=
  traces_tell (traces_visit hframe hdepth func args (run.tell (.called func args))) (.ended func)

lemma traces_chronicledInstructions
    {chronicledCall : Func → List Constant → Run (List Deed × σ) →
      Except Fault (Outcome × Run (List Deed × σ))}
    {plainCall : Func → List Constant → Run σ → Except Fault (Outcome × Run σ)}
    (hcall : ∀ func args run, Traces (chronicledCall func args run) (plainCall func args run.bare))
    (body : Body) (insts : List Value) (frame : Frame) (run : Run (List Deed × σ)) :
    Traces (chronicledInstructions chronicledCall body insts frame run)
      (instructions plainCall body insts frame run.bare) := by
  induction insts generalizing frame run with
  | nil => exact traces_pure _ _
  | cons inst rest ih =>
    rw [chronicledInstructions, instructions, note_silent, ok_bind]
    refine traces_bind (traces_evaluate hcall body inst frame (run.tell (.ran frame.func inst)))
      fun result run' => ?_
    cases result with
    | error outcome => exact traces_pure _ _
    | ok result => exact ih (frame.keep inst result) run'

lemma traces_chronicled (bound : Nat) (body : Body) (frame : Frame) (run : Run (List Deed × σ)) :
    Traces (chronicled host module bound body frame run)
      (Run.frame host module bound body frame run.bare) := by
  induction bound generalizing body frame run with
  | zero => exact traces_pure _ _
  | succ bound ih =>
    rw [chronicled, Run.frame]
    by_cases hfuel : run.budget.fuel = 0
    · rw [if_pos hfuel, if_pos (show run.bare.budget.fuel = 0 from hfuel)]
      exact traces_pure _ _
    · rw [if_neg hfuel, if_neg (show ¬ run.bare.budget.fuel = 0 from hfuel), note_silent, ok_bind]
      refine traces_bind_left fun block => ?_
      have hcall (func : Func) (args : List Constant) (run : Run (List Deed × σ)) :
          Traces (chronicledEnter host module (chronicled host module bound) func args run)
            (enter host module (Run.frame host module bound) func args run.bare) :=
        traces_chronicledEnter ih (fun h => (unfolds_chronicled h).depth_eq) func args run
      refine traces_bind (traces_chronicledInstructions hcall body block.insts frame _)
        fun result run' => ?_
      cases result with
      | error outcome => exact traces_pure _ _
      | ok frame' =>
        refine traces_bind_left fun next => ?_
        cases next with
        | error outcome => exact traces_pure _ _
        | ok frame'' => exact ih body frame'' run'

end Forgetting

end Run

namespace Module

variable {module : Module} {host : Host (Except Fault) σ} {func : Func} {args : List Constant}

/-- Forgetting the chronicle of a chronicled call gives the call, with the depth restored. -/
theorem traces_chronicledCall (module : Module) (host : Host (Except Fault) σ) (func : Func)
    (args : List Constant) (run : Run (List Deed × σ)) :
    Traces (module.chronicledCall host func args run) (module.call host func args run.bare) :=
  Run.traces_chronicledEnter (Run.traces_chronicled run.budget.fuel)
    (fun h => (Run.unfolds_chronicled h).depth_eq) func args run

lemma unfolds_chronicledCall {run run' : Run (List Deed × σ)} {outcome : Outcome}
    (h : module.chronicledCall host func args run = .ok (outcome, run')) :
    Run.Unfolds module (some outcome) run run' :=
  Run.unfolds_enter Run.unfolds_chronicled h

lemma exists_chronicledCall {run run' : Run σ} {outcome : Outcome}
    (h : module.call host func args run = .ok (outcome, run')) :
    ∃ chronicle, module.chronicledCall host func args ⟨run.budget, [], run.host⟩ =
      .ok (outcome, ⟨run'.budget, chronicle, run'.host⟩) :=
  exists_of_traces (module.traces_chronicledCall host func args ⟨run.budget, [], run.host⟩) h

end Module

end EntryTrace
