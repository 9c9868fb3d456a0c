import EntryTrace.Proofs.Tables
import EntryTrace.Machine.Run

/-!
# Runs that remember what happened

A traced run does what a run does, and besides keeps a list of the blocks that were started and
of the imported functions that were called, each with the instruction that called it. Forgetting
the list gives the run back.
-/

namespace EntryTrace

/-- Where a call comes from: an instruction of a function, or nowhere inside the module. -/
abbrev Caller := Option (Func × Value)

/-- What a traced run remembers. -/
inductive Event
  /-- There was fuel to start a block, which was reached by a call of its function or else by a
  branch. -/
  | started (func : Func) (block : Block) (called : Bool)
  /-- The host answered the call of an imported function. -/
  | asked (caller : Caller) (call : Host.Call) (answer : Except String (List Constant))

/-! ### The host that collects tags -/

namespace Host

lemma tagRecorder_tag {module : Module} {str : Str} {tag : String}
    (h : module.strings.get? str = some tag) (tags : Array String) :
    (tagRecorder module tagCallee [.ptr str] tags : Except Fault _) =
      .ok (.ok [.i32 (UInt32.ofNat tag.utf8ByteSize)], tags.push tag) := by
  have hget : (module.strings.get str : Except Fault String) = .ok tag := Table.get_eq_ok.2 h
  simp only [tagRecorder, if_true, Module.string, hget, ok_bind, note_silent, pure_eq_ok]

lemma tagRecorder_other {name : String} {args : List Constant}
    (h : ¬ (name = tagCallee ∧ ∃ str, args = [.ptr str])) :
    ∃ message, ∀ module tags, (tagRecorder module name args tags : Except Fault _) =
      .ok (.error message, tags) := by
  by_cases hname : name = tagCallee
  · refine ⟨tagCallee ++ ": bad arguments " ++ describeConstants args, fun module tags => ?_⟩
    simp only [tagRecorder, if_pos hname]
    split
    · rename_i str
      exact absurd ⟨hname, str, rfl⟩ h
    · rfl
  · refine ⟨"no host implementation of `" ++ name ++ "`", fun module tags => ?_⟩
    simp only [tagRecorder, if_neg hname]
    rfl

end Host

variable {σ : Type}

/-- Remembers each answer of a host, for calls that come from `caller`. -/
def Host.logging (host : Host (Except Fault) σ) (caller : Caller) :
    Host (Except Fault) (List Event × σ) := fun module name args (events, state) => do
  let (answer, state) ← host module name args state
  pure (answer, events ++ [.asked caller ⟨name, args⟩ answer], state)

/-- The first host answers as the second one does, and keeps a trace besides. -/
def Host.Traces {ε : Type} (host : Host (Except Fault) (List ε × σ)) (module : Module)
    (plain : Host (Except Fault) σ) : Prop :=
  ∀ name args state, (host module name args state).map (fun r => (r.1, r.2.2)) =
    plain module name args state.2

lemma Host.traces_logging (host : Host (Except Fault) σ) (module : Module) (caller : Caller) :
    (host.logging caller).Traces module host := by
  intro name args state
  dsimp only [logging]
  cases host module name args state.2 <;> rfl

lemma Host.logging_eq_ok {host : Host (Except Fault) σ} {module : Module} {name : String}
    {args : List Constant} {state state' : σ} {answer : Except String (List Constant)}
    (h : host module name args state = .ok (answer, state')) (caller : Caller) (events : List Event) :
    host.logging caller module name args (events, state) =
      .ok (answer, events ++ [.asked caller ⟨name, args⟩ answer], state') := by
  simp [logging, h]

namespace Run

def log (event : Event) (run : Run (List Event × σ)) : Run (List Event × σ) :=
  { run with host := (run.host.1 ++ [event], run.host.2) }

/-- The run with one block less to go. -/
def burn (run : Run σ) : Run σ :=
  { run with budget := { run.budget with fuel := run.budget.fuel - 1 } }

/-- `Run.instructions`, where `call` is told who calls. -/
def tracedInstructions
    (call : Caller → Func → List Constant → Run σ → Except Fault (Outcome × Run σ)) (body : Body) :
    List Value → Frame → Run σ → Except Fault (Except Outcome Frame × Run σ)
  | [], frame, run => pure (.ok frame, run)
  | inst :: rest, frame, run => do
    let (result, run) ← evaluate (call (some (frame.func, inst))) body inst frame run
    match result with
    | .error outcome => pure (.error outcome, run)
    | .ok result => tracedInstructions call body rest (frame.keep inst result) run

/-- `Run.frame` with a trace. The first block was reached by a call or else by a branch. -/
def traced (host : Host (Except Fault) σ) (module : Module) :
    Nat → Bool → Body → Frame → Run (List Event × σ) →
      Except Fault (Outcome × Run (List Event × σ))
  | 0, _, _, _, run => pure (.outOfFuel, run)
  | bound + 1, called, body, frame, run => do
    if run.budget.fuel = 0 then
      pure (.outOfFuel, run)
    else
      let run := run.burn.log (.started frame.func frame.block called)
      let block ← body.blocks.get frame.block
      let (result, run) ← tracedInstructions
        (fun caller => enter (host.logging caller) module (traced host module bound true))
        body block.insts frame run
      match result with
      | .error outcome => pure (outcome, run)
      | .ok frame =>
        match ← frame.leave body block.terminator with
        | .error outcome => pure (outcome, run)
        | .ok frame => traced host module bound false body frame run

/-- The run without its trace, be that of events or of something else. -/
def bare {ε : Type} (run : Run (List ε × σ)) : Run σ := ⟨run.budget, run.host.2⟩

end Run

/-- `Module.call` with a trace. -/
def Module.tracedCall (module : Module) (host : Host (Except Fault) σ) (func : Func)
    (args : List Constant) (run : Run (List Event × σ)) :
    Except Fault (Outcome × Run (List Event × σ)) :=
  Run.enter (host.logging none) module (Run.traced host module run.budget.fuel true) func args run

/-! ### Forgetting the trace -/

section Forgetting

variable {ε α β γ : Type}

/-- Both do the same, and the first keeps a trace besides. -/
def Traces (x : Except Fault (α × Run (List ε × σ))) (y : Except Fault (α × Run σ)) : Prop :=
  x.map (fun r => (r.1, r.2.bare)) = y

lemma traces_pure (a : α) (run : Run (List ε × σ)) :
    Traces (pure (a, run)) (pure (a, run.bare)) := rfl

/-- The first step may answer more than the other one, which `p` forgets. -/
lemma traces_bind_map {x : Except Fault (α × Run (List ε × σ))} {y : Except Fault (β × Run σ)}
    {p : α → β} {f : α × Run (List ε × σ) → Except Fault (γ × Run (List ε × σ))}
    {g : β × Run σ → Except Fault (γ × Run σ)} (hx : Traces (x.map fun r => (p r.1, r.2)) y)
    (hf : ∀ a run, Traces (f (a, run)) (g (p a, run.bare))) : Traces (x >>= f) (y >>= g) := by
  obtain rfl := hx
  cases x with
  | error e => rfl
  | ok r => exact hf r.1 r.2

lemma traces_bind {x : Except Fault (α × Run (List ε × σ))} {y : Except Fault (α × Run σ)}
    {f : α × Run (List ε × σ) → Except Fault (β × Run (List ε × σ))}
    {g : α × Run σ → Except Fault (β × Run σ)} (hx : Traces x y)
    (hf : ∀ a run, Traces (f (a, run)) (g (a, run.bare))) : Traces (x >>= f) (y >>= g) := by
  refine traces_bind_map (p := id) ?_ hf
  cases x <;> exact hx

lemma traces_bind_left {x : Except Fault γ} {f : γ → Except Fault (β × Run (List ε × σ))}
    {g : γ → Except Fault (β × Run σ)} (hf : ∀ a, Traces (f a) (g a)) :
    Traces (x >>= f) (x >>= g) := by
  cases x with
  | error e => rfl
  | ok a => exact hf a

lemma exists_of_traces {x : Except Fault (α × Run (List ε × σ))} {y : Except Fault (α × Run σ)}
    {a : α} {run : Run σ} (h : Traces x y) (hy : y = .ok (a, run)) :
    ∃ events, x = .ok (a, ⟨run.budget, events, run.host⟩) := by
  rw [Traces, hy] at h
  cases x with
  | error fault => cases h
  | ok r =>
    obtain ⟨_, _, events, _⟩ := r
    cases h
    exact ⟨events, rfl⟩

namespace Run

variable {host : Host (Except Fault) σ} {module : Module}

lemma traces_enter {logging : Host (Except Fault) (List ε × σ)} (hhost : logging.Traces module host)
    {tracedFrame : Body → Frame → Run (List ε × σ) → Except Fault (Outcome × Run (List ε × σ))}
    {plainFrame : Body → Frame → Run σ → Except Fault (Outcome × Run σ)}
    (hframe : ∀ body frame run, Traces (tracedFrame body frame run) (plainFrame body frame run.bare))
    (func : Func) (args : List Constant) (run : Run (List ε × σ)) :
    Traces (enter logging module tracedFrame func args run)
      (enter host module plainFrame func args run.bare) := by
  unfold enter
  refine traces_bind_left fun decl => ?_
  cases decl with
  | imported signature name =>
    have hanswer := hhost name args run.host
    dsimp only [bare]
    rw [← hanswer]
    cases logging module name args run.host with
    | error fault => rfl
    | ok r =>
      obtain ⟨answer, state'⟩ := r
      cases answer <;> rfl
  | defined signature name body =>
    dsimp only
    by_cases hdepth : run.budget.depth ≥ maxDepth
    · rw [if_pos hdepth, if_pos (show run.bare.budget.depth ≥ maxDepth from hdepth)]
      exact traces_pure _ _
    · rw [if_neg hdepth, if_neg (show ¬ run.bare.budget.depth ≥ maxDepth from hdepth)]
      refine traces_bind_left fun _ => traces_bind_left fun _ => traces_bind_left fun entry =>
        traces_bind_left fun _ => ?_
      exact traces_bind (hframe body _ _) fun outcome run' => traces_pure _ _

lemma traces_evaluate
    {tracedCall : Func → List Constant → Run (List ε × σ) → Except Fault (Outcome × Run (List ε × σ))}
    {plainCall : Func → List Constant → Run σ → Except Fault (Outcome × Run σ)}
    (hcall : ∀ func args run, Traces (tracedCall func args run) (plainCall func args run.bare))
    (body : Body) (inst : Value) (frame : Frame) (run : Run (List ε × σ)) :
    Traces (evaluate tracedCall body inst frame run)
      (evaluate plainCall body inst frame run.bare) := by
  unfold evaluate
  refine traces_bind_left fun d => ?_
  cases d with
  | inst op args types =>
    refine traces_bind_left fun constants => ?_
    cases constants with
    | none => exact traces_pure _ _
    | some constants =>
      cases op with
      | call callee =>
        refine traces_bind (hcall callee constants run) fun outcome run' => ?_
        cases outcome <;> exact traces_pure _ _
      | nop => exact traces_pure _ _
      | const32 => exact traces_pure _ _
      | const64 => exact traces_pure _ _
      | binary => exact traces_pure _ _
  | param => rfl
  | strRef => rfl
  | undefined => rfl

lemma traces_instructions
    {tracedCall : Caller → Func → List Constant → Run (List Event × σ) →
      Except Fault (Outcome × Run (List Event × σ))}
    {plainCall : Func → List Constant → Run σ → Except Fault (Outcome × Run σ)}
    (hcall : ∀ caller func args run,
      Traces (tracedCall caller func args run) (plainCall func args run.bare))
    (body : Body) (insts : List Value) (frame : Frame) (run : Run (List Event × σ)) :
    Traces (tracedInstructions tracedCall body insts frame run)
      (instructions plainCall body insts frame run.bare) := by
  induction insts generalizing frame run with
  | nil => exact traces_pure _ _
  | cons inst rest ih =>
    rw [tracedInstructions, instructions, note_silent, ok_bind]
    refine traces_bind (traces_evaluate (hcall _) body inst frame run) fun result run' => ?_
    cases result with
    | error outcome => exact traces_pure _ _
    | ok result => exact ih (frame.keep inst result) run'

lemma traces_traced (bound : Nat) (called : Bool) (body : Body) (frame : Frame)
    (run : Run (List Event × σ)) :
    Traces (traced host module bound called body frame run)
      (Run.frame host module bound body frame run.bare) := by
  induction bound generalizing called body frame run with
  | zero => exact traces_pure _ _
  | succ bound ih =>
    rw [traced, Run.frame]
    by_cases hfuel : run.budget.fuel = 0
    · rw [if_pos hfuel, if_pos (show run.bare.budget.fuel = 0 from hfuel)]
      exact traces_pure _ _
    · rw [if_neg hfuel, if_neg (show ¬ run.bare.budget.fuel = 0 from hfuel), note_silent, ok_bind]
      refine traces_bind_left fun block => ?_
      have hcall (caller : Caller) := traces_enter (host.traces_logging module caller) (ih true)
      refine traces_bind (traces_instructions hcall body block.insts frame _) fun result run' => ?_
      cases result with
      | error outcome => exact traces_pure _ _
      | ok frame' =>
        refine traces_bind_left fun next => ?_
        cases next with
        | error outcome => exact traces_pure _ _
        | ok frame'' => exact ih false body frame'' run'

end Run

/-- Forgetting the trace of a traced call gives the call. -/
theorem Module.traces_call (module : Module) (host : Host (Except Fault) σ) (func : Func)
    (args : List Constant) (run : Run (List Event × σ)) :
    Traces (module.tracedCall host func args run) (module.call host func args run.bare) :=
  Run.traces_enter (host.traces_logging module none) (Run.traces_traced run.budget.fuel true) func args
    run

lemma Module.exists_tracedCall {module : Module} {host : Host (Except Fault) σ} {func : Func}
    {args : List Constant} {run run' : Run σ} {outcome : Outcome}
    (h : module.call host func args run = .ok (outcome, run')) :
    ∃ events, module.tracedCall host func args ⟨run.budget, [], run.host⟩ =
      .ok (outcome, ⟨run'.budget, events, run'.host⟩) :=
  exists_of_traces (module.traces_call host func args ⟨run.budget, [], run.host⟩) h

end Forgetting

end EntryTrace
