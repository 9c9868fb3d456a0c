import EntryTrace.Proofs.Tracing

/-!
# Runs under two hosts

Two hosts that answer alike, whatever else they keep and however they word a refusal, cannot be told
apart by what a module does: the runs read the same constants, make the same calls in the same order
and use the same fuel, and they end alike.
-/

namespace EntryTrace

variable {σ τ : Type}

/-! ### Steps side by side -/

section Steps

variable {α β γ δ : Type} {R : α → β → Prop} {S : γ → δ → Prop}

/-- Both steps fault alike, or both succeed with related answers. -/
def Beside (R : α → β → Prop) : Except Fault α → Except Fault β → Prop
  | .ok a, .ok b => R a b
  | .error fault, .error fault' => fault = fault'
  | .ok _, .error _ | .error _, .ok _ => False

lemma beside_pure {a : α} {b : β} (h : R a b) : Beside R (pure a) (pure b) := h

lemma beside_bind {x : Except Fault α} {y : Except Fault β} {f : α → Except Fault γ}
    {g : β → Except Fault δ} (h : Beside R x y) (hf : ∀ a b, R a b → Beside S (f a) (g b)) :
    Beside S (x >>= f) (y >>= g) := by
  match x, y, h with
  | .ok a, .ok b, h => exact hf a b h
  | .error _, .error _, h => exact h

/-- Steps that start with the same step. -/
lemma beside_bind_left {x : Except Fault α} {f : α → Except Fault γ} {g : α → Except Fault δ}
    (hf : ∀ a, Beside S (f a) (g a)) : Beside S (x >>= f) (x >>= g) := by
  cases x with
  | error fault => rfl
  | ok a => exact hf a

lemma Beside.exists_left {x : Except Fault α} {y : Except Fault β} {b : β} (h : Beside R x y)
    (hy : y = .ok b) : ∃ a, x = .ok a ∧ R a b := by
  subst hy
  match x, h with
  | .ok a, h => exact ⟨a, rfl, h⟩

end Steps

/-! ### Alike but for the words -/

/-- The same values are returned, or both refuse. -/
inductive AnswersAlike : Except String (List Constant) → Except String (List Constant) → Prop
  | returned (values : List Constant) : AnswersAlike (.ok values) (.ok values)
  | refused (message message' : String) : AnswersAlike (.error message) (.error message')

/-- Calls end the same, where a refusal may be worded differently. -/
inductive Outcome.Alike : Outcome → Outcome → Prop
  | returned (values : List Constant) : Alike (.returned values) (.returned values)
  | trapped (func : Func) (block : Block) : Alike (.trapped func block) (.trapped func block)
  | outOfFuel : Alike .outOfFuel .outOfFuel
  | refused (func : Func) (message message' : String) :
    Alike (.refused func message) (.refused func message')

/-- Runs with the same left to use, under hosts whose states are related. -/
structure Run.Paired (R : σ → τ → Prop) (run : Run σ) (run' : Run τ) : Prop where
  budget : run'.budget = run.budget
  host : R run.host run'.host

/-- In related states the hosts answer alike, and come to related states. -/
def Host.Paired (R : σ → τ → Prop) (host : Host (Except Fault) σ) (host' : Host (Except Fault) τ)
    (module : Module) : Prop :=
  ∀ name args state state', R state state' →
    Beside (fun r r' => AnswersAlike r.1 r'.1 ∧ R r.2 r'.2) (host module name args state)
      (host' module name args state')

/-- How calls end under two hosts. -/
def EndPaired (R : σ → τ → Prop) (r : Outcome × Run σ) (r' : Outcome × Run τ) : Prop :=
  r.1.Alike r'.1 ∧ r.2.Paired R r'.2

/-- How instructions are evaluated, or run, under two hosts. -/
inductive StepPaired {α : Type} (R : σ → τ → Prop) :
    Except Outcome α × Run σ → Except Outcome α × Run τ → Prop
  | onward (a : α) {run : Run σ} {run' : Run τ} (h : run.Paired R run') :
    StepPaired R (.ok a, run) (.ok a, run')
  | ended {outcome outcome' : Outcome} {run : Run σ} {run' : Run τ} (houtcome : outcome.Alike outcome')
    (h : run.Paired R run') : StepPaired R (.error outcome, run) (.error outcome', run')

namespace Outcome

lemma Alike.refl (outcome : Outcome) : outcome.Alike outcome := by
  cases outcome with
  | returned values => exact .returned values
  | trapped func block => exact .trapped func block
  | outOfFuel => exact .outOfFuel
  | refused func message => exact .refused func message message

end Outcome

/-! ### Runs -/

namespace Run

variable {R : σ → τ → Prop} {host : Host (Except Fault) σ} {host' : Host (Except Fault) τ}
  {module : Module} {run : Run σ} {run' : Run τ}

lemma Paired.withBudget (h : run.Paired R run') (budget : Budget) :
    ({ run with budget } : Run σ).Paired R { run' with budget } := ⟨rfl, h.host⟩

lemma endPaired_enter (hhost : host.Paired R host' module)
    {runFrame : Body → Frame → Run σ → Except Fault (Outcome × Run σ)}
    {runFrame' : Body → Frame → Run τ → Except Fault (Outcome × Run τ)}
    (hframe : ∀ body frame {run run'}, run.Paired R run' →
      Beside (EndPaired R) (runFrame body frame run) (runFrame' body frame run'))
    (func : Func) (args : List Constant) (h : run.Paired R run') :
    Beside (EndPaired R) (enter host module runFrame func args run)
      (enter host' module runFrame' func args run') := by
  unfold enter
  refine beside_bind_left fun decl => ?_
  cases decl with
  | imported signature name =>
    refine beside_bind (hhost name args run.host run'.host h.host) ?_
    rintro ⟨answer, state⟩ ⟨answer', state'⟩ ⟨hanswer, hstate⟩
    cases hanswer with
    | returned values => exact beside_pure ⟨.returned values, h.budget, hstate⟩
    | refused message message' => exact beside_pure ⟨.refused func message message', h.budget, hstate⟩
  | defined signature name body =>
    simp only [h.budget]
    split
    · exact beside_pure ⟨.refl _, h⟩
    · refine beside_bind_left fun _ => beside_bind_left fun _ => beside_bind_left fun entry =>
        beside_bind_left fun _ => beside_bind (hframe body _ (h.withBudget _)) ?_
      rintro ⟨outcome, run₁⟩ ⟨outcome', run₁'⟩ ⟨houtcome, hrun⟩
      refine beside_pure ⟨houtcome, ?_⟩
      rw [hrun.budget]
      exact hrun.withBudget _

lemma stepPaired_evaluate {call : Func → List Constant → Run σ → Except Fault (Outcome × Run σ)}
    {call' : Func → List Constant → Run τ → Except Fault (Outcome × Run τ)}
    (hcall : ∀ func args {run run'}, run.Paired R run' →
      Beside (EndPaired R) (call func args run) (call' func args run'))
    (body : Body) (inst : Value) (frame : Frame) (h : run.Paired R run') :
    Beside (StepPaired R) (evaluate call body inst frame run) (evaluate call' body inst frame run') := by
  unfold evaluate
  refine beside_bind_left fun d => ?_
  cases d with
  | inst op args types =>
    refine beside_bind_left fun constants => ?_
    cases constants with
    | none => exact beside_pure (.ended (.refl _) h)
    | some constants =>
      cases op with
      | call callee =>
        refine beside_bind (hcall callee constants h) ?_
        rintro ⟨outcome, run₁⟩ ⟨outcome', run₁'⟩ ⟨houtcome, hrun⟩
        cases houtcome with
        | returned values => exact beside_pure (.onward values.head? hrun)
        | trapped func block => exact beside_pure (.ended (.trapped func block) hrun)
        | outOfFuel => exact beside_pure (.ended .outOfFuel hrun)
        | refused func message message' =>
          exact beside_pure (.ended (.refused func message message') hrun)
      | nop => exact beside_pure (.onward _ h)
      | const32 => exact beside_pure (.onward _ h)
      | const64 => exact beside_pure (.onward _ h)
      | binary => exact beside_pure (.onward _ h)
  | param => rfl
  | strRef => rfl
  | undefined => rfl

lemma stepPaired_instructions {call : Func → List Constant → Run σ → Except Fault (Outcome × Run σ)}
    {call' : Func → List Constant → Run τ → Except Fault (Outcome × Run τ)}
    (hcall : ∀ func args {run run'}, run.Paired R run' →
      Beside (EndPaired R) (call func args run) (call' func args run'))
    (body : Body) (insts : List Value) (frame : Frame) (h : run.Paired R run') :
    Beside (StepPaired R) (instructions call body insts frame run)
      (instructions call' body insts frame run') := by
  induction insts generalizing frame run run' with
  | nil => exact beside_pure (.onward frame h)
  | cons inst rest ih =>
    rw [instructions, instructions, note_silent, ok_bind, ok_bind]
    refine beside_bind (stepPaired_evaluate hcall body inst frame h) ?_
    rintro _ _ (⟨result, hrun⟩ | ⟨houtcome, hrun⟩)
    · exact ih (frame.keep inst result) hrun
    · exact beside_pure (.ended houtcome hrun)

lemma endPaired_frame (hhost : host.Paired R host' module) (bound : Nat) (body : Body) (frame : Frame)
    (h : run.Paired R run') :
    Beside (EndPaired R) (Run.frame host module bound body frame run)
      (Run.frame host' module bound body frame run') := by
  induction bound generalizing body frame run run' with
  | zero => exact beside_pure ⟨.outOfFuel, h⟩
  | succ bound ih =>
    rw [Run.frame, Run.frame, h.budget]
    split
    · exact beside_pure ⟨.outOfFuel, h⟩
    · refine beside_bind_left fun _ => beside_bind_left fun block => ?_
      refine beside_bind (stepPaired_instructions
        (fun func args _ _ h => endPaired_enter hhost (fun body frame _ _ h => ih body frame h) func
          args h) body block.insts frame (h.withBudget _)) ?_
      rintro _ _ (⟨frame₁, hrun⟩ | ⟨houtcome, hrun⟩)
      · refine beside_bind_left fun next => ?_
        cases next with
        | error outcome => exact beside_pure ⟨.refl outcome, hrun⟩
        | ok frame₂ => exact ih body frame₂ hrun
      · exact beside_pure ⟨houtcome, hrun⟩

end Run

/-- Under two hosts that answer alike a call faults alike, or ends alike with the same left to use. -/
theorem Module.call_paired {R : σ → τ → Prop} {host : Host (Except Fault) σ}
    {host' : Host (Except Fault) τ} {m : Module} (hhost : host.Paired R host' m) (func : Func)
    (args : List Constant) {run : Run σ} {run' : Run τ} (h : run.Paired R run') :
    Beside (EndPaired R) (m.call host func args run) (m.call host' func args run') := by
  rw [Module.call, Module.call, h.budget]
  exact Run.endPaired_enter hhost (fun body frame _ _ h => Run.endPaired_frame hhost _ body frame h) func
    args h

end EntryTrace
