import EntryTrace.Proofs.FaultFree
import EntryTrace.Proofs.TaggedRuns

/-!
# Runs that are cut short

Fuel only cuts a run short. Every run uses one unit for each block that it starts, in all
activations together, and two runs that differ in their fuel do the same until the one with less
runs out. Then it stops before the block that the other one starts next, and its trace so far is a
prefix of the other trace.
-/

namespace EntryTrace

variable {σ : Type}

/-! ### What a run uses -/

/-- Was there fuel to start a block? -/
def Event.isStart : Event → Bool
  | .started .. => true
  | .asked .. => false

/-- The call that the host answered, if it did. -/
def Event.hostCall? : Event → Option Host.Call
  | .started .. => none
  | .asked _ call _ => some call

/-- How many blocks were started. -/
def blocksStarted (events : List Event) : Nat := events.countP Event.isStart

/-- The calls that the host answered, in order. -/
def hostCalls (events : List Event) : List Host.Call := events.filterMap Event.hostCall?

lemma blocksStarted_append (events events' : List Event) :
    blocksStarted (events ++ events') = blocksStarted events + blocksStarted events' :=
  List.countP_append

namespace Run

/-- The second run went on from the first, and used a unit of fuel for each block that it
started. -/
def Pays (run run' : Run (List Event × σ)) : Prop :=
  ∃ new, run'.host.1 = run.host.1 ++ new ∧ run.budget.fuel = run'.budget.fuel + blocksStarted new ∧
    run'.budget.depth = run.budget.depth

section Paying

variable {run run' run'' : Run (List Event × σ)}

lemma Pays.refl (run : Run (List Event × σ)) : run.Pays run :=
  ⟨[], (List.append_nil _).symm, rfl, rfl⟩

lemma Pays.trans (h : run.Pays run') (h' : run'.Pays run'') : run.Pays run'' := by
  obtain ⟨new, hevents, hfuel, hdepth⟩ := h
  obtain ⟨new', hevents', hfuel', hdepth'⟩ := h'
  refine ⟨new ++ new', ?_, ?_, hdepth'.trans hdepth⟩
  · rw [hevents', hevents, List.append_assoc]
  · rw [hfuel, hfuel', blocksStarted_append]
    omega

lemma Pays.fuel_le (h : run.Pays run') : run'.budget.fuel ≤ run.budget.fuel := by
  obtain ⟨new, -, hfuel, -⟩ := h
  omega

lemma Pays.isPrefix (h : run.Pays run') : run.host.1 <+: run'.host.1 := by
  obtain ⟨new, hevents, -⟩ := h
  rw [hevents]
  exact List.prefix_append _ _

lemma pays_start (hfuel : run.budget.fuel ≠ 0) (func : Func) (block : Block) (called : Bool) :
    run.Pays (run.burn.log (.started func block called)) := by
  refine ⟨[.started func block called], rfl, ?_, rfl⟩
  change run.budget.fuel = run.budget.fuel - 1 + 1
  omega

variable {host : Host (Except Fault) σ} {module : Module}

lemma pays_enter {caller : Caller} {runFrame : Body → Frame → Run (List Event × σ) →
      Except Fault (Outcome × Run (List Event × σ))}
    (hframe : ∀ {body frame run outcome run'},
      runFrame body frame run = .ok (outcome, run') → run.Pays run') {func : Func}
    {args : List Constant} {outcome : Outcome}
    (h : enter (host.logging caller) module runFrame func args run = .ok (outcome, run')) :
    run.Pays run' := by
  obtain ⟨decl, -, h⟩ := bind_eq_ok.1 h
  cases decl with
  | imported signature name =>
    obtain ⟨⟨answer, events, state⟩, hlog, h⟩ := bind_eq_ok.1 h
    obtain ⟨⟨answer', state'⟩, -, hrest⟩ := bind_eq_ok.1 hlog
    cases hrest
    have hpays : run.Pays ⟨run.budget, run.host.1 ++ [.asked caller ⟨name, args⟩ answer], state⟩ :=
      ⟨_, rfl, rfl, rfl⟩
    cases answer <;> cases h <;> exact hpays
  | defined signature name body =>
    dsimp only at h
    split at h
    · cases h
      exact .refl run
    · simp only [notePrinted_silent, note_silent, ok_bind, noteArgs_silent, bind_eq_ok] at h
      obtain ⟨entry, -, ⟨outcome', run₁⟩, hrun, h⟩ := h
      cases h
      obtain ⟨new, hevents, hfuel, -⟩ := hframe hrun
      exact ⟨new, hevents, hfuel, rfl⟩

lemma pays_evaluate {call : Func → List Constant → Run (List Event × σ) →
      Except Fault (Outcome × Run (List Event × σ))}
    (hcall : ∀ {callee args run outcome run'}, call callee args run = .ok (outcome, run') →
      run.Pays run') {body : Body} {inst : Value} {frame : Frame}
    {result : Except Outcome (Option Constant)}
    (h : evaluate call body inst frame run = .ok (result, run')) : run.Pays run' := by
  obtain ⟨d, -, h⟩ := bind_eq_ok.1 h
  cases d with
  | inst op args types =>
    obtain ⟨constants, -, h⟩ := bind_eq_ok.1 h
    cases constants with
    | none =>
      cases h
      exact .refl run
    | some constants =>
      cases op with
      | call callee =>
        obtain ⟨⟨outcome, run₁⟩, hcalled, h⟩ := bind_eq_ok.1 h
        have hpays := hcall hcalled
        cases outcome <;> cases h <;> exact hpays
      | nop | const32 | const64 | binary =>
        cases h
        exact .refl _
  | param => cases h
  | strRef => cases h
  | undefined => cases h

lemma pays_instructions {call : Caller → Func → List Constant → Run (List Event × σ) →
      Except Fault (Outcome × Run (List Event × σ))}
    (hcall : ∀ {caller callee args run outcome run'},
      call caller callee args run = .ok (outcome, run') → run.Pays run') {body : Body}
    {insts : List Value} {frame : Frame} {result : Except Outcome Frame}
    (h : tracedInstructions call body insts frame run = .ok (result, run')) : run.Pays run' := by
  induction insts generalizing frame run with
  | nil =>
    cases h
    exact .refl _
  | cons inst rest ih =>
    obtain ⟨⟨evaluated, run₁⟩, heval, h⟩ := bind_eq_ok.1 h
    have hpays := pays_evaluate hcall heval
    cases evaluated with
    | error outcome =>
      cases h
      exact hpays
    | ok constant => exact hpays.trans (ih h)

/-- What follows the start of a block. -/
lemma pays_traced_succ {bound : Nat} (hframe : ∀ {called body frame run outcome run'},
      traced host module bound called body frame run = .ok (outcome, run') → run.Pays run')
    {called : Bool} {body : Body} {frame : Frame} {outcome : Outcome} (hfuel : run.budget.fuel ≠ 0)
    (h : traced host module (bound + 1) called body frame run = .ok (outcome, run')) :
    (run.burn.log (.started frame.func frame.block called)).Pays run' := by
  rw [traced, if_neg hfuel] at h
  obtain ⟨block, -, h⟩ := bind_eq_ok.1 h
  obtain ⟨⟨result, run₁⟩, hinsts, h⟩ := bind_eq_ok.1 h
  have hpays := pays_instructions (fun h => pays_enter hframe h) hinsts
  cases result with
  | error outcome =>
    cases h
    exact hpays
  | ok frame₁ =>
    obtain ⟨next, -, h⟩ := bind_eq_ok.1 h
    cases next with
    | error outcome =>
      cases h
      exact hpays
    | ok frame₂ => exact hpays.trans (hframe h)

lemma pays_traced {bound : Nat} {called : Bool} {body : Body} {frame : Frame} {outcome : Outcome}
    (h : traced host module bound called body frame run = .ok (outcome, run')) : run.Pays run' := by
  induction bound generalizing called body frame run outcome run' with
  | zero =>
    cases h
    exact .refl run
  | succ bound ih =>
    by_cases hfuel : run.budget.fuel = 0
    · rw [traced, if_pos hfuel] at h
      cases h
      exact .refl run
    · exact (pays_start hfuel _ _ _).trans (pays_traced_succ ih hfuel h)

end Paying

/-- The run with so much more fuel. -/
def refueled (k : Nat) (run : Run σ) : Run σ :=
  { run with budget := { run.budget with fuel := run.budget.fuel + k } }

end Run

/-! ### What more fuel makes of a run -/

section Cutting

variable {α β : Type} {stop : α → Prop} {stop' : β → Prop} {k : Nat}

/-- The second run has `k` more units of fuel. Where the first one does not stop, both do the same,
and the units are left over. Where it stops, it has no fuel left, and the second one goes on to start
a block. -/
inductive CutShort (stop : α → Prop) (k : Nat) :
    Except Fault (α × Run (List Event × σ)) → Except Fault (α × Run (List Event × σ)) → Prop
  | fault (fault : Fault) : CutShort stop k (.error fault) (.error fault)
  | same {a : α} {run : Run (List Event × σ)} (h : ¬ stop a) :
    CutShort stop k (.ok (a, run)) (.ok (a, run.refueled k))
  | stopped {a : α} {run : Run (List Event × σ)} {y : Except Fault (α × Run (List Event × σ))}
    (h : stop a) (hfuel : run.budget.fuel = 0)
    (hmore : ∀ a' run', y = .ok (a', run') → ∃ event : Event, event.isStart = true ∧
      run.host.1 ++ [event] <+: run'.host.1) : CutShort stop k (.ok (a, run)) y

lemma cutShort_pure {a : α} (h : ¬ stop a) (run : Run (List Event × σ)) :
    CutShort stop k (pure (a, run)) (pure (a, run.refueled k)) := .same h

/-- Once the first run has stopped, it does nothing more. -/
lemma CutShort.bind {x y : Except Fault (α × Run (List Event × σ))}
    {f g : α × Run (List Event × σ) → Except Fault (β × Run (List Event × σ))}
    (hx : CutShort stop k x y) (hstop : ∀ a run, stop a → ∃ b, stop' b ∧ f (a, run) = pure (b, run))
    (hpays : ∀ a run b run', g (a, run) = .ok (b, run') → run.Pays run')
    (hf : ∀ a run, x = .ok (a, run) → ¬ stop a →
      CutShort stop' k (f (a, run)) (g (a, run.refueled k))) :
    CutShort stop' k (x >>= f) (y >>= g) := by
  cases hx with
  | fault fault => exact .fault fault
  | same h => exact hf _ _ rfl h
  | @stopped a run y h hfuel hmore =>
    obtain ⟨b, hb, heq⟩ := hstop a run h
    rw [ok_bind, heq]
    refine .stopped hb hfuel fun b' run'' h'' => ?_
    obtain ⟨⟨a', run'⟩, hy, hg⟩ := bind_eq_ok.1 h''
    obtain ⟨event, hevent, hprefix⟩ := hmore a' run' hy
    exact ⟨event, hevent, hprefix.trans (hpays a' run' b' run'' hg).isPrefix⟩

lemma cutShort_bind_left {γ : Type} {x : Except Fault γ}
    {f g : γ → Except Fault (β × Run (List Event × σ))}
    (hf : ∀ a, x = .ok a → CutShort stop' k (f a) (g a)) : CutShort stop' k (x >>= f) (x >>= g) := by
  cases x with
  | error fault => exact .fault fault
  | ok a => exact hf a rfl

lemma CutShort.of_ok {x : Except Fault (α × Run (List Event × σ))} {a : α}
    {run' : Run (List Event × σ)} (h : CutShort stop k x (.ok (a, run'))) :
    (¬ stop a ∧ ∃ run, x = .ok (a, run) ∧ run' = run.refueled k) ∨
    ∃ b run, stop b ∧ x = .ok (b, run) ∧ run.budget.fuel = 0 ∧
      ∃ event : Event, event.isStart = true ∧ run.host.1 ++ [event] <+: run'.host.1 := by
  cases h with
  | same h => exact .inl ⟨h, _, rfl, rfl⟩
  | stopped h hfuel hmore => exact .inr ⟨_, _, h, rfl, hfuel, hmore _ _ rfl⟩

/-- Leaving an activation. -/
lemma CutShort.atDepth {x y : Except Fault (α × Run (List Event × σ))} (hx : CutShort stop k x y)
    (depth : Nat) :
    CutShort stop k (x >>= fun p => pure (p.1, { p.2 with budget := ⟨p.2.budget.fuel, depth⟩ }))
      (y >>= fun p => pure (p.1, { p.2 with budget := ⟨p.2.budget.fuel, depth⟩ })) := by
  cases hx with
  | fault fault => exact .fault fault
  | same h => exact .same h
  | stopped h hfuel hmore =>
    refine .stopped h hfuel fun a' run'' h'' => ?_
    obtain ⟨⟨a, run'⟩, hy, hrest⟩ := bind_eq_ok.1 h''
    cases hrest
    exact hmore a run' hy

/-- There was no fuel. -/
def OutOfFuel (outcome : Outcome) : Prop := outcome = .outOfFuel

/-- There was no fuel, so nothing else came of it. -/
def StoppedShort (result : Except Outcome α) : Prop := result = .error .outOfFuel

/-- Leaving a block uses no fuel. -/
lemma Frame.leave_ne_outOfFuel (frame : Frame) {body : Body} {term : Terminator} {outcome : Outcome}
    (h : (frame.leave body term : Except Fault _) = .ok (.error outcome)) : ¬ OutOfFuel outcome := by
  rcases Frame.of_leave_eq_error h with rfl | ⟨values, rfl⟩ <;> exact nofun

namespace Run

variable {host : Host (Except Fault) σ} {module : Module}

lemma cutShort_enter {caller : Caller} {n : Nat} {frame frame' : Body → Frame → Run (List Event × σ) →
      Except Fault (Outcome × Run (List Event × σ))}
    (hframe : ∀ body f run, run.budget.fuel ≤ n →
      CutShort OutOfFuel k (frame body f run) (frame' body f (run.refueled k)))
    (func : Func) (args : List Constant) {run : Run (List Event × σ)} (hn : run.budget.fuel ≤ n) :
    CutShort OutOfFuel k (enter (host.logging caller) module frame func args run)
      (enter (host.logging caller) module frame' func args (run.refueled k)) := by
  unfold enter
  refine cutShort_bind_left fun decl _ => ?_
  cases decl with
  | imported signature name =>
    refine cutShort_bind_left fun answered _ => ?_
    obtain ⟨answer, state⟩ := answered
    cases answer with
    | ok values => exact cutShort_pure nofun _
    | error message => exact cutShort_pure nofun _
  | defined signature name body =>
    by_cases hdepth : run.budget.depth ≥ maxDepth
    · simp only [if_pos hdepth, if_pos (show (run.refueled k).budget.depth ≥ maxDepth from hdepth)]
      exact cutShort_pure nofun _
    · simp only [if_neg hdepth, if_neg (show ¬ (run.refueled k).budget.depth ≥ maxDepth from hdepth)]
      refine cutShort_bind_left fun _ _ => cutShort_bind_left fun _ _ =>
        cutShort_bind_left fun entry _ => cutShort_bind_left fun _ _ => ?_
      exact (hframe body _ ⟨⟨run.budget.fuel, run.budget.depth + 1⟩, run.host⟩ hn).atDepth
        run.budget.depth

lemma cutShort_evaluate {call call' : Func → List Constant → Run (List Event × σ) →
      Except Fault (Outcome × Run (List Event × σ))} {run : Run (List Event × σ)}
    (hcall : ∀ callee args, CutShort OutOfFuel k (call callee args run)
      (call' callee args (run.refueled k))) (body : Body) (inst : Value) (frame : Frame) :
    CutShort StoppedShort k (evaluate call body inst frame run)
      (evaluate call' body inst frame (run.refueled k)) := by
  unfold evaluate
  refine cutShort_bind_left fun d _ => ?_
  cases d with
  | inst op args types =>
    refine cutShort_bind_left fun constants _ => ?_
    cases constants with
    | none => exact cutShort_pure nofun _
    | some constants =>
      cases op with
      | call callee =>
        refine (hcall callee constants).bind ?_ ?_ fun outcome run' _ houtcome => ?_
        · rintro outcome run' rfl
          exact ⟨_, rfl, rfl⟩
        · intro outcome run' result run'' h
          cases outcome <;> cases h <;> exact .refl _
        · cases outcome with
          | outOfFuel => exact absurd rfl houtcome
          | returned | trapped | refused => exact cutShort_pure nofun _
      | nop | const32 | const64 | binary => exact cutShort_pure nofun _
  | param | strRef | undefined => exact .fault _

lemma cutShort_instructions {n : Nat} {call call' : Caller → Func → List Constant →
      Run (List Event × σ) → Except Fault (Outcome × Run (List Event × σ))}
    (hcall : ∀ caller callee args run, run.budget.fuel ≤ n → CutShort OutOfFuel k
      (call caller callee args run) (call' caller callee args (run.refueled k)))
    (hpays : ∀ {caller callee args run outcome run'},
      call caller callee args run = .ok (outcome, run') → run.Pays run')
    (hpays' : ∀ {caller callee args run outcome run'},
      call' caller callee args run = .ok (outcome, run') → run.Pays run')
    (body : Body) (insts : List Value) (frame : Frame) {run : Run (List Event × σ)}
    (hn : run.budget.fuel ≤ n) :
    CutShort StoppedShort k (tracedInstructions call body insts frame run)
      (tracedInstructions call' body insts frame (run.refueled k)) := by
  induction insts generalizing frame run with
  | nil => exact cutShort_pure nofun _
  | cons inst rest ih =>
    rw [tracedInstructions, tracedInstructions]
    refine (cutShort_evaluate (fun callee args => hcall _ callee args run hn) body inst frame).bind
      ?_ ?_ fun result run' heval hresult => ?_
    · rintro result run' rfl
      exact ⟨_, rfl, rfl⟩
    · intro result run' result' run'' h
      cases result with
      | error outcome =>
        cases h
        exact .refl _
      | ok constant => exact pays_instructions hpays' h
    · cases result with
      | error outcome =>
        have hgone : ¬ StoppedShort (.error outcome : Except Outcome Frame) :=
          fun h => hresult (congrArg Except.error (Except.error.inj h))
        exact cutShort_pure hgone _
      | ok constant => exact ih _ ((pays_evaluate hpays heval).fuel_le.trans hn)

/-- The run without fuel stops before the block that the other one starts. -/
lemma cutShort_empty (hk : 0 < k) {bound : Nat} {called : Bool} {body : Body} {frame : Frame}
    {run : Run (List Event × σ)} (hfuel : run.budget.fuel = 0) :
    CutShort OutOfFuel k (pure (.outOfFuel, run))
      (traced host module (bound + 1) called body frame (run.refueled k)) := by
  refine .stopped rfl hfuel fun outcome run' h => ⟨_, rfl, (pays_traced_succ pays_traced ?_ h).isPrefix⟩
  exact Nat.ne_of_gt (Nat.add_pos_right run.budget.fuel hk)

lemma burn_refueled {run : Run (List Event × σ)} (hfuel : run.budget.fuel ≠ 0) :
    (run.refueled k).burn = run.burn.refueled k := by
  simp only [refueled, burn, Run.mk.injEq, Budget.mk.injEq, and_true]
  omega

lemma log_refueled (event : Event) (run : Run (List Event × σ)) :
    (run.refueled k).log event = (run.log event).refueled k := rfl

/-- The induction is on the bound of the run with less fuel. Neither bound matters, for each is at
least the fuel. -/
lemma cutShort_traced (hk : 0 < k) {bound bound' : Nat} (called : Bool) (body : Body) (frame : Frame)
    {run : Run (List Event × σ)} (hbound : run.budget.fuel ≤ bound)
    (hbound' : run.budget.fuel + k ≤ bound') :
    CutShort OutOfFuel k (traced host module bound called body frame run)
      (traced host module bound' called body frame (run.refueled k)) := by
  induction bound generalizing bound' called body frame run with
  | zero =>
    obtain ⟨bound', rfl⟩ := Nat.exists_eq_succ_of_ne_zero (show bound' ≠ 0 by omega)
    exact cutShort_empty hk (Nat.le_zero.1 hbound)
  | succ bound ih =>
    obtain ⟨bound', rfl⟩ := Nat.exists_eq_succ_of_ne_zero (show bound' ≠ 0 by omega)
    by_cases hfuel : run.budget.fuel = 0
    · rw [traced, if_pos hfuel]
      exact cutShort_empty hk hfuel
    have hfuel' : (run.refueled k).budget.fuel ≠ 0 :=
      Nat.ne_of_gt (Nat.add_pos_right run.budget.fuel hk)
    rw [traced, traced, if_neg hfuel, if_neg hfuel', burn_refueled hfuel, log_refueled]
    refine cutShort_bind_left fun block _ => ?_
    have hframe {run' : Run (List Event × σ)} (hn : run'.budget.fuel ≤ run.budget.fuel - 1)
        (called : Bool) (body : Body) (frame : Frame) :
        CutShort OutOfFuel k (traced host module bound called body frame run')
          (traced host module bound' called body frame (run'.refueled k)) :=
      ih called body frame (by omega) (by omega)
    have hcall (caller : Caller) (callee : Func) (args : List Constant) (run' : Run (List Event × σ))
        (hn : run'.budget.fuel ≤ run.budget.fuel - 1) : CutShort OutOfFuel k
          (enter (host.logging caller) module (traced host module bound true) callee args run')
          (enter (host.logging caller) module (traced host module bound' true) callee args
            (run'.refueled k)) :=
      cutShort_enter (fun body frame _ hn' => hframe hn' true body frame) callee args hn
    have hburned : (run.burn.log (.started frame.func frame.block called)).budget.fuel ≤
        run.budget.fuel - 1 := le_rfl
    have hinsts := cutShort_instructions hcall (pays_enter pays_traced) (pays_enter pays_traced) body
      block.insts frame hburned
    refine hinsts.bind ?_ ?_ fun result run' hrun hresult => ?_
    · rintro result run' rfl
      exact ⟨_, rfl, rfl⟩
    · intro result run' outcome run'' h
      cases result with
      | error outcome =>
        cases h
        exact .refl _
      | ok frame' =>
        obtain ⟨next, -, h⟩ := bind_eq_ok.1 h
        cases next with
        | error outcome =>
          cases h
          exact .refl _
        | ok frame'' => exact pays_traced h
    · cases result with
      | error outcome =>
        have houtcome : ¬ OutOfFuel outcome := fun h => hresult (congrArg Except.error h)
        exact cutShort_pure houtcome _
      | ok frame' =>
        refine cutShort_bind_left fun next hnext => ?_
        cases next with
        | error outcome => exact cutShort_pure (frame'.leave_ne_outOfFuel hnext) _
        | ok frame'' =>
          have hpays := pays_instructions (pays_enter pays_traced) hrun
          exact hframe hpays.fuel_le false body frame''

end Run

end Cutting

/-! ### Calls from outside -/

namespace Module

section Calls

variable {module : Module} {host : Host (Except Fault) σ} {func : Func} {args : List Constant}
variable {depth : Nat} {state state' : σ} {fuel left k : Nat} {events : List Event} {outcome : Outcome}

/-- A call that starts with so much fuel ends like this, leaves so much fuel, and has this trace. -/
def CallEnds (module : Module) (host : Host (Except Fault) σ) (func : Func) (args : List Constant)
    (depth : Nat) (state : σ) (fuel : Nat) (outcome : Outcome) (left : Nat) (events : List Event)
    (state' : σ) : Prop :=
  module.tracedCall host func args ⟨⟨fuel, depth⟩, [], state⟩ =
    .ok (outcome, ⟨⟨left, depth⟩, events, state'⟩)

lemma pays_tracedCall {run run' : Run (List Event × σ)}
    (h : module.tracedCall host func args run = .ok (outcome, run')) : run.Pays run' :=
  Run.pays_enter Run.pays_traced h

lemma CallEnds.fuel_eq (h : module.CallEnds host func args depth state fuel outcome left events state') :
    fuel = left + blocksStarted events := by
  obtain ⟨new, hevents, hfuel, -⟩ := pays_tracedCall h
  obtain rfl : events = new := hevents
  exact hfuel

lemma cutShort_tracedCall (hk : 0 < k) (module : Module) (host : Host (Except Fault) σ) (func : Func)
    (args : List Constant) (run : Run (List Event × σ)) :
    CutShort OutOfFuel k (module.tracedCall host func args run)
      (module.tracedCall host func args (run.refueled k)) :=
  Run.cutShort_enter (n := run.budget.fuel) (fun body frame _ hn =>
    Run.cutShort_traced hk true body frame hn (Nat.add_le_add_right hn k)) func args le_rfl

/-- A call that does not stop for want of fuel does the same with more fuel. -/
lemma CallEnds.refueled (h : module.CallEnds host func args depth state fuel outcome left events state')
    (houtcome : outcome ≠ .outOfFuel) (k : Nat) :
    module.CallEnds host func args depth state (fuel + k) outcome (left + k) events state' := by
  rcases Nat.eq_zero_or_pos k with rfl | hk
  · exact h
  · have hcut := cutShort_tracedCall hk module host func args ⟨⟨fuel, depth⟩, [], state⟩
    rw [show module.tracedCall host func args ⟨⟨fuel, depth⟩, [], state⟩ = _ from h] at hcut
    generalize hy : module.tracedCall host func args _ = y at hcut
    cases hcut with
    | same => exact hy
    | stopped hstop => exact absurd hstop houtcome

/-- With less fuel a call ends too. It does the same, or it stops before a block that the call with
more fuel starts. -/
lemma CallEnds.cut (h : module.CallEnds host func args depth state (fuel + k) outcome left events state')
    (hk : 0 < k) :
    (outcome ≠ .outOfFuel ∧ ∃ left', left = left' + k ∧
      module.CallEnds host func args depth state fuel outcome left' events state') ∨
    ∃ before event state'', event.isStart = true ∧ before ++ [event] <+: events ∧
      module.CallEnds host func args depth state fuel .outOfFuel 0 before state'' := by
  have hcut := cutShort_tracedCall hk module host func args ⟨⟨fuel, depth⟩, [], state⟩
  rw [show module.tracedCall host func args (Run.refueled k ⟨⟨fuel, depth⟩, [], state⟩) = _ from h]
    at hcut
  obtain ⟨houtcome, ⟨⟨left', depth'⟩, events', state''⟩, hx, heq⟩ |
    ⟨_, ⟨⟨left', depth'⟩, before, state''⟩, rfl, hx, rfl, event, hevent, hprefix⟩ := hcut.of_ok
  · cases heq
    exact .inl ⟨houtcome, left', rfl, hx⟩
  · obtain ⟨-, -, -, rfl⟩ := pays_tracedCall hx
    exact .inr ⟨before, event, state'', hevent, hprefix, hx⟩

/-- A call with less fuel ends, and its trace is a prefix. -/
lemma CallEnds.exists_of_le {fuel' : Nat} (hle : fuel' ≤ fuel)
    (h : module.CallEnds host func args depth state fuel outcome left events state') :
    ∃ outcome' left' events' state'',
      module.CallEnds host func args depth state fuel' outcome' left' events' state'' ∧
        events' <+: events := by
  obtain ⟨k, rfl⟩ := Nat.exists_eq_add_of_le hle
  rcases Nat.eq_zero_or_pos k with rfl | hk
  · exact ⟨_, _, _, _, h, List.prefix_rfl⟩
  · obtain ⟨-, left', -, hsame⟩ | ⟨before, event, state'', -, hprefix, hstopped⟩ := h.cut hk
    · exact ⟨_, _, _, _, hsame, List.prefix_rfl⟩
    · exact ⟨_, _, _, _, hstopped, (List.prefix_append _ _).trans hprefix⟩

/-- With as many units as it needs, a call does the same whatever else there is. -/
lemma CallEnds.of_enough (h : module.CallEnds host func args depth state fuel outcome left events state')
    (houtcome : outcome ≠ .outOfFuel) {fuel' : Nat} (hfuel : blocksStarted events ≤ fuel') :
    module.CallEnds host func args depth state fuel' outcome (fuel' - blocksStarted events) events
      state' := by
  have hneeds := h.fuel_eq
  rcases Nat.le_total fuel fuel' with hle | hle
  · obtain ⟨k, rfl⟩ := Nat.exists_eq_add_of_le hle
    rw [show fuel + k - blocksStarted events = left + k by omega]
    exact h.refueled houtcome k
  · obtain ⟨k, rfl⟩ := Nat.exists_eq_add_of_le hle
    rcases Nat.eq_zero_or_pos k with rfl | hk
    · rw [show fuel' - blocksStarted events = left by omega]
      exact h
    · obtain ⟨-, left', rfl, hsame⟩ | ⟨before, event, state'', hevent, hprefix, hstopped⟩ := h.cut hk
      · rw [show fuel' - blocksStarted events = left' by omega]
        exact hsame
      · have hstarted := hstopped.fuel_eq
        have hmore : blocksStarted (before ++ [event]) ≤ blocksStarted events :=
          hprefix.sublist.countP_le
        rw [blocksStarted_append, show blocksStarted [event] = 1 by simp [blocksStarted, hevent]] at hmore
        omega

/-- With fewer units than it needs, a call stops. -/
lemma CallEnds.of_short (h : module.CallEnds host func args depth state fuel outcome left events state')
    {fuel' : Nat} (hfuel : fuel' < blocksStarted events) :
    ∃ before state'', module.CallEnds host func args depth state fuel' .outOfFuel 0 before state'' ∧
      before <+: events := by
  have hneeds := h.fuel_eq
  obtain ⟨k, rfl⟩ := Nat.exists_eq_add_of_le (show fuel' ≤ fuel by omega)
  obtain ⟨-, left', rfl, hsame⟩ | ⟨before, event, state'', -, hprefix, hstopped⟩ :=
    h.cut (show 0 < k by omega)
  · have hsame' := hsame.fuel_eq
    omega
  · exact ⟨before, state'', hstopped, (List.prefix_append _ _).trans hprefix⟩

end Calls

end Module

/-- Fuel only cuts a call short. A call uses a unit for each block that it starts, in all activations
together. Let a call not stop for want of fuel, and use so many units. With fewer units it stops with
none left, and the host was asked no more than a prefix of the calls; with as many or more it does
the same and uses the same. Of any two calls, that with less fuel asks the host a prefix of the
calls. -/
theorem call_cutShort {text : String} {m : Module}
    (hread : (Module.ofText text : Except Fault (Except SourceError Module)) = .ok (.ok m))
    {func : Func} (hfunc : func.index < m.funcs.size) (host : Host (Except Fault) σ)
    (args : List Constant) (depth : Nat) (state : σ) :
    (∀ fuel, Traces (m.tracedCall host func args ⟨⟨fuel, depth⟩, [], state⟩)
      (m.call host func args ⟨⟨fuel, depth⟩, state⟩)) ∧
    ((∀ name args state, ∃ answer, host m name args state = .ok answer) → ∀ fuel,
      ∃ outcome left events state',
        m.CallEnds host func args depth state fuel outcome left events state') ∧
    (∀ fuel outcome left events state',
      m.CallEnds host func args depth state fuel outcome left events state' →
        fuel = left + blocksStarted events) ∧
    (∀ fuel outcome left events state',
      m.CallEnds host func args depth state fuel outcome left events state' →
        outcome ≠ .outOfFuel → ∀ fuel', ∃ outcome' left' events' state'',
          m.CallEnds host func args depth state fuel' outcome' left' events' state'' ∧
          (outcome' = .outOfFuel ↔ fuel' < fuel - left) ∧
          (fuel - left ≤ fuel' → outcome' = outcome ∧ left' = fuel' - (fuel - left) ∧
            events' = events ∧ state'' = state') ∧
          (fuel' < fuel - left → left' = 0 ∧ events' <+: events ∧
            hostCalls events' <+: hostCalls events)) ∧
    ∀ fuel fuel', fuel ≤ fuel' → ∀ outcome' left' events' state'',
      m.CallEnds host func args depth state fuel' outcome' left' events' state'' →
        ∃ outcome left events state', m.CallEnds host func args depth state fuel outcome left events
          state' ∧ events <+: events' ∧ hostCalls events <+: hostCalls events' := by
  refine ⟨fun fuel => m.traces_call host func args _, fun hhost fuel => ?_,
    fun fuel outcome left events state' h => h.fuel_eq,
    fun fuel outcome left events state' h houtcome fuel' => ?_,
    fun fuel fuel' hle outcome' left' events' state'' h => ?_⟩
  · obtain ⟨located, tree, -, hparse, hresolve⟩ := ofText_eq_ok.1 hread
    have hreadable := (Source.resolve_replay (Source.sound_of_parse hparse) hresolve).1
    cases hcall : m.call host func args ⟨⟨fuel, depth⟩, state⟩ with
    | error fault =>
      obtain ⟨name, args, state, hfault⟩ := hreadable.of_call_eq_error hfunc hcall
      obtain ⟨answer, hanswer⟩ := hhost name args state
      rw [hfault] at hanswer
      cases hanswer
    | ok result =>
      obtain ⟨outcome, ⟨left, depth'⟩, state'⟩ := result
      obtain ⟨events, htraced⟩ := Module.exists_tracedCall hcall
      obtain ⟨-, -, -, rfl⟩ := Module.pays_tracedCall htraced
      exact ⟨outcome, left, events, state', htraced⟩
  · have hneeds : fuel - left = blocksStarted events := by
      have := h.fuel_eq
      omega
    rw [hneeds]
    rcases Nat.lt_or_ge fuel' (blocksStarted events) with hlt | hge
    · obtain ⟨before, state'', hstopped, hprefix⟩ := h.of_short hlt
      exact ⟨_, _, _, _, hstopped, ⟨fun _ => hlt, fun _ => rfl⟩, fun hge => absurd hlt (by omega),
        fun _ => ⟨rfl, hprefix, hprefix.filterMap _⟩⟩
    · exact ⟨_, _, _, _, h.of_enough houtcome hge, ⟨fun heq => absurd heq houtcome, fun hlt => by omega⟩,
        fun _ => ⟨rfl, rfl, rfl, rfl⟩, fun hlt => absurd hlt (by omega)⟩
  · obtain ⟨outcome, left, events, state', hcut, hprefix⟩ := h.exists_of_le hle
    exact ⟨outcome, left, events, state', hcut, hprefix, hprefix.filterMap _⟩

/-- Counting down from 2 starts six blocks, so it stops for want of fuel with less than six units. -/
lemma exists_callEnds_countDown : ∃ events,
    countDown.CallEnds Host.tagRecorder ⟨0⟩ [.i32 2] 0 #[] 20 (.returned [.i32 0]) 14 events #[] :=
  ⟨_, rfl⟩

theorem call_cutShort_countDown :
    (Module.ofText countDownText : Except Fault (Except SourceError Module)) = .ok (.ok countDown) ∧
    0 < countDown.funcs.size ∧ ∃ events,
    countDown.CallEnds Host.tagRecorder ⟨0⟩ [.i32 2] 0 #[] 20 (.returned [.i32 0]) 14 events #[] ∧
    ∀ fuel, ∃ outcome left events' state,
      countDown.CallEnds Host.tagRecorder ⟨0⟩ [.i32 2] 0 #[] fuel outcome left events' state ∧
      (outcome = .outOfFuel ↔ fuel < 6) ∧
      (6 ≤ fuel → outcome = .returned [.i32 0] ∧ left = fuel - 6 ∧ events' = events ∧ state = #[]) ∧
      (fuel < 6 → left = 0 ∧ events' <+: events ∧ hostCalls events' <+: hostCalls events) := by
  obtain ⟨events, h⟩ := exists_callEnds_countDown
  have hfunc : (⟨0⟩ : Func).index < countDown.funcs.size := by decide
  obtain ⟨-, -, -, hcut, -⟩ :=
    call_cutShort ofText_countDownText hfunc Host.tagRecorder [.i32 2] 0 #[]
  exact ⟨ofText_countDownText, hfunc, events, h, hcut 20 _ 14 events #[] h (by decide)⟩

end EntryTrace
