import EntryTrace.Proofs.Chronicles
import EntryTrace.Proofs.RoundTrip

/-!
# Calls on one context

A context keeps the fuel and the number of active bodies from one call to the next. However a call
ends, no body is active after it, so that it makes no difference whether calls share a context. While
a call goes on, no more than `maxDepth` bodies are ever active, and a body that is called beyond that
is trapped at once.
-/

namespace EntryTrace

variable {σ : Type}

/-! ### Which bodies are active -/

/-- The functions whose bodies are active after a deed, innermost first. -/
def Deed.active (before : List Func) : Deed → List Func
  | .entered func => func :: before
  | .left _ => before.tail
  | .called .. | .asked .. | .started .. | .ran .. | .ended .. => before

/-- The functions whose bodies are active after a chronicle, innermost first. -/
def activeBodies (before : List Func) (chronicle : List Deed) : List Func :=
  chronicle.foldl Deed.active before

/-- At no point of a chronicle are more bodies active than may be, and a body that is called while as
many are active is trapped at once. -/
def Orderly (m : Module) : List Func → List Deed → Prop
  | active, [] => active.length ≤ maxDepth
  | active, deed :: rest => active.length ≤ maxDepth ∧
      (active.length = maxDepth → ∀ func args signature name body, deed = .called func args →
        m.funcs.get? func = some (.defined signature name body) →
          ∃ rest', rest = .ended func (.trapped func body.entry) :: rest') ∧
      Orderly m (deed.active active) rest

section Active

variable {m : Module} {depth : Nat} {result : Option Outcome} {active : List Func}
variable {chronicle before after : List Deed}

lemma activeBodies_append (active : List Func) (chronicle chronicle' : List Deed) :
    activeBodies active (chronicle ++ chronicle') =
      activeBodies (activeBodies active chronicle) chronicle' :=
  List.foldl_append

/-- What became active in a story has ceased to be. -/
lemma Story.activeBodies_eq (h : Story m depth result chronicle) (active : List Func) :
    activeBodies active chronicle = active := by
  induction h generalizing active with
  | nothing | started | ran | ends | asked | tooDeep => rfl
  | append _ _ ih ih' => rw [activeBodies_append, ih, ih']
  | resumes _ ih => exact ih active
  | @entered _ func _ _ _ outcome chronicle _ _ _ _ ih =>
    change activeBodies (func :: active) (chronicle ++ _) = active
    rw [activeBodies_append, ih]
    rfl

lemma Orderly.length_le (h : Orderly m active chronicle) : active.length ≤ maxDepth := by
  cases chronicle with
  | nil => exact h
  | cons => exact h.1

/-- A deed that calls nothing is orderly. -/
lemma Orderly.cons {deed : Deed} (hactive : active.length ≤ maxDepth)
    (hdeed : ∀ func args, deed ≠ .called func args) (h : Orderly m (deed.active active) chronicle) :
    Orderly m active (deed :: chronicle) :=
  ⟨hactive, fun _ func args _ _ _ heq => absurd heq (hdeed func args), h⟩

lemma Orderly.append (h : Orderly m active before)
    (h' : Orderly m (activeBodies active before) after) : Orderly m active (before ++ after) := by
  induction before generalizing active with
  | nil => exact h'
  | cons deed before ih =>
    obtain ⟨hactive, hcalled, hrest⟩ := h
    refine ⟨hactive, fun hfull func args signature name body heq hfunc => ?_, ih hrest h'⟩
    obtain ⟨rest, rfl⟩ := hcalled hfull func args signature name body heq hfunc
    exact ⟨rest ++ after, rfl⟩

lemma Orderly.of_append (h : Orderly m active (before ++ after)) :
    Orderly m (activeBodies active before) after := by
  induction before generalizing active with
  | nil => exact h
  | cons deed before ih => exact ih h.2.2

/-- The induction is on the story; `depth` counts the bodies that are active where it starts. -/
lemma Story.orderly (h : Story m depth result chronicle) (hactive : active.length = depth)
    (hdepth : depth ≤ maxDepth) : Orderly m active chronicle := by
  induction h generalizing active with
  | nothing | ends => exact hactive.trans_le hdepth
  | started | ran =>
    exact .cons (hactive.trans_le hdepth) (fun _ _ => nofun) (hactive.trans_le hdepth)
  | append h _ ih ih' =>
    refine (ih hactive hdepth).append ?_
    rw [h.activeBodies_eq]
    exact ih' hactive hdepth
  | resumes _ ih => exact ih hactive hdepth
  | asked hfunc args answer =>
    have hle := hactive.trans_le hdepth
    refine ⟨hle, fun _ func args signature name body heq hdefined => ?_,
      .cons hle (fun _ _ => nofun) (.cons hle (fun _ _ => nofun) hle)⟩
    cases heq
    rw [hfunc] at hdefined
    cases hdefined
  | tooDeep hfunc args hdeep =>
    have hle := hactive.trans_le hdepth
    refine ⟨hle, fun _ func args signature name body heq hdefined => ?_,
      .cons hle (fun _ _ => nofun) hle⟩
    cases heq
    rw [hfunc] at hdefined
    cases hdefined
    exact ⟨[], rfl⟩
  | @entered depth func _ _ _ outcome chronicle hfunc args hroom h ih =>
    have hle := hactive.trans_le hdepth
    refine ⟨hle, fun hfull => absurd hfull (by omega), .cons hle (fun _ _ => nofun) ?_⟩
    have hinner : (func :: active).length = depth + 1 := by rw [List.length_cons, hactive]
    refine (ih hinner hroom).append ?_
    rw [h.activeBodies_eq]
    exact .cons (hinner.trans_le hroom) (fun _ _ => nofun) (.cons hle (fun _ _ => nofun) hle)

end Active

/-! ### Calls one after another -/

/-- A call on a context, whose fuel may be set anew before. -/
structure Invocation where
  refuel : Option Nat
  func : Func
  args : List Constant

/-- What a call on a context came to. -/
structure Report where
  outcome : Outcome
  chronicle : List Deed
  /-- How much fuel the call used. -/
  used : Nat

/-- The budget of a new context with this fuel. -/
def Budget.renewed (budget : Budget) : Budget := { fuel := budget.fuel }

/-- Calls one after another, the fuel and the state of the host going from each to the next. The
context of a call is what `next` makes of the context that the call before left. -/
def Module.callAll (m : Module) (host : Host (Except Fault) σ) (next : Budget → Budget) :
    List Invocation → Budget → σ → Except Fault (List Report × Budget × σ)
  | [], budget, state => pure ([], budget, state)
  | ⟨refuel, func, args⟩ :: rest, budget, state => do
    let budget := ⟨refuel.getD budget.fuel, (next budget).depth⟩
    let (outcome, run) ← m.chronicledCall host func args ⟨budget, [], state⟩
    let (reports, last) ← callAll m host next rest run.budget run.host.2
    pure (⟨outcome, run.host.1, budget.fuel - run.budget.fuel⟩ :: reports, last)

/-- What a report says of the bodies that were active, if none were at first. -/
structure Report.Nested (m : Module) (report : Report) : Prop where
  /-- A unit of fuel was used for each block, and for nothing else. -/
  used : report.used = blocksRun report.chronicle
  bounded : ∀ before after, report.chronicle = before ++ after →
    (activeBodies [] before).length ≤ maxDepth
  /-- A body that is called while no more may be active is trapped before it does anything. -/
  tooDeep : ∀ before func args after, report.chronicle = before ++ .called func args :: after →
    (activeBodies [] before).length = maxDepth → ∀ signature name body,
      m.funcs.get? func = some (.defined signature name body) →
        ∃ after', after = .ended func (.trapped func body.entry) :: after'

namespace Module

variable {m : Module} {host : Host (Except Fault) σ}

lemma nested_of_chronicledCall {func : Func} {args : List Constant} {fuel : Nat} {state : σ}
    {outcome : Outcome} {run : Run (List Deed × σ)}
    (h : m.chronicledCall host func args ⟨⟨fuel, 0⟩, [], state⟩ = .ok (outcome, run)) :
    Report.Nested m ⟨outcome, run.host.1, fuel - run.budget.fuel⟩ := by
  obtain ⟨new, hchronicle, hstory, hfuel, -⟩ := unfolds_chronicledCall h
  obtain rfl : run.host.1 = new := hchronicle
  have hpoint {before after : List Deed} (heq : run.host.1 = before ++ after) :
      Orderly m (activeBodies [] before) after := by
    have horderly : Orderly m [] run.host.1 := hstory.orderly rfl (Nat.zero_le _)
    rw [heq] at horderly
    exact horderly.of_append
  refine ⟨?_, fun before after heq => (hpoint heq).length_le,
    fun before callee args' after heq hfull signature name body => ?_⟩
  · change fuel - run.budget.fuel = blocksRun run.host.1
    rw [show fuel = _ from hfuel]
    omega
  · exact (hpoint heq).2.1 hfull callee args' signature name body rfl

/-- Nothing is active between calls, so a context of its own makes no difference to a call. -/
lemma callAll_renewed (m : Module) (host : Host (Except Fault) σ) (invocations : List Invocation)
    (fuel : Nat) (state : σ) :
    m.callAll host id invocations ⟨fuel, 0⟩ state =
      m.callAll host Budget.renewed invocations ⟨fuel, 0⟩ state := by
  induction invocations generalizing fuel state with
  | nil => rfl
  | cons invocation rest ih =>
    obtain ⟨refuel, func, args⟩ := invocation
    rw [callAll, callAll]
    dsimp only [id, Budget.renewed]
    cases hcall : m.chronicledCall host func args ⟨⟨refuel.getD fuel, 0⟩, [], state⟩ with
    | error fault => rfl
    | ok result =>
      obtain ⟨outcome, ⟨left, depth⟩, state'⟩ := result
      obtain rfl : depth = 0 := (unfolds_chronicledCall hcall).depth_eq
      rw [ok_bind, ok_bind, ih]

/-- What holds after each call on a context holds after all of them. -/
lemma nested_of_callAll {invocations : List Invocation} {fuel : Nat} {state : σ}
    {reports : List Report} {budget : Budget} {state' : σ}
    (h : m.callAll host id invocations ⟨fuel, 0⟩ state = .ok (reports, budget, state')) :
    budget.depth = 0 ∧ reports.length = invocations.length ∧
      ∀ report ∈ reports, Report.Nested m report := by
  induction invocations generalizing fuel state reports with
  | nil =>
    cases h
    exact ⟨rfl, rfl, nofun⟩
  | cons invocation rest ih =>
    obtain ⟨refuel, func, args⟩ := invocation
    obtain ⟨⟨outcome, ⟨left, depth⟩, state''⟩, hcall, h⟩ := bind_eq_ok.1 h
    obtain ⟨⟨reports', last⟩, hrest, h⟩ := bind_eq_ok.1 h
    obtain rfl : depth = 0 := (unfolds_chronicledCall hcall).depth_eq
    cases h
    obtain ⟨hdepth, hlength, hreports⟩ := ih hrest
    refine ⟨hdepth, by rw [List.length_cons, List.length_cons, hlength], ?_⟩
    exact List.forall_mem_cons.2 ⟨nested_of_chronicledCall hcall, hreports⟩

/-- Calls on a context come to an end, unless the host itself faults. -/
lemma of_callAll_eq_error (hreadable : m.Readable) {invocations : List Invocation}
    (hfuncs : ∀ i ∈ invocations, i.func.index < m.funcs.size) {next : Budget → Budget}
    {budget : Budget} {state : σ} {fault : Fault}
    (h : m.callAll host next invocations budget state = .error fault) :
    ∃ name args state, host m name args state = .error fault := by
  induction invocations generalizing budget state with
  | nil => cases h
  | cons invocation rest ih =>
    obtain ⟨refuel, func, args⟩ := invocation
    obtain ⟨hfunc, hrest⟩ := List.forall_mem_cons.1 hfuncs
    rw [callAll] at h
    have htraces := m.traces_chronicledCall host func args
      ⟨⟨refuel.getD budget.fuel, (next budget).depth⟩, [], state⟩
    cases hcall : m.chronicledCall host func args
        ⟨⟨refuel.getD budget.fuel, (next budget).depth⟩, [], state⟩ with
    | error fault' =>
      rw [hcall] at h htraces
      cases h
      exact hreadable.of_call_eq_error hfunc htraces.symm
    | ok result =>
      rw [hcall, ok_bind] at h
      cases hall : m.callAll host next rest result.2.budget result.2.host.2 with
      | error fault' =>
        dsimp only at h
        rw [hall] at h
        cases h
        exact ih hrest hall
      | ok answers =>
        dsimp only at h
        rw [hall] at h
        cases h

end Module

/-- Calls on one context, in any number and whatever they come to, do what they do on a new context
each with the fuel that is left: they have the same outcomes, do the same, ask the host the same and
use the same fuel, and they leave no body active. In each call never more than `maxDepth` bodies are
active, and the call of a body while as many are comes to nothing but a trap in its entry block. -/
theorem callAll_clean {text : String} {m : Module}
    (hread : (Module.ofText text : Except Fault (Except SourceError Module)) = .ok (.ok m))
    (host : Host (Except Fault) σ) {invocations : List Invocation}
    (hfuncs : ∀ i ∈ invocations, i.func.index < m.funcs.size) (fuel : Nat) (state : σ) :
    (∀ func args run, Traces (m.chronicledCall host func args run) (m.call host func args run.bare)) ∧
    (∀ fault, m.callAll host id invocations ⟨fuel, 0⟩ state = .error fault →
      ∃ name args state, host m name args state = .error fault) ∧
    m.callAll host id invocations ⟨fuel, 0⟩ state =
      m.callAll host Budget.renewed invocations ⟨fuel, 0⟩ state ∧
    ∀ reports budget state',
      m.callAll host id invocations ⟨fuel, 0⟩ state = .ok (reports, budget, state') →
        budget.depth = 0 ∧ reports.length = invocations.length ∧
          ∀ report ∈ reports, Report.Nested m report := by
  obtain ⟨located, tree, -, hparse, hresolve⟩ := ofText_eq_ok.1 hread
  have hreadable := (Source.resolve_replay (Source.sound_of_parse hparse) hresolve).1
  exact ⟨m.traces_chronicledCall host,
    fun _ h => Module.of_callAll_eq_error hreadable hfuncs h,
    m.callAll_renewed host invocations fuel state, fun _ _ _ h => Module.nested_of_callAll h⟩

/-- A function that calls an imported one, and a function that calls itself. -/
def relayText : String :=
  "module \x7b
    sig0 = () -> ()
    func0 = import \"missing\" : sig0
    func1 = func \"relay\" : sig0 \x7b
      block0():
        v0 = call func0()
        return
    \x7d
    func2 = func \"forever\" : sig0 \x7b
      block0():
        v0 = call func2()
        return
    \x7d
  \x7d"

/-- The module of that text. -/
def relay : Module :=
  let calling (callee : Func) : Body :=
    { entry := ⟨0⟩
      blocks := ⟨#[{ insts := [⟨0⟩], terminator := .ret [] }]⟩
      values := ⟨#[.inst (.call callee) [] []]⟩
      home := ⟨#[⟨0⟩]⟩ }
  { signatures := ⟨#[⟨[], []⟩]⟩
    funcs := ⟨#[.imported ⟨0⟩ "missing", .defined ⟨0⟩ "relay" (calling ⟨0⟩),
      .defined ⟨0⟩ "forever" (calling ⟨2⟩)]⟩ }

set_option maxRecDepth 4000 in
lemma ofText_relayText :
    (Module.ofText relayText : Except Fault (Except SourceError Module)) = .ok (.ok relay) :=
  (ofText_ofList _).trans (by decide +kernel)

/-- One call stops for want of fuel three bodies deep, and one because the host refuses. -/
def relayInvocations : List Invocation := [⟨some 3, ⟨2⟩, []⟩, ⟨some 1, ⟨1⟩, []⟩]

lemma exists_callAll_relay : ∃ reports budget state,
    relay.callAll Host.tagRecorder id relayInvocations ⟨9, 0⟩ #[] = .ok (reports, budget, state) :=
  ⟨_, _, _, rfl⟩

theorem callAll_clean_relay : ∃ reports budget state,
    (Module.ofText relayText : Except Fault (Except SourceError Module)) = .ok (.ok relay) ∧
    (∀ i ∈ relayInvocations, i.func.index < relay.funcs.size) ∧
    relay.callAll Host.tagRecorder id relayInvocations ⟨9, 0⟩ #[] = .ok (reports, budget, state) ∧
    relay.callAll Host.tagRecorder Budget.renewed relayInvocations ⟨9, 0⟩ #[] =
      .ok (reports, budget, state) ∧
    budget.depth = 0 ∧ reports.length = 2 ∧ ∀ report ∈ reports, Report.Nested relay report := by
  obtain ⟨reports, budget, state, hall⟩ := exists_callAll_relay
  have hfuncs : ∀ i ∈ relayInvocations, i.func.index < relay.funcs.size := by decide
  obtain ⟨-, -, hrenewed, hclean⟩ := callAll_clean ofText_relayText Host.tagRecorder hfuncs 9 #[]
  exact ⟨reports, budget, state, ofText_relayText, hfuncs, hall, hrenewed ▸ hall,
    hclean reports budget state hall⟩

end EntryTrace
