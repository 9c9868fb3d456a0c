import EntryTrace.Proofs.Journaling

/-!
# Calls with a journal

A call prints each body it enters, if the journal goes down to traces. So with a journal it ends as
without one, with the same outcome, budget and host state, or it faults because it entered a body that
cannot be printed. The host may keep notes as well, as long as they do not change its answers.
-/

namespace EntryTrace

namespace Recorded

variable {threshold : Option Level} {spoilt : Prop}

/-! ### Frames -/

section Frames

variable (frame : Frame) (body : Body)

lemma mirrors_read (value : Value) : Mirrors (frame.read body value) (frame.read body value) := by
  refine (mirrors_get _ _).bind fun found _ => ?_
  cases found with
  | strRef str => exact mirrors_pure _
  | param | inst | undefined =>
    dsimp only
    split
    · exact mirrors_pure _
    · exact (mirrors_note _ _).bind fun _ _ => mirrors_pure _

lemma mirrors_readAll (values : List Value) :
    Mirrors (frame.readAll body values) (frame.readAll body values) := by
  induction values with
  | nil => exact mirrors_pure _
  | cons value rest ih =>
    refine (mirrors_read frame body value).bind fun c _ => ?_
    cases c with
    | none => exact mirrors_pure _
    | some c =>
      refine ih.bind fun cs _ => ?_
      cases cs with
      | none => exact mirrors_pure _
      | some cs => exact mirrors_pure _

lemma mirrors_follow (target : Target) :
    Mirrors (frame.follow body target) (frame.follow body target) := by
  refine (mirrors_readAll frame body target.args).bind fun args _ => ?_
  cases args with
  | none => exact mirrors_pure _
  | some args =>
    exact (mirrors_note _ _).bind fun _ _ => (mirrors_get _ _).bind fun _ _ => mirrors_pure _

lemma mirrors_leave (terminator : Terminator) :
    Mirrors (frame.leave body terminator) (frame.leave body terminator) := by
  cases terminator with
  | missing | unreachable => exact mirrors_pure _
  | jump target => exact mirrors_follow frame body target
  | branch cond onTrue onFalse =>
    refine (mirrors_read frame body cond).bind fun c _ => ?_
    cases c with
    | none => exact mirrors_pure _
    | some c => exact mirrors_follow frame body _
  | ret values =>
    refine (mirrors_readAll frame body values).bind fun cs _ => ?_
    cases cs with
    | none => exact mirrors_pure _
    | some cs => exact (mirrors_note _ _).bind fun _ _ => mirrors_pure _

lemma mirrors_noteArgs (values : List Value) (cs : List Constant) :
    Mirrors (Run.noteArgs values cs) (Run.noteArgs values cs) := by
  induction values generalizing cs with
  | nil => exact mirrors_pure _
  | cons value values ih =>
    cases cs with
    | nil => exact mirrors_pure _
    | cons c cs => exact (mirrors_note _ _).bind fun _ _ => ih cs

end Frames

/-! ### Runs -/

section Runs

variable {σ : Type} {m : Module} {host : Host Recorded σ} {host' : Host (Except Fault) σ}

/-- A host that keeps notes answers like one that keeps none. -/
def Hosts (m : Module) (host : Host Recorded σ) (host' : Host (Except Fault) σ) : Prop :=
  ∀ name args state, Mirrors (host m name args state) (host' m name args state)

lemma hosts_tagRecorder : Hosts m Host.tagRecorder Host.tagRecorder := by
  intro name args tags
  refine mirrors_ite ?_ (mirrors_pure _)
  split
  · refine Mirrors.bind ?_ fun tag _ => (mirrors_note _ _).bind fun _ _ => mirrors_pure _
    exact mirrors_get _ _
  · exact mirrors_pure _

/-- Remembering the calls that a host answers does not change how it answers them. -/
lemma Hosts.recording (h : Hosts m host host') : Hosts m (Host.recording host) (Host.recording host') :=
  fun name args (_, state) => (h name args state).bind fun (_, _) _ => mirrors_pure _

/-- The notes go down to traces, and the module has a body that cannot be printed. -/
def SpoilsCalls (threshold : Option Level) (m : Module) : Prop :=
  threshold = some .trace ∧ ¬ m.Printable

lemma follows_enter (hhost : Hosts m host host')
    {runFrame : Body → Frame → Run σ → Recorded (Outcome × Run σ)}
    {runFrame' : Body → Frame → Run σ → Except Fault (Outcome × Run σ)}
    (hframe : ∀ body frame run, Follows threshold (SpoilsCalls threshold m)
      (runFrame body frame run) (runFrame' body frame run))
    (func : Func) (args : List Constant) (run : Run σ) :
    Follows threshold (SpoilsCalls threshold m) (Run.enter host m runFrame func args run)
      (Run.enter host' m runFrame' func args run) := by
  refine (mirrors_get _ _).follows.bind fun decl hdecl => ?_
  cases decl with
  | imported signature name =>
    refine (hhost name args run.host).follows.bind fun (answer, state) _ => ?_
    cases answer with
    | ok values => exact follows_pure _
    | error message => exact follows_pure _
  | defined signature name body =>
    dsimp only
    split
    · exact follows_pure _
    · have hpage (htrace : threshold = some .trace) :
          (∃ s, (do pure ("Interp: entering func " ++ func.text ++ ":\n" ++
            (← body.render true "| ") ++ "\n") : Except Fault String) = .ok s) ∨
          SpoilsCalls threshold m := by
        by_cases hbody : body.Printable
        · obtain ⟨text, htext⟩ := (Body.exists_render_iff true "| ").2 hbody
          exact .inl ⟨_, by rw [htext]; rfl⟩
        · have hmem := Table.mem_of_get? (Table.get_eq_ok.1 hdecl)
          exact .inr ⟨htrace, fun hall => hbody (hall _ hmem body rfl)⟩
      refine (follows_notePrinted hpage).bind fun _ _ => ?_
      refine (mirrors_note _ _).follows.bind fun _ _ => ?_
      refine (mirrors_get _ _).follows.bind fun entry _ => ?_
      refine (mirrors_noteArgs _ _).follows.bind fun _ _ => ?_
      exact (hframe _ _ _).bind fun _ _ => follows_pure _

lemma follows_evaluate {call : Func → List Constant → Run σ → Recorded (Outcome × Run σ)}
    {call' : Func → List Constant → Run σ → Except Fault (Outcome × Run σ)}
    (hcall : ∀ callee args run, Follows threshold spoilt (call callee args run)
      (call' callee args run))
    (body : Body) (inst : Value) (frame : Frame) (run : Run σ) :
    Follows threshold spoilt (Run.evaluate call body inst frame run)
      (Run.evaluate call' body inst frame run) := by
  refine (mirrors_get _ _).follows.bind fun found _ => ?_
  cases found with
  | param | strRef | undefined => exact (mirrors_fault _).follows
  | inst op args types =>
    refine (mirrors_readAll frame body args).follows.bind fun cs _ => ?_
    cases cs with
    | none => exact follows_pure _
    | some cs =>
      cases op with
      | nop | const32 | const64 | binary => exact follows_pure _
      | call callee =>
        refine (hcall callee cs run).bind fun (outcome, run') _ => ?_
        cases outcome <;> exact follows_pure _

lemma follows_instructions {call : Func → List Constant → Run σ → Recorded (Outcome × Run σ)}
    {call' : Func → List Constant → Run σ → Except Fault (Outcome × Run σ)}
    (hcall : ∀ callee args run, Follows threshold spoilt (call callee args run)
      (call' callee args run))
    (body : Body) (insts : List Value) (frame : Frame) (run : Run σ) :
    Follows threshold spoilt (Run.instructions call body insts frame run)
      (Run.instructions call' body insts frame run) := by
  induction insts generalizing frame run with
  | nil => exact follows_pure _
  | cons inst rest ih =>
    refine (mirrors_note _ _).follows.bind fun _ _ => ?_
    refine (follows_evaluate hcall body inst frame run).bind fun (result, run') _ => ?_
    cases result with
    | error outcome => exact follows_pure _
    | ok result => exact (mirrors_note _ _).follows.bind fun _ _ => ih _ _

/-- However many blocks are run: each runs alike, and so do the calls that it makes. -/
lemma follows_frame (hhost : Hosts m host host') (bound : Nat) (body : Body) (frame : Frame)
    (run : Run σ) :
    Follows threshold (SpoilsCalls threshold m) (Run.frame host m bound body frame run)
      (Run.frame host' m bound body frame run) := by
  induction bound generalizing body frame run with
  | zero => exact follows_pure _
  | succ bound ih =>
    rw [Run.frame, Run.frame]
    split
    · exact follows_pure _
    · refine (mirrors_note _ _).follows.bind fun _ _ => ?_
      refine (mirrors_get _ _).follows.bind fun data _ => ?_
      refine (follows_instructions (follows_enter hhost ih) body data.insts frame _).bind fun p _ => ?_
      obtain ⟨result, run'⟩ := p
      cases result with
      | error outcome => exact follows_pure _
      | ok frame' =>
        refine (mirrors_leave frame' body data.terminator).follows.bind fun next _ => ?_
        cases next with
        | error outcome => exact follows_pure _
        | ok frame'' => exact ih body frame'' run'

lemma follows_call (hhost : Hosts m host host') (func : Func) (args : List Constant)
    (run : Run σ) : Follows threshold (SpoilsCalls threshold m) (m.call host func args run)
      (m.call host' func args run) :=
  follows_enter hhost (follows_frame hhost run.budget.fuel) func args run

/-- A call for a trace faults where it enters a body that cannot be printed. -/
lemma faults_call (htrace : threshold = some .trace) {func : Func} {signature : Signature}
    {name : String} {body : Body} (hfunc : m.funcs.get? func = some (.defined signature name body))
    (hbody : ¬ body.Printable) {run : Run σ} (hdepth : run.budget.depth < maxDepth)
    (args : List Constant) : Faults threshold (m.call host func args run) := by
  have hget : Mirrors (m.funcs.get func) (.ok (.defined signature name body)) :=
    Table.get_eq_ok.2 hfunc ▸ mirrors_get _ _
  refine hget.bind_faults ?_
  dsimp only
  rw [if_neg (Nat.not_le.2 hdepth)]
  refine (faults_notePrinted htrace fun ⟨page, hpage⟩ => hbody ?_).bind _
  obtain ⟨text, htext, -⟩ := bind_eq_ok.1 hpage
  exact (Body.exists_render_iff _ _).1 ⟨text, htext⟩

/-! ### All that a journal changes -/

lemma SpoilsTagging.spoilsCalls (h : SpoilsTagging threshold m) : SpoilsCalls threshold m := by
  obtain ⟨htrace, m', htag, hnot⟩ := h
  exact ⟨htrace, fun hm => hnot (hm.tagHelpers htag)⟩

/-- A journal goes unnoticed, whatever it holds already, by tagging, by any number of passes that tag,
and by calls with any arguments and any budget, unless it goes down to traces and the module has a body
that cannot be printed. Even then tagging and passes notice it only if the module still has such a body
when it is tagged, and then they fault. A call notices it only by a fault, and does fault if the called
function has such a body and calls are not nested too deeply. -/
theorem unnoticed_journal (hhost : Hosts m host host') :
    (¬ SpoilsCalls threshold m →
      Unnoticed threshold (tagHelpers m) (tagHelpers m) ∧
      (∀ k, Unnoticed threshold (Pipeline.run ⟨List.replicate k tagPass⟩ m)
        (Pipeline.run ⟨List.replicate k tagPass⟩ m)) ∧
      ∀ func args run, Unnoticed threshold (m.call host func args run)
        (m.call host' func args run)) ∧
    (¬ SpoilsTagging threshold m →
      Unnoticed threshold (tagHelpers m) (tagHelpers m) ∧
      ∀ k, Unnoticed threshold (Pipeline.run ⟨List.replicate k tagPass⟩ m)
        (Pipeline.run ⟨List.replicate k tagPass⟩ m)) ∧
    (SpoilsTagging threshold m → Faults threshold (tagHelpers m : Recorded Module) ∧
      ∀ k, Faults threshold (Pipeline.run ⟨List.replicate (k + 1) tagPass⟩ m : Recorded _)) ∧
    (∀ func args run records,
      ((m.call host func args run).after threshold records).1 = m.call host' func args run ∨
      ∃ fault, ((m.call host func args run).after threshold records).1 = .error fault) ∧
    ∀ func signature name body, threshold = some .trace →
      m.funcs.get? func = some (.defined signature name body) → ¬ body.Printable →
      ∀ args run, run.budget.depth < maxDepth → Faults threshold (m.call host func args run) := by
  have htag (h : ¬ SpoilsTagging threshold m) :
      Unnoticed threshold (tagHelpers m) (tagHelpers m) ∧
      ∀ k, Unnoticed threshold (Pipeline.run ⟨List.replicate k tagPass⟩ m)
        (Pipeline.run ⟨List.replicate k tagPass⟩ m) :=
    ⟨follows_false.1 (follows_tagHelpers h), fun k => follows_false.1 (follows_runPasses h k)⟩
  refine ⟨fun h => ?_, htag, fun h => ⟨faults_tagHelpers h, faults_runPasses h⟩, ?_, ?_⟩
  · obtain ⟨hpass, hpasses⟩ := htag fun hspoilt => h hspoilt.spoilsCalls
    exact ⟨hpass, hpasses, fun func args run => (follows_call hhost func args run).unnoticed h⟩
  · exact fun func args run records => (follows_call hhost func args run records).imp_right And.right
  · exact fun func signature name body htrace hfunc hbody args run hdepth =>
      faults_call htrace hfunc hbody hdepth args

end Runs

end Recorded

open Recorded

/-- A body whose second block, which nothing leads to, lists an instruction that was never added. -/
def halfBuiltBody : Body where
  entry := ⟨0⟩
  blocks := .ofList [{ terminator := .ret [] }, { insts := [⟨0⟩] }]

/-- A module whose only function returns before it gets to what is missing. -/
def halfBuilt : Module where
  signatures := .ofList [⟨[], []⟩]
  funcs := .ofList [.defined ⟨0⟩ "f" halfBuiltBody]

lemma not_printable_halfBuiltBody : ¬ halfBuiltBody.Printable := by
  intro h
  obtain ⟨_, _, _, hget⟩ := h.insts _ (List.mem_cons_of_mem _ List.mem_cons_self) _ List.mem_cons_self
  cases hget

lemma exists_tagHelpers_halfBuilt :
    ∃ m', (tagHelpers halfBuilt : Except Fault _) = .ok m' ∧ ¬ m'.Printable := by
  have hprint : ((tagHelpers halfBuilt : Except Fault Module).map fun m' => m'.render false) =
      .ok (.error .outsideTable) := by decide +kernel
  obtain ⟨m', htag, hrender⟩ := map_eq_ok.1 hprint
  refine ⟨m', htag, fun h => ?_⟩
  obtain ⟨page, hpage⟩ := (Module.exists_render_iff false).2 h
  rw [hrender] at hpage
  cases hpage

/-- Down to other levels than traces a journal of the half built module goes unnoticed. For a trace
tagging it and calling its function fault. -/
theorem unnoticed_journal_halfBuilt :
    Unnoticed (some .debug) (tagHelpers halfBuilt) (tagHelpers halfBuilt) ∧
    Faults (some .trace) (tagHelpers halfBuilt : Recorded Module) ∧
    ∀ args run, run.budget.depth < maxDepth → Faults (some .trace)
      (halfBuilt.call (Host.recording Host.tagRecorder) ⟨0⟩ args run) := by
  have hhost : Hosts halfBuilt (Host.recording Host.tagRecorder)
      (Host.recording Host.tagRecorder) := hosts_tagRecorder.recording
  obtain ⟨hdebug, -⟩ := @unnoticed_journal (some .debug) _ _ _ _ hhost
  obtain ⟨-, -, htrace, -, hcall⟩ := @unnoticed_journal (some .trace) _ _ _ _ hhost
  exact ⟨(hdebug fun h => nomatch h.1).1, (htrace ⟨rfl, exists_tagHelpers_halfBuilt⟩).1,
    fun args run => hcall _ _ _ _ rfl rfl not_printable_halfBuiltBody args run⟩

/-- Tagging the half built module and calling its function end well without a journal, and fault with
one of traces. -/
theorem noticed_journal_halfBuilt :
    (tagHelpers halfBuilt : Except Fault Module).map (fun _ => ()) = .ok () ∧
    ((tagHelpers halfBuilt : Recorded Module).after (some .trace) #[]).1.map (fun _ => ()) =
      .error .outsideTable ∧
    (halfBuilt.call Host.tagRecorder ⟨0⟩ [] ⟨{}, #[]⟩ : Except Fault _).map Prod.fst =
      .ok (.returned []) ∧
    ((halfBuilt.call Host.tagRecorder ⟨0⟩ [] ⟨{}, #[]⟩ : Recorded _).after (some .trace) #[]).1.map
      Prod.fst = .error .outsideTable := by
  decide +kernel

end EntryTrace
