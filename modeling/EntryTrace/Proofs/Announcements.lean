import EntryTrace.Proofs.TaggedRuns

/-!
# When helpers report themselves

In a run of a tagged module, the instructions that tagging added report a helper each time its entry
block is started, in that order, and at no other time. A call of the helper starts its entry block
once, and so does every branch back to it.
-/

namespace EntryTrace

/-! ### What a trace tells -/

/-- The tag that a call hands over, if it is a call that hands over one. -/
def Event.tag? (m' : Module) : Event → Option String
  | .asked _ ⟨name, [.ptr str]⟩ _ => if name = tagCallee then m'.strings.get? str else none
  | _ => none

/-- The tag of the helper whose entry block is started, be it by a call or by a branch. -/
def Event.entered? (m : Module) : Event → Option String
  | .started func block _ =>
    match m.funcs.get? func with
    | some (.defined _ name body) =>
      if isHelperName name ∧ block = body.entry then some (tagFor name) else none
    | _ => none
  | .asked .. => none

/-- Was a block started by a call of its function? -/
def Event.isCall : Event → Bool
  | .started _ _ called => called
  | .asked .. => false

/-- The tags that the inserted instructions hand over, in order. -/
def insertedTags (m m' : Module) (events : List Event) : List String :=
  (events.filter (Event.isInserted m)).filterMap (Event.tag? m')

/-- The tags of the helpers whose entry blocks are started, in order. -/
def entryTags (m : Module) (events : List Event) : List String :=
  events.filterMap (Event.entered? m)

/-- The tags of the helpers that are called, in order. -/
def activationTags (m : Module) (events : List Event) : List String :=
  (events.filter Event.isCall).filterMap (Event.entered? m)

/-- The start of a block by a branch has a branch to the block. -/
def Event.HasBranch (m : Module) : Event → Prop
  | .started func block false => ∃ signature name body, m.funcs.get? func = some (.defined signature name body) ∧
      ∃ data ∈ body.blocks.toList, ∃ target ∈ data.terminator.targets, target.block = block
  | .started _ _ true | .asked .. => True

/-- No helper has a branch to its entry block. -/
def Module.NoBranchToEntry (m : Module) : Prop :=
  ∀ decl ∈ m.funcs.toList, decl.isHelper = true → ∀ body ∈ decl.body?,
    ∀ data ∈ body.blocks.toList, ∀ target ∈ data.terminator.targets, target.block ≠ body.entry

/-- What is added to a trace: as many reports as entries, and each branch where there is one. -/
structure Balanced (m m' : Module) (new : List Event) : Prop where
  tags : insertedTags m m' new = entryTags m new
  branches : ∀ event ∈ new, event.HasBranch m

/-- A run went on from another one, its additions to the trace being balanced. -/
def Run.Continues (m m' : Module) (run run' : Run (List Event × Array String)) : Prop :=
  ∃ new, run'.host.1 = run.host.1 ++ new ∧ Balanced m m' new ∧
    run'.host.2.toList = run.host.2.toList ++ new.filterMap (Event.tag? m')

section Balance

variable {m m' : Module} {new new' : List Event} {event : Event}

lemma balanced_nil : Balanced m m' [] := ⟨rfl, by simp⟩

lemma Balanced.append (h : Balanced m m' new) (h' : Balanced m m' new') :
    Balanced m m' (new ++ new') where
  tags := by
    have htags := h.tags
    have htags' := h'.tags
    simp only [insertedTags, entryTags] at htags htags'
    simp only [insertedTags, entryTags, List.filter_append, List.filterMap_append, htags, htags']
  branches event hevent := by
    rcases List.mem_append.1 hevent with hevent | hevent
    · exact h.branches event hevent
    · exact h'.branches event hevent

/-- An event that neither starts an entry block nor comes from an inserted instruction. -/
lemma balanced_singleton (hinserted : event.isInserted m = false) (hentered : event.entered? m = none)
    (hbranch : event.HasBranch m) : Balanced m m' [event] where
  tags := by simp [insertedTags, entryTags, hinserted, hentered]
  branches := by simpa using hbranch

end Balance

namespace Run

variable {m m' : Module} {run run' run'' : Run (List Event × Array String)}

lemma Continues.refl (run : Run (List Event × Array String)) : Continues m m' run run :=
  ⟨[], by simp, balanced_nil, by simp⟩

lemma Continues.trans (h : Continues m m' run run') (h' : Continues m m' run' run'') :
    Continues m m' run run'' := by
  obtain ⟨new, hevents, hbalanced, htags⟩ := h
  obtain ⟨new', hevents', hbalanced', htags'⟩ := h'
  refine ⟨new ++ new', ?_, hbalanced.append hbalanced', ?_⟩
  · rw [hevents', hevents, List.append_assoc]
  · rw [htags', htags, List.filterMap_append, List.append_assoc]

lemma tagRecorder_effect {name : String} {args : List Constant} {tags tags' : Array String}
    {answer : Except String (List Constant)}
    (h : (Host.tagRecorder m' name args tags : Except Fault _) = .ok (answer, tags')) (caller : Caller) :
    tags'.toList = tags.toList ++ (Event.tag? m' (.asked caller ⟨name, args⟩ answer)).toList := by
  by_cases hshape : name = tagCallee ∧ ∃ str, args = [.ptr str]
  · obtain ⟨rfl, str, rfl⟩ := hshape
    cases hget : m'.strings.get? str with
    | none => simp [Host.tagRecorder, Module.string, Table.get, orFault, hget, bind_eq_ok] at h
    | some tag =>
      rw [Host.tagRecorder_tag hget] at h
      cases h
      simp [Event.tag?, hget]
  · obtain ⟨message, hmessage⟩ := Host.tagRecorder_other hshape
    rw [hmessage] at h
    cases h
    have hnone : Event.tag? m' (.asked caller ⟨name, args⟩ (.error message)) = none := by
      unfold Event.tag?
      split
      · rename_i _ found str _ heq
        cases heq
        exact if_neg fun hname => hshape ⟨hname, str, rfl⟩
      · rfl
    simp [hnone]

variable {func : Func} {name : String} {body body' : Body} {frame frame' : Frame}

lemma continues_enter (htagged : m.TaggedTo m') {caller : Caller}
    (hcaller : ∀ call answer, Event.isInserted m (.asked caller call answer) = false)
    {runFrame : Body → Frame → Run (List Event × Array String) →
      Except Fault (Outcome × Run (List Event × Array String))}
    (hframes : ∀ {signature name body body' frame outcome run run'},
      m.funcs.get? frame.func = some (.defined signature name body) →
      m.Counterpart m' frame.func name body body' → frame.block = body.entry →
      runFrame body' frame run = .ok (outcome, run') → Continues m m' run run')
    {func : Func} {args : List Constant} {outcome : Outcome}
    (h : enter (Host.tagRecorder.logging caller) m' runFrame func args run = .ok (outcome, run')) :
    Continues m m' run run' := by
  obtain ⟨decl', hdecl', h⟩ := bind_eq_ok.1 h
  rw [Table.get_eq_ok] at hdecl'
  cases decl' with
  | imported signature name =>
    obtain ⟨⟨answer, events, tags⟩, hlog, h⟩ := bind_eq_ok.1 h
    obtain ⟨⟨answer', tags'⟩, hanswer, hrest⟩ := bind_eq_ok.1 hlog
    cases hrest
    have hcontinues : Continues m m' run ⟨run.budget, run.host.1 ++ [_], tags⟩ :=
      ⟨[.asked caller ⟨name, args⟩ answer], rfl,
        balanced_singleton (hcaller _ _) rfl trivial, by
          rw [tagRecorder_effect hanswer caller, List.filterMap_cons, List.filterMap_nil]
          cases Event.tag? m' (.asked caller ⟨name, args⟩ answer) <;> rfl⟩
    cases answer with
    | ok values =>
      cases h
      exact hcontinues
    | error message =>
      cases h
      exact hcontinues
  | defined signature name body' =>
    obtain ⟨body, hdecl, hcounterpart⟩ := htagged.exists_counterpart hdecl'
    dsimp only at h
    split at h
    · cases h
      exact .refl run
    · simp only [notePrinted_silent, note_silent, ok_bind, noteArgs_silent, bind_eq_ok] at h
      obtain ⟨entry, -, ⟨outcome', run₁⟩, hframe, h⟩ := h
      cases h
      obtain ⟨constants, hwritten⟩ :=
        Frame.exists_writeAll_eq { func, block := body'.entry } entry.paramValues args
      rw [hwritten] at hframe
      have hcontinues : Continues m m' ⟨⟨_, _⟩, run.host⟩ run₁ :=
        hframes hdecl hcounterpart hcounterpart.entry hframe
      exact hcontinues

lemma continues_evaluate {call : Func → List Constant → Run (List Event × Array String) →
      Except Fault (Outcome × Run (List Event × Array String))}
    (hcall : ∀ {callee args outcome run'}, call callee args run = .ok (outcome, run') →
      Continues m m' run run') {inst : Value} {result : Except Outcome (Option Constant)}
    (h : evaluate call body' inst frame run = .ok (result, run')) : Continues m m' run run' := by
  obtain ⟨d, -, h⟩ := bind_eq_ok.1 h
  cases d with
  | inst op args types =>
    obtain ⟨constants, -, h⟩ := bind_eq_ok.1 h
    cases constants with
    | none =>
      cases h
      exact .refl run
    | some constants =>
      cases op with
      | call callee =>
        obtain ⟨⟨outcome, run₁⟩, hcalled, h⟩ := bind_eq_ok.1 h
        have hcontinues := hcall hcalled
        cases outcome <;> cases h <;> exact hcontinues
      | nop =>
        cases h
        exact .refl run
      | const32 =>
        cases h
        exact .refl run
      | const64 =>
        cases h
        exact .refl run
      | binary =>
        cases h
        exact .refl run
  | param => cases h
  | strRef => cases h
  | undefined => cases h

lemma continues_instructions {call : Caller → Func → List Constant → Run (List Event × Array String) →
      Except Fault (Outcome × Run (List Event × Array String))}
    (hcall : ∀ {inst callee args outcome run run'}, inst.index < body.values.size →
      call (some (func, inst)) callee args run = .ok (outcome, run') → Continues m m' run run')
    {insts : List Value} (hinsts : ∀ v ∈ insts, v.index < body.values.size)
    (hframe : frame.func = func) {result : Except Outcome Frame}
    (h : tracedInstructions call body' insts frame run = .ok (result, run')) :
    Continues m m' run run' ∧ ∀ frame', result = .ok frame' →
      frame'.func = frame.func ∧ frame'.block = frame.block := by
  induction insts generalizing frame run with
  | nil =>
    cases h
    refine ⟨.refl _, ?_⟩
    rintro _ ⟨⟩
    exact ⟨rfl, rfl⟩
  | cons inst rest ih =>
    rw [tracedInstructions, hframe] at h
    obtain ⟨⟨evaluated, run₁⟩, heval, h⟩ := bind_eq_ok.1 h
    have hfirst := continues_evaluate (hcall (hinsts inst List.mem_cons_self)) heval
    cases evaluated with
    | error outcome =>
      cases h
      exact ⟨hfirst, by simp⟩
    | ok evaluated =>
      obtain ⟨hrest, hresult⟩ := ih (fun v hv => hinsts v (List.mem_cons_of_mem _ hv))
        ((frame.func_keep inst evaluated).trans hframe) h
      simp only [Frame.func_keep, Frame.block_keep] at hresult
      exact ⟨hfirst.trans hrest, hresult⟩

lemma entered?_started {signature : Signature}
    (hdecl : m.funcs.get? func = some (.defined signature name body)) (block : Block) (called : Bool) :
    Event.entered? m (.started func block called) =
      if block = body.entry then (m.announcement? func).map fun _ => tagFor name else none := by
  simp only [Event.entered?, Module.announcement?, hdecl]
  by_cases hname : isHelperName name = true
  · simp [hname]
  · simp [hname]

lemma continues_start {event : Event} (hinserted : event.isInserted m = false)
    (hentered : event.entered? m = none) (hbranch : event.HasBranch m) (htag : event.tag? m' = none) :
    Continues m m' run (run.burn.log event) :=
  ⟨[event], rfl, balanced_singleton hinserted hentered hbranch, by
    rw [List.filterMap_cons, htag, List.filterMap_nil, List.append_nil]
    rfl⟩

/-- The start of the entry block of a helper, together with the report that follows at once. -/
lemma continues_announcement (htagged : m.TaggedTo m') {signature : Signature}
    (hdecl : m.funcs.get? func = some (.defined signature name body))
    (hcounterpart : m.Counterpart m' func name body body') {inst : Value}
    (hinst : inst ∈ m.announcement? func) {called : Bool}
    (hbranch : Event.HasBranch m (.started func body.entry called))
    (runFrame : Body → Frame → Run (List Event × Array String) →
      Except Fault (Outcome × Run (List Event × Array String))) (frame : Frame) :
    ∃ result run₁, evaluate (enter (Host.tagRecorder.logging (some (func, inst))) m' runFrame) body'
        inst frame (run.burn.log (.started func body.entry called)) = .ok (.ok result, run₁) ∧
      Continues m m' run run₁ := by
  obtain ⟨tag, -, hstring, heval⟩ := hcounterpart.evaluate_announcement htagged hinst
  obtain ⟨values, hrecorded⟩ : ∃ values, (Host.tagRecorder m' tagCallee [.ptr tag]
      (run.burn.log (.started func body.entry called)).host.2 : Except Fault _) =
        .ok (.ok values, run.host.2.push (tagFor name)) := ⟨_, Host.tagRecorder_tag hstring _⟩
  have hentered : Event.entered? m (.started func body.entry called) = some (tagFor name) := by
    rw [entered?_started hdecl, if_pos rfl, Option.mem_def.1 hinst, Option.map_some]
  refine ⟨_, _, heval hrecorded (some (func, inst)) runFrame frame, ?_⟩
  refine ⟨[.started func body.entry called, .asked (some (func, inst)) ⟨tagCallee, [.ptr tag]⟩ (.ok values)],
    ?_, ⟨?_, ?_⟩, ?_⟩
  · exact List.append_assoc _ _ _
  · have hinserted := Event.isInserted_asked hinst ⟨tagCallee, [.ptr tag]⟩ (.ok values)
    have hstarted : Event.isInserted m (.started func body.entry called) = false := rfl
    have hasked : Event.entered? m (.asked (some (func, inst)) ⟨tagCallee, [.ptr tag]⟩ (.ok values)) =
        none := rfl
    simp [insertedTags, entryTags, hentered, hinserted, hstarted, hasked, Event.tag?, hstring]
  · simpa [Event.HasBranch] using hbranch
  · have hnone : Event.tag? m' (.started func body.entry called) = none := rfl
    have htag : Event.tag? m' (.asked (some (func, inst)) ⟨tagCallee, [.ptr tag]⟩ (.ok values)) =
        some (tagFor name) := hstring
    rw [List.filterMap_cons_none hnone, List.filterMap_cons_some htag]
    exact Array.toList_push

/-- One block of a function: its start, and the instructions in it. -/
lemma continues_block (htagged : m.TaggedTo m') {signature : Signature}
    (hdecl : m.funcs.get? frame.func = some (.defined signature name body))
    (hcounterpart : m.Counterpart m' frame.func name body body') {data : BlockData}
    (hdata : data.Closed body.values body.blocks.size) {called : Bool}
    (hbranch : Event.HasBranch m (.started frame.func frame.block called))
    {runFrame : Body → Frame → Run (List Event × Array String) →
      Except Fault (Outcome × Run (List Event × Array String))}
    (hframes : ∀ {signature name body body' frame outcome run run'},
      m.funcs.get? frame.func = some (.defined signature name body) →
      m.Counterpart m' frame.func name body body' → frame.block = body.entry →
      runFrame body' frame run = .ok (outcome, run') → Continues m m' run run')
    {result : Except Outcome Frame}
    (h : tracedInstructions (fun caller => enter (Host.tagRecorder.logging caller) m' runFrame) body'
      ((if frame.block = body.entry then (m.announcement? frame.func).toList else []) ++ data.insts)
      frame (run.burn.log (.started frame.func frame.block called)) = .ok (result, run')) :
    Continues m m' run run' ∧ ∀ frame', result = .ok frame' →
      frame'.func = frame.func ∧ frame'.block = frame.block := by
  have hinsts : ∀ v ∈ data.insts, v.index < body.values.size := by
    intro v hv
    obtain ⟨op, args, types, hget⟩ := hdata.insts v hv
    exact Table.get?_lt hget
  have hcall {inst : Value} {callee : Func} {args : List Constant} {outcome : Outcome}
      {run run' : Run (List Event × Array String)} (hinst : inst.index < body.values.size)
      (h : enter (Host.tagRecorder.logging (some (frame.func, inst))) m' runFrame callee args run =
        .ok (outcome, run')) : Continues m m' run run' :=
    continues_enter htagged (hcounterpart.isInserted_asked hinst) hframes h
  have hplain (hnone : Event.entered? m (.started frame.func frame.block called) = none)
      (h : tracedInstructions (fun caller => enter (Host.tagRecorder.logging caller) m' runFrame) body'
        data.insts frame (run.burn.log (.started frame.func frame.block called)) = .ok (result, run')) :
      Continues m m' run run' ∧ ∀ frame', result = .ok frame' →
        frame'.func = frame.func ∧ frame'.block = frame.block := by
    obtain ⟨hrest, hresult⟩ := continues_instructions hcall hinsts rfl h
    exact ⟨(continues_start rfl hnone hbranch rfl).trans hrest, hresult⟩
  have hentered := entered?_started hdecl frame.block called
  by_cases hentry : frame.block = body.entry
  · rw [if_pos hentry] at h hentered
    cases hfront : m.announcement? frame.func with
    | none =>
      rw [hfront] at h hentered
      exact hplain hentered h
    | some inst =>
      rw [hfront, Option.toList_some, List.singleton_append, tracedInstructions, hentry] at h
      rw [hentry] at hbranch
      obtain ⟨evaluated, run₁, heval, hfirst⟩ :=
        continues_announcement htagged hdecl hcounterpart hfront hbranch runFrame frame
      rw [heval, ok_bind] at h
      obtain ⟨hrest, hresult⟩ := continues_instructions hcall hinsts
        (frame.func_keep inst evaluated) h
      simp only [Frame.func_keep, Frame.block_keep] at hresult
      exact ⟨hfirst.trans hrest, hresult⟩
  · rw [if_neg hentry] at h hentered
    exact hplain hentered h

/-- Whatever blocks a frame runs, its function and those it calls report themselves at their entry
blocks. The induction is on the bound, which nested frames share. -/
lemma continues_traced (hclosed : m.Closed) (htagged : m.TaggedTo m') (bound : Nat) (called : Bool)
    {signature : Signature} {outcome : Outcome}
    (hdecl : m.funcs.get? frame.func = some (.defined signature name body))
    (hcounterpart : m.Counterpart m' frame.func name body body')
    (hblock : frame.block.index < body.blocks.size)
    (hbranch : Event.HasBranch m (.started frame.func frame.block called))
    (h : traced Host.tagRecorder m' bound called body' frame run = .ok (outcome, run')) :
    Continues m m' run run' := by
  induction bound generalizing called signature name body body' frame outcome run run' with
  | zero =>
    cases h
    exact .refl run
  | succ bound ih =>
    rw [traced] at h
    split at h
    · cases h
      exact .refl run
    have hbody : body.Closed m := hclosed.bodies _ (Table.mem_of_get? hdecl) body rfl
    obtain ⟨data, hdata⟩ := Table.get?_of_lt hblock
    have hdataClosed := hbody.blocks data (Table.mem_of_get? hdata)
    have hget' := Table.get_eq_ok.2 (hcounterpart.blocks hdata)
    simp only [hget', ok_bind] at h
    obtain ⟨⟨result, run₁⟩, hinsts, h⟩ := bind_eq_ok.1 h
    have hstep := continues_block htagged hdecl hcounterpart hdataClosed hbranch
      (fun {_ _ body _ _ _ _ _} hdecl hcounterpart hentry h => ih true hdecl hcounterpart
        (hentry ▸ (hclosed.bodies _ (Table.mem_of_get? hdecl) body rfl).entry) trivial h) hinsts
    obtain ⟨hcontinues, hkept⟩ := hstep
    cases result with
    | error outcome' =>
      cases h
      exact hcontinues
    | ok frame₁ =>
      obtain ⟨hfunc₁, hblock₁⟩ := hkept frame₁ rfl
      obtain ⟨next, hleave, h⟩ := bind_eq_ok.1 h
      cases next with
      | error outcome' =>
        cases h
        exact hcontinues
      | ok frame₂ =>
        obtain ⟨hfunc₂, target, htarget, hblock₂⟩ := Frame.of_leave_eq_ok hleave
        have hfunc : frame₂.func = frame.func := hfunc₂.trans hfunc₁
        rw [← hfunc] at hdecl hcounterpart
        have hblock' : frame₂.block.index < body.blocks.size := by
          rw [← hblock₂]
          exact hdataClosed.targets target htarget
        refine hcontinues.trans (ih false hdecl hcounterpart hblock' ?_ h)
        exact ⟨signature, name, body, hdecl, data, Table.mem_of_get? hdata, target, htarget, hblock₂⟩

end Run

/-! ### Calls -/

/-- Dropping elements that `f` maps to nothing, and no others, changes nothing for `f`. -/
lemma filterMap_eq_filterMap_filter_iff {α β : Type} {f : α → Option β} {p : α → Bool} (as : List α) :
    as.filterMap f = (as.filter p).filterMap f ↔ ∀ a ∈ as, (f a).isSome = true → p a = true := by
  induction as with
  | nil => simp
  | cons a as ih =>
    have hle : ((as.filter p).filterMap f).length ≤ (as.filterMap f).length :=
      (List.filter_sublist.filterMap f).length_le
    cases hp : p a with
    | true =>
      cases hf : f a with
      | none => simpa [hp, hf] using ih
      | some b => simpa [hp, hf] using ih
    | false =>
      cases hf : f a with
      | none => simpa [hp, hf] using ih
      | some b =>
        simp only [List.filterMap_cons, hf, List.filter_cons, hp, Bool.false_eq_true, if_false,
          List.mem_cons, forall_eq_or_imp, Option.isSome_some, imp_false, not_true_eq_false, false_and,
          iff_false]
        intro heq
        have hlength := congrArg List.length heq
        rw [List.length_cons] at hlength
        omega

section Calls

variable {text : String} {m m' : Module} {func : Func} {args : List Constant} {budget : Budget}
  {tags : Array String} {outcome : Outcome} {run : Run (Array String)}

/-- A call in a tagged module has a trace, which accounts for the collected tags. -/
lemma exists_balanced_trace
    (hread : (Module.ofText text : Except Fault (Except SourceError Module)) = .ok (.ok m))
    (hcallee : m.TagCalleeImported) (htag : (tagHelpers m : Except Fault Module) = .ok m')
    (h : (m'.call Host.tagRecorder func args ⟨budget, tags⟩ : Except Fault _) = .ok (outcome, run)) :
    ∃ events, m'.tracedCall Host.tagRecorder func args ⟨budget, [], tags⟩ =
        .ok (outcome, ⟨run.budget, events, run.host⟩) ∧
      Balanced m m' events ∧ run.host.toList = tags.toList ++ events.filterMap (Event.tag? m') := by
  have hclosed : m.Closed := (readable_of_ofText hread).toClosed
  have htagged := Module.taggedTo_of_tagHelpers hcallee htag
  obtain ⟨events, htraced⟩ := Module.exists_tracedCall h
  have houtside (call : Host.Call) (answer : Except String (List Constant)) :
      Event.isInserted m (.asked none call answer) = false := rfl
  obtain ⟨new, hnew, hbalanced, htags⟩ := Run.continues_enter htagged houtside
    (fun {_ _ body _ _ _ _ _} hdecl hcounterpart hentry h =>
      Run.continues_traced hclosed htagged budget.fuel true hdecl hcounterpart
        (hentry ▸ (hclosed.bodies _ (Table.mem_of_get? hdecl) body rfl).entry) trivial h) htraced
  obtain rfl : events = new := hnew
  exact ⟨events, htraced, hbalanced, htags⟩

/-- When helpers report themselves. The tags that the inserted instructions of a tagged module hand
over are those of the helpers whose entry blocks are started, in that order. They are one for each
call of a helper if and only if no entry block of a helper is started by a branch. -/
theorem insertedTags_of_call
    (hread : (Module.ofText text : Except Fault (Except SourceError Module)) = .ok (.ok m))
    (hcallee : m.TagCalleeImported) (htag : (tagHelpers m : Except Fault Module) = .ok m')
    (h : (m'.call Host.tagRecorder func args ⟨budget, tags⟩ : Except Fault _) = .ok (outcome, run)) :
    ∃ events, m'.tracedCall Host.tagRecorder func args ⟨budget, [], tags⟩ =
        .ok (outcome, ⟨run.budget, events, run.host⟩) ∧
      run.host.toList = tags.toList ++ events.filterMap (Event.tag? m') ∧
      insertedTags m m' events = entryTags m events ∧
      (insertedTags m m' events = activationTags m events ↔
        ∀ event ∈ events, (event.entered? m).isSome = true → event.isCall = true) := by
  obtain ⟨events, htraced, hbalanced, htags⟩ := exists_balanced_trace hread hcallee htag h
  refine ⟨events, htraced, htags, hbalanced.tags, ?_⟩
  rw [hbalanced.tags]
  exact filterMap_eq_filterMap_filter_iff events

/-- Where no helper has a branch to its entry block, each call of a helper reports it once. -/
theorem insertedTags_of_noBranchToEntry
    (hread : (Module.ofText text : Except Fault (Except SourceError Module)) = .ok (.ok m))
    (hcallee : m.TagCalleeImported) (htag : (tagHelpers m : Except Fault Module) = .ok m')
    (hbranch : m.NoBranchToEntry)
    (h : (m'.call Host.tagRecorder func args ⟨budget, tags⟩ : Except Fault _) = .ok (outcome, run)) :
    ∃ events, m'.tracedCall Host.tagRecorder func args ⟨budget, [], tags⟩ =
        .ok (outcome, ⟨run.budget, events, run.host⟩) ∧
      insertedTags m m' events = activationTags m events := by
  obtain ⟨events, htraced, hbalanced, -⟩ := exists_balanced_trace hread hcallee htag h
  refine ⟨events, htraced, hbalanced.tags.trans ((filterMap_eq_filterMap_filter_iff events).2 ?_)⟩
  intro event hevent hentered
  have hhas := hbalanced.branches event hevent
  cases event with
  | asked => simp [Event.entered?] at hentered
  | started func block called =>
    cases called with
    | true => rfl
    | false =>
      obtain ⟨signature, name, body, hdecl, data, hdata, target, htarget, hblock⟩ := hhas
      simp only [Event.entered?, hdecl] at hentered
      split at hentered
      · rename_i hentry
        exact absurd (hblock.trans hentry.2) (hbranch _ (Table.mem_of_get? hdecl) hentry.1 body rfl
          data hdata target htarget)
      · cases hentered

end Calls

/-- Calling the helper that loops through its entry block, for two rounds: it reports itself three
times and is called once. -/
lemma exists_call_countDown : ∃ (m' : Module) (outcome : Outcome)
    (run : Run (List Event × Array String)), (tagHelpers countDown : Except Fault Module) = .ok m' ∧
      m'.tracedCall Host.tagRecorder ⟨0⟩ [.i32 2] ⟨⟨100, 0⟩, [], #[]⟩ = .ok (outcome, run) ∧
      insertedTags countDown m' run.host.1 = List.replicate 3 "|-- helper_count_down" ∧
      activationTags countDown run.host.1 = ["|-- helper_count_down"] := by
  have hrun : ((tagHelpers countDown : Except Fault Module) >>= fun m' =>
      m'.tracedCall Host.tagRecorder ⟨0⟩ [.i32 2] ⟨⟨100, 0⟩, [], #[]⟩ >>= fun r =>
        pure (insertedTags countDown m' r.2.host.1, activationTags countDown r.2.host.1)).toOption =
      some (List.replicate 3 "|-- helper_count_down", ["|-- helper_count_down"]) := by
    decide +kernel
  cases htag : (tagHelpers countDown : Except Fault Module) with
  | error fault =>
    rw [htag] at hrun
    cases hrun
  | ok m' =>
    rw [htag, ok_bind] at hrun
    cases htraced : m'.tracedCall Host.tagRecorder ⟨0⟩ [.i32 2] ⟨⟨100, 0⟩, [], #[]⟩ with
    | error fault =>
      rw [htraced] at hrun
      cases hrun
    | ok r =>
      rw [htraced, ok_bind] at hrun
      obtain ⟨hinserted, hactivated⟩ := Prod.ext_iff.1 (Option.some.inj hrun)
      exact ⟨m', r.1, r.2, rfl, htraced, hinserted, hactivated⟩

theorem insertedTags_of_call_countDown : ∃ (m' : Module) (outcome : Outcome)
    (run : Run (Array String)) (events : List Event),
      (tagHelpers countDown : Except Fault Module) = .ok m' ∧
      (m'.call Host.tagRecorder ⟨0⟩ [.i32 2] ⟨⟨100, 0⟩, #[]⟩ : Except Fault _) = .ok (outcome, run) ∧
      m'.tracedCall Host.tagRecorder ⟨0⟩ [.i32 2] ⟨⟨100, 0⟩, [], #[]⟩ =
        .ok (outcome, ⟨run.budget, events, run.host⟩) ∧
      run.host.toList = [] ++ events.filterMap (Event.tag? m') ∧
      insertedTags countDown m' events = entryTags countDown events ∧
      (insertedTags countDown m' events = activationTags countDown events ↔
        ∀ event ∈ events, (event.entered? countDown).isSome = true → event.isCall = true) := by
  obtain ⟨m', outcome, run, htag, htraced, -⟩ := exists_call_countDown
  have htraces := m'.traces_call Host.tagRecorder ⟨0⟩ [.i32 2] ⟨⟨100, 0⟩, [], #[]⟩
  rw [Traces, htraced] at htraces
  obtain ⟨events, h⟩ := insertedTags_of_call ofText_countDownText tagCalleeImported_countDown htag
    htraces.symm
  exact ⟨m', outcome, run.bare, events, htag, htraces.symm, h⟩

/-- A helper may report itself more often than it is called. -/
theorem insertedTags_ne_activationTags_countDown : ∃ (m' : Module) (outcome : Outcome)
    (run : Run (List Event × Array String)),
      (Module.ofText countDownText : Except Fault (Except SourceError Module)) = .ok (.ok countDown) ∧
      countDown.TagCalleeImported ∧ (tagHelpers countDown : Except Fault Module) = .ok m' ∧
      m'.tracedCall Host.tagRecorder ⟨0⟩ [.i32 2] ⟨⟨100, 0⟩, [], #[]⟩ = .ok (outcome, run) ∧
      insertedTags countDown m' run.host.1 ≠ activationTags countDown run.host.1 := by
  obtain ⟨m', outcome, run, htag, htraced, hinserted, hactivated⟩ := exists_call_countDown
  refine ⟨m', outcome, run, ofText_countDownText, tagCalleeImported_countDown, htag, htraced, ?_⟩
  rw [hinserted, hactivated]
  decide

end EntryTrace
