import EntryTrace.Proofs.AlikeFrames
import EntryTrace.Proofs.RoundTrip

/-!
# Runs of a tagged module

A tagged module does what the module did before, and reports its helpers besides. A run of one and
a run of the other go hand in hand, block by block and instruction by instruction; the calls that
tagging put in front of the helpers use no fuel and write only to values that nothing else reads.
-/

namespace EntryTrace

variable {σ : Type}

/-- The trace without the calls that tagging adds. -/
def withoutInserted (m : Module) (events : List Event) : List Event :=
  events.filter fun event => !event.isInserted m

lemma withoutInserted_concat (m : Module) (events : List Event) (event : Event) :
    withoutInserted m (events ++ [event]) =
      withoutInserted m events ++ if event.isInserted m then [] else [event] := by
  cases h : event.isInserted m <;> simp [withoutInserted, List.filter_append, h]

/-- The host answers every tag that tagging adds, and its other answers do not depend on tags: in
states that are alike, it answers alike what refers to strings of the original module, and returns
no pointers to other strings. -/
structure Host.IgnoresTags (host : Host (Except Fault) σ) (m m' : Module) (alike : σ → σ → Prop) :
    Prop where
  tags : ∀ str : Str, m.strings.size ≤ str.index → str.index < m'.strings.size →
    ∀ a b, alike a b → ∃ values b', host m' tagCallee [.ptr str] b = .ok (.ok values, b') ∧ alike a b'
  answers : ∀ name args, (∀ c ∈ args, Constant.InRange m c) → ∀ a b, alike a b →
    ∃ answer a' b', host m name args a = .ok (answer, a') ∧ host m' name args b = .ok (answer, b') ∧
      alike a' b' ∧ ∀ values, answer = .ok values → ∀ c ∈ values, Constant.InRange m c

/-- The runs may use the same, their hosts are alike, and the trace of the second is the trace of
the first but for calls that tagging adds. -/
structure Run.Alike (m : Module) (alike : σ → σ → Prop) (run run' : Run (List Event × σ)) : Prop where
  budget : run'.budget = run.budget
  events : withoutInserted m run'.host.1 = run.host.1
  host : alike run.host.2 run'.host.2

/-- Two calls end alike. -/
structure EndAlike (m : Module) (alike : σ → σ → Prop) (r r' : Outcome × Run (List Event × σ)) :
    Prop where
  outcome : r'.1 = r.1
  inRange : r.1.InRange m
  run : Run.Alike m alike r.2 r'.2

/-- One way to run the frames of a module does what another one does for its tagged form. -/
def FramesAgree (m m' : Module) (alike : σ → σ → Prop)
    (runFrame runFrame' : Body → Frame → Run (List Event × σ) →
      Except Fault (Outcome × Run (List Event × σ))) : Prop :=
  ∀ {func signature name body body' frame frame' run run'},
    m.funcs.get? func = some (.defined signature name body) →
    m.Counterpart m' func name body body' → Frame.Alike m func body frame frame' →
    Run.Alike m alike run run' →
      Agree (EndAlike m alike) (runFrame body frame run) (runFrame' body' frame' run')

namespace Run

variable {m m' : Module} {alike : σ → σ → Prop} {host : Host (Except Fault) σ}
  {run run' : Run (List Event × σ)}

lemma Alike.log (h : Alike m alike run run') {event : Event} (hevent : event.isInserted m = false) :
    Alike m alike (run.log event) (run'.log event) where
  budget := h.budget
  events := by
    simp only [Run.log, withoutInserted_concat, h.events, hevent, Bool.false_eq_true, if_false]
  host := h.host

lemma Alike.burn (h : Alike m alike run run') : Alike m alike run.burn run'.burn where
  budget := by simp only [Run.burn, h.budget]
  events := h.events
  host := h.host

/-- Both hosts answer alike when asked by an original instruction or from outside. -/
lemma Alike.logging (h : Alike m alike run run') (hhost : host.IgnoresTags m m' alike)
    {caller : Caller} (hcaller : ∀ call answer, Event.isInserted m (.asked caller call answer) = false)
    (name : String) {args : List Constant} (hargs : ∀ c ∈ args, Constant.InRange m c) :
    Agree (fun r r' => r'.1 = r.1 ∧ (∀ values, r.1 = .ok values → ∀ c ∈ values, Constant.InRange m c) ∧
        Alike m alike ⟨run.budget, r.2⟩ ⟨run'.budget, r'.2⟩)
      (host.logging caller m name args run.host) (host.logging caller m' name args run'.host) := by
  obtain ⟨answer, a', b', hm, hm', hab, hrange⟩ := hhost.answers name args hargs _ _ h.host
  refine ⟨_, _, Host.logging_eq_ok hm caller _, Host.logging_eq_ok hm' caller _, rfl, hrange, ?_⟩
  exact { h.log (hcaller ⟨name, args⟩ answer) with host := hab }

lemma Alike.enter (h : Alike m alike run run') (hclosed : m.Closed) (htagged : m.TaggedTo m')
    (hhost : host.IgnoresTags m m' alike)
    {runFrame runFrame' : Body → Frame → Run (List Event × σ) →
      Except Fault (Outcome × Run (List Event × σ))}
    (hframes : FramesAgree m m' alike runFrame runFrame') {caller : Caller}
    (hcaller : ∀ call answer, Event.isInserted m (.asked caller call answer) = false)
    {func : Func} (hfunc : func.index < m.funcs.size) {args : List Constant}
    (hargs : ∀ c ∈ args, Constant.InRange m c) :
    Agree (EndAlike m alike) (Run.enter (host.logging caller) m runFrame func args run)
      (Run.enter (host.logging caller) m' runFrame' func args run') := by
  obtain ⟨decl, hdecl⟩ := Table.get?_of_lt hfunc
  have hget : (m.funcs.get func : Except Fault Decl) = .ok decl := Table.get_eq_ok.2 hdecl
  cases decl with
  | imported signature name =>
    obtain ⟨decl', hdecl', himported⟩ := htagged.funcs hdecl
    cases himported
    have hget' : (m'.funcs.get func : Except Fault Decl) = .ok (.imported signature name) :=
      Table.get_eq_ok.2 hdecl'
    simp only [Run.enter, hget, hget', ok_bind]
    refine agree_bind (h.logging hhost hcaller name hargs) ?_
    rintro ⟨_, state⟩ ⟨answer, state'⟩ ⟨rfl, hrange, halike⟩
    cases answer with
    | error message => exact agree_pure ⟨rfl, trivial, halike⟩
    | ok values => exact agree_pure ⟨rfl, hrange values rfl, halike⟩
  | defined signature name body =>
    obtain ⟨body', hdecl', hcounterpart⟩ := htagged.counterpart hdecl
    have hget' : (m'.funcs.get func : Except Fault Decl) = .ok (.defined signature name body') :=
      Table.get_eq_ok.2 hdecl'
    have hbody : body.Closed m := hclosed.bodies _ (Table.mem_of_get? hdecl) body rfl
    obtain ⟨entry, hentry⟩ := Table.get?_of_lt hbody.entry
    have hentryget : (body.blocks.get body.entry : Except Fault BlockData) = .ok entry :=
      Table.get_eq_ok.2 hentry
    have hentryget' := Table.get_eq_ok.2 (hcounterpart.blocks hentry)
    simp only [Run.enter, hget, hget', ok_bind, h.budget, hcounterpart.entry]
    split
    · exact agree_pure ⟨rfl, trivial, h⟩
    · simp only [notePrinted_silent, note_silent, ok_bind, hentryget, hentryget', noteArgs_silent]
      have hframe : Frame.Alike m func body _ _ := (Frame.Alike.fresh hbody).writeAll entry.paramValues hargs
      refine agree_bind (hframes hdecl hcounterpart hframe ?_) ?_
      · exact { h with budget := rfl }
      · rintro ⟨_, run₁⟩ ⟨outcome, run₁'⟩ ⟨rfl, hrange, halike⟩
        refine agree_pure ⟨rfl, hrange, { halike with budget := ?_ }⟩
        rw [halike.budget]

/-- The results of two evaluations. -/
structure ResultAlike (m : Module) (alike : σ → σ → Prop)
    (r r' : Except Outcome (Option Constant) × Run (List Event × σ)) : Prop where
  result : r'.1 = r.1
  ended : ∀ outcome, r.1 = .error outcome → outcome.InRange m
  evaluated : ∀ result, r.1 = .ok result → ∀ c ∈ result, Constant.InRange m c
  run : Alike m alike r.2 r'.2

variable {func : Func} {name : String} {body body' : Body} {frame frame' : Frame}

lemma Alike.evaluate (h : Alike m alike run run') (hframe : Frame.Alike m func body frame frame')
    (hbody : body.Closed m) (hcounterpart : m.Counterpart m' func name body body')
    {call call' : Func → List Constant → Run (List Event × σ) →
      Except Fault (Outcome × Run (List Event × σ))}
    (hcall : ∀ {callee args}, callee.index < m.funcs.size → (∀ c ∈ args, Constant.InRange m c) →
      Agree (EndAlike m alike) (call callee args run) (call' callee args run'))
    {inst : Value} {op : Operator} {args : List Value} {types : List ValueType}
    (hinst : body.values.get? inst = some (.inst op args types)) :
    Agree (ResultAlike m alike) (Run.evaluate call body inst frame run)
      (Run.evaluate call' body' inst frame' run') := by
  have hget : (body.values.get inst : Except Fault Def) = .ok (.inst op args types) :=
    Table.get_eq_ok.2 hinst
  have hget' : (body'.values.get inst : Except Fault Def) = .ok (.inst op args types) := by
    rw [Table.get_eq_ok, hcounterpart.values (Table.get?_lt hinst), hinst]
  obtain ⟨haccepts, hargs⟩ : (Def.inst op args types).Closed m body.values.size :=
    hbody.values _ (Table.mem_of_get? hinst)
  simp only [Run.evaluate, hget, hget', ok_bind]
  refine agree_bind (hframe.readAll hbody hcounterpart hargs) ?_
  rintro _ constants ⟨rfl, hconstants⟩
  cases constants with
  | none =>
    have htrap : frame'.trap = frame.trap := by
      rw [Frame.trap, Frame.trap, hframe.left, hframe.right, hframe.block]
    rw [htrap]
    refine agree_pure ⟨rfl, ?_, by simp, h⟩
    rintro _ ⟨⟩
    trivial
  | some constants =>
    have hplain (op : Operator) : Agree (ResultAlike m alike)
        (pure (.ok (op.eval? constants), run)) (pure (.ok (op.eval? constants), run')) := by
      refine agree_pure ⟨rfl, by simp, ?_, h⟩
      rintro _ ⟨⟩ c hc
      exact Operator.eval?_inRange hc
    cases op with
    | call callee =>
      refine agree_bind (hcall haccepts (hconstants constants rfl)) ?_
      rintro ⟨_, run₁⟩ ⟨outcome, run₁'⟩ ⟨rfl, hrange, halike⟩
      cases outcome with
      | returned values =>
        refine agree_pure ⟨rfl, by simp, ?_, halike⟩
        rintro _ ⟨⟩ c hc
        exact hrange c (List.mem_of_mem_head? hc)
      | trapped => exact agree_pure ⟨rfl, by rintro _ ⟨⟩; trivial, by simp, halike⟩
      | outOfFuel => exact agree_pure ⟨rfl, by rintro _ ⟨⟩; trivial, by simp, halike⟩
      | refused => exact agree_pure ⟨rfl, by rintro _ ⟨⟩; trivial, by simp, halike⟩
    | nop => exact hplain .nop
    | const32 c => exact hplain (.const32 c)
    | const64 c => exact hplain (.const64 c)
    | binary op => exact hplain (.binary op)

/-- How runs of instructions end: like frames go on. -/
def InstsAlike (m : Module) (alike : σ → σ → Prop) (func : Func) (body : Body)
    (r r' : Except Outcome Frame × Run (List Event × σ)) : Prop :=
  Frame.Alike.Onward m func body r.1 r'.1 ∧ Alike m alike r.2 r'.2

lemma Alike.instructions (h : Alike m alike run run')
    (hframe : Frame.Alike m func body frame frame') (hbody : body.Closed m)
    (hcounterpart : m.Counterpart m' func name body body')
    {call call' : Caller → Func → List Constant → Run (List Event × σ) →
      Except Fault (Outcome × Run (List Event × σ))}
    (hcall : ∀ {inst callee args run run'}, inst.index < body.values.size →
      callee.index < m.funcs.size → (∀ c ∈ args, Constant.InRange m c) → Alike m alike run run' →
      Agree (EndAlike m alike) (call (some (func, inst)) callee args run)
        (call' (some (func, inst)) callee args run'))
    {insts : List Value}
    (hinsts : ∀ v ∈ insts, ∃ op args types, body.values.get? v = some (.inst op args types)) :
    Agree (InstsAlike m alike func body) (tracedInstructions call body insts frame run)
      (tracedInstructions call' body' insts frame' run') := by
  induction insts generalizing frame frame' run run' with
  | nil => exact agree_pure ⟨.onward hframe, h⟩
  | cons inst rest ih =>
    obtain ⟨op, args, types, hinst⟩ := hinsts inst List.mem_cons_self
    rw [tracedInstructions, tracedInstructions, hframe.left, hframe.right]
    refine agree_bind (h.evaluate hframe hbody hcounterpart (fun hcallee hargs =>
      hcall (Table.get?_lt hinst) hcallee hargs h) hinst) ?_
    rintro ⟨_, run₁⟩ ⟨result, run₁'⟩ ⟨rfl, hended, hevaluated, halike⟩
    cases result with
    | error outcome => exact agree_pure ⟨.ended (hended outcome rfl), halike⟩
    | ok result =>
      exact ih halike (hframe.keep inst (hevaluated result rfl)) fun v hv =>
        hinsts v (List.mem_cons_of_mem _ hv)

/-- The instruction in front of the entry block of a helper leaves everything alike. -/
lemma Alike.announce (h : Alike m alike run run') (hframe : Frame.Alike m func body frame frame')
    (htagged : m.TaggedTo m') (hhost : host.IgnoresTags m m' alike)
    (hcounterpart : m.Counterpart m' func name body body') {inst : Value}
    (hinst : inst ∈ m.announcement? func)
    (runFrame : Body → Frame → Run (List Event × σ) → Except Fault (Outcome × Run (List Event × σ))) :
    ∃ result run₁', Run.evaluate (Run.enter (host.logging (some (func, inst))) m' runFrame) body' inst
        frame' run' = .ok (.ok result, run₁') ∧
      Frame.Alike m func body frame (frame'.keep inst result) ∧ Alike m alike run run₁' := by
  obtain ⟨tag, hnew, hstring, heval⟩ := hcounterpart.evaluate_announcement htagged hinst
  obtain ⟨values, state', hanswer, halike⟩ := hhost.tags tag hnew (Table.get?_lt hstring) _ _ h.host
  refine ⟨_, _, heval hanswer _ _ _, hframe.keep_new (hcounterpart.announcement inst hinst).1 _, ?_⟩
  refine ⟨h.budget, ?_, halike⟩
  simp only [withoutInserted_concat, h.events, Event.isInserted_asked hinst, if_true, List.append_nil]

/-- The instructions of a block run alike, be there an inserted one in front or not. -/
lemma Alike.block (h : Alike m alike run run') (hframe : Frame.Alike m func body frame frame')
    (hclosed : m.Closed) (htagged : m.TaggedTo m') (hhost : host.IgnoresTags m m' alike)
    (hbody : body.Closed m) (hcounterpart : m.Counterpart m' func name body body')
    {runFrame runFrame' : Body → Frame → Run (List Event × σ) →
      Except Fault (Outcome × Run (List Event × σ))}
    (hframes : FramesAgree m m' alike runFrame runFrame') {block : Block} {insts : List Value}
    (hinsts : ∀ v ∈ insts, ∃ op args types, body.values.get? v = some (.inst op args types)) :
    Agree (InstsAlike m alike func body)
      (tracedInstructions (fun caller => Run.enter (host.logging caller) m runFrame) body insts frame run)
      (tracedInstructions (fun caller => Run.enter (host.logging caller) m' runFrame') body'
        ((if block = body.entry then (m.announcement? func).toList else []) ++ insts) frame' run') := by
  have hcall {inst callee : Entity _} {args : List Constant} {run run' : Run (List Event × σ)}
      (hinst : inst.index < body.values.size) (hcallee : callee.index < m.funcs.size)
      (hargs : ∀ c ∈ args, Constant.InRange m c) (hrun : Alike m alike run run') :
      Agree (EndAlike m alike)
        (Run.enter (host.logging (some (func, inst))) m runFrame callee args run)
        (Run.enter (host.logging (some (func, inst))) m' runFrame' callee args run') := by
    exact hrun.enter hclosed htagged hhost hframes (hcounterpart.isInserted_asked hinst) hcallee hargs
  have hplain : Agree (InstsAlike m alike func body)
      (tracedInstructions (fun caller => Run.enter (host.logging caller) m runFrame) body insts frame run)
      (tracedInstructions (fun caller => Run.enter (host.logging caller) m' runFrame') body' insts
        frame' run') :=
    h.instructions hframe hbody hcounterpart hcall hinsts
  split
  · cases hannouncement : m.announcement? func with
    | none => exact hplain
    | some inst =>
      obtain ⟨result, run₁', heval, hframe₁, hrun₁⟩ :=
        h.announce hframe htagged hhost hcounterpart hannouncement runFrame'
      rw [Option.toList_some, List.singleton_append, tracedInstructions, hframe.right]
      simp only [heval, ok_bind]
      exact hrun₁.instructions hframe₁ hbody hcounterpart hcall hinsts
  · exact hplain

/-- Frames run alike, however many blocks are run. -/
lemma framesAgree_traced (hclosed : m.Closed) (htagged : m.TaggedTo m')
    (hhost : host.IgnoresTags m m' alike) (bound : Nat) (called : Bool) :
    FramesAgree m m' alike (traced host m bound called) (traced host m' bound called) := by
  induction bound generalizing called with
  | zero =>
    intro func signature name body body' frame frame' run run' hdecl hcounterpart hframe hrun
    exact agree_pure ⟨rfl, trivial, hrun⟩
  | succ bound ih =>
    intro func signature name body body' frame frame' run run' hdecl hcounterpart hframe hrun
    have hbody : body.Closed m := hclosed.bodies _ (Table.mem_of_get? hdecl) body rfl
    obtain ⟨data, hdata⟩ := Table.get?_of_lt hframe.inBody
    have hdataClosed := hbody.blocks data (Table.mem_of_get? hdata)
    have hget : (body.blocks.get frame.block : Except Fault BlockData) = .ok data :=
      Table.get_eq_ok.2 hdata
    have hget' := Table.get_eq_ok.2 (hcounterpart.blocks hdata)
    rw [traced, traced, hrun.budget]
    split
    · exact agree_pure ⟨rfl, trivial, hrun⟩
    · simp only [hframe.block, hframe.left, hframe.right, hget, hget', ok_bind]
      have hstarted := hrun.burn.log
        (show Event.isInserted m (.started func frame.block called) = false from rfl)
      refine agree_bind (hstarted.block hframe hclosed htagged hhost hbody hcounterpart (ih true)
        hdataClosed.insts) ?_
      rintro ⟨_, run₁⟩ ⟨_, run₁'⟩ ⟨honward, hrun₁⟩
      cases honward with
      | ended hrange => exact agree_pure ⟨rfl, hrange, hrun₁⟩
      | onward hframe₁ =>
        refine agree_bind (hframe₁.leave hbody hcounterpart hdataClosed) ?_
        rintro _ _ honward
        cases honward with
        | ended hrange => exact agree_pure ⟨rfl, hrange, hrun₁⟩
        | onward hframe₂ => exact ih false hdecl hcounterpart hframe₂ hrun₁

end Run

/-! ### Calls -/

/-- Tagging preserves what calls do. Take a module that was read from text and hands tags to an
imported function, and a host that ignores tags. Then a call in the tagged module ends like the call
in the module itself, with the same fuel left, and without the calls that tagging added its trace is
the same. -/
theorem call_tagged {text : String} {m m' : Module}
    (hread : (Module.ofText text : Except Fault (Except SourceError Module)) = .ok (.ok m))
    (hcallee : m.TagCalleeImported) (htag : (tagHelpers m : Except Fault Module) = .ok m')
    {host : Host (Except Fault) σ} {alike : σ → σ → Prop} (hhost : host.IgnoresTags m m' alike)
    {func : Func} (hfunc : func.index < m.funcs.size) {args : List Constant}
    (hargs : ∀ c ∈ args, Constant.InRange m c) (budget : Budget) {a b : σ} (hab : alike a b) :
    ∃ outcome budget' events events' a' b',
      m.tracedCall host func args ⟨budget, [], a⟩ = .ok (outcome, ⟨budget', events, a'⟩) ∧
      m'.tracedCall host func args ⟨budget, [], b⟩ = .ok (outcome, ⟨budget', events', b'⟩) ∧
      m.call host func args ⟨budget, a⟩ = .ok (outcome, ⟨budget', a'⟩) ∧
      m'.call host func args ⟨budget, b⟩ = .ok (outcome, ⟨budget', b'⟩) ∧
      withoutInserted m events' = events ∧ alike a' b' := by
  have hclosed : m.Closed := (readable_of_ofText hread).toClosed
  have htagged := Module.taggedTo_of_tagHelpers hcallee htag
  have hrun : Run.Alike m alike ⟨budget, [], a⟩ ⟨budget, [], b⟩ := ⟨rfl, rfl, hab⟩
  have houtside (call : Host.Call) (answer : Except String (List Constant)) :
      Event.isInserted m (.asked none call answer) = false := rfl
  obtain ⟨⟨_, run₁⟩, ⟨outcome, run₁'⟩, hcall, hcall', rfl, -, hend⟩ :=
    hrun.enter hclosed htagged hhost
      (Run.framesAgree_traced hclosed htagged hhost budget.fuel true) houtside hfunc hargs
  obtain ⟨budget₁, events, a'⟩ := run₁
  obtain ⟨budget₁', events', b'⟩ := run₁'
  obtain rfl : budget₁' = budget₁ := hend.budget
  refine ⟨outcome, budget₁', events, events', a', b', hcall, hcall', ?_, ?_, hend.events, hend.host⟩
  · have htraces := m.traces_call host func args ⟨budget, [], a⟩
    rw [Traces, Module.tracedCall, hcall] at htraces
    exact htraces.symm
  · have htraces := m'.traces_call host func args ⟨budget, [], b⟩
    rw [Traces, Module.tracedCall, hcall'] at htraces
    exact htraces.symm

lemma Host.ignoresTags_tagRecorder {m m' : Module} (h : m.strings.PrefixOf m'.strings) :
    Host.IgnoresTags tagRecorder m m' fun _ _ => True where
  tags str _ hstr a b _ := by
    obtain ⟨tag, htag⟩ := Table.get?_of_lt hstr
    exact ⟨_, _, tagRecorder_tag htag b, trivial⟩
  answers name args hargs a b _ := by
    by_cases hshape : name = tagCallee ∧ ∃ str, args = [.ptr str]
    · obtain ⟨rfl, str, rfl⟩ := hshape
      obtain ⟨tag, htag⟩ := Table.get?_of_lt (hargs (.ptr str) List.mem_cons_self)
      refine ⟨_, _, _, tagRecorder_tag htag a, tagRecorder_tag (h.get? htag) b, trivial, ?_⟩
      rintro _ ⟨⟩ c hc
      rw [List.mem_singleton.1 hc]
      trivial
    · obtain ⟨message, hmessage⟩ := tagRecorder_other hshape
      exact ⟨_, _, _, hmessage m a, hmessage m' b, trivial, by simp⟩

/-- A helper that loops through its entry block. -/
def countDownText : String :=
  "module \x7b
    sig0 = (i32) -> (i32)
    func0 = func \"helper_count_down\" : sig0 \x7b
      block0(v0: i32):
        if v0, block1(), block2()
      block1():
        v1 = i32.const 1
        v2 = i32.sub v0, v1
        br block0(v2)
      block2():
        return v0
    \x7d
  \x7d"

/-- The module of that text. -/
def countDown : Module :=
  let entry : BlockData :=
    { params := [(.i32, ⟨0⟩)]
      terminator := .branch ⟨0⟩ ⟨⟨1⟩, []⟩ ⟨⟨2⟩, []⟩
      succs := [⟨1⟩, ⟨2⟩]
      preds := [⟨1⟩] }
  let step : BlockData :=
    { insts := [⟨1⟩, ⟨2⟩]
      terminator := .jump ⟨⟨0⟩, [⟨2⟩]⟩
      succs := [⟨0⟩]
      preds := [⟨0⟩] }
  let exit : BlockData := { terminator := .ret [⟨0⟩], preds := [⟨0⟩] }
  let body : Body :=
    { paramCount := 1
      returns := [.i32]
      entry := ⟨0⟩
      blocks := ⟨#[entry, step, exit]⟩
      values := ⟨#[.param ⟨0⟩ 0 .i32, .inst (.const32 1) [] [.i32],
        .inst (.binary .sub32) [⟨0⟩, ⟨1⟩] [.i32]]⟩
      home := ⟨#[⟨0⟩, ⟨1⟩, ⟨1⟩]⟩ }
  { signatures := ⟨#[⟨[.i32], [.i32]⟩]⟩
    funcs := ⟨#[.defined ⟨0⟩ "helper_count_down" body]⟩ }

set_option maxRecDepth 4000 in
lemma ofText_countDownText :
    (Module.ofText countDownText : Except Fault (Except SourceError Module)) = .ok (.ok countDown) :=
  (ofText_ofList _).trans (by decide +kernel)

lemma tagCalleeImported_countDown : countDown.TagCalleeImported := by
  intro func decl hnamed
  have hnone : countDown.funcNamed? tagCallee = none := by decide +kernel
  rw [hnone] at hnamed
  cases hnamed

lemma exists_tagHelpers_countDown :
    ∃ m' : Module, (tagHelpers countDown : Except Fault Module) = .ok m' := by
  have hsome : (tagHelpers countDown : Except Fault Module).toOption.isSome = true := by
    decide +kernel
  cases htag : (tagHelpers countDown : Except Fault Module) with
  | error fault =>
    rw [htag] at hsome
    cases hsome
  | ok m' => exact ⟨m', rfl⟩

theorem call_tagged_countDown : ∃ m' : Module,
    (tagHelpers countDown : Except Fault Module) = .ok m' ∧
    Host.IgnoresTags Host.tagRecorder countDown m' (fun _ _ => True) ∧
    ∃ outcome budget' events events' a' b',
      countDown.tracedCall Host.tagRecorder ⟨0⟩ [.i32 2] ⟨⟨20, 0⟩, [], #[]⟩ =
        .ok (outcome, ⟨budget', events, a'⟩) ∧
      m'.tracedCall Host.tagRecorder ⟨0⟩ [.i32 2] ⟨⟨20, 0⟩, [], #[]⟩ =
        .ok (outcome, ⟨budget', events', b'⟩) ∧
      (countDown.call Host.tagRecorder ⟨0⟩ [.i32 2] ⟨⟨20, 0⟩, #[]⟩ : Except Fault _) =
        .ok (outcome, ⟨budget', a'⟩) ∧
      (m'.call Host.tagRecorder ⟨0⟩ [.i32 2] ⟨⟨20, 0⟩, #[]⟩ : Except Fault _) =
        .ok (outcome, ⟨budget', b'⟩) ∧
      withoutInserted countDown events' = events ∧ True := by
  obtain ⟨m', htag⟩ := exists_tagHelpers_countDown
  have hhost : Host.IgnoresTags Host.tagRecorder countDown m' (fun _ _ => True) :=
    Host.ignoresTags_tagRecorder (Module.taggedTo_of_tagHelpers tagCalleeImported_countDown htag).strings
  have hargs : ∀ c ∈ [Constant.i32 2], Constant.InRange countDown c := by
    simp [Constant.InRange]
  exact ⟨m', htag, hhost, call_tagged ofText_countDownText tagCalleeImported_countDown htag hhost
    (by decide) hargs ⟨20, 0⟩ trivial⟩

end EntryTrace
