import EntryTrace.Proofs.Nesting

/-!
# Failures of calls

A call that does not return ends everything that led to it. Nothing is done after it but to leave the
activations around it, all with the same outcome. Where the host refused, that was the last thing it
was asked.
-/

namespace EntryTrace

variable {σ : Type}

/-- The call did not return. -/
def Outcome.Failed (outcome : Outcome) : Prop := ∀ values, outcome ≠ .returned values

/-- The deed only passes a failure on to the caller. -/
inductive Deed.PassesOn (failure : Outcome) : Deed → Prop
  | left (func : Func) : PassesOn failure (.left func)
  | ended (func : Func) : PassesOn failure (.ended func failure)

/-- What the host was asked by a deed, and what it answered. -/
def Deed.answer? : Deed → Option (Host.Call × Except String (List Constant))
  | .asked call answer => some (call, answer)
  | .called .. | .entered _ | .started .. | .ran .. | .left _ | .ended .. => none

/-- What the host was asked and what it answered, in order. -/
def hostAnswers (chronicle : List Deed) : List (Host.Call × Except String (List Constant)) :=
  chronicle.filterMap Deed.answer?

/-- The host answered each of the calls and refused none. -/
def AllAnswered (answers : List (Host.Call × Except String (List Constant))) : Prop :=
  ∀ answered ∈ answers, ∃ values, answered.2 = .ok values

section Splitting

variable {α : Type} {a a' : α} {as bs before after : List α}

/-- An element of two lists one after the other is in one of them. -/
lemma split_append (h : as ++ bs = before ++ a :: after) :
    (∃ rest, as = before ++ a :: rest ∧ after = rest ++ bs) ∨
      ∃ before', before = as ++ before' ∧ bs = before' ++ a :: after := by
  obtain ⟨before', rfl, rfl⟩ | ⟨cs, rfl, hcs⟩ := List.append_eq_append_iff.1 h
  · exact .inr ⟨before', rfl, rfl⟩
  · cases cs with
    | nil => exact .inr ⟨[], by simp, by simpa using hcs.symm⟩
    | cons c rest =>
      obtain ⟨rfl, rfl⟩ := List.cons.inj hcs
      exact .inl ⟨rest, rfl, rfl⟩

lemma split_cons (h : a' :: as = before ++ a :: after) (hne : a' ≠ a) :
    ∃ before', as = before' ++ a :: after := by
  cases before with
  | nil => exact absurd (List.cons.inj h).1 hne
  | cons b before => exact ⟨before, (List.cons.inj h).2⟩

lemma split_singleton (h : [a'] = before ++ a :: after) : a = a' ∧ after = [] := by
  cases before with
  | nil =>
    obtain ⟨rfl, rfl⟩ := List.cons.inj h
    exact ⟨rfl, rfl⟩
  | cons b before => simp at h

end Splitting

section Stories

variable {m : Module} {depth : Nat} {result : Option Outcome} {chronicle : List Deed}

lemma hostAnswers_append (chronicle chronicle' : List Deed) :
    hostAnswers (chronicle ++ chronicle') = hostAnswers chronicle ++ hostAnswers chronicle' :=
  List.filterMap_append

lemma hostAnswers_entered (func func' : Func) (args : List Constant) (outcome : Outcome)
    (chronicle : List Deed) :
    hostAnswers (.called func args :: .entered func :: (chronicle ++ [.left func', .ended func' outcome])) =
      hostAnswers chronicle := by
  change hostAnswers (chronicle ++ _) = _
  rw [hostAnswers_append]
  exact List.append_nil _

/-- The host refused nothing in a story that does not end for that reason. -/
lemma Story.allAnswered (h : Story m depth result chronicle)
    (hresult : ∀ func message, result ≠ some (.refused func message)) :
    AllAnswered (hostAnswers chronicle) := by
  induction h with
  | nothing | started | ran | ends | tooDeep => exact nofun
  | append _ _ ih ih' =>
    rw [hostAnswers_append]
    exact fun answered hmem => (List.mem_append.1 hmem).elim (ih (fun _ _ => nofun) answered)
      (ih' hresult answered)
  | resumes _ ih => exact ih fun _ _ => nofun
  | @asked _ func _ _ _ _ answer =>
    cases answer with
    | ok values => exact fun answered hmem => ⟨values, by rw [List.mem_singleton.1 hmem]⟩
    | error message => exact absurd rfl (hresult func message)
  | entered _ _ _ _ ih =>
    rw [hostAnswers_entered]
    exact ih hresult

/-- A refusal of the host is the last that was heard from it. -/
lemma Story.refused (h : Story m depth result chronicle) {func : Func} {message : String}
    (hresult : result = some (.refused func message)) :
    ∃ signature name args earlier, m.funcs.get? func = some (.imported signature name) ∧
      hostAnswers chronicle = earlier ++ [(⟨name, args⟩, .error message)] ∧ AllAnswered earlier := by
  induction h with
  | nothing | started | ran | resumes => cases hresult
  | ends hends => exact absurd (Option.some.inj hresult) (hends func message)
  | tooDeep => cases hresult
  | @append _ _ first _ h _ _ ih' =>
    obtain ⟨signature, name, args, earlier, hfunc, hanswers, hearlier⟩ := ih' hresult
    refine ⟨signature, name, args, hostAnswers first ++ earlier, hfunc, ?_, ?_⟩
    · rw [hostAnswers_append, hanswers, List.append_assoc]
    · exact fun answered hmem => (List.mem_append.1 hmem).elim
        (h.allAnswered (fun _ _ => nofun) answered) (hearlier answered)
  | @asked _ func' signature name hfunc args answer =>
    cases answer with
    | ok values => cases hresult
    | error message' =>
      cases hresult
      exact ⟨signature, name, args, [], hfunc, rfl, nofun⟩
  | entered _ _ _ _ ih =>
    rw [hostAnswers_entered]
    exact ih hresult

/-- A failed call decides how the story ends, and is followed by nothing that does more than pass the
failure on. -/
lemma Story.passesOn (h : Story m depth result chronicle) {before after : List Deed} {func : Func}
    {failure : Outcome} (hsplit : chronicle = before ++ .ended func failure :: after)
    (hfailed : failure.Failed) : result = some failure ∧ ∀ deed ∈ after, deed.PassesOn failure := by
  induction h generalizing before after with
  | nothing | ends => simp at hsplit
  | started | ran => cases (split_singleton hsplit).1
  | append _ _ ih ih' =>
    obtain ⟨rest, hfirst, -⟩ | ⟨before', -, hsecond⟩ := split_append hsplit
    · exact absurd (ih hfirst).1 nofun
    · exact ih' hsecond
  | resumes _ ih => exact absurd (Option.some.inj (ih hsplit).1).symm (hfailed _)
  | asked =>
    obtain ⟨_, hsplit⟩ := split_cons hsplit nofun
    obtain ⟨_, hsplit⟩ := split_cons hsplit nofun
    obtain ⟨heq, rfl⟩ := split_singleton hsplit
    cases heq
    exact ⟨rfl, nofun⟩
  | tooDeep =>
    obtain ⟨_, hsplit⟩ := split_cons hsplit nofun
    obtain ⟨heq, rfl⟩ := split_singleton hsplit
    cases heq
    exact ⟨rfl, nofun⟩
  | @entered _ func' _ _ _ outcome _ _ _ _ _ ih =>
    obtain ⟨_, hsplit⟩ := split_cons hsplit nofun
    obtain ⟨_, hsplit⟩ := split_cons hsplit nofun
    obtain ⟨rest, hinner, rfl⟩ | ⟨before', -, houter⟩ := split_append hsplit
    · obtain ⟨hresult, hrest⟩ := ih hinner
      obtain rfl : outcome = failure := Option.some.inj hresult
      refine ⟨rfl, fun deed hmem => (List.mem_append.1 hmem).elim (hrest deed) fun hmem => ?_⟩
      rcases List.mem_cons.1 hmem with rfl | hmem
      · exact .left func'
      · rw [List.mem_singleton.1 hmem]
        exact .ended func'
    · obtain ⟨_, houter⟩ := split_cons houter nofun
      obtain ⟨heq, rfl⟩ := split_singleton houter
      cases heq
      exact ⟨rfl, nofun⟩

end Stories

/-- Failures are passed on, and nothing runs after them. A call comes to an end unless the host itself
faults. Where it ends because the host refused, an imported function was called, that was the last
the host was asked, the message is the one it gave, and it answered everything before. Where it ends
otherwise, the host answered everything. Once any call inside it has failed, only activations are left,
and every call around it ends with the same failure. -/
theorem call_failures {text : String} {m : Module}
    (hread : (Module.ofText text : Except Fault (Except SourceError Module)) = .ok (.ok m))
    {func : Func} (hfunc : func.index < m.funcs.size) (host : Host (Except Fault) σ)
    (args : List Constant) (budget : Budget) (state : σ) :
    (∀ fault, m.call host func args ⟨budget, state⟩ = .error fault →
      ∃ name args state, host m name args state = .error fault) ∧
    ∀ outcome run, m.call host func args ⟨budget, state⟩ = .ok (outcome, run) →
      ∃ chronicle, m.chronicledCall host func args ⟨budget, [], state⟩ =
          .ok (outcome, ⟨run.budget, chronicle, run.host⟩) ∧
        (∀ g message, outcome = .refused g message → ∃ signature name args earlier,
          m.funcs.get? g = some (.imported signature name) ∧
          hostAnswers chronicle = earlier ++ [(⟨name, args⟩, .error message)] ∧ AllAnswered earlier) ∧
        ((∀ g message, outcome ≠ .refused g message) → AllAnswered (hostAnswers chronicle)) ∧
        ∀ before g failure after, chronicle = before ++ .ended g failure :: after →
          failure.Failed → outcome = failure ∧ ∀ deed ∈ after, deed.PassesOn failure := by
  obtain ⟨located, tree, -, hparse, hresolve⟩ := ofText_eq_ok.1 hread
  have hreadable := (Source.resolve_replay (Source.sound_of_parse hparse) hresolve).1
  refine ⟨fun fault h => hreadable.of_call_eq_error hfunc h, fun outcome run h => ?_⟩
  obtain ⟨chronicle, hchronicled⟩ := Module.exists_chronicledCall h
  obtain ⟨new, hnew, hstory, -⟩ := Module.unfolds_chronicledCall hchronicled
  obtain rfl : chronicle = new := hnew
  refine ⟨chronicle, hchronicled, fun g message houtcome => hstory.refused (congrArg some houtcome),
    fun houtcome => hstory.allAnswered fun g message heq => houtcome g message (Option.some.inj heq),
    fun before g failure after hsplit hfailed => ?_⟩
  obtain ⟨houtcome, hafter⟩ := hstory.passesOn hsplit hfailed
  exact ⟨Option.some.inj houtcome, hafter⟩

lemma call_relay : ∃ run,
    (relay.call Host.tagRecorder ⟨1⟩ [] ⟨⟨9, 0⟩, #[]⟩ : Except Fault _) =
      .ok (.refused ⟨0⟩ "no host implementation of `missing`", run) :=
  ⟨_, rfl⟩

/-- A call that goes through one activation to a function the host does not know. -/
theorem call_failures_relay : ∃ run chronicle,
    (Module.ofText relayText : Except Fault (Except SourceError Module)) = .ok (.ok relay) ∧
    1 < relay.funcs.size ∧
    (relay.call Host.tagRecorder ⟨1⟩ [] ⟨⟨9, 0⟩, #[]⟩ : Except Fault _) =
      .ok (.refused ⟨0⟩ "no host implementation of `missing`", run) ∧
    relay.chronicledCall Host.tagRecorder ⟨1⟩ [] ⟨⟨9, 0⟩, [], #[]⟩ =
      .ok (.refused ⟨0⟩ "no host implementation of `missing`",
        ⟨run.budget, chronicle, run.host⟩) ∧
    (∃ signature name args earlier, relay.funcs.get? ⟨0⟩ = some (.imported signature name) ∧
      hostAnswers chronicle =
        earlier ++ [(⟨name, args⟩, .error "no host implementation of `missing`")] ∧
      AllAnswered earlier) ∧
    ∀ before g failure after, chronicle = before ++ .ended g failure :: after → failure.Failed →
      .refused ⟨0⟩ "no host implementation of `missing`" = failure ∧
        ∀ deed ∈ after, deed.PassesOn failure := by
  obtain ⟨run, hcall⟩ := call_relay
  have hfunc : (⟨1⟩ : Func).index < relay.funcs.size := by decide
  obtain ⟨-, hends⟩ := call_failures ofText_relayText hfunc Host.tagRecorder [] ⟨9, 0⟩ #[]
  obtain ⟨chronicle, hchronicled, hrefused, -, hfailures⟩ := hends _ run hcall
  exact ⟨run, chronicle, ofText_relayText, hfunc, hcall, hchronicled, hrefused _ _ rfl, hfailures⟩

end EntryTrace
