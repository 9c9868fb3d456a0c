import EntryTrace.Proofs.CommandLines
import EntryTrace.Proofs.RenumberedRuns
import EntryTrace.Proofs.TaggedText

/-!
# Tagging in memory and tagging to a file

A function can be run in a module that is tagged in memory, or the tagged module can be written to a
file first and the function run in what is read from there. Reading numbers the values of helpers
anew, which no run depends on; so both come to the same.
-/

namespace EntryTrace

open Source

/-! ### Running a function of a renumbered module -/

lemma Host.tagPrinter_tag {module : Module} {str : Str} {tag : String}
    (h : module.strings.get? str = some tag) (output : String) :
    (tagPrinter module tagCallee [.ptr str] output : Except Fault _) =
      .ok (.ok [.i32 (UInt32.ofNat tag.utf8ByteSize)], output ++ tag ++ "\n") := by
  have hget : (module.strings.get str : Except Fault String) = .ok tag := Table.get_eq_ok.2 h
  simp only [tagPrinter, if_true, Module.string, hget, ok_bind, pure_eq_ok]

lemma Host.tagPrinter_other {name : String} {args : List Constant}
    (h : ¬ (name = tagCallee ∧ ∃ str, args = [.ptr str])) (module : Module) (output : String) :
    (tagPrinter module name args output : Except Fault _) =
      .ok (.error (tagPrinter.unknown name args), output) := by
  unfold tagPrinter
  split
  · rename_i str
    rw [if_neg fun hname => h ⟨hname, str, rfl⟩]
    rfl
  · rfl

lemma Host.answersBoth_tagPrinter {m m' : Module} (h : m'.strings = m.strings) :
    Host.AnswersBoth tagPrinter m m' := by
  intro name args output hargs
  by_cases hshape : name = tagCallee ∧ ∃ str, args = [.ptr str]
  · obtain ⟨rfl, str, rfl⟩ := hshape
    obtain ⟨tag, htag⟩ := Table.get?_of_lt (hargs (.ptr str) List.mem_cons_self)
    refine ⟨_, _, tagPrinter_tag htag output, tagPrinter_tag (h ▸ htag) output, ?_⟩
    rintro _ ⟨⟩ c hc
    rw [List.mem_singleton.1 hc]
    trivial
  · exact ⟨_, _, tagPrinter_other hshape m output, tagPrinter_other hshape m' output, nofun⟩

namespace Command

/-- Integers are no pointers. -/
lemma inRange_constantsOf {m : Module} {types : List ValueType} {args : List Int}
    {constants : List Constant} (h : constantsOf types args = some constants) :
    ∀ c ∈ constants, Constant.InRange m c := by
  fun_induction constantsOf types args generalizing constants with
  | case1 types n rest ih | case2 types n rest ih =>
    obtain ⟨rest', hrest, rfl⟩ := Option.map_eq_some_iff.1 h
    exact List.forall_mem_cons.2 ⟨trivial, ih hrest⟩
  | case3 => cases h
  | case4 =>
    cases h
    exact nofun

/-- Running a function comes to an answer, and to the same one in a renumbered module. -/
lemma runModule_renumbered {m m' : Module} (h : m.RenumberedAs m') (hclosed : m.Closed) (func : String)
    (args : List Int) (fuel : Option Nat) :
    ∃ answer, (runModule m func args fuel : Except Fault Answer) = .ok answer ∧
      (runModule m' func args fuel : Except Fault Answer) = .ok answer ∧ answer.WritesNothing := by
  unfold runModule
  rw [h.funcNamed?_eq]
  cases hnamed : m.funcNamed? func with
  | none => exact ⟨_, rfl, rfl, .inr ⟨_, rfl⟩⟩
  | some entity =>
    have hentity := Module.lt_of_funcNamed? hnamed
    obtain ⟨type, htype⟩ := hclosed.signatures.funcType_of_lt hentity
    simp only [h.funcType_eq hentity, htype, ok_bind]
    split
    · exact ⟨_, rfl, rfl, .inr ⟨_, rfl⟩⟩
    · cases hconstants : constantsOf type.params args with
      | none => exact ⟨_, rfl, rfl, .inr ⟨_, rfl⟩⟩
      | some constants =>
        simp only [Module.callNamed, h.funcNamed?_eq, hnamed, h.funcType_eq hentity, htype, ok_bind]
        split
        · exact ⟨_, rfl, rfl, .inr ⟨_, rfl⟩⟩
        · obtain ⟨outcome, run, hcall, hcall'⟩ := h.call hclosed (Host.answersBoth_tagPrinter h.strings)
            hentity (inRange_constantsOf hconstants) ⟨⟨fuel.getD maxFuel, 0⟩, ""⟩
          simp only [hcall, hcall', ok_bind, pure_eq_ok]
          cases outcome with
          | returned values => exact ⟨_, rfl, rfl, .inl rfl⟩
          | trapped | outOfFuel | refused => exact ⟨_, rfl, rfl, .inr ⟨_, rfl⟩⟩

lemma perform_optimize {text : String} {m : Module}
    (hread : (Module.ofText text : Except Fault (Except SourceError Module)) = .ok (.ok m)) (file : String)
    (output : Option String) :
    ((Action.optimize file ["TagHelpersPass"] false output).perform (.ok text) : Except Fault Answer) =
      tagHelpers m >>= fun m => Answer.emitting output <$> m.render false := by
  rw [perform_optimize_known hread (by simp [KnownPasses])]
  simp only [passRuns, List.length_singleton, Bool.toNat_false, Pass.runTimes, tagPass]
  cases (tagHelpers m : Except Fault Module) <;> rfl

/-- Tagging in memory and tagging to a file come to the same. Take a file whose text is accepted, with
helpers that can hand over their tags. If there is no room for the tags, running a function with
tagging and writing the tagged module to a file fault alike. Otherwise the tagged module is written, and
running the function in the file that was written ends as running it with tagging does: with the same
output, and for the same reason if it fails. There is room if no table gets as large as it can be. -/
theorem execute_tagged {dir : Directory} {file out name text : String} {m : Module}
    (hfile : dir.read file = .ok text)
    (hread : (Module.ofText text : Except Fault (Except SourceError Module)) = .ok (.ok m))
    (hfit : m.TagsFit) (hout : dir.follow out = .file name) {func : String} {args : List Int}
    {fuel : Option Nat} {tagging optimizing running : List String} {debug debug' debug'' : Bool}
    (htagging : Options.ofArgs? tagging = some ⟨debug, .run file func args true fuel⟩)
    (hoptimizing : Options.ofArgs? optimizing =
      some ⟨debug', .optimize file ["TagHelpersPass"] false (some out)⟩)
    (hrunning : Options.ofArgs? running = some ⟨debug'', .run out func args false fuel⟩) :
    (∀ fault, (tagHelpers m : Except Fault Module) = .error fault →
      (execute tagging dir : Except Fault (Conclusion × Directory)) = .error fault ∧
      (execute optimizing dir : Except Fault (Conclusion × Directory)) = .error fault) ∧
    (∀ m', (tagHelpers m : Except Fault Module) = .ok m' → ∃ conclusion dir',
      (execute optimizing dir : Except Fault (Conclusion × Directory)) = .ok (.finished "" none, dir') ∧
      (execute tagging dir : Except Fault (Conclusion × Directory)) = .ok (conclusion, dir) ∧
      (execute running dir' : Except Fault (Conclusion × Directory)) = .ok (conclusion, dir')) ∧
    ((m.taggedTimes 1).BelowLimit → ∃ m', (tagHelpers m : Except Fault Module) = .ok m') := by
  obtain ⟨located, tree, -, hparse, hresolve⟩ := ofText_eq_ok.1 hread
  have hsound := sound_of_parse hparse
  have hreadable := (resolve_replay hsound hresolve).1
  refine ⟨fun fault hfault => ⟨?_, ?_⟩, fun m' htag => ?_, fun hlimit => ?_⟩
  · refine execute_of_fault htagging rfl hfile ?_
    rw [perform_run hread, if_pos rfl, hfault]
    rfl
  · refine execute_of_fault hoptimizing rfl hfile ?_
    rw [perform_optimize hread, hfault]
    rfl
  · have hroom : m.RoomForRuns 1 := .of_tagHelpers hreadable.signatures hreadable.signatureLimit
      hreadable.funcLimit hreadable.stringLimit htag
    obtain rfl : m.taggedTimes 1 = m' := Except.ok.inj (hroom.tagHelpers_eq.symm.trans htag)
    have htaggable : m.Taggable 1 := ⟨hreadable, (resolves_of_resolve hsound hresolve).ordered, hroom⟩
    obtain ⟨printed, hprinted, hreads, -, hrenumbered⟩ :=
      ofText_render_taggable hsound hresolve htaggable le_rfl false
    obtain ⟨m'', hread'⟩ := hreads.2 hfit
    obtain ⟨answer, hmemory, hwritten, hnothing⟩ := runModule_renumbered (hrenumbered m'' hread').1
      htaggable.readable_taggedTimes.toClosed func args fuel
    refine ⟨answer.conclusion, dir.put name printed.toUTF8, ?_, ?_, ?_⟩
    · refine execute_of_writing hoptimizing rfl hfile ?_ hout
      rw [perform_optimize hread, htag, ok_bind, hprinted]
      rfl
    · refine execute_of_writesNothing htagging rfl hfile ?_ hnothing
      rw [perform_run hread, if_pos rfl, htag, ok_bind, hmemory]
    · refine execute_of_writesNothing hrunning rfl (Directory.read_put hout printed) ?_ hnothing
      rw [perform_run hread', if_neg Bool.false_ne_true, pure_eq_ok, ok_bind, hwritten]
  · have hroom : m.RoomForRuns 1 :=
      .of_belowLimit hreadable.signatures hreadable.helperEntries hlimit
    exact ⟨_, hroom.tagHelpers_eq⟩

/-- A directory with the text of a helper that counts down. -/
def countDownDirectory : Directory := ({} : Directory).put "a.ir" countDownText.toUTF8

lemma read_countDownDirectory : countDownDirectory.read "a.ir" = .ok countDownText :=
  Directory.read_put rfl countDownText

theorem execute_tagged_countDown :
    countDownDirectory.read "a.ir" = .ok countDownText ∧
    (Module.ofText countDownText : Except Fault (Except SourceError Module)) = .ok (.ok countDown) ∧
    countDown.TagsFit ∧ countDownDirectory.follow "b.ir" = .file "b.ir" ∧
    Options.ofArgs? ["run", "a.ir", "helper_count_down", "2", "--tag"] =
      some ⟨false, .run "a.ir" "helper_count_down" [2] true none⟩ ∧
    Options.ofArgs? ["opt", "a.ir", "--pass", "TagHelpersPass", "-o", "b.ir"] =
      some ⟨false, .optimize "a.ir" ["TagHelpersPass"] false (some "b.ir")⟩ ∧
    Options.ofArgs? ["run", "b.ir", "helper_count_down", "2"] =
      some ⟨false, .run "b.ir" "helper_count_down" [2] false none⟩ ∧
    ∃ conclusion dir',
      (execute ["opt", "a.ir", "--pass", "TagHelpersPass", "-o", "b.ir"] countDownDirectory :
        Except Fault (Conclusion × Directory)) = .ok (.finished "" none, dir') ∧
      (execute ["run", "a.ir", "helper_count_down", "2", "--tag"] countDownDirectory :
        Except Fault (Conclusion × Directory)) = .ok (conclusion, countDownDirectory) ∧
      (execute ["run", "b.ir", "helper_count_down", "2"] dir' :
        Except Fault (Conclusion × Directory)) = .ok (conclusion, dir') := by
  have hfit : countDown.TagsFit := .inr (.inl (by decide +kernel))
  have hout : countDownDirectory.follow "b.ir" = .file "b.ir" := rfl
  have htagging : Options.ofArgs? ["run", "a.ir", "helper_count_down", "2", "--tag"] =
      some ⟨false, .run "a.ir" "helper_count_down" [2] true none⟩ := by decide +kernel
  have hoptimizing : Options.ofArgs? ["opt", "a.ir", "--pass", "TagHelpersPass", "-o", "b.ir"] =
      some ⟨false, .optimize "a.ir" ["TagHelpersPass"] false (some "b.ir")⟩ := by decide +kernel
  have hrunning : Options.ofArgs? ["run", "b.ir", "helper_count_down", "2"] =
      some ⟨false, .run "b.ir" "helper_count_down" [2] false none⟩ := by decide +kernel
  obtain ⟨m', htag⟩ := exists_tagHelpers_countDown
  exact ⟨read_countDownDirectory, ofText_countDownText, hfit, hout, htagging, hoptimizing, hrunning,
    (execute_tagged read_countDownDirectory ofText_countDownText hfit hout htagging hoptimizing
      hrunning).2.1 m' htag⟩

end Command

end EntryTrace
