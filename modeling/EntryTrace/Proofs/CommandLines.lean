import EntryTrace.Command.Directory
import EntryTrace.Proofs.Optimizing

/-!
# Command lines in a directory

What a command line comes to, from what its action makes of the file that it starts from. A file that
was written is read again as it was written.
-/

namespace EntryTrace.Command

/-! ### Files that were written -/

namespace Directory

lemma followOutside_ne_file (parts : List String) (name : String) :
    followOutside parts ≠ .file name := by
  unfold followOutside
  split
  · exact nofun
  · exact nofun
  · split <;> exact nofun

lemma followFromTop_ne_file (parts : List String) (name : String) :
    followFromTop parts ≠ .file name := by
  unfold followFromTop
  split
  · exact nofun
  · exact followOutside_ne_file _ name
  · exact nofun

/-- Where a file of the directory is does not depend on the files that are there. -/
lemma follow_eq_file {dir : Directory} {path name : String} (h : dir.follow path = .file name)
    (dir' : Directory) : dir'.follow path = .file name := by
  unfold follow at h ⊢
  split at h
  · cases h
  · exact absurd h (followFromTop_ne_file _ name)
  · unfold followInside at h ⊢
    split at h
    · cases h
    · exact absurd h (followOutside_ne_file _ name)
    · cases h
      rfl
    · dsimp only at h
      split at h
      · cases h
      · split at h <;> cases h

lemma content?_put (dir : Directory) (name : String) (content : ByteArray) :
    (dir.put name content).content? name = some content := by
  simp [content?, put]

/-- What was written is read again. -/
lemma read_put {dir : Directory} {path name : String} (h : dir.follow path = .file name)
    (text : String) : (dir.put name text.toUTF8).read path = .ok text := by
  have htext : String.fromUTF8? text.toUTF8 = some text := dif_pos text.isValidUTF8
  simp only [read, follow_eq_file h, content?_put, htext]

end Directory

/-! ### Answers -/

namespace Answer

/-- What an answer comes to in a directory. -/
def carriedOut (answer : Answer) (dir : Directory) : Conclusion × Directory :=
  match answer.result with
  | .error failure => (.finished answer.stdout (some failure), dir)
  | .ok none => (.finished answer.stdout none, dir)
  | .ok (some (path, text)) =>
    match dir.write path text with
    | .error cause => (.finished answer.stdout (some (.writing path cause)), dir)
    | .ok dir' => (.finished answer.stdout none, dir')

/-- The command wants no file written. -/
def WritesNothing (answer : Answer) : Prop :=
  answer.result = .ok none ∨ ∃ failure, answer.result = .error failure

/-- How a command ends that wants no file written. -/
def conclusion (answer : Answer) : Conclusion :=
  match answer.result with
  | .error failure => .finished answer.stdout (some failure)
  | .ok _ => .finished answer.stdout none

/-- Text goes to a file if one is named, and is printed else. -/
def emitting (output : Option String) (text : String) : Answer :=
  match output with
  | some path => ⟨"", .ok (some (path, text))⟩
  | none => ⟨text, .ok none⟩

end Answer

section Lines

variable {dir : Directory} {line : List String} {options : Options} {file text : String}
  (hline : Options.ofArgs? line = some options) (hinput : options.action.input? = some file)
include hline hinput

lemma execute_eq : (execute line dir : Except Fault (Conclusion × Directory)) =
    (·.carriedOut dir) <$> options.action.perform (dir.read file) := by
  simp only [execute, hline, hinput]
  cases (options.action.perform (dir.read file) : Except Fault Answer) with
  | error fault => rfl
  | ok answer =>
    obtain ⟨stdout, failure | (- | ⟨path, text⟩)⟩ := answer
    · rfl
    · rfl
    · simp only [ok_bind, Except.map_ok, Answer.carriedOut]
      cases dir.write path text <;> rfl

variable (hfile : dir.read file = .ok text)
include hfile

lemma execute_of_writesNothing {answer : Answer}
    (hperform : (options.action.perform (.ok text) : Except Fault Answer) = .ok answer)
    (hanswer : answer.WritesNothing) :
    (execute line dir : Except Fault (Conclusion × Directory)) = .ok (answer.conclusion, dir) := by
  rw [execute_eq hline hinput, hfile, hperform, Except.map_ok, Answer.carriedOut, Answer.conclusion]
  rcases hanswer with hresult | ⟨failure, hresult⟩ <;> rw [hresult]

lemma execute_of_writing {stdout out name content : String}
    (hperform : (options.action.perform (.ok text) : Except Fault Answer) =
      .ok ⟨stdout, .ok (some (out, content))⟩) (hout : dir.follow out = .file name) :
    (execute line dir : Except Fault (Conclusion × Directory)) =
      .ok (.finished stdout none, dir.put name content.toUTF8) := by
  rw [execute_eq hline hinput, hfile, hperform, Except.map_ok]
  simp only [Answer.carriedOut, Directory.write, hout]

lemma execute_of_fault {fault : Fault}
    (hperform : (options.action.perform (.ok text) : Except Fault Answer) = .error fault) :
    (execute line dir : Except Fault (Conclusion × Directory)) = .error fault := by
  rw [execute_eq hline hinput, hfile, hperform, Except.map_error]

end Lines

/-! ### Actions -/

lemma loadModule_eq_ok {text : String} {m : Module}
    (h : (Module.ofText text : Except Fault (Except SourceError Module)) = .ok (.ok m)) (file : String) :
    (loadModule file (.ok text) : Except Fault (Except Failure Module)) = .ok (.ok m) := by
  rw [loadModule, note_silent, ok_bind, h]
  rfl

section Actions

variable {text : String} {m : Module}
  (hread : (Module.ofText text : Except Fault (Except SourceError Module)) = .ok (.ok m))
include hread

lemma perform_run (file func : String) (args : List Int) (tag : Bool) (fuel : Option Nat) :
    ((Action.run file func args tag fuel).perform (.ok text) : Except Fault Answer) =
      (if tag then tagHelpers m else pure m) >>= fun m => runModule m func args fuel := by
  simp only [Action.perform, loadModule_eq_ok hread, ok_bind]
  cases tag <;> rfl

variable {passes : List String} {standard : Bool}

lemma perform_optimize_known (h : KnownPasses passes standard) (file : String)
    (output : Option String) :
    ((Action.optimize file passes standard output).perform (.ok text) : Except Fault Answer) =
      tagPass.runTimes (passRuns passes standard) m >>= fun r =>
        Answer.emitting output <$> r.2.render false := by
  simp only [Action.perform, loadModule_eq_ok hread, ok_bind, optimizeModule_known h, liftFault_except]
  cases tagPass.runTimes (passRuns passes standard) m with
  | error fault => rfl
  | ok r =>
    simp only [Except.map_ok, ok_bind]
    cases (r.2.render false : Except Fault String) with
    | error fault => rfl
    | ok text => cases output <;> rfl

end Actions

end EntryTrace.Command
