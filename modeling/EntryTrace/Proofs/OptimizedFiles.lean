import EntryTrace.Proofs.TaggedFiles
import EntryTrace.Proofs.TotalReading

/-!
# Optimizing files

Optimizing a file either writes or prints the module in it after all runs of the passes, or changes
nothing: whatever can fail is tried before the only effect.
-/

namespace EntryTrace

namespace Command

variable {content : Except FileError String} {file : String} {passes : List String} {standard : Bool}
  {output : Option String} {printed : String}

/-- What optimizing makes of the content of a file: the module in it after all runs of the passes, as
it is printed. -/
def Optimizes (content : Except FileError String) (passes : List String) (standard : Bool)
    (printed : String) : Prop :=
  ∃ text m flags m', content = .ok text ∧
    (Module.ofText text : Except Fault (Except SourceError Module)) = .ok (.ok m) ∧
    KnownPasses passes standard ∧
    tagPass.runTimes (passRuns passes standard) m = .ok (flags, m') ∧ m'.render false = .ok printed

lemma Optimizes.perform (h : Optimizes content passes standard printed) (file : String)
    (output : Option String) :
    ((Action.optimize file passes standard output).perform content : Except Fault Answer) =
      .ok (.emitting output printed) := by
  obtain ⟨text, m, flags, m', rfl, hread, hknown, hruns, hprinted⟩ := h
  rw [perform_optimize_known hread hknown, hruns, ok_bind, hprinted, Except.map_ok]

variable {dir dir' : Directory}

end Command

end EntryTrace
