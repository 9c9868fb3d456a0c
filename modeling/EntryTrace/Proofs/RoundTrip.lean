import EntryTrace.Proofs.PrintedText
import EntryTrace.Proofs.Characters
import EntryTrace.Proofs.SoundTrees

/-!
# Printing and reading

Reading what is printed of a module gives the module back, if the module was read from some text
itself. The text renders the tokens of the module, these form a tree that spells the module, and
resolving such a tree makes every value, block, signature and string in the same order as before.
-/

namespace EntryTrace

open Source

lemma ofText_eq_ok {text : String} {m : Module} :
    (Module.ofText text : Except Fault (Except SourceError Module)) = .ok (.ok m) ↔
      ∃ located tree, tokens text = .ok located ∧ parse located = .ok tree ∧
        Answers (resolve tree) m := by
  have hread {α : Type} (x : Except SourceError α) (a : α) :
      Answers (ExceptT.mk (pure x) : Resolving (Except Fault) α) a ↔ x = .ok a := by
    simp [Answers]
  change Answers _ m ↔ _
  simp only [answers_bind, answers_step, answers_pure, hread, note_silent]
  constructor
  · rintro ⟨located, htokens, -, -, tree, hparse, m', hresolve, -, -, rfl⟩
    exact ⟨located, tree, htokens, hparse, hresolve⟩
  · rintro ⟨located, tree, htokens, hparse, hresolve⟩
    exact ⟨located, htokens, (), trivial, tree, hparse, m, hresolve, (), trivial, rfl⟩

/-- A module that was read from text is readable. -/
theorem readable_of_ofText {text : String} {m : Module}
    (h : (Module.ofText text : Except Fault (Except SourceError Module)) = .ok (.ok m)) :
    m.Readable := by
  obtain ⟨located, tree, -, hparse, hresolve⟩ := ofText_eq_ok.1 h
  exact (resolve_replay (sound_of_parse hparse) hresolve).1

/-- Printing and reading gives a module back that a tree of the grammar resolves to. -/
lemma render_of_resolve {tree : ModuleTree} {m : Module} (hsound : tree.Sound)
    (hresolve : Answers (resolve tree) m) (verbose : Bool) :
    ∃ printed, m.render verbose = .ok printed ∧
      (Module.ofText printed : Except Fault (Except SourceError Module)) = .ok (.ok m) := by
  obtain ⟨hreadable, hreplay⟩ := resolve_replay hsound hresolve
  obtain ⟨printed, hprinted, hrenders⟩ := renders_of_render hreadable verbose
  obtain ⟨located', htokens, hlocated⟩ := tokens_of_renders hrenders
  obtain ⟨tree', hparse', hspells⟩ := parse_of_tokens hreadable hlocated
  exact ⟨printed, hprinted, ofText_eq_ok.2 ⟨located', tree', htokens, hparse', hreplay hspells⟩⟩

/-- Both forms of the text of a module that was read from text can be printed, and reading either
gives the same module again. -/
theorem ofText_render {text : String} {m : Module}
    (h : (Module.ofText text : Except Fault (Except SourceError Module)) = .ok (.ok m))
    (verbose : Bool) :
    ∃ printed, m.render verbose = .ok printed ∧
      (Module.ofText printed : Except Fault (Except SourceError Module)) = .ok (.ok m) := by
  obtain ⟨located, tree, -, hparse, hresolve⟩ := ofText_eq_ok.1 h
  exact render_of_resolve (sound_of_parse hparse) hresolve verbose

/-- A text with a pointer, an escape, a negative constant and numbers out of order. -/
def loopText : String :=
  "module \x7b
    sig0 = (i32) -> ()
    sig1 = (ptr) -> ()
    str0 = \"a\\n\"
    func0 = import \"f\" : sig1
    func1 = func \"g\" : sig0 \x7b
      block7(v5: i32):
        v9 = call func0(str0)
        v2 = i32.const -1
        br block7(v2)
    \x7d
  \x7d"

set_option maxRecDepth 4000 in
lemma exists_ofText_loopText : ∃ m : Module,
    (Module.ofText loopText : Except Fault (Except SourceError Module)) = .ok (.ok m) :=
  exists_ofText_ofList (by decide +kernel)

theorem ofText_render_loopText : ∃ m : Module,
    (Module.ofText loopText : Except Fault (Except SourceError Module)) = .ok (.ok m) ∧
      ∃ printed, m.render true = .ok printed ∧
        (Module.ofText printed : Except Fault (Except SourceError Module)) = .ok (.ok m) := by
  obtain ⟨m, hm⟩ := exists_ofText_loopText
  exact ⟨m, hm, ofText_render hm true⟩

end EntryTrace
