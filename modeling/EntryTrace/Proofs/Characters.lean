import Mathlib
import EntryTrace.Read

/-!
# Texts by their characters

A string literal is `String.ofList` of its characters by definition, while to decode it or to compare
it with another text takes time quadratic in its length. So what is read from a text and what is printed
is also said of characters: `ofText_ofList` and `render_of_chars` leave a fixed text to evaluation.
Reading has two steps, which split the text into tokens and then look what comes of these; only the first
one needs the characters.
-/

namespace EntryTrace

open Source

/-- What comes of tokens. -/
def Source.understand (located : List Located) : Resolving (Except Fault) Module := do
  let tree ← ExceptT.mk (pure (parse located))
  resolve tree

/-- A text is refused as its tokens are. -/
lemma ofText_of_tokens_error {text : String} {e : SourceError} (h : tokens text = .error e) :
    (Module.ofText text : Except Fault (Except SourceError Module)) = .ok (.error e) := by
  unfold Module.ofText
  rw [h]
  rfl

lemma ofText_eq_understand {text : String} {located : List Located} (h : tokens text = .ok located) :
    (Module.ofText text : Except Fault (Except SourceError Module)) = (understand located).run := by
  unfold Module.ofText understand
  rw [h]
  change (ExceptT.mk (pure (parse located)) >>= fun tree => resolve tree >>= fun m => pure m :
    Resolving (Except Fault) Module).run = _
  simp only [bind_pure]

/-- Reading a text that is given by its characters. -/
def Module.ofChars (cs : List Char) : Except Fault (Except SourceError Module) :=
  match readTokens 1 [] cs with
  | .ok located => (understand located).run
  | .error e => .ok (.error e)

theorem ofText_ofList (cs : List Char) :
    (Module.ofText (String.ofList cs) : Except Fault (Except SourceError Module)) =
      Module.ofChars cs := by
  have htokens : tokens (String.ofList cs) = readTokens 1 [] cs := by
    rw [tokens, String.toList_ofList]
  unfold Module.ofChars
  cases hread : readTokens 1 [] cs with
  | ok located => exact ofText_eq_understand (htokens.trans hread)
  | error e => exact ofText_of_tokens_error (htokens.trans hread)

/-- For a fixed text the test is one that evaluation decides. -/
lemma exists_ofText_ofList {cs : List Char}
    (h : ((Module.ofChars cs).toOption.bind Except.toOption).isSome = true) : ∃ m : Module,
      (Module.ofText (String.ofList cs) : Except Fault (Except SourceError Module)) = .ok (.ok m) := by
  rw [ofText_ofList]
  rcases hread : Module.ofChars cs with fault | e | m
  · rw [hread] at h
    cases h
  · rw [hread] at h
    cases h
  · exact ⟨m, rfl⟩

lemma toList_textOfLines (indent : String) (lines : List String) :
    (textOfLines indent lines).toList =
      lines.flatMap fun line => indent.toList ++ line.toList ++ ['\n'] := by
  rw [textOfLines, String.toList_join, List.flatMap_map]
  simp only [String.toList_append]
  rfl

/-- The characters of the text of a module. -/
def Module.chars (m : Module) (verbose : Bool) : Except Fault (List Char) := do
  let inner ← m.innerLines verbose
  pure ("module \x7b\n".toList ++ inner.flatMap (fun line => "  ".toList ++ line.toList ++ ['\n']) ++
    "\x7d\n".toList)

theorem render_of_chars {m : Module} {verbose : Bool} {cs : List Char}
    (h : m.chars verbose = .ok cs) : m.render verbose = .ok (String.ofList cs) := by
  unfold Module.chars at h
  unfold Module.render
  cases hinner : m.innerLines verbose with
  | error fault =>
    rw [hinner] at h
    cases h
  | ok inner =>
    rw [hinner] at h
    obtain rfl := Except.ok.inj h
    refine congrArg Except.ok ?_
    rw [← toList_textOfLines, ← String.toList_append, ← String.toList_append, String.ofList_toList]

end EntryTrace
