import EntryTrace.Source.Lexer
import EntryTrace.Source.Resolve

/-!
# Reading modules

A text is split into tokens, the tokens form a tree, and the tree is made into a module.
-/

namespace EntryTrace

open Source

variable {m : Type → Type} [Monad m] [MonadExceptOf Fault m] [Journal m]

/-- The module that a text describes, or why it describes none. -/
@[specialize] def Module.ofText (text : String) : m (Except SourceError Module) :=
  ExceptT.run do
    let tokens ← ExceptT.mk (pure (tokens text))
    step (note .trace fun _ => "frontend: " ++ toString tokens.length ++ " tokens")
    let tree ← ExceptT.mk (pure (parse tokens))
    let module ← resolve tree
    step (note .debug fun _ => "frontend: parsed module with " ++ toString module.funcs.size
      ++ " funcs, " ++ toString module.signatures.size ++ " signatures, "
      ++ toString module.strings.size ++ " strings")
    pure module

end EntryTrace
