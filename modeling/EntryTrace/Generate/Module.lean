import EntryTrace.Generate.Supply
import EntryTrace.Module

/-!
# Modules drawn from bytes

Any bytes give a module. Its functions have one block each, which computes 32-bit words from
constants, the argument and calls of functions before it. Some of the names are those of
helpers, and others only look like them.
-/

namespace EntryTrace

namespace Generate

def maxFuncs : Nat := 12

def maxInsts : Nat := 16

/-- How names go on after the first choice. -/
def otherStems : List String := ["helper", "main", "my_helper_", "Helper_", "f"]

/-- Work that draws from a supply. -/
abbrev Drawing (m : Type → Type) := StateT Supply m

variable {m : Type → Type} [Monad m] [MonadExceptOf Fault m] [Journal m]

@[inline] def draw {α : Type} (f : Supply → α × Supply) : Drawing m α :=
  fun supply => pure (f supply)

/-- A body in the making, with the words computed so far, in order. -/
structure Draft where
  body : Body
  words : List Value

namespace Draft

/-- Adds an instruction that computes a word. -/
@[specialize] def addInst (draft : Draft) (op : Operator) (args : List Value)
    (types : List ValueType) : m Draft := do
  let (value, body) ← draft.body.addValue (.inst op args types)
  let body ← body.appendInst body.entry value
  pure ⟨body, draft.words ++ [value]⟩

/-- One of `first` and `others` for each parameter. -/
@[specialize] def drawArgs (first : Value) (others : List Value) :
    List ValueType → Drawing m (List Value)
  | [] => pure []
  | _ :: rest => do
    let arg ← draw (Supply.choose first others)
    let args ← drawArgs first others rest
    pure (arg :: args)

/-- A call of a function that the module has already, unless it needs arguments and there are no
words yet. -/
@[specialize] def drawCall (draft : Draft) (module : Module) : Drawing m Draft := do
  let callee ← draw (Supply.between 8 0 (module.funcs.size - 1))
  let op : Operator := .call ⟨callee⟩
  let params ← (op.inputTypes module : m _)
  match params, draft.words with
  | [], _ =>
    let types ← (op.outputTypes module : m _)
    (draft.addInst op [] types : m _)
  | _ :: _, [] => pure draft
  | params, first :: others =>
    let args ← drawArgs first others params
    let types ← (op.outputTypes module : m _)
    (draft.addInst op args types : m _)

/-- Adds an instruction, or nothing where the drawn kind is not possible yet. -/
@[specialize] def drawInst (draft : Draft) (module : Module) : Drawing m Draft := do
  match ← draw (Supply.between 1 0 2), draft.words with
  | 0, _ =>
    let value ← draw Supply.word32
    (draft.addInst (.const32 value) [] [.i32] : m _)
  | 1, first :: others =>
    let left ← draw (Supply.choose first others)
    let right ← draw (Supply.choose first others)
    (draft.addInst (.binary .add32) [left, right] [.i32] : m _)
  | 2, _ => if module.funcs.isEmpty then pure draft else draft.drawCall module
  | _, _ => pure draft

@[specialize] def drawInsts (module : Module) : Nat → Draft → Drawing m Draft
  | 0, draft => pure draft
  | n + 1, draft => do
    let draft ← draft.drawInst module
    drawInsts module n draft

/-- Ends the body with the return of the last word, which is zero if there was none. -/
@[specialize] def finish (draft : Draft) : m Body := do
  match draft.words.getLast? with
  | some value => draft.body.endBlock draft.body.entry (.ret [value])
  | none =>
    let draft ← draft.addInst (.const32 0) [] [.i32]
    draft.body.endBlock draft.body.entry (.ret draft.words)

end Draft

@[specialize] def drawBody (module : Module) (signature : Signature) : Drawing m Body := do
  let type ← (module.typeOf signature : m _)
  let body ← (Body.ofType type : m _)
  let entry ← (body.blocks.get body.entry : m _)
  let count ← draw (Supply.between 8 0 maxInsts)
  let draft ← Draft.drawInsts module count ⟨body, entry.paramValues⟩
  (draft.finish : m _)

/-- Adds a function with one of the two signatures. -/
@[specialize] def drawFunc (module : Module) (nullary unary : Signature) : Drawing m Module := do
  let signature ← draw (Supply.choose nullary [unary])
  let stem ← draw (Supply.choose "helper_" otherStems)
  let number ← draw (Supply.between 4 0 99)
  let name := stem ++ toString number
  let imported ← draw Supply.bool
  if imported then
    let (_, module) ← (module.addFunc (.imported signature name) : m _)
    pure module
  else
    let body ← drawBody module signature
    let (_, module) ← (module.addFunc (.defined signature name body) : m _)
    pure module

@[specialize] def drawFuncs (nullary unary : Signature) : Nat → Module → Drawing m Module
  | 0, module => pure module
  | n + 1, module => do
    let module ← drawFunc module nullary unary
    drawFuncs nullary unary n module

end Generate

open Generate in
/-- The module that a supply gives, and what is left of the supply. -/
@[specialize] def Module.generate {m : Type → Type} [Monad m] [MonadExceptOf Fault m] [Journal m]
    (supply : Supply) : m (Module × Supply) := do
  let (nullary, module) ← ({} : Module).internSignature ⟨[], [.i32]⟩
  let (unary, module) ← module.internSignature ⟨[.i32], [.i32]⟩
  let (count, supply) := Supply.between 8 0 maxFuncs supply
  (drawFuncs nullary unary count module).run supply

end EntryTrace
