import EntryTrace.Body.Build

/-!
# Modules

A module holds functions, the types they have and the strings their bodies point to. The
tables of types and of functions can be used as sets: `internSignature` and `declare` add an
entry only where none answers the question yet.
-/

namespace EntryTrace

/-- A function of a module: only its name and type, or a body as well. -/
inductive Decl
  | imported (signature : Signature) (name : String)
  | defined (signature : Signature) (name : String) (body : Body)
  deriving DecidableEq

namespace Decl

def signature : Decl → Signature
  | .imported signature _ => signature
  | .defined signature _ _ => signature

def name : Decl → String
  | .imported _ name => name
  | .defined _ name _ => name

def isImported : Decl → Bool
  | .imported .. => true
  | .defined .. => false

def body? : Decl → Option Body
  | .imported .. => none
  | .defined _ _ body => some body

/-- The function with another body; an imported one stays as it is. -/
def withBody (body : Body) : Decl → Decl
  | .imported signature name => .imported signature name
  | .defined signature name _ => .defined signature name body

end Decl

structure Module where
  signatures : Table .signature FuncType := {}
  strings : Table .str String := {}
  funcs : Table .func Decl := {}
  deriving DecidableEq

instance : Inhabited Module := ⟨{}⟩

namespace Module

/-- The first function of the name, if there is one. -/
def funcNamed? (module : Module) (name : String) : Option Func :=
  module.funcs.find? (·.name == name)

section Lookup

variable {m : Type → Type} [Monad m] [MonadExceptOf Fault m]

/-- The type a signature stands for. -/
@[specialize] def typeOf (module : Module) (signature : Signature) : m FuncType :=
  module.signatures.get signature

/-- The type of a function. -/
@[specialize] def funcType (module : Module) (func : Func) : m FuncType := do
  let decl ← module.funcs.get func
  module.typeOf decl.signature

@[specialize] def string (module : Module) (str : Str) : m String := module.strings.get str

@[specialize] def addFunc (module : Module) (decl : Decl) : m (Func × Module) := do
  let (func, funcs) ← module.funcs.push decl
  pure (func, { module with funcs })

@[specialize] def addString (module : Module) (s : String) : m (Str × Module) := do
  let (str, strings) ← module.strings.push s
  pure (str, { module with strings })

/-- Adds a type, also one that the table holds already. -/
@[specialize] def addSignature (module : Module) (type : FuncType) : m (Signature × Module) := do
  let (signature, signatures) ← module.signatures.push type
  pure (signature, { module with signatures })

end Lookup

section Interning

variable {m : Type → Type} [Monad m] [MonadExceptOf Fault m] [Journal m]

/-- The first signature that stands for `type`, which is added if there is none. -/
@[specialize] def internSignature (module : Module) (type : FuncType) :
    m (Signature × Module) := do
  match module.signatures.find? (· == type) with
  | some signature => pure (signature, module)
  | none =>
    let (signature, module) ← module.addSignature type
    note .trace fun _ => "get_or_insert_signature: new " ++ signature.text
    pure (signature, module)

/-- The first function of the name, whatever its type; if there is none, an imported function
of the given type is added. -/
@[specialize] def declare (module : Module) (name : String) (type : FuncType) :
    m (Func × Module) := do
  match module.funcNamed? name with
  | some func =>
    let existing ← module.funcType func
    if existing ≠ type then
      note .warn fun _ => "symbol `" ++ name ++ "` already bound as " ++ func.text
        ++ " with signature " ++ existing.text ++ ", requested " ++ type.text
    pure (func, module)
  | none =>
    let (signature, module) ← module.internSignature type
    let (func, module) ← module.addFunc (.imported signature name)
    note .debug fun _ => "declared external function `" ++ name ++ "` as " ++ func.text
    pure (func, module)

end Interning

end Module

section Types

variable {m : Type → Type} [Monad m] [MonadExceptOf Fault m]

/-- The types of the operands that an operator takes. -/
@[specialize] def Operator.inputTypes (op : Operator) (module : Module) : m (List ValueType) :=
  match op with
  | .nop | .const32 _ | .const64 _ => pure []
  | .binary op => pure [op.operandType, op.operandType]
  | .call callee => FuncType.params <$> module.funcType callee

/-- The types of the results that an operator has. -/
@[specialize] def Operator.outputTypes (op : Operator) (module : Module) : m (List ValueType) :=
  match op with
  | .nop => pure []
  | .const32 _ => pure [.i32]
  | .const64 _ => pure [.i64]
  | .binary op => pure [op.resultType]
  | .call callee => FuncType.returns <$> module.funcType callee

end Types

end EntryTrace
