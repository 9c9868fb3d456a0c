import EntryTrace.Fault

/-!
# Journals

Most operations can fault, and note what they do in a journal. They are written for any monad
that offers both. Two such monads matter: `Except Fault` keeps no journal, and `Recorded` keeps
the notes up to a level. The text of a note is made only where it is kept, and making it may
itself fault.
-/

namespace EntryTrace

/-- How important a note is. -/
inductive Level
  | warn
  | info
  | debug
  | trace
  deriving DecidableEq

namespace Level

def rank : Level → Nat
  | .warn => 0
  | .info => 1
  | .debug => 2
  | .trace => 3

def name : Level → String
  | .warn => "WARN"
  | .info => "INFO"
  | .debug => "DEBUG"
  | .trace => "TRACE"

end Level

/-- A monad that takes notes. -/
class Journal (m : Type → Type) where
  note : Level → (Unit → Except Fault String) → m Unit

/-- Notes a text that needs no printing. -/
@[inline] def note {m : Type → Type} [Journal m] (level : Level) (text : Unit → String) : m Unit :=
  Journal.note level fun _ => .ok (text ())

/-- Notes a text whose printing may fault. -/
@[inline] def notePrinted {m : Type → Type} [Journal m] (level : Level)
    (text : Unit → Except Fault String) : m Unit :=
  Journal.note level text

instance : Journal (Except Fault) := ⟨fun _ _ => pure ()⟩

instance {ε : Type} {m : Type → Type} [Monad m] [Journal m] : Journal (ExceptT ε m) :=
  ⟨fun level text => ExceptT.lift (Journal.note level text)⟩

instance {σ : Type} {m : Type → Type} [Monad m] [Journal m] : Journal (StateT σ m) :=
  ⟨fun level text => StateT.lift (Journal.note level text)⟩

@[simp] theorem note_silent (level : Level) (text : Unit → String) :
    (note level text : Except Fault Unit) = .ok () := rfl

@[simp] theorem notePrinted_silent (level : Level) (text : Unit → Except Fault String) :
    (notePrinted level text : Except Fault Unit) = .ok () := rfl

/-- A note that was kept. -/
structure Record where
  level : Level
  message : String
  deriving DecidableEq

/-- Keeps the notes up to a level, those before a fault included; no level keeps none. -/
abbrev Recorded := ReaderT (Option Level) (ExceptT Fault (StateM (Array Record)))

namespace Recorded

/-- Is a note of level `level` kept when the journal goes down to `threshold`? -/
def admits (threshold : Option Level) (level : Level) : Bool :=
  match threshold with
  | some t => level.rank ≤ t.rank
  | none => false

instance : Journal Recorded where
  note level text threshold :=
    if admits threshold level then do
      match text () with
      | .ok message => modify (·.push ⟨level, message⟩)
      | .error fault => throw fault
    else
      pure ()

/-- The outcome of an activity and the notes it took. -/
def perform {α : Type} (activity : Recorded α) (threshold : Option Level) :
    Except Fault α × List Record :=
  let (outcome, records) := (activity threshold).run #[]
  (outcome, records.toList)

end Recorded

section Faults

variable {m : Type → Type} [Monad m] [MonadExceptOf Fault m]

@[inline] def fault {α : Type} (f : Fault) : m α := throwThe Fault f

/-- The value, or its fault. -/
@[inline] def orFault {α : Type} (f : Fault) : Option α → m α
  | some a => pure a
  | none => fault f

/-- Brings an outcome without notes into a monad with them. -/
@[inline] def liftFault {α : Type} : Except Fault α → m α
  | .ok a => pure a
  | .error f => fault f

/-- Faults unless `p` holds. -/
@[inline] def check (p : Bool) : m Unit := if p then pure () else fault .checkFailed

@[simp] theorem liftFault_except {α : Type} (x : Except Fault α) :
    (liftFault x : Except Fault α) = x := by
  cases x <;> rfl

end Faults

section Tables

variable {m : Type → Type} [Monad m] [MonadExceptOf Fault m] {kind : Kind} {α : Type}

/-- The entity of index `n`, if there can be one. -/
def Entity.ofIndex (n : Nat) : m (Entity kind) :=
  if n < Entity.limit then pure ⟨n⟩ else fault (.indexOutOfRange kind n)

namespace Table

/-- Adds an element at the end and answers its entity. -/
def push (t : Table kind α) (a : α) : m (Entity kind × Table kind α) := do
  let e ← Entity.ofIndex t.size
  pure (e, t.append a)

/-- The element of an entity, which has to be in the table. -/
def get (t : Table kind α) (e : Entity kind) : m α := orFault .outsideTable (t.get? e)

/-- Changes the element of an entity, which has to be in the table. -/
def update (t : Table kind α) (e : Entity kind) (f : α → α) : m (Table kind α) :=
  if e.index < t.size then pure (t.modify e f) else fault .outsideTable

end Table

end Tables

end EntryTrace
