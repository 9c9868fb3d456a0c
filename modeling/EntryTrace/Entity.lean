/-!
# Numbered entities

Signatures, functions, blocks, values and strings are referred to by their position in a
table. An `Entity` is such a position together with the kind of table it points into, so that
a block cannot be used where a value is meant.
-/

namespace EntryTrace

/-- The kinds of things that a module numbers. -/
inductive Kind
  | signature
  | func
  | block
  | value
  | str
  deriving DecidableEq

/-- The word written in front of the number of an entity of this kind. -/
def Kind.label : Kind → String
  | .signature => "sig"
  | .func => "func"
  | .block => "block"
  | .value => "v"
  | .str => "str"

/-- The position of something of the given kind in its table. -/
structure Entity (kind : Kind) where
  index : Nat
  deriving DecidableEq

/-- How many entities of one kind there can be. -/
def Entity.limit : Nat := 4294967295

/-- The entity that stands for nothing yet: its index lies just past every usable one. -/
def Entity.unset {kind : Kind} : Entity kind := ⟨Entity.limit⟩

instance {kind : Kind} : Inhabited (Entity kind) := ⟨Entity.unset⟩

def Entity.isUnset {kind : Kind} (e : Entity kind) : Bool := e.index == Entity.limit

/-- An entity is written as its label and number, the unset one with a question mark. -/
def Entity.text {kind : Kind} (e : Entity kind) : String :=
  kind.label ++ if e.isUnset then "?" else toString e.index

instance {kind : Kind} : ToString (Entity kind) := ⟨Entity.text⟩

abbrev Signature := Entity .signature
abbrev Func := Entity .func
abbrev Block := Entity .block
abbrev Value := Entity .value
abbrev Str := Entity .str

end EntryTrace
