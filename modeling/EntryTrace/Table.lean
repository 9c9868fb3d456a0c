import EntryTrace.Entity

/-!
# Tables of entities

A `Table` holds the things of one kind in the order they were made, and a `SideTable` holds a
remark about each of them, with a default for those that nothing was said about.
-/

namespace EntryTrace

/-- The things of one kind, each at the index of its entity. -/
structure Table (kind : Kind) (α : Type) where
  items : Array α := #[]

namespace Table

variable {kind : Kind} {α β : Type}

instance : Inhabited (Table kind α) := ⟨{}⟩

instance [DecidableEq α] : DecidableEq (Table kind α) := fun s t =>
  decidable_of_iff (s.items = t.items) (by cases s; cases t; simp)

def size (t : Table kind α) : Nat := t.items.size

def isEmpty (t : Table kind α) : Bool := t.items.isEmpty

def toList (t : Table kind α) : List α := t.items.toList

def ofList (items : List α) : Table kind α := ⟨items.toArray⟩

def get? (t : Table kind α) (e : Entity kind) : Option α := t.items[e.index]?

/-- The entities of a table, in order. -/
def ids (t : Table kind α) : List (Entity kind) := (List.range t.size).map Entity.mk

/-- The entities of a table, each with what it stands for. -/
def entries (t : Table kind α) : List (Entity kind × α) :=
  t.toList.zipIdx.map fun (a, i) => (⟨i⟩, a)

/-- The lowest entity whose element satisfies `p`. -/
def find? (t : Table kind α) (p : α → Bool) : Option (Entity kind) :=
  (t.items.findIdx? p).map Entity.mk

/-- Adds an element at the end, without looking whether an index is left for it. -/
def append (t : Table kind α) (a : α) : Table kind α := ⟨t.items.push a⟩

/-- Replaces an element; outside the table nothing changes. -/
def set (t : Table kind α) (e : Entity kind) (a : α) : Table kind α :=
  ⟨t.items.setIfInBounds e.index a⟩

/-- Changes one element; outside the table nothing changes. -/
def modify (t : Table kind α) (e : Entity kind) (f : α → α) : Table kind α :=
  ⟨t.items.modify e.index f⟩

def map (t : Table kind α) (f : α → β) : Table kind β := ⟨t.items.map f⟩

@[simp] theorem toList_append (t : Table kind α) (a : α) :
    (t.append a).toList = t.toList ++ [a] := by
  simp [append, toList]

@[simp] theorem size_append (t : Table kind α) (a : α) : (t.append a).size = t.size + 1 := by
  simp [append, size]

@[simp] theorem size_set (t : Table kind α) (e : Entity kind) (a : α) :
    (t.set e a).size = t.size := by
  simp [set, size]

@[simp] theorem size_modify (t : Table kind α) (e : Entity kind) (f : α → α) :
    (t.modify e f).size = t.size := by
  simp [modify, size]

theorem get?_append (t : Table kind α) (a : α) (e : Entity kind) :
    (t.append a).get? e = if e.index = t.size then some a else t.get? e := by
  simp only [append, get?, size, Array.getElem?_push]
  rfl

end Table

/-- A remark about each entity of a kind; `default` where none was made. -/
structure SideTable (kind : Kind) (α : Type) where
  items : Array α := #[]

namespace SideTable

instance {kind : Kind} {α : Type} [DecidableEq α] : DecidableEq (SideTable kind α) := fun s t =>
  decidable_of_iff (s.items = t.items) (by cases s; cases t; simp)

variable {kind : Kind} {α : Type} [Inhabited α]

instance : Inhabited (SideTable kind α) := ⟨{}⟩

def get (t : SideTable kind α) (e : Entity kind) : α := t.items[e.index]?.getD default

/-- Sets the remark about `e`; entities before it that have none get the default. -/
def set (t : SideTable kind α) (e : Entity kind) (a : α) : SideTable kind α :=
  if e.index < t.items.size then
    ⟨t.items.setIfInBounds e.index a⟩
  else
    ⟨(t.items ++ Array.replicate (e.index - t.items.size) default).push a⟩

/-- After `set`, exactly the remark about that entity is new. -/
theorem get_set (t : SideTable kind α) (e e' : Entity kind) (a : α) :
    (t.set e a).get e' = if e' = e then a else t.get e' := by
  obtain ⟨i⟩ := e
  obtain ⟨j⟩ := e'
  unfold set get
  by_cases hi : i < t.items.size
  · by_cases hj : j = i
    · simp [hi, hj]
    · simp [hi, hj, Ne.symm hj]
  · have hs : t.items.size + (i - t.items.size) = i := by omega
    simp only [hi, if_false, Entity.mk.injEq, Array.getElem?_push, Array.size_append,
      Array.size_replicate, hs, Array.getElem?_append, Array.getElem?_replicate]
    by_cases hj : j = i
    · simp [hj]
    · by_cases hlt : j < t.items.size
      · simp [hj, hlt]
      · have hnone : t.items[j]? = none := by simp; omega
        simp only [hj, hlt, if_false, hnone, Option.getD_none]
        split <;> rfl

end SideTable

end EntryTrace
