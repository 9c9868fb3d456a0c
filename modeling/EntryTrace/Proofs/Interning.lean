import EntryTrace.Proofs.Tables

/-!
# Signatures and functions that are found or added

`Module.interned` and `Module.declared` are the modules that interning a type and declaring a
function leave behind, with `Module.signatureOf` and `Module.funcOf` for what is answered. Both
operations succeed as long as the tables they leave behind do not exceed the limit.
-/

namespace EntryTrace

namespace Module

/-- The lowest signature of a type, or else the one that is added for it. -/
def signatureOf (m : Module) (type : FuncType) : Signature :=
  (m.signatures.find? (· == type)).getD ⟨m.signatures.size⟩

/-- The module with a signature for a type, added only where there was none. -/
def interned (m : Module) (type : FuncType) : Module :=
  if (m.signatures.find? (· == type)).isSome then m
  else { m with signatures := m.signatures.append type }

/-- The first function of a name, or else the one that is added for it. -/
def funcOf (m : Module) (name : String) : Func := (m.funcNamed? name).getD ⟨m.funcs.size⟩

/-- The module with a function of a name: where there was none, an imported one of the given
type is added. -/
def declared (m : Module) (name : String) (type : FuncType) : Module :=
  if (m.funcNamed? name).isSome then m
  else
    { m.interned type with
      funcs := m.funcs.append (.imported (m.signatureOf type) name) }

/-- The signature of every function is in the table. -/
def SignaturesInRange (m : Module) : Prop :=
  ∀ decl ∈ m.funcs.toList, decl.signature.index < m.signatures.size

instance (m : Module) : Decidable m.SignaturesInRange :=
  inferInstanceAs (Decidable (∀ decl ∈ m.funcs.toList, decl.signature.index < m.signatures.size))

variable {m : Module}

lemma funcType_eq_ok {func : Func} {type : FuncType} :
    (m.funcType func : Except Fault _) = .ok type ↔
      ∃ decl, m.funcs.get? func = some decl ∧ m.signatures.get? decl.signature = some type := by
  simp [funcType, typeOf, bind_eq_ok]

lemma SignaturesInRange.funcType_of_lt (h : m.SignaturesInRange) {func : Func}
    (hfunc : func.index < m.funcs.size) : ∃ type, (m.funcType func : Except Fault _) = .ok type := by
  obtain ⟨decl, hdecl⟩ := Table.get?_of_lt hfunc
  obtain ⟨type, htype⟩ := Table.get?_of_lt (h decl (Table.mem_of_get? hdecl))
  exact ⟨type, funcType_eq_ok.2 ⟨decl, hdecl, htype⟩⟩

lemma lt_of_funcNamed? {name : String} {func : Func} (h : m.funcNamed? name = some func) :
    func.index < m.funcs.size := by
  obtain ⟨decl, hdecl, -⟩ := Table.find?_get? h
  exact Table.get?_lt hdecl

lemma SignaturesInRange.funcType (h : m.SignaturesInRange) {name : String} {func : Func}
    (hfunc : m.funcNamed? name = some func) :
    ∃ type, (m.funcType func : Except Fault _) = .ok type :=
  h.funcType_of_lt (lt_of_funcNamed? hfunc)

@[simp] lemma funcs_interned (type : FuncType) : (m.interned type).funcs = m.funcs := by
  unfold interned
  split <;> rfl

@[simp] lemma strings_interned (type : FuncType) : (m.interned type).strings = m.strings := by
  unfold interned
  split <;> rfl

lemma size_signatures_interned (type : FuncType) :
    m.signatures.size ≤ (m.interned type).signatures.size := by
  unfold interned
  split
  · exact le_refl _
  · rw [Table.size_append]
    exact Nat.le_succ _

lemma get?_signatureOf (type : FuncType) :
    (m.interned type).signatures.get? (m.signatureOf type) = some type := by
  unfold interned signatureOf
  cases hfind : m.signatures.find? (· == type) with
  | some signature =>
    obtain ⟨found, hfound, heq⟩ := Table.find?_get? hfind
    simpa [hfound] using heq
  | none => simp

lemma internSignature_eq_ok {type : FuncType}
    (hsize : (m.interned type).signatures.size ≤ Entity.limit) :
    (m.internSignature type : Except Fault _) = .ok (m.signatureOf type, m.interned type) := by
  unfold internSignature
  unfold interned signatureOf at *
  cases hfind : m.signatures.find? (· == type) with
  | some signature => simp
  | none =>
    have hroom : m.signatures.size < Entity.limit := by simpa [hfind, Nat.succ_le_iff] using hsize
    have hpush : (m.signatures.push type : Except Fault _) =
        .ok (⟨m.signatures.size⟩, m.signatures.append type) := Table.push_eq_ok.2 ⟨hroom, rfl⟩
    simp [addSignature, hpush]

@[simp] lemma strings_declared (name : String) (type : FuncType) :
    (m.declared name type).strings = m.strings := by
  unfold declared
  split
  · rfl
  · exact strings_interned type

lemma funcNamed?_declared (name : String) (type : FuncType) :
    (m.declared name type).funcNamed? name = some (m.funcOf name) := by
  unfold declared funcOf
  cases h : m.funcNamed? name with
  | some func => simpa using h
  | none =>
    rw [funcNamed?] at h
    simp [funcNamed?, Table.find?_append, h]

@[simp] lemma funcOf_declared (name : String) (type : FuncType) :
    (m.declared name type).funcOf name = m.funcOf name := by
  rw [funcOf, funcNamed?_declared, Option.getD_some]

lemma SignaturesInRange.declared (h : m.SignaturesInRange) (name : String) (type : FuncType) :
    (m.declared name type).SignaturesInRange := by
  unfold Module.declared
  split
  · exact h
  · intro decl hdecl
    simp only [Table.toList_append, List.mem_append, List.mem_singleton] at hdecl
    rcases hdecl with hdecl | rfl
    · exact (h decl hdecl).trans_le (size_signatures_interned type)
    · exact Table.get?_lt (get?_signatureOf type)

lemma declare_bound {name : String} {func : Func} {type existing : FuncType}
    (hfunc : m.funcNamed? name = some func)
    (htype : (m.funcType func : Except Fault _) = .ok existing) :
    (m.declare name type : Except Fault _) = .ok (func, m) := by
  simp [declare, hfunc, htype]

lemma declare_eq_ok {name : String} {type : FuncType} (hsig : m.SignaturesInRange)
    (hsignatures : (m.declared name type).signatures.size ≤ Entity.limit)
    (hfuncs : (m.declared name type).funcs.size ≤ Entity.limit) :
    (m.declare name type : Except Fault _) = .ok (m.funcOf name, m.declared name type) := by
  unfold declare
  unfold declared funcOf at *
  cases hnamed : m.funcNamed? name with
  | some func =>
    obtain ⟨existing, htype⟩ := hsig.funcType hnamed
    have hbound : (m.declare name type : Except Fault _) = .ok (func, m) :=
      declare_bound hnamed htype
    simpa [declare, hnamed] using hbound
  | none =>
    rw [hnamed, Option.isSome_none, if_neg Bool.false_ne_true] at hsignatures hfuncs
    rw [Table.size_append] at hfuncs
    have hpush : (m.funcs.push (.imported (m.signatureOf type) name) : Except Fault _) =
        .ok (⟨m.funcs.size⟩, m.funcs.append (.imported (m.signatureOf type) name)) :=
      Table.push_eq_ok.2 ⟨hfuncs, rfl⟩
    simp [internSignature_eq_ok hsignatures, addFunc, hpush]

lemma eq_of_internSignature {type : FuncType} {r : Signature × Module}
    (h : (m.internSignature type : Except Fault _) = .ok r) :
    r = (m.signatureOf type, m.interned type) := by
  unfold internSignature at h
  unfold interned signatureOf
  cases hfind : m.signatures.find? (· == type) with
  | some signature =>
    simp only [hfind, pure_eq_ok, Except.ok.injEq] at h
    simp [← h]
  | none =>
    simp only [hfind, addSignature, bind_eq_ok, Table.push_eq_ok, pure_eq_ok, Except.ok.injEq,
      note_silent] at h
    obtain ⟨_, ⟨_, ⟨-, rfl⟩, rfl⟩, _, -, rfl⟩ := h
    simp

lemma eq_of_declare {name : String} {type : FuncType} {r : Func × Module}
    (h : (m.declare name type : Except Fault _) = .ok r) :
    r = (m.funcOf name, m.declared name type) := by
  unfold declare at h
  unfold declared funcOf
  cases hnamed : m.funcNamed? name with
  | some func =>
    simp only [hnamed, bind_eq_ok, pure_eq_ok, note_silent] at h
    obtain ⟨existing, -, h⟩ := h
    have hr : r = (func, m) := by
      split at h
      · obtain ⟨-, -, h⟩ := bind_eq_ok.1 h
        exact (Except.ok.inj h).symm
      · exact (Except.ok.inj h).symm
    simp [hr]
  | none =>
    simp only [hnamed, addFunc, bind_eq_ok, Table.push_eq_ok, pure_eq_ok, Except.ok.injEq,
      note_silent] at h
    obtain ⟨_, hintern, _, ⟨_, ⟨-, rfl⟩, rfl⟩, _, -, rfl⟩ := h
    obtain rfl := eq_of_internSignature hintern
    simp

/-- A type that was added had room. -/
lemma signatures_le_of_internSignature {type : FuncType} {r : Signature × Module}
    (h : (m.internSignature type : Except Fault _) = .ok r) (hlimit : m.signatures.size ≤ Entity.limit) :
    (m.interned type).signatures.size ≤ Entity.limit := by
  unfold internSignature at h
  unfold interned
  cases hfind : m.signatures.find? (· == type) with
  | some signature => exact hlimit
  | none =>
    simp only [hfind, addSignature, bind_eq_ok, Table.push_eq_ok] at h
    obtain ⟨_, ⟨_, ⟨hroom, -⟩, -⟩, -⟩ := h
    simpa [Nat.succ_le_iff] using hroom

/-- A function that was declared had room, and so had its type. -/
lemma sizes_le_of_declare {name : String} {type : FuncType} {r : Func × Module}
    (h : (m.declare name type : Except Fault _) = .ok r) (hsignatures : m.signatures.size ≤ Entity.limit)
    (hfuncs : m.funcs.size ≤ Entity.limit) :
    (m.declared name type).signatures.size ≤ Entity.limit ∧
      (m.declared name type).funcs.size ≤ Entity.limit := by
  unfold declare at h
  unfold declared
  cases hnamed : m.funcNamed? name with
  | some func => exact ⟨hsignatures, hfuncs⟩
  | none =>
    simp only [hnamed, addFunc, bind_eq_ok, Table.push_eq_ok] at h
    obtain ⟨_, hintern, _, ⟨_, ⟨hroom, -⟩, -⟩, -⟩ := h
    obtain rfl := eq_of_internSignature hintern
    refine ⟨signatures_le_of_internSignature hintern hsignatures, ?_⟩
    rw [funcs_interned] at hroom
    simpa [Nat.succ_le_iff] using hroom

end Module

end EntryTrace
