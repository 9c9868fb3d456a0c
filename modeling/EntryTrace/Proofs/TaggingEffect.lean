import EntryTrace.Proofs.Interning
import EntryTrace.Pass.Pipeline

/-!
# What tagging does to a module

`Module.taggedTimes m n` writes down the module that `n` runs of tagging make of `m`: the table
of each kind as a whole, the new values of each helper with the strings they point to, and the
calls in front of its entry block. The main theorem says that running the pass `n` times gives
that module and reports a change each time.
-/

namespace EntryTrace

/-- The body of a helper after `n` runs; `str r` is the string that run `r` adds for it. Each
run adds a pointer and a call, and the call of a later run stands before those of earlier ones. -/
def Body.taggedTimes (body : Body) (callee : Func) (returns : List ValueType) (str : Nat → Str)
    (n : Nat) : Body :=
  let width := body.values.size
  { body with
    values := .ofList (body.values.toList ++ (List.range n).flatMap fun r =>
      [.strRef (str r), .inst (.call callee) [⟨width + 2 * r⟩] returns])
    blocks := body.blocks.modify body.entry fun b =>
      { b with insts := ((List.range n).map fun r => ⟨width + 2 * r + 1⟩).reverse ++ b.insts }
    home := (List.range n).foldl (fun home r => home.set ⟨width + 2 * r + 1⟩ body.entry)
      body.home }

/-- A function after `n` runs: only helpers change. -/
def Decl.taggedTimes (callee : Func) (returns : List ValueType) (str : Nat → Str) (n : Nat) :
    Decl → Decl
  | .imported signature name => .imported signature name
  | .defined signature name body =>
    if isHelperName name then .defined signature name (body.taggedTimes callee returns str n)
    else .defined signature name body

/-- Functions after `n` runs, where `j` counts the helpers before them and `str j r` is the
string that run `r` adds for helper `j`. -/
def declsTaggedTimes (callee : Func) (returns : List ValueType) (str : Nat → Nat → Str) (n : Nat) :
    Nat → List Decl → List Decl
  | _, [] => []
  | j, decl :: rest =>
    decl.taggedTimes callee returns (str j) n ::
      declsTaggedTimes callee returns str n (if decl.isHelper then j + 1 else j) rest

/-- The tags of the helpers among functions, in order. -/
def helperTags (decls : List Decl) : List String :=
  (decls.filter Decl.isHelper).map fun decl => tagFor decl.name

namespace Module

/-- The module once the function that tags are handed to is declared. -/
def withTagCallee (m : Module) : Module := m.declared tagCallee tagCalleeType

/-- What the function that tags are handed to returns, once it is declared. -/
def tagReturns (m : Module) : List ValueType :=
  match (m.funcs.get? (m.funcOf tagCallee)).bind fun decl => m.signatures.get? decl.signature with
  | some type => type.returns
  | none => []

/-- The functions after `n` runs. Each run adds one string for every helper, in order. -/
def taggedDecls (m : Module) (n : Nat) : List Decl :=
  let tags := helperTags m.funcs.toList
  declsTaggedTimes (m.funcOf tagCallee) m.withTagCallee.tagReturns
    (fun j r => ⟨m.strings.size + r * tags.length + j⟩) n 0 m.withTagCallee.funcs.toList

/-- The module after `n` runs of tagging, of which there is at least one. -/
def taggedTimes (m : Module) (n : Nat) : Module :=
  { m.withTagCallee with
    strings := .ofList (m.strings.toList ++ (List.replicate n (helperTags m.funcs.toList)).flatten)
    funcs := .ofList (m.taggedDecls n) }

/-- No table of the module has as many entries as there are entities. -/
structure BelowLimit (m : Module) : Prop where
  signatures : m.signatures.size < Entity.limit
  strings : m.strings.size < Entity.limit
  funcs : m.funcs.size < Entity.limit
  blocks : ∀ decl ∈ m.funcs.toList, ∀ body ∈ decl.body?, body.blocks.size < Entity.limit
  values : ∀ decl ∈ m.funcs.toList, ∀ body ∈ decl.body?, body.values.size < Entity.limit

instance (m : Module) : Decidable m.BelowLimit :=
  decidable_of_iff
    (m.signatures.size < Entity.limit ∧ m.strings.size < Entity.limit ∧
      m.funcs.size < Entity.limit ∧
      (∀ decl ∈ m.funcs.toList, ∀ body ∈ decl.body?, body.blocks.size < Entity.limit) ∧
      ∀ decl ∈ m.funcs.toList, ∀ body ∈ decl.body?, body.values.size < Entity.limit)
    ⟨fun ⟨h1, h2, h3, h4, h5⟩ => ⟨h1, h2, h3, h4, h5⟩,
      fun ⟨h1, h2, h3, h4, h5⟩ => ⟨h1, h2, h3, h4, h5⟩⟩

/-- The entry block of every helper is one of its blocks. -/
def HelperEntriesInRange (m : Module) : Prop :=
  ∀ decl ∈ m.funcs.toList, decl.isHelper = true → ∀ body ∈ decl.body?,
    body.entry.index < body.blocks.size

instance (m : Module) : Decidable m.HelperEntriesInRange :=
  inferInstanceAs (Decidable (∀ decl ∈ m.funcs.toList, decl.isHelper = true → ∀ body ∈ decl.body?,
    body.entry.index < body.blocks.size))

end Module

/-- Runs a pass `n` times, and answers what each run reported. -/
def Pass.runTimes (pass : Pass (Except Fault)) : Nat → Module → Except Fault (List Bool × Module)
  | 0, m => pure ([], m)
  | n + 1, m => do
    let (changed, m) ← pass.run m
    let (rest, m) ← pass.runTimes n m
    pure (changed :: rest, m)

/-! ### One run on a body -/

namespace Body

variable {callee : Func} {returns : List ValueType} {str : Nat → Str}

@[simp] lemma taggedTimes_zero (body : Body) : body.taggedTimes callee returns str 0 = body := by
  obtain ⟨paramCount, rets, entry, blocks, values, home⟩ := body
  simp [taggedTimes, Table.modify_eq_self]

lemma size_values_taggedTimes (body : Body) (n : Nat) :
    (body.taggedTimes callee returns str n).values.size = body.values.size + 2 * n := by
  simp [taggedTimes, Table.length_toList, Nat.mul_comm]

/-- The body after one run: a pointer and a call of it are added, and the call is put in front. -/
def tagged (body : Body) (callee : Func) (returns : List ValueType) (s : Str) : Body :=
  { body with
    values := (body.values.append (.strRef s)).append
      (.inst (.call callee) [⟨body.values.size⟩] returns)
    blocks := body.blocks.modify body.entry fun b =>
      { b with insts := ⟨body.values.size + 1⟩ :: b.insts }
    home := body.home.set ⟨body.values.size + 1⟩ body.entry }

lemma tag_eq_ok {body : Body} {s : Str} {r : Value × Body} :
    (body.tag callee returns s : Except Fault _) = .ok r ↔
      body.entry.index < body.blocks.size ∧ body.values.size + 1 < Entity.limit ∧
        r = (⟨body.values.size + 1⟩, body.tagged callee returns s) := by
  simp only [tag, bind_eq_ok, addValue_eq_ok, prependInst_eq_ok, pure_eq_ok, Except.ok.injEq]
  constructor
  · rintro ⟨_, ⟨-, rfl⟩, _, ⟨hsize, rfl⟩, _, ⟨hentry, rfl⟩, rfl⟩
    rw [Table.size_append] at hsize
    refine ⟨hentry, hsize, ?_⟩
    simp only [Table.size_append, tagged]
  · rintro ⟨hentry, hsize, rfl⟩
    refine ⟨_, ⟨by omega, rfl⟩, _, ⟨by rw [Table.size_append]; exact hsize, rfl⟩, _,
      ⟨hentry, rfl⟩, ?_⟩
    simp only [Table.size_append, tagged]

lemma tag_taggedTimes {body : Body} {n : Nat} (hentry : body.entry.index < body.blocks.size)
    (hfits : body.values.size + 2 * n + 1 < Entity.limit) :
    ((body.taggedTimes callee returns str n).tag callee returns (str n) : Except Fault _) =
      .ok (⟨body.values.size + 2 * n + 1⟩, body.taggedTimes callee returns str (n + 1)) := by
  rw [tag_eq_ok, size_values_taggedTimes]
  refine ⟨by simpa [taggedTimes] using hentry, hfits, ?_⟩
  have hvalues : ((body.taggedTimes callee returns str n).tagged callee returns (str n)).values =
      (body.taggedTimes callee returns str (n + 1)).values := by
    apply Table.ext
    rw [tagged, size_values_taggedTimes]
    simp [taggedTimes, List.range_succ]
  have hblocks : ((body.taggedTimes callee returns str n).tagged callee returns (str n)).blocks =
      (body.taggedTimes callee returns str (n + 1)).blocks := by
    rw [tagged, size_values_taggedTimes]
    simp [taggedTimes, Table.modify_modify, List.range_succ]
  have hhome : ((body.taggedTimes callee returns str n).tagged callee returns (str n)).home =
      (body.taggedTimes callee returns str (n + 1)).home := by
    rw [tagged, size_values_taggedTimes]
    simp [taggedTimes, List.range_succ]
  exact Prod.ext rfl (Body.ext rfl rfl rfl hblocks.symm hvalues.symm hhome.symm)

end Body

/-! ### One run on the functions of a module -/

namespace Decl

@[simp] lemma isHelper_imported (signature : Signature) (name : String) :
    (imported signature name).isHelper = false := rfl

@[simp] lemma isHelper_defined (signature : Signature) (name : String) (body : Body) :
    (defined signature name body).isHelper = isHelperName name := rfl

variable {callee : Func} {returns : List ValueType} {str : Nat → Str}

@[simp] lemma name_taggedTimes (n : Nat) (decl : Decl) :
    (decl.taggedTimes callee returns str n).name = decl.name := by
  cases decl with
  | imported signature name => rfl
  | defined signature name body => simp only [taggedTimes]; split <;> rfl

@[simp] lemma signature_taggedTimes (n : Nat) (decl : Decl) :
    (decl.taggedTimes callee returns str n).signature = decl.signature := by
  cases decl with
  | imported signature name => rfl
  | defined signature name body => simp only [taggedTimes]; split <;> rfl

@[simp] lemma taggedTimes_zero (decl : Decl) : decl.taggedTimes callee returns str 0 = decl := by
  cases decl with
  | imported signature name => rfl
  | defined signature name body => simp [taggedTimes]

end Decl

section Decls

variable {callee : Func} {returns : List ValueType} {str : Nat → Nat → Str}

lemma declsTaggedTimes_zero (j : Nat) (decls : List Decl) :
    declsTaggedTimes callee returns str 0 j decls = decls := by
  induction decls generalizing j with
  | nil => rfl
  | cons decl rest ih => rw [declsTaggedTimes, Decl.taggedTimes_zero, ih]

lemma map_name_declsTaggedTimes (n j : Nat) (decls : List Decl) :
    (declsTaggedTimes callee returns str n j decls).map Decl.name = decls.map Decl.name := by
  induction decls generalizing j with
  | nil => rfl
  | cons decl rest ih => simp only [declsTaggedTimes, List.map_cons, Decl.name_taggedTimes, ih]

lemma length_declsTaggedTimes (n j : Nat) (decls : List Decl) :
    (declsTaggedTimes callee returns str n j decls).length = decls.length := by
  simpa using congrArg List.length
    (@map_name_declsTaggedTimes callee returns str n j decls)

@[simp] lemma helperTags_cons (decl : Decl) (rest : List Decl) :
    helperTags (decl :: rest) =
      (if decl.isHelper then [tagFor decl.name] else []) ++ helperTags rest := by
  by_cases h : decl.isHelper = true
  · simp [helperTags, h]
  · simp [helperTags, h]

lemma map_signature_declsTaggedTimes (n j : Nat) (decls : List Decl) :
    (declsTaggedTimes callee returns str n j decls).map Decl.signature =
      decls.map Decl.signature := by
  induction decls generalizing j with
  | nil => rfl
  | cons decl rest ih => simp only [declsTaggedTimes, List.map_cons, Decl.signature_taggedTimes, ih]

/-- A function stands after the runs where it stood before. -/
lemma getElem?_declsTaggedTimes {n j i : Nat} {decls : List Decl} {decl : Decl}
    (h : decls[i]? = some decl) : ∃ k, (declsTaggedTimes callee returns str n j decls)[i]? =
      some (decl.taggedTimes callee returns (str k) n) := by
  induction decls generalizing i j with
  | nil => simp at h
  | cons first rest ih =>
    rw [declsTaggedTimes]
    cases i with
    | zero =>
      obtain rfl := Option.some.inj h
      exact ⟨j, rfl⟩
    | succ i => exact ih h

lemma mem_declsTaggedTimes {n j : Nat} {decls : List Decl} {decl : Decl} (h : decl ∈ decls) :
    ∃ i, decl.taggedTimes callee returns (str i) n ∈ declsTaggedTimes callee returns str n j decls := by
  obtain ⟨i, hi⟩ := List.getElem?_of_mem h
  obtain ⟨k, hk⟩ := getElem?_declsTaggedTimes hi
  exact ⟨k, List.mem_of_getElem? hk⟩

/-- The helpers among functions have an entry block each, and room for `n` more values. -/
def HelpersHaveRoom (n : Nat) (decls : List Decl) : Prop :=
  ∀ decl ∈ decls, decl.isHelper = true → ∀ body ∈ decl.body?,
    body.entry.index < body.blocks.size ∧ body.values.size + n ≤ Entity.limit

/-- One more run over functions that have been tagged `n` times. The strings that the run adds
are the ones that `str` foresees for the helpers from number `j` on. -/
lemma tagDecls_declsTaggedTimes {n j : Nat} {decls : List Decl} {strings : Table .str String}
    (hroom : HelpersHaveRoom (2 * n + 2) decls)
    (hlimit : strings.size + (helperTags decls).length ≤ Entity.limit)
    (hstr : ∀ i < (helperTags decls).length, str (j + i) n = ⟨strings.size + i⟩) :
    (tagDecls callee returns strings (declsTaggedTimes callee returns str n j decls) :
      Except Fault _) =
      .ok (declsTaggedTimes callee returns str (n + 1) j decls,
        .ofList (strings.toList ++ helperTags decls)) := by
  induction decls generalizing j strings with
  | nil => simp [declsTaggedTimes, tagDecls, helperTags]
  | cons decl rest ih =>
    have hroom' : HelpersHaveRoom (2 * n + 2) rest := fun d hd => hroom d (List.mem_cons_of_mem _ hd)
    rw [helperTags_cons] at hlimit hstr ⊢
    cases decl with
    | imported signature name =>
      have hrest := @ih j strings hroom' (by simpa using hlimit) (by simpa using hstr)
      simp [declsTaggedTimes, Decl.taggedTimes, tagDecls, hrest]
    | defined signature name body =>
      by_cases hname : isHelperName name = true
      · obtain ⟨hentry, hvalues⟩ := hroom _ List.mem_cons_self hname body rfl
        have htags : (helperTags (.defined signature name body :: rest)).length =
            (helperTags rest).length + 1 := by
          simp [hname]
        rw [← helperTags_cons, htags] at hlimit hstr
        have hpush : (strings.push (tagFor name) : Except Fault _) =
            .ok (str j n, strings.append (tagFor name)) := by
          have hnew : str j n = ⟨strings.size⟩ := hstr 0 (by omega)
          rw [Table.push_eq_ok, hnew]
          exact ⟨by omega, rfl⟩
        have hrest := @ih (j + 1) (strings.append (tagFor name)) hroom'
          (by rw [Table.size_append]; omega)
          (fun i hi => by
            have := hstr (i + 1) (by omega)
            rw [Table.size_append, Nat.add_right_comm, Nat.add_assoc strings.size, Nat.add_comm 1]
            exact this)
        simp [declsTaggedTimes, Decl.taggedTimes, tagDecls, hname, hpush,
          Body.tag_taggedTimes hentry hvalues, hrest]
      · have hrest := @ih j strings hroom' (by simpa [hname] using hlimit)
          (by simpa [hname] using hstr)
        simp [declsTaggedTimes, Decl.taggedTimes, tagDecls, hname, hrest]

/-- Where the helpers among functions were tagged, there was room for their values and strings. -/
lemma room_of_tagDecls {callee : Func} {returns : List ValueType} {decls : List Decl}
    {strings : Table .str String} {r : List Decl × Table .str String}
    (hstrings : strings.size ≤ Entity.limit)
    (h : (tagDecls callee returns strings decls : Except Fault _) = .ok r) :
    HelpersHaveRoom 2 decls ∧ strings.size + (helperTags decls).length ≤ Entity.limit := by
  induction decls generalizing strings r with
  | nil => exact ⟨nofun, hstrings⟩
  | cons decl rest ih =>
    cases decl with
    | imported signature name =>
      obtain ⟨r', hrest, -⟩ := bind_eq_ok.1 h
      obtain ⟨hrooms, hlimit⟩ := ih hstrings hrest
      exact ⟨List.forall_mem_cons.2 ⟨nofun, hrooms⟩, by simpa using hlimit⟩
    | defined signature name body =>
      rw [tagDecls] at h
      split at h
      · rename_i hname
        simp only [bind_eq_ok, Table.push_eq_ok, Body.tag_eq_ok, note_silent] at h
        obtain ⟨_, ⟨hroom, rfl⟩, _, ⟨hentry, hvalues, -⟩, -, -, r', hrest, -⟩ := h
        rw [← Nat.succ_le_iff, Nat.succ_eq_add_one, ← Table.size_append strings (tagFor name)] at hroom
        obtain ⟨hrooms, hlimit⟩ := ih hroom hrest
        refine ⟨List.forall_mem_cons.2 ⟨fun _ body' hbody' => ?_, hrooms⟩, ?_⟩
        · obtain rfl := Option.some.inj hbody'
          exact ⟨hentry, by omega⟩
        · rw [Table.size_append] at hlimit
          rw [helperTags_cons, Decl.isHelper_defined, if_pos hname, List.length_append,
            List.length_singleton]
          omega
      · rename_i hname
        obtain ⟨r', hrest, -⟩ := bind_eq_ok.1 h
        obtain ⟨hrooms, hlimit⟩ := ih hstrings hrest
        refine ⟨List.forall_mem_cons.2 ⟨fun hhelper => absurd hhelper hname, hrooms⟩, ?_⟩
        rw [helperTags_cons, Decl.isHelper_defined, if_neg hname]
        exact hlimit

end Decls

/-! ### Runs on a module -/

namespace Module

variable {m : Module}

lemma helperTags_withTagCallee (m : Module) :
    helperTags m.withTagCallee.funcs.toList = helperTags m.funcs.toList := by
  unfold withTagCallee declared
  split
  · rfl
  · simp [helperTags]

lemma taggedTimes_zero (m : Module) : m.taggedTimes 0 = m.withTagCallee := by
  have hstrings : m.strings = m.withTagCallee.strings := (strings_declared _ _).symm
  apply Module.ext
  · rfl
  · simp [taggedTimes, hstrings]
  · simp [taggedTimes, taggedDecls, declsTaggedTimes_zero]

lemma size_strings_taggedTimes (m : Module) (n : Nat) :
    (m.taggedTimes n).strings.size = m.strings.size + n * (helperTags m.funcs.toList).length := by
  simp [taggedTimes, Table.length_toList]

lemma map_name_taggedDecls (m : Module) (n : Nat) :
    (m.taggedDecls n).map Decl.name = m.withTagCallee.funcs.toList.map Decl.name :=
  map_name_declsTaggedTimes n 0 _

lemma map_signature_taggedDecls (m : Module) (n : Nat) :
    (m.taggedDecls n).map Decl.signature = m.withTagCallee.funcs.toList.map Decl.signature :=
  map_signature_declsTaggedTimes n 0 _

lemma mem_taggedDecls (n : Nat) {decl : Decl} (h : decl ∈ m.withTagCallee.funcs.toList) :
    ∃ str, decl.taggedTimes (m.funcOf tagCallee) m.withTagCallee.tagReturns str n ∈
      m.taggedDecls n := by
  obtain ⟨i, hi⟩ := mem_declsTaggedTimes h
  exact ⟨_, hi⟩

lemma funcNamed?_taggedTimes (m : Module) (n : Nat) (name : String) :
    (m.taggedTimes n).funcNamed? name = m.withTagCallee.funcNamed? name := by
  apply Table.find?_congr
  have hnames := congrArg (List.map (· == name)) (m.map_name_taggedDecls n)
  simpa [taggedTimes, Function.comp_def] using hnames

lemma funcType_taggedTimes (m : Module) (n : Nat) (func : Func) (type : FuncType) :
    ((m.taggedTimes n).funcType func : Except Fault _) = .ok type ↔
      (m.withTagCallee.funcType func : Except Fault _) = .ok type := by
  have hget : ((m.taggedTimes n).funcs.get? func).map Decl.signature =
      (m.withTagCallee.funcs.get? func).map Decl.signature := by
    rw [Table.get?_eq, Table.get?_eq, ← List.getElem?_map, ← List.getElem?_map, taggedTimes,
      Table.toList_ofList, map_signature_taggedDecls]
  have hview (m : Module) : (m.funcType func : Except Fault _) = .ok type ↔
      ((m.funcs.get? func).map Decl.signature).bind m.signatures.get? = some type := by
    rw [funcType_eq_ok]
    cases m.funcs.get? func with
    | none => simp
    | some decl => simp
  rw [hview, hview, hget]
  rfl

/-- What is needed for `n` runs on a module. -/
structure RoomForRuns (m : Module) (n : Nat) : Prop where
  inRange : m.SignaturesInRange
  signatures : m.withTagCallee.signatures.size ≤ Entity.limit
  funcs : m.withTagCallee.funcs.size ≤ Entity.limit
  strings : m.strings.size + n * (helperTags m.funcs.toList).length ≤ Entity.limit
  helpers : HelpersHaveRoom (2 * n) m.withTagCallee.funcs.toList

lemma RoomForRuns.mono {n n' : Nat} (h : m.RoomForRuns n') (hn : n ≤ n') : m.RoomForRuns n where
  inRange := h.inRange
  signatures := h.signatures
  funcs := h.funcs
  strings := by
    have := Nat.mul_le_mul_right (helperTags m.funcs.toList).length hn
    have := h.strings
    omega
  helpers decl hdecl hhelper body hbody := by
    obtain ⟨hentry, hvalues⟩ := h.helpers decl hdecl hhelper body hbody
    exact ⟨hentry, by omega⟩

lemma RoomForRuns.declare {n : Nat} (h : m.RoomForRuns n) :
    (m.declare tagCallee tagCalleeType : Except Fault _) =
      .ok (m.funcOf tagCallee, m.withTagCallee) :=
  declare_eq_ok h.inRange h.signatures h.funcs

lemma RoomForRuns.funcType {n : Nat} (h : m.RoomForRuns n) :
    ∃ type, (m.withTagCallee.funcType (m.funcOf tagCallee) : Except Fault _) = .ok type ∧
      type.returns = m.withTagCallee.tagReturns := by
  obtain ⟨type, htype⟩ := (h.inRange.declared tagCallee tagCalleeType).funcType
    (m.funcNamed?_declared tagCallee tagCalleeType)
  refine ⟨type, htype, ?_⟩
  obtain ⟨decl, hdecl, hsignature⟩ := funcType_eq_ok.1 htype
  simp only [tagReturns, withTagCallee, funcOf_declared, hdecl, Option.bind_some, hsignature]

/-- A run on a module whose callee is declared already, as every run but the first finds it. -/
lemma tagHelpers_taggedTimes {n : Nat} (hroom : m.RoomForRuns (n + 1)) :
    (tagHelpers (m.taggedTimes n) : Except Fault _) = .ok (m.taggedTimes (n + 1)) := by
  obtain ⟨type, htype, hreturns⟩ := hroom.funcType
  have htype := (funcType_taggedTimes m n _ type).2 htype
  have hdeclare : ((m.taggedTimes n).declare tagCallee tagCalleeType : Except Fault _) =
      .ok (m.funcOf tagCallee, m.taggedTimes n) := by
    apply declare_bound _ htype
    rw [funcNamed?_taggedTimes, withTagCallee, funcNamed?_declared]
  have hstrings := hroom.strings
  rw [Nat.add_mul, Nat.one_mul, ← Nat.add_assoc] at hstrings
  have htag : (tagDecls (m.funcOf tagCallee) type.returns (m.taggedTimes n).strings
      (m.taggedDecls n) : Except Fault _) = .ok (m.taggedDecls (n + 1),
        .ofList ((m.taggedTimes n).strings.toList ++ helperTags m.funcs.toList)) := by
    rw [hreturns, ← helperTags_withTagCallee]
    apply tagDecls_declsTaggedTimes
    · intro decl hdecl hhelper body hbody
      obtain ⟨hentry, hvalues⟩ := hroom.helpers decl hdecl hhelper body hbody
      exact ⟨hentry, by omega⟩
    · rwa [helperTags_withTagCallee, size_strings_taggedTimes]
    · intro i _
      rw [size_strings_taggedTimes, Nat.zero_add]
  have htags : (m.taggedTimes n).strings.toList ++ helperTags m.funcs.toList =
      (m.taggedTimes (n + 1)).strings.toList := by
    simp [taggedTimes, List.replicate_succ']
  have hdecls : (m.taggedTimes n).funcs.toList = m.taggedDecls n := Table.toList_ofList _
  simp only [tagHelpers, hdeclare, htype, ok_bind, hdecls, htag, htags, Table.ofList_toList,
    notePrinted_silent, pure_eq_ok]
  rfl

lemma tagHelpers_eq_tagHelpers_withTagCallee {n : Nat} (hroom : m.RoomForRuns n) :
    (tagHelpers m : Except Fault _) = tagHelpers m.withTagCallee := by
  obtain ⟨type, htype, -⟩ := hroom.funcType
  have hagain : (m.withTagCallee.declare tagCallee tagCalleeType : Except Fault _) =
      .ok (m.funcOf tagCallee, m.withTagCallee) :=
    declare_bound (m.funcNamed?_declared tagCallee tagCalleeType) htype
  rw [tagHelpers, tagHelpers, hroom.declare]
  exact (congrArg (· >>= _) hagain).symm

/-- Runs of the pass on a module that has been tagged `k` times. -/
lemma runTimes_taggedTimes {n k : Nat} (hroom : m.RoomForRuns (k + n)) :
    (tagPass.runTimes n (m.taggedTimes k)) =
      .ok (List.replicate n true, m.taggedTimes (k + n)) := by
  induction n generalizing k with
  | zero => rfl
  | succ n ih =>
    have hrun : (tagPass : Pass (Except Fault)).run (m.taggedTimes k) =
        .ok (true, m.taggedTimes (k + 1)) := by
      simp only [tagPass, tagHelpers_taggedTimes (hroom.mono (show k + 1 ≤ k + (n + 1) by omega)),
        ok_bind, pure_eq_ok]
    have hrest := ih (k := k + 1) (by rwa [Nat.add_right_comm, Nat.add_assoc])
    simp only [Pass.runTimes, hrun, ok_bind, hrest, pure_eq_ok]
    rw [Nat.add_right_comm, Nat.add_assoc, List.replicate_succ]

lemma RoomForRuns.of_belowLimit {n : Nat} (hsig : m.SignaturesInRange)
    (hentry : m.HelperEntriesInRange) (hlimit : (m.taggedTimes n).BelowLimit) : m.RoomForRuns n where
  inRange := hsig
  signatures := hlimit.signatures.le
  funcs := by
    have h := hlimit.funcs
    rw [taggedTimes, Table.size_ofList, taggedDecls, length_declsTaggedTimes,
      Table.length_toList] at h
    exact h.le
  strings := by
    rw [← size_strings_taggedTimes]
    exact hlimit.strings.le
  helpers := by
    intro decl hdecl hhelper body hbody
    constructor
    · have hold : decl ∈ m.funcs.toList := by
        unfold withTagCallee declared at hdecl
        split at hdecl
        · exact hdecl
        · simp only [Table.toList_append, List.mem_append, List.mem_singleton] at hdecl
          rcases hdecl with hdecl | rfl
          · exact hdecl
          · simp at hbody
      exact hentry decl hold hhelper body hbody
    · obtain ⟨str, hmem⟩ := mem_taggedDecls n hdecl
      rw [← @Table.toList_ofList .func _ (m.taggedDecls n)] at hmem
      have hvalues := hlimit.values _ hmem
      rw [Decl.eq_defined body hbody] at hhelper hvalues
      rw [Decl.isHelper_defined] at hhelper
      rw [Decl.taggedTimes, if_pos hhelper] at hvalues
      rw [← Body.size_values_taggedTimes]
      exact (hvalues _ rfl).le

/-- A run that succeeds had the room it needs. -/
lemma RoomForRuns.of_tagHelpers {m' : Module} (hsig : m.SignaturesInRange)
    (hsignatures : m.signatures.size ≤ Entity.limit) (hfuncs : m.funcs.size ≤ Entity.limit)
    (hstrings : m.strings.size ≤ Entity.limit) (h : (tagHelpers m : Except Fault _) = .ok m') :
    m.RoomForRuns 1 := by
  simp only [tagHelpers, bind_eq_ok] at h
  obtain ⟨_, hdeclare, type, -, ⟨decls', strings'⟩, htag, -⟩ := h
  obtain ⟨hsignatures', hfuncs'⟩ := sizes_le_of_declare hdeclare hsignatures hfuncs
  obtain rfl := eq_of_declare hdeclare
  rw [strings_declared] at htag
  obtain ⟨hhelpers, hroom⟩ := room_of_tagDecls hstrings htag
  change m.strings.size + (helperTags m.withTagCallee.funcs.toList).length ≤ Entity.limit at hroom
  rw [helperTags_withTagCallee] at hroom
  exact ⟨hsig, hsignatures', hfuncs', by rwa [Nat.one_mul], hhelpers⟩

lemma RoomForRuns.tagHelpers_eq (h : m.RoomForRuns 1) :
    (tagHelpers m : Except Fault _) = .ok (m.taggedTimes 1) := by
  rw [tagHelpers_eq_tagHelpers_withTagCallee h, ← taggedTimes_zero]
  exact tagHelpers_taggedTimes h

lemma RoomForRuns.runTimes_eq {n : Nat} (hroom : m.RoomForRuns n) (hn : 1 ≤ n) :
    tagPass.runTimes n m = .ok (List.replicate n true, m.taggedTimes n) := by
  obtain ⟨n, rfl⟩ := Nat.exists_eq_add_of_le' hn
  have hfirst : (tagPass : Pass (Except Fault)).run m = tagPass.run (m.taggedTimes 0) := by
    rw [Module.taggedTimes_zero]
    exact congrArg (· >>= _) (Module.tagHelpers_eq_tagHelpers_withTagCallee hroom)
  have hruns := Module.runTimes_taggedTimes (k := 0) (n := n + 1) (by rwa [Nat.zero_add])
  rw [Nat.zero_add, Pass.runTimes, ← hfirst] at hruns
  exact hruns

end Module

/-- The effect of tagging. Run `n` times on a module whose functions have types and whose helpers
have entry blocks, the pass reports a change each time and leaves the module that
`Module.taggedTimes` writes down, as long as that one stays below the limit on entities. -/
theorem tagPass_runTimes (m : Module) (n : Nat) (hn : 1 ≤ n) (hsig : m.SignaturesInRange)
    (hentry : m.HelperEntriesInRange) (hlimit : (m.taggedTimes n).BelowLimit) :
    tagPass.runTimes n m = .ok (List.replicate n true, m.taggedTimes n) :=
  (Module.RoomForRuns.of_belowLimit hsig hentry hlimit).runTimes_eq hn

/-- Two helpers of one name, with an imported function of that name between them. -/
def twoHelpers : Module :=
  let body : Body := { entry := ⟨0⟩, blocks := .ofList [{ terminator := .ret [] }] }
  { signatures := .ofList [⟨[], []⟩]
    strings := .ofList ["old"]
    funcs := .ofList [.defined ⟨0⟩ "helper_a" body, .imported ⟨0⟩ "helper_a",
      .defined ⟨0⟩ "helper_a" body] }

theorem tagPass_runTimes_twoHelpers :
    1 ≤ 2 ∧ twoHelpers.SignaturesInRange ∧ twoHelpers.HelperEntriesInRange ∧
      (twoHelpers.taggedTimes 2).BelowLimit ∧
      tagPass.runTimes 2 twoHelpers = .ok ([true, true], twoHelpers.taggedTimes 2) := by
  have hsig : twoHelpers.SignaturesInRange := by decide +kernel
  have hentry : twoHelpers.HelperEntriesInRange := by decide +kernel
  have hlimit : (twoHelpers.taggedTimes 2).BelowLimit := by decide +kernel
  exact ⟨by decide, hsig, hentry, hlimit,
    tagPass_runTimes twoHelpers 2 (by decide) hsig hentry hlimit⟩

end EntryTrace
