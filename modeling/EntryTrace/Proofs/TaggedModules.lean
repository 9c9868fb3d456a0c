import EntryTrace.Proofs.Closed
import EntryTrace.Proofs.Lists
import EntryTrace.Proofs.TaggingEffect

/-!
# A module beside its tagged form

`Module.TaggedTo` says how a module and the module that one run of tagging makes of it are
related, function by function: helpers get two values and a call in front of their entry block,
and nothing else changes. What is added has numbers that nothing had before.
-/

namespace EntryTrace

/-! ### Bodies -/

namespace Body

variable {body : Body} {callee : Func} {returns : List ValueType} {s : Str}

lemma get?_values_tagged_of_lt {value : Value} (h : value.index < body.values.size) :
    (body.tagged callee returns s).values.get? value = body.values.get? value := by
  rw [tagged, Table.get?_append_of_lt (by rw [Table.size_append]; omega), Table.get?_append_of_lt h]

lemma get?_values_tagged_pointer :
    (body.tagged callee returns s).values.get? ⟨body.values.size⟩ = some (.strRef s) := by
  rw [tagged, Table.get?_append_of_lt (by rw [Table.size_append]; exact Nat.lt_succ_self _)]
  exact Table.get?_append_size _ _

lemma get?_values_tagged_call :
    (body.tagged callee returns s).values.get? ⟨body.values.size + 1⟩ =
      some (.inst (.call callee) [⟨body.values.size⟩] returns) := by
  have h := Table.get?_append_size (body.values.append (.strRef s))
    (.inst (.call callee) [⟨body.values.size⟩] returns)
  rwa [Table.size_append] at h

lemma get?_blocks_tagged (block : Block) :
    (body.tagged callee returns s).blocks.get? block =
      if block = body.entry then
        (body.blocks.get? block).map fun b => { b with insts := ⟨body.values.size + 1⟩ :: b.insts }
      else body.blocks.get? block := by
  rw [tagged, Table.get?_modify]

end Body

/-! ### Functions -/

/-- What one run makes of a function. The strings before the run are `before`, those after it
`after`, and tags are handed to `callee`. -/
inductive Decl.TaggedAs (before after : Table .str String) (callee : Func) : Decl → Decl → Prop
  | imported (signature : Signature) (name : String) :
    TaggedAs before after callee (.imported signature name) (.imported signature name)
  | other {signature : Signature} {name : String} {body : Body} : isHelperName name = false →
    TaggedAs before after callee (.defined signature name body) (.defined signature name body)
  | helper {signature : Signature} {name : String} {body : Body} {returns : List ValueType} {s : Str} :
    isHelperName name = true → before.size ≤ s.index → after.get? s = some (tagFor name) →
      TaggedAs before after callee (.defined signature name body)
        (.defined signature name (body.tagged callee returns s))

lemma Decl.TaggedAs.mono {before before' after : Table .str String} {callee : Func}
    {decl decl' : Decl} (h : decl.TaggedAs before' after callee decl')
    (hsize : before.size ≤ before'.size) : decl.TaggedAs before after callee decl' := by
  cases h with
  | imported signature name => exact .imported signature name
  | other hname => exact .other hname
  | helper hname hs htag => exact .helper hname (hsize.trans hs) htag

/-- Every function of a run is tagged, and no string is lost. -/
lemma taggedAs_of_tagDecls {callee : Func} {returns : List ValueType}
    {strings strings' : Table .str String} {decls decls' : List Decl}
    (h : (tagDecls callee returns strings decls : Except Fault _) = .ok (decls', strings')) :
    strings.PrefixOf strings' ∧
      List.Forall₂ (Decl.TaggedAs strings strings' callee) decls decls' := by
  induction decls generalizing strings decls' with
  | nil =>
    simp only [tagDecls, pure_eq_ok, Except.ok.injEq, Prod.mk.injEq] at h
    obtain ⟨rfl, rfl⟩ := h
    exact ⟨.refl _, .nil⟩
  | cons decl rest ih =>
    cases decl with
    | imported signature name =>
      simp only [tagDecls, bind_eq_ok, pure_eq_ok, Except.ok.injEq, Prod.mk.injEq] at h
      obtain ⟨⟨rest', _⟩, hrest, rfl, rfl⟩ := h
      obtain ⟨hlonger, hall⟩ := ih hrest
      exact ⟨hlonger, .cons (.imported signature name) hall⟩
    | defined signature name body =>
      rw [tagDecls] at h
      split at h
      · rename_i hname
        simp only [bind_eq_ok, Table.push_eq_ok, Body.tag_eq_ok, pure_eq_ok, Except.ok.injEq,
          Prod.mk.injEq, note_silent] at h
        obtain ⟨_, ⟨-, rfl⟩, _, ⟨-, -, rfl⟩, -, -, ⟨rest', _⟩, hrest, rfl, rfl⟩ := h
        obtain ⟨hlonger, hall⟩ := ih hrest
        have hnew : strings.PrefixOf (strings.append (tagFor name)) := .append _ _
        refine ⟨hnew.trans hlonger, .cons (.helper hname (le_refl _) ?_) ?_⟩
        · exact hlonger.get? (Table.get?_append_size _ _)
        · exact hall.imp fun _ _ htagged => htagged.mono hnew.size_le
      · rename_i hname
        simp only [bind_eq_ok, pure_eq_ok, Except.ok.injEq, Prod.mk.injEq] at h
        obtain ⟨⟨rest', _⟩, hrest, rfl, rfl⟩ := h
        obtain ⟨hlonger, hall⟩ := ih hrest
        exact ⟨hlonger, .cons (.other (by simpa using hname)) hall⟩

/-! ### Modules -/

namespace Module

variable {m m' : Module}

/-- Tags are handed to an imported function: none has the name yet, or the first that has it is
imported. -/
def TagCalleeImported (m : Module) : Prop :=
  ∀ func decl, m.funcNamed? tagCallee = some func → m.funcs.get? func = some decl →
    decl.isImported = true

/-- How a module and the module that one run of tagging makes of it are related. -/
structure TaggedTo (m m' : Module) : Prop where
  strings : m.strings.PrefixOf m'.strings
  funcs : ∀ {func decl}, m.funcs.get? func = some decl → ∃ decl', m'.funcs.get? func = some decl' ∧
    decl.TaggedAs m.strings m'.strings (m.funcOf tagCallee) decl'
  added : ∀ {func decl'}, m'.funcs.get? func = some decl' → m.funcs.size ≤ func.index →
    decl'.body? = none
  callee : ∃ signature, m'.funcs.get? (m.funcOf tagCallee) = some (.imported signature tagCallee)

lemma funcs_prefixOf_withTagCallee (m : Module) : m.funcs.PrefixOf m.withTagCallee.funcs := by
  unfold withTagCallee declared
  split
  · exact .refl _
  · exact .append _ _

lemma body?_of_get?_withTagCallee {func : Func} {decl : Decl}
    (h : m.withTagCallee.funcs.get? func = some decl) (hfunc : m.funcs.size ≤ func.index) :
    decl.body? = none := by
  unfold withTagCallee declared at h
  split at h
  · exact absurd (Table.get?_lt h) (by omega)
  · rw [Table.get?_append] at h
    split at h
    · obtain rfl := Option.some.inj h
      rfl
    · exact absurd (Table.get?_lt h) (by omega)

lemma TagCalleeImported.get?_withTagCallee (h : m.TagCalleeImported) :
    ∃ signature, m.withTagCallee.funcs.get? (m.funcOf tagCallee) =
      some (.imported signature tagCallee) := by
  unfold withTagCallee declared funcOf
  cases hnamed : m.funcNamed? tagCallee with
  | none => exact ⟨m.signatureOf tagCalleeType, by simp⟩
  | some func =>
    obtain ⟨decl, hget, hname⟩ := Table.find?_get? hnamed
    have himported := h func decl hnamed hget
    cases decl with
    | imported signature name =>
      obtain rfl : name = tagCallee := by simpa using hname
      exact ⟨signature, by simpa using hget⟩
    | defined => simp [Decl.isImported] at himported

/-- One run of tagging keeps the strings, and tags the functions there are once the one that tags
are handed to is declared. -/
lemma taggedAs_of_tagHelpers (h : (tagHelpers m : Except Fault _) = .ok m') :
    m.strings.PrefixOf m'.strings ∧
      List.Forall₂ (Decl.TaggedAs m.strings m'.strings (m.funcOf tagCallee))
        m.withTagCallee.funcs.toList m'.funcs.toList := by
  simp only [tagHelpers, bind_eq_ok, notePrinted_silent, pure_eq_ok, Except.ok.injEq] at h
  obtain ⟨_, hdeclare, type, -, ⟨decls', strings'⟩, htag, -, -, rfl⟩ := h
  obtain rfl := eq_of_declare hdeclare
  obtain ⟨hlonger, hall⟩ := taggedAs_of_tagDecls htag
  rw [strings_declared] at hlonger hall
  exact ⟨hlonger, by rwa [Table.toList_ofList]⟩

/-- One run of tagging leaves a module behind that is related to the one before. -/
theorem taggedTo_of_tagHelpers (hcallee : m.TagCalleeImported)
    (h : (tagHelpers m : Except Fault _) = .ok m') : m.TaggedTo m' := by
  obtain ⟨hlonger, hall⟩ := taggedAs_of_tagHelpers h
  have hget {func : Func} {decl : Decl} (hdecl : m.withTagCallee.funcs.get? func = some decl) :
      ∃ decl', m'.funcs.get? func = some decl' ∧
        decl.TaggedAs m.strings m'.strings (m.funcOf tagCallee) decl' := by
    rw [Table.get?_eq] at hdecl ⊢
    exact getElem?_of_forall₂ hall hdecl
  constructor
  · exact hlonger
  · exact fun hdecl => hget ((funcs_prefixOf_withTagCallee m).get? hdecl)
  · intro func decl' hdecl' hfunc
    rw [Table.get?_eq] at hdecl'
    obtain ⟨decl, hdecl, htagged⟩ := getElem?_of_forall₂ hall.flip hdecl'
    rw [← Table.get?_eq] at hdecl
    have hbody := body?_of_get?_withTagCallee hdecl hfunc
    cases htagged with
    | imported => rfl
    | other => simp at hbody
    | helper => simp at hbody
  · obtain ⟨signature, hsignature⟩ := hcallee.get?_withTagCallee
    obtain ⟨decl', hdecl', htagged⟩ := hget hsignature
    cases htagged
    exact ⟨signature, hdecl'⟩

/-! ### Bodies side by side -/

/-- The instruction that tagging puts in front of the entry block of a function, if the function is
a helper. -/
def announcement? (m : Module) (func : Func) : Option Value :=
  match m.funcs.get? func with
  | some (.defined _ name body) =>
    if isHelperName name then some ⟨body.values.size + 1⟩ else none
  | _ => none

/-- How the body of a function and its tagged form are related. -/
structure Counterpart (m m' : Module) (func : Func) (name : String) (body body' : Body) : Prop where
  entry : body'.entry = body.entry
  values : ∀ {value : Value}, value.index < body.values.size →
    body'.values.get? value = body.values.get? value
  blocks : ∀ {block data}, body.blocks.get? block = some data → body'.blocks.get? block = some
    { data with insts := (if block = body.entry then (m.announcement? func).toList else []) ++ data.insts }
  announcement : ∀ inst ∈ m.announcement? func, body.values.size ≤ inst.index ∧
    ∃ pointer tag returns,
      body'.values.get? inst = some (.inst (.call (m.funcOf tagCallee)) [pointer] returns) ∧
      body'.values.get? pointer = some (.strRef tag) ∧
      m.strings.size ≤ tag.index ∧ m'.strings.get? tag = some (tagFor name)

theorem TaggedTo.counterpart (h : m.TaggedTo m') {func : Func} {signature : Signature} {name : String}
    {body : Body} (hget : m.funcs.get? func = some (.defined signature name body)) :
    ∃ body', m'.funcs.get? func = some (.defined signature name body') ∧
      m.Counterpart m' func name body body' := by
  obtain ⟨decl', hget', htagged⟩ := h.funcs hget
  cases htagged with
  | other hname =>
    have hnone : m.announcement? func = none := by simp [announcement?, hget, hname]
    refine ⟨body, hget', rfl, fun _ => rfl, fun hdata => ?_, ?_⟩
    · simpa [hnone] using hdata
    · simp [hnone]
  | @helper _ _ _ returns tag hname htag hstring =>
    have hsome : m.announcement? func = some ⟨body.values.size + 1⟩ := by
      simp [announcement?, hget, hname]
    refine ⟨_, hget', rfl, Body.get?_values_tagged_of_lt, fun {block data} hdata => ?_, ?_⟩
    · rw [Body.get?_blocks_tagged, hdata, hsome]
      split
      · simp
      · simp
    · rw [hsome]
      rintro _ ⟨⟩
      exact ⟨Nat.le_succ _, ⟨body.values.size⟩, tag, returns, Body.get?_values_tagged_call,
        Body.get?_values_tagged_pointer, htag, hstring⟩

/-- A function that has a body after tagging had one before. -/
lemma TaggedTo.exists_counterpart (h : m.TaggedTo m') {func : Func} {signature : Signature}
    {name : String} {body' : Body} (hget' : m'.funcs.get? func = some (.defined signature name body')) :
    ∃ body, m.funcs.get? func = some (.defined signature name body) ∧
      m.Counterpart m' func name body body' := by
  have hfunc : func.index < m.funcs.size := by
    by_contra hout
    simpa using h.added hget' (by omega)
  obtain ⟨decl, hget⟩ := Table.get?_of_lt hfunc
  cases decl with
  | imported signature₀ name₀ =>
    obtain ⟨decl', hdecl', htagged⟩ := h.funcs hget
    cases htagged
    rw [hget'] at hdecl'
    cases hdecl'
  | defined signature₀ name₀ body =>
    obtain ⟨body'', hbody'', hcounterpart⟩ := h.counterpart hget
    rw [hget'] at hbody''
    cases hbody''
    exact ⟨body, hget, hcounterpart⟩

end Module

end EntryTrace
