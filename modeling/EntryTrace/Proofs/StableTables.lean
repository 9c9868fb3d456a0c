import EntryTrace.Proofs.TaggingEffect

/-!
# Tables that only grow

The types, strings and functions of a module are asked for by four requests: for a signature, for a
function of a name, for a string, and for tagging, which makes such requests itself. Each of them leaves
a module that the old one `GrowsTo`. So what was answered stays true, and a table that starts without
repetitions never has any.
-/

namespace EntryTrace

/-! ### Lists to which new elements are added -/

/-- The second list is the first and then other elements, each of which is new. -/
def AddsFresh {α : Type} (as bs : List α) : Prop :=
  ∃ added, bs = as ++ added ∧ added.Nodup ∧ ∀ a ∈ added, a ∉ as

namespace AddsFresh

variable {α : Type} {as bs cs : List α}

@[refl] lemma refl (as : List α) : AddsFresh as as := ⟨[], by simp⟩

lemma single {a : α} (h : a ∉ as) : AddsFresh as (as ++ [a]) :=
  ⟨[a], rfl, List.nodup_singleton a, by simpa using h⟩

lemma trans (h : AddsFresh as bs) (h' : AddsFresh bs cs) : AddsFresh as cs := by
  obtain ⟨added, rfl, hdistinct, hnew⟩ := h
  obtain ⟨added', rfl, hdistinct', hnew'⟩ := h'
  refine ⟨added ++ added', List.append_assoc .., ?_, ?_⟩
  · exact List.nodup_append.2 ⟨hdistinct, hdistinct', fun a ha b hb heq =>
      hnew' b hb (List.mem_append_right _ (heq ▸ ha))⟩
  · intro a ha
    rcases List.mem_append.1 ha with ha | ha
    · exact hnew a ha
    · exact fun hold => hnew' a ha (List.mem_append_left _ hold)

lemma isPrefix (h : AddsFresh as bs) : as <+: bs := by
  obtain ⟨added, rfl, -⟩ := h
  exact List.prefix_append _ _

lemma nodup (h : AddsFresh as bs) (has : as.Nodup) : bs.Nodup := by
  obtain ⟨added, rfl, hdistinct, hnew⟩ := h
  exact List.nodup_append.2 ⟨has, hdistinct, fun a ha b hb heq => hnew b hb (heq ▸ ha)⟩

end AddsFresh

lemma Table.PrefixOf.find? {kind : Kind} {α : Type} {s t : Table kind α} (h : s.PrefixOf t)
    {p : α → Bool} {e : Entity kind} (he : s.find? p = some e) : t.find? p = some e := by
  obtain ⟨⟨s⟩⟩ := s
  obtain ⟨⟨t⟩⟩ := t
  obtain ⟨rest, hrest⟩ := h
  obtain rfl : s ++ rest = t := hrest
  simp only [Table.find?, List.findIdx?_toArray, Option.map_eq_some_iff] at he ⊢
  obtain ⟨i, hi, rfl⟩ := he
  exact ⟨i, by rw [List.findIdx?_append, hi, Option.some_or], rfl⟩

lemma Table.notMem_of_find?_eq_none {kind : Kind} {α : Type} [BEq α] [LawfulBEq α]
    {t : Table kind α} {a : α} (h : t.find? (· == a) = none) : a ∉ t.toList := by
  obtain ⟨⟨items⟩⟩ := t
  simp only [Table.find?, List.findIdx?_toArray, Option.map_eq_none_iff,
    List.findIdx?_eq_none_iff] at h
  exact fun hmem => by simpa using h a hmem

/-! ### Modules that grow -/

/-- A function stays what it is, but for what its body is made of, which gets no less. -/
inductive Decl.GrowsTo : Decl → Decl → Prop
  | imported (signature : Signature) (name : String) :
    GrowsTo (.imported signature name) (.imported signature name)
  | defined {signature : Signature} {name : String} {body body' : Body}
    (hentry : body'.entry = body.entry) (hblocks : body.blocks.size ≤ body'.blocks.size)
    (hvalues : body.values.size ≤ body'.values.size) :
    GrowsTo (.defined signature name body) (.defined signature name body')

@[refl] lemma Decl.GrowsTo.refl (decl : Decl) : decl.GrowsTo decl := by
  cases decl with
  | imported signature name => exact .imported signature name
  | defined => exact .defined rfl (le_refl _) (le_refl _)

lemma Decl.GrowsTo.trans {decl decl' decl'' : Decl} (h : decl.GrowsTo decl')
    (h' : decl'.GrowsTo decl'') : decl.GrowsTo decl'' := by
  cases h with
  | imported => exact h'
  | defined hentry hblocks hvalues =>
    cases h' with
    | defined hentry' hblocks' hvalues' =>
      exact .defined (hentry'.trans hentry) (hblocks.trans hblocks') (hvalues.trans hvalues')

lemma Decl.GrowsTo.signature_eq {decl decl' : Decl} (h : decl.GrowsTo decl') :
    decl'.signature = decl.signature := by
  cases h <;> rfl

lemma Decl.GrowsTo.isImported_eq {decl decl' : Decl} (h : decl.GrowsTo decl') :
    decl'.isImported = decl.isImported := by
  cases h <;> rfl

/-- Everything that the module has keeps its number in the other one. That one may have more strings,
and types and names that were not there, whose functions are imported. -/
structure Module.GrowsTo (m m' : Module) : Prop where
  signatures : AddsFresh m.signatures.toList m'.signatures.toList
  strings : m.strings.PrefixOf m'.strings
  names : AddsFresh (m.funcs.toList.map Decl.name) (m'.funcs.toList.map Decl.name)
  funcs : ∀ {func decl}, m.funcs.get? func = some decl →
    ∃ decl', m'.funcs.get? func = some decl' ∧ decl.GrowsTo decl'
  added : ∀ {func decl'}, m'.funcs.get? func = some decl' → m.funcs.size ≤ func.index →
    decl'.isImported = true ∧ decl'.signature.index < m'.signatures.size

namespace Module

variable {m m' m'' : Module}

lemma GrowsTo.size_signatures (h : m.GrowsTo m') : m.signatures.size ≤ m'.signatures.size := by
  simpa only [Table.length_toList] using h.signatures.isPrefix.length_le

lemma GrowsTo.size_funcs (h : m.GrowsTo m') : m.funcs.size ≤ m'.funcs.size := by
  simpa only [List.length_map, Table.length_toList] using h.names.isPrefix.length_le

@[refl] lemma GrowsTo.refl (m : Module) : m.GrowsTo m where
  signatures := .refl _
  strings := .refl _
  names := .refl _
  funcs {_ decl} h := ⟨decl, h, .refl decl⟩
  added h hlt := absurd (Table.get?_lt h) (Nat.not_lt.2 hlt)

lemma GrowsTo.trans (h : m.GrowsTo m') (h' : m'.GrowsTo m'') : m.GrowsTo m'' where
  signatures := h.signatures.trans h'.signatures
  strings := h.strings.trans h'.strings
  names := h.names.trans h'.names
  funcs hget :=
    have ⟨_, hget', hgrows⟩ := h.funcs hget
    have ⟨decl'', hget'', hgrows'⟩ := h'.funcs hget'
    ⟨decl'', hget'', hgrows.trans hgrows'⟩
  added {func decl''} hget hlt := by
    obtain hlt' | hlt' := Nat.lt_or_ge func.index m'.funcs.size
    · obtain ⟨decl', hget'⟩ := Table.get?_of_lt hlt'
      obtain ⟨himported, hsignature⟩ := h.added hget' hlt
      obtain ⟨found, hfound, hgrows⟩ := h'.funcs hget'
      obtain rfl := Option.some.inj (hfound.symm.trans hget)
      rw [hgrows.isImported_eq, hgrows.signature_eq]
      exact ⟨himported, hsignature.trans_le h'.size_signatures⟩
    · exact h'.added hget hlt'

/-- The first signature of a type stays the first. -/
lemma GrowsTo.find?_signatures (h : m.GrowsTo m') {type : FuncType} {signature : Signature}
    (hfind : m.signatures.find? (· == type) = some signature) :
    m'.signatures.find? (· == type) = some signature :=
  Table.PrefixOf.find? h.signatures.isPrefix hfind

lemma funcNamed?_eq_find?_names (m : Module) (name : String) :
    m.funcNamed? name =
      (Table.ofList (m.funcs.toList.map Decl.name) : Table .func String).find? (· == name) :=
  Table.find?_congr (by rw [Table.toList_ofList, List.map_map]; rfl)

/-- The first function of a name stays the first. -/
lemma GrowsTo.funcNamed? (h : m.GrowsTo m') {name : String} {func : Func}
    (hnamed : m.funcNamed? name = some func) : m'.funcNamed? name = some func := by
  rw [funcNamed?_eq_find?_names] at hnamed ⊢
  refine Table.PrefixOf.find? ?_ hnamed
  rw [Table.PrefixOf, Table.toList_ofList, Table.toList_ofList]
  exact h.names.isPrefix

lemma GrowsTo.signaturesInRange (h : m.GrowsTo m') (hsig : m.SignaturesInRange) :
    m'.SignaturesInRange := by
  intro decl' hdecl'
  obtain ⟨func, hfunc⟩ := Table.get?_of_mem hdecl'
  obtain hlt | hlt := Nat.lt_or_ge func.index m.funcs.size
  · obtain ⟨decl, hdecl⟩ := Table.get?_of_lt hlt
    obtain ⟨found, hfound, hgrows⟩ := h.funcs hdecl
    obtain rfl := Option.some.inj (hfound.symm.trans hfunc)
    rw [hgrows.signature_eq]
    exact (hsig decl (Table.mem_of_get? hdecl)).trans_le h.size_signatures
  · exact (h.added hfunc hlt).2

lemma GrowsTo.helperEntriesInRange (h : m.GrowsTo m') (hentry : m.HelperEntriesInRange) :
    m'.HelperEntriesInRange := by
  intro decl' hdecl' hhelper body' hbody'
  obtain ⟨func, hfunc⟩ := Table.get?_of_mem hdecl'
  obtain hlt | hlt := Nat.lt_or_ge func.index m.funcs.size
  · obtain ⟨decl, hdecl⟩ := Table.get?_of_lt hlt
    obtain ⟨found, hfound, hgrows⟩ := h.funcs hdecl
    obtain rfl := Option.some.inj (hfound.symm.trans hfunc)
    cases hgrows with
    | imported => cases hbody'
    | defined heq hblocks =>
      obtain rfl := Option.some.inj hbody'
      rw [heq]
      exact (hentry _ (Table.mem_of_get? hdecl) hhelper _ rfl).trans_le hblocks
  · obtain ⟨himported, -⟩ := h.added hfunc hlt
    rw [Decl.isHelper, himported] at hhelper
    cases hhelper

/-- A module that outgrows no limit did not before. -/
lemma GrowsTo.belowLimit (h : m.GrowsTo m') (hlimit : m'.BelowLimit) : m.BelowLimit := by
  have hbodies : ∀ decl ∈ m.funcs.toList, ∀ body ∈ decl.body?,
      ∃ decl' ∈ m'.funcs.toList, ∃ body' ∈ decl'.body?,
        body.blocks.size ≤ body'.blocks.size ∧ body.values.size ≤ body'.values.size := by
    intro decl hdecl body hbody
    obtain ⟨func, hfunc⟩ := Table.get?_of_mem hdecl
    obtain ⟨decl', hfunc', hgrows⟩ := h.funcs hfunc
    refine ⟨decl', Table.mem_of_get? hfunc', ?_⟩
    cases hgrows with
    | imported => cases hbody
    | defined _ hblocks hvalues =>
      obtain rfl := Option.some.inj hbody
      exact ⟨_, rfl, hblocks, hvalues⟩
  exact
    { signatures := by
        have hsize := h.signatures.isPrefix.length_le
        rw [Table.length_toList, Table.length_toList] at hsize
        exact hsize.trans_lt hlimit.signatures
      strings := h.strings.size_le.trans_lt hlimit.strings
      funcs := h.size_funcs.trans_lt hlimit.funcs
      blocks decl hdecl body hbody :=
        have ⟨decl', hdecl', body', hbody', hblocks, _⟩ := hbodies decl hdecl body hbody
        hblocks.trans_lt (hlimit.blocks decl' hdecl' body' hbody')
      values decl hdecl body hbody :=
        have ⟨decl', hdecl', body', hbody', _, hvalues⟩ := hbodies decl hdecl body hbody
        hvalues.trans_lt (hlimit.values decl' hdecl' body' hbody') }

/-! ### What each operation makes of a module -/

lemma addsFresh_interned (type : FuncType) :
    AddsFresh m.signatures.toList (m.interned type).signatures.toList := by
  unfold interned
  cases hfind : m.signatures.find? (· == type) with
  | some signature => rfl
  | none =>
    rw [Option.isSome_none, if_neg Bool.false_ne_true, Table.toList_append]
    exact .single (Table.notMem_of_find?_eq_none hfind)

lemma growsTo_interned (type : FuncType) : m.GrowsTo (m.interned type) where
  signatures := addsFresh_interned type
  strings := by rw [strings_interned]
  names := by rw [funcs_interned]
  funcs {_ decl} h := ⟨decl, by rwa [funcs_interned], .refl decl⟩
  added h hlt := by
    rw [funcs_interned] at h
    exact absurd (Table.get?_lt h) (Nat.not_lt.2 hlt)

lemma growsTo_declared (name : String) (type : FuncType) : m.GrowsTo (m.declared name type) := by
  unfold declared
  cases hnamed : m.funcNamed? name with
  | some func => rfl
  | none =>
    rw [Option.isSome_none, if_neg Bool.false_ne_true]
    rw [funcNamed?_eq_find?_names] at hnamed
    have hnew := Table.notMem_of_find?_eq_none hnamed
    rw [Table.toList_ofList] at hnew
    exact
      { signatures := addsFresh_interned type
        strings := by rw [strings_interned]
        names := by
          rw [Table.toList_append, List.map_append]
          exact .single hnew
        funcs := fun {_ decl} h =>
          ⟨decl, by rwa [Table.get?_append_of_lt (Table.get?_lt h)], .refl decl⟩
        added := fun {func decl'} h hlt => by
          have hsize := Table.get?_lt h
          rw [Table.size_append] at hsize
          rw [Table.get?_append, if_pos (by omega)] at h
          obtain rfl := Option.some.inj h
          exact ⟨rfl, Table.get?_lt (get?_signatureOf type)⟩ }

lemma growsTo_addString (s : String) : m.GrowsTo { m with strings := m.strings.append s } where
  signatures := .refl _
  strings := .append _ _
  names := .refl _
  funcs {_ decl} h := ⟨decl, h, .refl decl⟩
  added h hlt := absurd (Table.get?_lt h) (Nat.not_lt.2 hlt)

/-- Once the function that tags are handed to is declared, tagging adds strings and changes bodies. -/
lemma growsTo_taggedTimes_of_withTagCallee (m : Module) (n : Nat) :
    m.withTagCallee.GrowsTo (m.taggedTimes n) where
  signatures := .refl _
  strings := by
    rw [withTagCallee, strings_declared, taggedTimes, Table.PrefixOf, Table.toList_ofList]
    exact List.prefix_append _ _
  names := by rw [taggedTimes, Table.toList_ofList, map_name_taggedDecls]
  funcs {func decl} h := by
    rw [Table.get?_eq] at h
    obtain ⟨k, hk⟩ := getElem?_declsTaggedTimes h
    refine ⟨_, by rw [Table.get?_eq, taggedTimes, Table.toList_ofList]; exact hk, ?_⟩
    cases decl with
    | imported signature name => exact .imported signature name
    | defined signature name body =>
      rw [Decl.taggedTimes]
      split
      · refine .defined rfl ?_ ?_
        · rw [Body.taggedTimes, Table.size_modify]
        · rw [Body.size_values_taggedTimes]
          exact Nat.le_add_right _ _
      · rfl
  added {func decl'} h hlt := by
    have hsize := Table.get?_lt h
    rw [taggedTimes, Table.size_ofList, taggedDecls, length_declsTaggedTimes,
      Table.length_toList] at hsize
    omega

lemma growsTo_taggedTimes (m : Module) (n : Nat) : m.GrowsTo (m.taggedTimes n) :=
  (growsTo_declared tagCallee tagCalleeType).trans (growsTo_taggedTimes_of_withTagCallee m n)

end Module

end EntryTrace
