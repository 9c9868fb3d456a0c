import EntryTrace.Proofs.SpelledTypes
import EntryTrace.Proofs.TaggedBodies

/-!
# Tagged modules can be printed, and when they are well-formed

What a module offers is still there after `n` runs of tagging, and its bodies stay closed and
ordered; so the module can be printed. It stays well-formed if the first function of the name that
tags are handed to takes a pointer and nothing else.
-/

namespace EntryTrace

/-! ### Bodies -/

namespace Body

variable {body : Body} {callee : Func} {returns : List ValueType} {str : Nat → Str} {n : Nat}

lemma tagged_taggedTimes (hentry : body.entry.index < body.blocks.size)
    (hfits : body.values.size + 2 * n + 1 < Entity.limit) :
    (body.taggedTimes callee returns str n).tagged callee returns (str n) =
      body.taggedTimes callee returns str (n + 1) := by
  obtain ⟨-, -, htag⟩ := tag_eq_ok.1 (@tag_taggedTimes callee returns str body n hentry hfits)
  exact (congrArg Prod.snd htag).symm

/-- What each run keeps of a body is kept by `n` runs. -/
lemma taggedTimes_induction {P : Body → Prop} (hentry : body.entry.index < body.blocks.size)
    (hfits : body.values.size + 2 * n ≤ Entity.limit) (hstart : P body)
    (hstep : ∀ r < n, ∀ body', P body' → body'.values.size + 2 ≤ Entity.limit →
      P (body'.tagged callee returns (str r))) :
    P (body.taggedTimes callee returns str n) := by
  induction n with
  | zero =>
    rw [taggedTimes_zero]
    exact hstart
  | succ n ih =>
    rw [← tagged_taggedTimes hentry (by omega)]
    apply hstep n (Nat.lt_succ_self n)
    · exact ih (by omega) fun r hr => hstep r (Nat.lt_succ_of_lt hr)
    · rw [size_values_taggedTimes]
      omega

end Body

/-! ### Functions -/

/-- Where a function after `n` runs comes from, and how far the strings of a helper are counted. -/
lemma of_mem_declsTaggedTimes {callee : Func} {returns : List ValueType} {str : Nat → Nat → Str}
    {n j : Nat} {decls : List Decl} {decl : Decl}
    (h : decl ∈ declsTaggedTimes callee returns str n j decls) :
    ∃ decl₀ ∈ decls, ∃ i, decl = decl₀.taggedTimes callee returns (str i) n ∧
      (decl₀.isHelper = true → i < j + (helperTags decls).length) := by
  induction decls generalizing j with
  | nil => simp [declsTaggedTimes] at h
  | cons first rest ih =>
    rw [declsTaggedTimes] at h
    rcases List.mem_cons.1 h with rfl | h
    · refine ⟨first, List.mem_cons_self, j, rfl, fun hhelper => ?_⟩
      rw [helperTags_cons, if_pos hhelper, List.length_append, List.length_singleton]
      omega
    · obtain ⟨decl₀, hmem, i, heq, hlt⟩ := ih h
      refine ⟨decl₀, List.mem_cons_of_mem _ hmem, i, heq, fun hhelper => ?_⟩
      have hi := hlt hhelper
      rw [helperTags_cons, List.length_append]
      split at hi
      · rename_i hfirst
        rw [if_pos hfirst, List.length_singleton]
        omega
      · omega

/-- A function that has a body after `n` runs had one before; the body of a helper was tagged. -/
lemma Decl.of_body?_taggedTimes {decl₀ : Decl} {callee : Func} {returns : List ValueType}
    {str : Nat → Str} {n : Nat} {body : Body}
    (h : (decl₀.taggedTimes callee returns str n).body? = some body) :
    ∃ body₀, decl₀.body? = some body₀ ∧
      ((decl₀.isHelper = true ∧ body = body₀.taggedTimes callee returns str n) ∨
        (decl₀.isHelper = false ∧ body = body₀)) := by
  cases decl₀ with
  | imported => cases h
  | defined signature name body₀ =>
    refine ⟨body₀, rfl, ?_⟩
    rw [Decl.taggedTimes] at h
    split at h
    · rename_i hname
      exact .inl ⟨hname, (Option.some.inj h).symm⟩
    · rename_i hname
      exact .inr ⟨by simpa using hname, (Option.some.inj h).symm⟩

/-! ### Modules -/

namespace Module

variable {m : Module} {n : Nat}

lemma signatures_prefixOf_withTagCallee : m.signatures.PrefixOf m.withTagCallee.signatures := by
  unfold withTagCallee declared interned
  split
  · exact .refl _
  · split
    · exact .refl _
    · exact .append _ _

/-- A module offers all that it did before it was tagged. -/
lemma extends_taggedTimes (m : Module) (n : Nat) : m.Extends (m.taggedTimes n) where
  signatures := signatures_prefixOf_withTagCallee
  strings := by
    rw [size_strings_taggedTimes]
    exact Nat.le_add_right _ _
  funcs := by
    rw [taggedTimes, Table.toList_ofList, map_signature_taggedDecls]
    exact (funcs_prefixOf_withTagCallee m).map _

lemma mem_funcs_withTagCallee {decl : Decl} {body : Body}
    (h : decl ∈ m.withTagCallee.funcs.toList) (hbody : decl.body? = some body) :
    decl ∈ m.funcs.toList := by
  unfold withTagCallee declared at h
  split at h
  · exact h
  · simp only [Table.toList_append, List.mem_append, List.mem_singleton] at h
    rcases h with h | rfl
    · exact h
    · cases hbody

/-- The bodies of a module after `n` runs: those of helpers are tagged with strings of the module,
and the others are as they were. -/
lemma of_mem_taggedTimes {decl : Decl} {body : Body} (h : decl ∈ (m.taggedTimes n).funcs.toList)
    (hbody : decl.body? = some body) : ∃ decl₀ ∈ m.funcs.toList, ∃ body₀, decl₀.body? = some body₀ ∧
      decl.signature = decl₀.signature ∧ decl.name = decl₀.name ∧
      ((decl₀.isHelper = true ∧ ∃ str : Nat → Str,
          body = body₀.taggedTimes (m.funcOf tagCallee) m.withTagCallee.tagReturns str n ∧
          ∀ r < n, (str r).index < (m.taggedTimes n).strings.size) ∨
        (decl₀.isHelper = false ∧ body = body₀)) := by
  rw [taggedTimes, Table.toList_ofList] at h
  obtain ⟨decl₀, hmem, i, rfl, hi⟩ := of_mem_declsTaggedTimes h
  obtain ⟨body₀, hbody₀, hcases⟩ := Decl.of_body?_taggedTimes hbody
  refine ⟨decl₀, mem_funcs_withTagCallee hmem hbody₀, body₀, hbody₀, Decl.signature_taggedTimes n decl₀,
    Decl.name_taggedTimes n decl₀, hcases.imp_left ?_⟩
  rintro ⟨hhelper, heq⟩
  refine ⟨hhelper, _, heq, fun r hr => ?_⟩
  have hlt := hi hhelper
  rw [Nat.zero_add, helperTags_withTagCallee] at hlt
  have hround := Nat.mul_le_mul_right (helperTags m.funcs.toList).length (Nat.succ_le_of_lt hr)
  rw [Nat.succ_mul] at hround
  rw [size_strings_taggedTimes]
  simp only
  omega

/-- What printing a module after `n` runs relies on. -/
structure Taggable (m : Module) (n : Nat) : Prop where
  readable : m.Readable
  ordered : m.Ordered
  room : m.RoomForRuns n

lemma Readable.helperEntries (h : m.Readable) : m.HelperEntriesInRange :=
  fun decl hdecl _ body hbody => (h.bodies decl hdecl body hbody).entry

namespace Taggable

lemma of_belowLimit (hreadable : m.Readable) (hordered : m.Ordered)
    (hlimit : (m.taggedTimes n).BelowLimit) : m.Taggable n :=
  ⟨hreadable, hordered, .of_belowLimit hreadable.signatures hreadable.helperEntries hlimit⟩

variable (h : m.Taggable n)
include h

/-- What tags are handed to has the same type in all runs. -/
lemma funcType_callee : ∃ type,
    ((m.taggedTimes n).funcType (m.funcOf tagCallee) : Except Fault _) = .ok type ∧
      (m.withTagCallee.funcType (m.funcOf tagCallee) : Except Fault _) = .ok type ∧
        type.returns = m.withTagCallee.tagReturns := by
  obtain ⟨type, htype, hreturns⟩ := h.room.funcType
  exact ⟨type, (funcType_taggedTimes m n _ type).2 htype, htype, hreturns⟩

lemma callee_lt : (m.funcOf tagCallee).index < (m.taggedTimes n).funcs.size := by
  obtain ⟨type, htype, -⟩ := h.funcType_callee
  obtain ⟨decl, hdecl, -⟩ := funcType_eq_ok.1 htype
  exact Table.get?_lt hdecl

/-- What `n` runs keep of a helper's body, if each run keeps it. -/
lemma body_induction {P : Body → Prop} {decl : Decl} {body : Body} (hdecl : decl ∈ m.funcs.toList)
    (hhelper : decl.isHelper = true) (hbody : decl.body? = some body) {str : Nat → Str}
    (hstart : P body) (hstep : ∀ r < n, ∀ body', P body' → body'.values.size + 2 ≤ Entity.limit →
      P (body'.tagged (m.funcOf tagCallee) m.withTagCallee.tagReturns (str r))) :
    P (body.taggedTimes (m.funcOf tagCallee) m.withTagCallee.tagReturns str n) := by
  have hmem := (funcs_prefixOf_withTagCallee m).subset hdecl
  obtain ⟨hentry, hvalues⟩ := h.room.helpers decl hmem hhelper body hbody
  exact Body.taggedTimes_induction hentry hvalues hstart hstep

lemma bodies {decl : Decl} (hdecl : decl ∈ (m.taggedTimes n).funcs.toList) {body : Body}
    (hbody : decl.body? = some body) : body.Closed (m.taggedTimes n) ∧ body.Finished ∧
      ∃ type, (m.taggedTimes n).signatures.get? decl.signature = some type ∧ body.Ordered type := by
  have hextends := m.extends_taggedTimes n
  obtain ⟨decl₀, hdecl₀, body₀, hbody₀, hsignature, -, hcases⟩ := of_mem_taggedTimes hdecl hbody
  obtain ⟨type, htype, hordered⟩ := h.ordered decl₀ hdecl₀ body₀ hbody₀
  have hclosed := (h.readable.bodies decl₀ hdecl₀ body₀ hbody₀).extend hextends
  have hfinished := h.readable.finished decl₀ hdecl₀ body₀ hbody₀
  have htype' := hextends.signatures.get? htype
  rw [← hsignature] at htype'
  rcases hcases with ⟨hhelper, str, rfl, hstr⟩ | ⟨-, rfl⟩
  · obtain ⟨hclosed', hfinished', hordered'⟩ := h.body_induction
      (P := fun body => body.Closed (m.taggedTimes n) ∧ body.Finished ∧ body.Ordered type)
      hdecl₀ hhelper hbody₀ ⟨hclosed, hfinished, hordered⟩
      fun r hr body ⟨hclosed, hfinished, hordered⟩ hroom =>
        ⟨hclosed.tagged hroom h.callee_lt (hstr r hr), hfinished.tagged, hordered.tagged hclosed⟩
    exact ⟨hclosed', hfinished', type, htype', hordered'⟩
  · exact ⟨hclosed, hfinished, type, htype', hordered⟩

/-- The module after `n` runs can be printed. -/
lemma readable_taggedTimes : (m.taggedTimes n).Readable where
  signatures decl hdecl := by
    have hsignature := List.mem_map_of_mem (f := Decl.signature) hdecl
    rw [taggedTimes, Table.toList_ofList, map_signature_taggedDecls] at hsignature
    obtain ⟨decl', hdecl', heq⟩ := List.mem_map.1 hsignature
    rw [← heq]
    exact h.readable.signatures.declared tagCallee tagCalleeType decl' hdecl'
  bodies decl hdecl body hbody := (h.bodies hdecl hbody).1
  finished decl hdecl body hbody := (h.bodies hdecl hbody).2.1
  returns type htype := by
    change type ∈ m.withTagCallee.signatures.toList at htype
    unfold withTagCallee declared interned at htype
    split at htype
    · exact h.readable.returns type htype
    · split at htype
      · exact h.readable.returns type htype
      · simp only [Table.toList_append, List.mem_append, List.mem_singleton] at htype
        rcases htype with htype | rfl
        · exact h.readable.returns type htype
        · exact le_refl _
  signatureLimit := h.room.signatures
  stringLimit := (size_strings_taggedTimes m n).trans_le h.room.strings
  funcLimit := by
    rw [taggedTimes, Table.size_ofList, taggedDecls, length_declsTaggedTimes, Table.length_toList]
    exact h.room.funcs

lemma ordered_taggedTimes : (m.taggedTimes n).Ordered :=
  fun _ hdecl _ hbody => (h.bodies hdecl hbody).2.2

/-- If helpers can hand over their tags, the module after `n` runs is well-formed. -/
lemma wellFormed_taggedTimes (hm : m.WellFormed)
    (hcallee : ∀ decl ∈ m.funcs.toList, decl.isHelper = true → ∃ type,
      (m.withTagCallee.funcType (m.funcOf tagCallee) : Except Fault _) = .ok type ∧
        type.params = [.ptr]) : (m.taggedTimes n).WellFormed where
  returns := h.readable_taggedTimes.returns
  signatures := h.readable_taggedTimes.signatures
  bodies decl hdecl body hbody := by
    have hextends := m.extends_taggedTimes n
    obtain ⟨decl₀, hdecl₀, body₀, hbody₀, hsignature, -, hcases⟩ := of_mem_taggedTimes hdecl hbody
    obtain ⟨type, htype, hwell⟩ := hm.bodies decl₀ hdecl₀ body₀ hbody₀
    obtain ⟨found, hfound, hordered⟩ := h.ordered decl₀ hdecl₀ body₀ hbody₀
    obtain rfl := Option.some.inj (htype.symm.trans hfound)
    have hclosed := (h.readable.bodies decl₀ hdecl₀ body₀ hbody₀).extend hextends
    refine ⟨type, by rw [hsignature]; exact hextends.signatures.get? htype, ?_⟩
    rcases hcases with ⟨hhelper, str, rfl, hstr⟩ | ⟨-, rfl⟩
    · obtain ⟨calleeType, hcalleeType, hparams⟩ := hcallee decl₀ hdecl₀ hhelper
      obtain ⟨calleeType', htagged, hdeclared, hreturns⟩ := h.funcType_callee
      obtain rfl := Except.ok.inj (hcalleeType.symm.trans hdeclared)
      have heq : calleeType = ⟨[.ptr], m.withTagCallee.tagReturns⟩ := by
        rw [← hparams, ← hreturns]
      rw [heq] at htagged
      obtain ⟨-, -, hwell'⟩ := h.body_induction
        (P := fun body => body.Closed (m.taggedTimes n) ∧ body.Ordered type ∧
          body.WellFormed (m.taggedTimes n) type)
        hdecl₀ hhelper hbody₀ ⟨hclosed, hordered, hwell.extend hextends⟩
        fun r hr body ⟨hclosed, hordered, hwell⟩ hroom =>
          ⟨hclosed.tagged hroom h.callee_lt (hstr r hr), hordered.tagged hclosed,
            hwell.tagged hordered.fresh (hstr r hr) htagged⟩
      exact hwell'
    · exact hwell.extend hextends

end Taggable

end Module

end EntryTrace
