import EntryTrace.Proofs.CheckedModules
import EntryTrace.Proofs.ResolvedBodies
import EntryTrace.Proofs.ResolvingMore
import EntryTrace.Proofs.RoundTrip

/-!
# Modules that were read from text are well-formed

Each function of a tree becomes one of the module, with the body that its blocks resolve to. The
functions get their bodies one after the other; as far as a body can tell, the module offers the
same all the time.
-/

namespace EntryTrace

open Source

namespace Source

/-- A function of a tree has become this one of the module: it is imported if there are no
blocks, and otherwise has the body that the blocks resolve to. -/
def FuncTree.Resolves (m : Module) (tree : FuncTree) (decl : Decl) : Prop :=
  match tree.blocks? with
  | none => decl = .imported ⟨tree.signature⟩ tree.name
  | some trees => trees ≠ [] ∧ ∃ body, decl = .defined ⟨tree.signature⟩ tree.name body ∧
    Answers (resolveBody m ⟨tree.signature⟩ trees) body

lemma FuncTree.Resolves.signature {m : Module} {tree : FuncTree} {decl : Decl}
    (h : tree.Resolves m decl) : decl.signature = ⟨tree.signature⟩ := by
  unfold FuncTree.Resolves at h
  split at h
  · rw [h, Decl.signature_imported]
  · obtain ⟨-, body, rfl, -⟩ := h
    rfl

lemma FuncTree.Resolves.blocks_ne_nil {m : Module} {tree : FuncTree} {decl : Decl}
    (h : tree.Resolves m decl) : tree.blocks? ≠ some [] := by
  unfold FuncTree.Resolves at h
  split at h
  · simp [*]
  · simp [*]

/-- What a tree resolves to in a module it resolves to in a module that offers more. -/
lemma FuncTree.Resolves.extend {m m' : Module} {tree : FuncTree} {decl : Decl}
    (h : tree.Resolves m decl) (hm : m.Extends m') : tree.Resolves m' decl := by
  unfold FuncTree.Resolves at h ⊢
  split at h
  · exact h
  · obtain ⟨hnonempty, body, hdecl, hbody⟩ := h
    exact ⟨hnonempty, body, hdecl, resolveBody_extend hm hbody⟩

lemma FuncTree.Resolves.body {m : Module} {tree : FuncTree} {decl : Decl} {body : Body}
    (h : tree.Resolves m decl) (hbody : decl.body? = some body) :
    ∃ trees, tree.blocks? = some trees ∧ trees ≠ [] ∧
      Answers (resolveBody m ⟨tree.signature⟩ trees) body := by
  unfold FuncTree.Resolves at h
  split at h
  · rw [h] at hbody
    cases hbody
  · rename_i trees htrees
    obtain ⟨hnonempty, found, rfl, hanswer⟩ := h
    obtain rfl : found = body := Option.some.inj hbody
    exact ⟨trees, htrees, hnonempty, hanswer⟩

lemma defineFuncs_resolves {m t : Module} {trees : List FuncTree} {before : List Decl}
    (hblocks : ∀ tree ∈ trees, tree.blocks? ≠ some [])
    (hfuncs : m.funcs.toList = before ++ trees.map FuncTree.decl)
    (h : Answers (defineFuncs m before.length trees) t) :
    m.Extends t ∧ t = { m with funcs := t.funcs } ∧ ∃ decls, t.funcs.toList = before ++ decls ∧
      List.Forall₂ (FuncTree.Resolves t) trees decls := by
  induction trees generalizing m before with
  | nil =>
    rw [defineFuncs, answers_pure] at h
    subst h
    exact ⟨.refl _, rfl, [], hfuncs, .nil⟩
  | cons tree rest ih =>
    have hblocks' : ∀ tree ∈ rest, tree.blocks? ≠ some [] :=
      fun tree htree => hblocks tree (List.mem_cons_of_mem _ htree)
    rw [List.map_cons] at hfuncs
    cases htree : tree.blocks? with
    | none =>
      rw [defineFuncs, htree] at h
      have hfuncs' : m.funcs.toList = (before ++ [tree.decl]) ++ rest.map FuncTree.decl := by
        simpa using hfuncs
      obtain ⟨hextends, heq, decls, hdecls, hresolves⟩ := ih hblocks' hfuncs' (by simpa using h)
      refine ⟨hextends, heq, tree.decl :: decls, by simpa using hdecls, .cons ?_ hresolves⟩
      rw [FuncTree.Resolves, htree, FuncTree.decl, htree]
      rfl
    | some blocks =>
      obtain ⟨body, hbody, -, hdefine⟩ := (answers_defineFuncs_some htree).1 h
      have hdecl : tree.decl.withBody body = .defined ⟨tree.signature⟩ tree.name body := by
        simp [FuncTree.decl, htree, Decl.withBody]
      have hfuncs' := Table.toList_modify_append hfuncs (Decl.withBody body)
      rw [hdecl, List.append_cons] at hfuncs'
      have hnext : Answers (defineFuncs
          { m with funcs := m.funcs.modify ⟨before.length⟩ (Decl.withBody body) }
          (before ++ [Decl.defined ⟨tree.signature⟩ tree.name body]).length rest) t := by
        simpa using hdefine
      obtain ⟨hextends, heq, decls, hdecls, hresolves⟩ := ih hblocks' hfuncs' hnext
      have hall := (Module.extends_withBody m ⟨before.length⟩ body).trans hextends
      refine ⟨hall, heq, .defined ⟨tree.signature⟩ tree.name body :: decls,
        by simpa using hdecls, .cons ?_ hresolves⟩
      rw [FuncTree.Resolves, htree]
      refine ⟨?_, body, rfl, resolveBody_extend hall hbody⟩
      rintro rfl
      exact hblocks tree List.mem_cons_self htree

/-- The module is what a tree stands for. -/
structure ModuleTree.Resolves (tree : ModuleTree) (m : Module) : Prop where
  types : m.signatures.toList = tree.types.toList
  strings : m.strings.toList = tree.strings.toList
  funcs : List.Forall₂ (FuncTree.Resolves m) tree.funcs.toList m.funcs.toList

theorem resolves_of_resolve {tree : ModuleTree} {m : Module} (hsound : tree.Sound)
    (h : Answers (resolve tree) m) : tree.Resolves m := by
  simp only [resolve, answers_bind, answers_step] at h
  obtain ⟨m1, htypes, m2, hstrings, m3, hdeclare, hdefine⟩ := h
  obtain ⟨hm1, -⟩ := addTypes_effect htypes
  obtain ⟨hm2, -⟩ := addStrings_effect hstrings
  obtain ⟨hm3, -, -⟩ := declareFuncs_effect hdeclare
  have hfuncs : m3.funcs.toList = [] ++ tree.funcs.toList.map FuncTree.decl := by
    simp [hm3, hm2, hm1]
  obtain ⟨-, hm, decls, hdecls, hresolves⟩ := defineFuncs_resolves hsound.blocks hfuncs hdefine
  refine ⟨?_, ?_, ?_⟩
  · rw [hm, hm3, hm2, hm1]
    simp
  · rw [hm, hm3, hm2, hm1]
    simp
  · rw [hdecls]
    exact hresolves

/-- Bodies that resolve in a module which offers no more than what the functions were declared in
are those that the functions get. -/
lemma defineFuncs_of_resolves {m t : Module} {trees : List FuncTree} {before decls : List Decl}
    (hextends : t.Extends m) (hfuncs : m.funcs.toList = before ++ trees.map FuncTree.decl)
    (h : List.Forall₂ (FuncTree.Resolves t) trees decls) :
    Answers (defineFuncs m before.length trees) { m with funcs := .ofList (before ++ decls) } := by
  induction h generalizing m before with
  | nil =>
    have hbefore : m.funcs.toList = before := by simpa using hfuncs
    rw [defineFuncs, answers_pure, List.append_nil, ← hbefore, Table.ofList_toList]
  | @cons tree decl trees decls hhead _ ih =>
    rw [List.map_cons] at hfuncs
    rw [List.append_cons]
    cases htree : tree.blocks? with
    | none =>
      have hdecl : tree.decl = decl := by
        simp only [FuncTree.Resolves, htree] at hhead
        simp [hhead, FuncTree.decl, htree]
      rw [hdecl, List.append_cons] at hfuncs
      rw [defineFuncs, htree]
      simpa using ih hextends hfuncs
    | some blocks =>
      simp only [FuncTree.Resolves, htree] at hhead
      obtain ⟨-, body, rfl, hbody⟩ := hhead
      have hdecl : tree.decl.withBody body = .defined ⟨tree.signature⟩ tree.name body := by
        simp [FuncTree.decl, htree, Decl.withBody]
      have hfuncs' := Table.toList_modify_append hfuncs (Decl.withBody body)
      rw [hdecl, List.append_cons] at hfuncs'
      have hrest := @ih { m with funcs := m.funcs.modify ⟨before.length⟩ (Decl.withBody body) } _
        (hextends.trans (m.extends_withBody _ body)) hfuncs'
      have hindex : before.length < m.funcs.size := by
        rw [← Table.length_toList, hfuncs]
        simp
      exact (answers_defineFuncs_some htree).2
        ⟨body, resolveBody_extend hextends hbody, hindex, by simpa using hrest⟩

/-- A tree resolves to any module that it stands for, as long as there are entities enough. -/
theorem resolve_of_resolves {tree : ModuleTree} {m : Module} (h : tree.Resolves m)
    (hsignatures : m.SignaturesInRange) (hsignatureLimit : m.signatures.size ≤ Entity.limit)
    (hstringLimit : m.strings.size ≤ Entity.limit) (hfuncLimit : m.funcs.size ≤ Entity.limit) :
    Answers (resolve tree) m := by
  have htypes : ({} : Module).signatures.size + tree.types.toList.length ≤ Entity.limit := by
    rw [← h.types, Table.length_toList]
    exact (Nat.zero_add _).trans_le hsignatureLimit
  obtain ⟨m1, hm1⟩ := exists_addTypes htypes
  obtain ⟨heq1, -⟩ := addTypes_effect hm1
  have hstrings : m1.strings.size + tree.strings.toList.length ≤ Entity.limit := by
    rw [heq1, ← h.strings, Table.length_toList]
    exact (Nat.zero_add _).trans_le hstringLimit
  obtain ⟨m2, hm2⟩ := exists_addStrings hstrings
  obtain ⟨heq2, -⟩ := addStrings_effect hm2
  have hsignatures2 : m2.signatures = m.signatures := Table.ext (by simp [heq2, heq1, h.types])
  have hstrings2 : m2.strings = m.strings := Table.ext (by simp [heq2, heq1, h.strings])
  have hfuncs2 : m2.funcs.toList = [] := by simp [heq2, heq1]
  have hroom : m2.funcs.size + tree.funcs.toList.length ≤ Entity.limit := by
    rw [← Table.length_toList, hfuncs2, h.funcs.length_eq, Table.length_toList]
    exact (Nat.zero_add _).trans_le hfuncLimit
  have hinRange : ∀ func ∈ tree.funcs.toList, func.signature < m2.signatures.size := by
    intro func hfunc
    obtain ⟨decl, hdecl, hresolves⟩ := exists_right_of_forall₂ h.funcs hfunc
    have hlt := hsignatures decl hdecl
    rwa [hresolves.signature, ← hsignatures2] at hlt
  obtain ⟨m3, hm3⟩ := (decides_declareFuncs hroom).iff.2 hinRange
  obtain ⟨heq3, -⟩ := declareFuncs_effect hm3
  have hfuncs3 : m3.funcs.toList = [] ++ tree.funcs.toList.map FuncTree.decl := by
    simp [heq3, hfuncs2]
  have hextends : m.Extends m3 :=
    { signatures := by rw [heq3, ← hsignatures2]
      strings := by rw [heq3, ← hstrings2]
      funcs := by
        have hsame : tree.funcs.toList.map (Decl.signature ∘ FuncTree.decl) =
            m.funcs.toList.map Decl.signature :=
          map_eq_of_forall₂ (h.funcs.imp fun _ _ hresolves => by
            rw [hresolves.signature, Function.comp_apply, FuncTree.signature_decl])
        rw [hfuncs3, List.nil_append, List.map_map, hsame] }
  have hdefine := defineFuncs_of_resolves hextends hfuncs3 h.funcs
  have hall : { m3 with funcs := .ofList ([] ++ m.funcs.toList) } = m := by
    rw [heq3, List.nil_append, Table.ofList_toList]
    exact Module.ext hsignatures2 hstrings2 rfl
  rw [hall] at hdefine
  simp only [resolve, answers_bind, answers_step]
  exact ⟨m1, hm1, m2, hm2, m3, hm3, hdefine⟩

/-- What a tree stands for offers all that a module which the tree spells offers. -/
lemma ModuleTree.Resolves.extends_of_spells {tree : ModuleTree} {t t' : Module}
    (h : tree.Resolves t') (hspells : tree.Spells t) :
    t.Extends t' where
  signatures := by
    rw [Table.PrefixOf, h.types, hspells.types]
  strings := by
    rw [← Table.length_toList, ← hspells.strings, ← h.strings, Table.length_toList]
  funcs := by
    have hsame : t.funcs.toList.map Decl.signature = t'.funcs.toList.map Decl.signature := by
      apply map_eq_of_forall₂
      apply (forall₂_common hspells.funcs.flip h.funcs).imp
      rintro decl decl' ⟨func, hfunc, hresolves⟩
      have hindex := hfunc.signature
      rw [hresolves.signature, hindex]
    rw [hsame]

lemma ModuleTree.Resolves.wellFormed {tree : ModuleTree} {m : Module} (h : tree.Resolves m)
    (hsound : tree.Sound) (hsignatures : m.SignaturesInRange) : m.WellFormed where
  returns := by
    rw [h.types]
    exact hsound.returns
  signatures := hsignatures
  bodies decl hdecl body hbody := by
    obtain ⟨func, -, hresolves⟩ := exists_left_of_forall₂ h.funcs hdecl
    obtain ⟨trees, -, hnonempty, hanswer⟩ := hresolves.body hbody
    obtain ⟨type, naming, htype, hresolved⟩ := resolved_of_resolveBody hnonempty hanswer
    rw [hresolves.signature]
    exact ⟨type, htype, hresolved.wellFormed⟩

end Source

/-- A tree that the grammar allows resolves to a well-formed module. -/
theorem wellFormed_of_resolve {tree : ModuleTree} {m : Module} (hsound : tree.Sound)
    (h : Answers (resolve tree) m) : m.WellFormed :=
  (resolves_of_resolve hsound h).wellFormed hsound (resolve_replay hsound h).1.signatures

/-- A module that was read from text is well-formed. -/
theorem wellFormed_of_ofText {text : String} {m : Module}
    (h : (Module.ofText text : Except Fault (Except SourceError Module)) = .ok (.ok m)) :
    m.WellFormed := by
  obtain ⟨located, tree, -, hparse, hresolve⟩ := ofText_eq_ok.1 h
  exact wellFormed_of_resolve (sound_of_parse hparse) hresolve

theorem wellFormed_of_ofText_loopText : ∃ m : Module,
    (Module.ofText loopText : Except Fault (Except SourceError Module)) = .ok (.ok m) ∧
      m.WellFormed := by
  obtain ⟨m, hm⟩ := exists_ofText_loopText
  exact ⟨m, hm, wellFormed_of_ofText hm⟩

end EntryTrace
