import EntryTrace.Proofs.Lists
import EntryTrace.Proofs.ReplayedBodies

/-!
# Modules from their own spelling

A tree resolves to a readable module, and that module is also what every tree that spells it
resolves to. The functions are declared before any of them gets its body, so the modules in
which the bodies are made are the same both times.
-/

namespace EntryTrace.Source

lemma addTypes_effect {m m' : Module} {types : List FuncType}
    (h : (addTypes m types : Except Fault _) = .ok m') :
    m' = { m with signatures := .ofList (m.signatures.toList ++ types) } ∧
      (m.signatures.size ≤ Entity.limit → m'.signatures.size ≤ Entity.limit) := by
  induction types generalizing m with
  | nil =>
    rw [addTypes, pure_eq_ok, Except.ok.injEq] at h
    subst h
    exact ⟨by simp, id⟩
  | cons type types ih =>
    simp only [addTypes, Module.addSignature, bind_eq_ok, Table.push_eq_ok, pure_eq_ok,
      Except.ok.injEq] at h
    obtain ⟨_, ⟨_, ⟨hroom, rfl⟩, rfl⟩, hrest⟩ := h
    obtain ⟨heq, hlimit⟩ := ih hrest
    refine ⟨by simpa using heq, fun _ => hlimit ?_⟩
    rw [Table.size_append]
    exact hroom

lemma addStrings_effect {m m' : Module} {strings : List String}
    (h : (addStrings m strings : Except Fault _) = .ok m') :
    m' = { m with strings := .ofList (m.strings.toList ++ strings) } ∧
      (m.strings.size ≤ Entity.limit → m'.strings.size ≤ Entity.limit) := by
  induction strings generalizing m with
  | nil =>
    rw [addStrings, pure_eq_ok, Except.ok.injEq] at h
    subst h
    exact ⟨by simp, id⟩
  | cons s strings ih =>
    simp only [addStrings, Module.addString, bind_eq_ok, Table.push_eq_ok, pure_eq_ok,
      Except.ok.injEq] at h
    obtain ⟨_, ⟨_, ⟨hroom, rfl⟩, rfl⟩, hrest⟩ := h
    obtain ⟨heq, hlimit⟩ := ih hrest
    refine ⟨by simpa using heq, fun _ => hlimit ?_⟩
    rw [Table.size_append]
    exact hroom

/-- The function as it is declared, before it gets its body. -/
def FuncTree.decl (tree : FuncTree) : Decl :=
  if tree.blocks?.isSome then .defined ⟨tree.signature⟩ tree.name {}
  else .imported ⟨tree.signature⟩ tree.name

@[simp] lemma FuncTree.signature_decl (tree : FuncTree) :
    tree.decl.signature = ⟨tree.signature⟩ := by
  unfold decl
  split <;> rfl

@[simp] lemma FuncTree.name_decl (tree : FuncTree) : tree.decl.name = tree.name := by
  unfold decl
  split <;> rfl

lemma answers_declareFuncs_cons {m t : Module} {tree : FuncTree} {rest : List FuncTree} :
    Answers (declareFuncs m (tree :: rest)) t ↔
      tree.signature < m.signatures.size ∧ m.funcs.size < Entity.limit ∧
        Answers (declareFuncs { m with funcs := m.funcs.append tree.decl } rest) t := by
  simp only [declareFuncs, answers_ite, answers_refuse, and_false, or_false, answers_bind,
    answers_step, Module.addFunc, bind_eq_ok, Table.push_eq_ok, pure_eq_ok, Except.ok.injEq]
  constructor
  · rintro ⟨hsignature, _, ⟨_, ⟨hroom, rfl⟩, rfl⟩, h⟩
    exact ⟨hsignature, hroom, h⟩
  · rintro ⟨hsignature, hroom, h⟩
    exact ⟨hsignature, _, ⟨_, ⟨hroom, rfl⟩, rfl⟩, h⟩

lemma declareFuncs_effect {m t : Module} {trees : List FuncTree}
    (h : Answers (declareFuncs m trees) t) :
    t = { m with funcs := .ofList (m.funcs.toList ++ trees.map FuncTree.decl) } ∧
      (∀ tree ∈ trees, tree.signature < m.signatures.size) ∧
      (m.funcs.size ≤ Entity.limit → t.funcs.size ≤ Entity.limit) := by
  induction trees generalizing m with
  | nil =>
    rw [declareFuncs, answers_pure] at h
    subst h
    exact ⟨by simp, by simp, id⟩
  | cons tree rest ih =>
    obtain ⟨hsignature, hroom, hrest⟩ := answers_declareFuncs_cons.1 h
    obtain ⟨heq, hsignatures, hlimit⟩ := ih hrest
    refine ⟨by simpa using heq, ?_, fun _ => hlimit ?_⟩
    · intro other hother
      rcases List.mem_cons.1 hother with rfl | hother
      · exact hsignature
      · exact hsignatures other hother
    · rw [Table.size_append]
      exact hroom

lemma declareFuncs_congr {m t : Module} {trees trees' : List FuncTree}
    (hdecls : trees'.map FuncTree.decl = trees.map FuncTree.decl)
    (h : Answers (declareFuncs m trees) t) : Answers (declareFuncs m trees') t := by
  induction trees generalizing m trees' with
  | nil =>
    rw [List.map_nil, List.map_eq_nil_iff] at hdecls
    rwa [hdecls]
  | cons tree rest ih =>
    cases trees' with
    | nil => simp at hdecls
    | cons tree' rest' =>
      rw [List.map_cons, List.map_cons, List.cons.injEq] at hdecls
      obtain ⟨hsignature, hroom, hrest⟩ := answers_declareFuncs_cons.1 h
      have hsame : tree'.signature = tree.signature := by
        simpa using congrArg Decl.signature hdecls.1
      exact answers_declareFuncs_cons.2
        ⟨hsame ▸ hsignature, hroom, hdecls.1 ▸ ih hdecls.2 hrest⟩

/-- What a function of the text has become: the declared function, with a body if there are
blocks for one. -/
def FuncTree.Becomes (module : Module) (tree : FuncTree) (decl : Decl) : Prop :=
  match tree.blocks? with
  | none => decl = tree.decl
  | some _ => ∃ body : Body, decl = .defined ⟨tree.signature⟩ tree.name body ∧ body.Closed module ∧
    body.entry = ⟨0⟩ ∧ body.Finished

lemma FuncTree.Becomes.congr {m m' : Module} {tree : FuncTree} {decl : Decl}
    (h : tree.Becomes m decl) (hstrings : m'.strings.size = m.strings.size)
    (hfuncs : m'.funcs.size = m.funcs.size) : tree.Becomes m' decl := by
  unfold FuncTree.Becomes at h ⊢
  cases hblocks : tree.blocks? with
  | none => simpa [hblocks] using h
  | some blocks =>
    rw [hblocks] at h
    obtain ⟨body, hdecl, hclosed, hentry, hfinished⟩ := h
    exact ⟨body, hdecl, hclosed.congr hstrings hfuncs, hentry, hfinished⟩

lemma FuncTree.Becomes.signature {m : Module} {tree : FuncTree} {decl : Decl}
    (h : tree.Becomes m decl) : decl.signature = ⟨tree.signature⟩ := by
  unfold FuncTree.Becomes at h
  split at h
  · rw [h, signature_decl]
  · obtain ⟨body, rfl, -⟩ := h
    rfl

lemma FuncTree.Becomes.body {m : Module} {tree : FuncTree} {decl : Decl} {body : Body}
    (h : tree.Becomes m decl) (hbody : decl.body? = some body) :
    body.Closed m ∧ body.entry = ⟨0⟩ ∧ body.Finished := by
  unfold FuncTree.Becomes at h
  split at h
  · rename_i hblocks
    simp [h, FuncTree.decl, hblocks] at hbody
  · obtain ⟨found, rfl, hfound⟩ := h
    rw [Decl.body?_defined, Option.some.injEq] at hbody
    rwa [← hbody]

/-- A function is declared alike by the tree that it comes from and by one that spells it. -/
lemma FuncTree.Becomes.decl_eq {m : Module} {tree tree' : FuncTree} {decl : Decl}
    (h : tree.Becomes m decl) (hspells : tree'.Spells decl) : tree'.decl = tree.decl := by
  have hsignature : (⟨tree'.signature⟩ : Signature) = ⟨tree.signature⟩ := by
    rw [hspells.signature, h.signature]
  unfold FuncTree.Becomes at h
  split at h
  · rename_i hblocks
    subst h
    have hbody : tree.decl.body? = none := by simp [FuncTree.decl, hblocks]
    have hname : tree'.name = tree.name := by rw [hspells.name, name_decl]
    simp only [FuncTree.decl, hblocks, hspells.imported hbody, hname, hsignature]
  · rename_i blocks hblocks
    obtain ⟨body, rfl, -⟩ := h
    obtain ⟨blocks', hblocks', -⟩ := hspells.defined body rfl
    have hname : tree'.name = tree.name := hspells.name
    simp only [FuncTree.decl, hblocks, hblocks', hname, hsignature, Option.isSome_some]

lemma map_decl_eq {m : Module} {trees trees' : List FuncTree} {decls : List Decl}
    (h : List.Forall₂ (FuncTree.Becomes m) trees decls)
    (hspells : List.Forall₂ FuncTree.Spells decls trees') :
    trees'.map FuncTree.decl = trees.map FuncTree.decl := by
  induction h generalizing trees' with
  | nil =>
    cases hspells
    rfl
  | cons hhead _ ih =>
    cases hspells with
    | cons hspell hrest => rw [List.map_cons, List.map_cons, hhead.decl_eq hspell, ih hrest]

lemma answers_defineFuncs_some {m t : Module} {index : Nat} {tree : FuncTree}
    {rest : List FuncTree} {blocks : List BlockTree} (hblocks : tree.blocks? = some blocks) :
    Answers (defineFuncs m index (tree :: rest)) t ↔
      ∃ body, Answers (resolveBody m ⟨tree.signature⟩ blocks) body ∧ index < m.funcs.size ∧
        Answers (defineFuncs { m with funcs := m.funcs.modify ⟨index⟩ (Decl.withBody body) }
          (index + 1) rest) t := by
  rw [defineFuncs, hblocks]
  simp only [answers_bind, answers_step, Table.update_eq_ok, notePrinted_silent]
  constructor
  · rintro ⟨body, h, _, -, _, ⟨hindex, rfl⟩, h'⟩
    exact ⟨body, h, hindex, h'⟩
  · rintro ⟨body, h, hindex, h'⟩
    exact ⟨body, h, (), trivial, _, ⟨hindex, rfl⟩, h'⟩

lemma defineFuncs_replay {m t : Module} {trees : List FuncTree} {before : List Decl}
    (hblocks : ∀ tree ∈ trees, tree.blocks? ≠ some [])
    (hfuncs : m.funcs.toList = before ++ trees.map FuncTree.decl)
    (h : Answers (defineFuncs m before.length trees) t) :
    t = { m with funcs := t.funcs } ∧ ∃ decls, t.funcs.toList = before ++ decls ∧
      List.Forall₂ (FuncTree.Becomes m) trees decls ∧
      ∀ {trees'}, List.Forall₂ FuncTree.Spells decls trees' →
        Answers (defineFuncs m before.length trees') t := by
  induction trees generalizing m before with
  | nil =>
    rw [defineFuncs, answers_pure] at h
    subst h
    refine ⟨rfl, [], hfuncs, .nil, ?_⟩
    intro trees' hspells
    cases hspells
    rw [defineFuncs, answers_pure]
  | cons tree rest ih =>
    have hblocks' : ∀ tree ∈ rest, tree.blocks? ≠ some [] :=
      fun tree htree => hblocks tree (List.mem_cons_of_mem _ htree)
    rw [List.map_cons] at hfuncs
    cases htree : tree.blocks? with
    | none =>
      rw [defineFuncs, htree] at h
      have hfuncs' : m.funcs.toList = (before ++ [tree.decl]) ++ rest.map FuncTree.decl := by
        simpa using hfuncs
      have hrest := ih hblocks' hfuncs' (by simpa using h)
      obtain ⟨heq, decls, hdecls, hbecome, hreplay⟩ := hrest
      refine ⟨heq, tree.decl :: decls, by simpa using hdecls, ?_, ?_⟩
      · refine .cons ?_ hbecome
        simp [FuncTree.Becomes, htree]
      · intro trees' hspells
        cases hspells with
        | cons hhead htail =>
          have hbody : tree.decl.body? = none := by simp [FuncTree.decl, htree]
          rw [defineFuncs, hhead.imported hbody]
          simpa using hreplay htail
    | some blocks =>
      obtain ⟨body, hbody, hindex, hdefine⟩ := (answers_defineFuncs_some htree).1 h
      have hnonempty : blocks ≠ [] := by
        rintro rfl
        exact hblocks tree List.mem_cons_self htree
      obtain ⟨hclosed, hentry, hfinished, hreplayBody⟩ := resolveBody_replay hnonempty hbody
      have hdecl : tree.decl.withBody body = .defined ⟨tree.signature⟩ tree.name body := by
        simp [FuncTree.decl, htree, Decl.withBody]
      have hfuncs' := Table.toList_modify_append hfuncs (Decl.withBody body)
      rw [hdecl] at hfuncs'
      have hrest := @ih { m with funcs := m.funcs.modify ⟨before.length⟩ (Decl.withBody body) }
        (before ++ [.defined ⟨tree.signature⟩ tree.name body]) hblocks' (by simpa using hfuncs')
        (by simpa using hdefine)
      obtain ⟨heq, decls, hdecls, hbecome, hreplay⟩ := hrest
      refine ⟨heq, .defined ⟨tree.signature⟩ tree.name body :: decls, by simpa using hdecls, ?_, ?_⟩
      · refine .cons ?_ (hbecome.imp fun _ _ h => h.congr rfl (Table.size_modify _ _ _).symm)
        rw [FuncTree.Becomes, htree]
        exact ⟨body, rfl, hclosed, hentry, hfinished⟩
      · intro trees' hspells
        cases hspells with
        | cons hhead htail =>
          obtain ⟨blocks', hblocks', hspellAll⟩ := hhead.defined body rfl
          refine (answers_defineFuncs_some hblocks').2 ⟨body, ?_, hindex, by simpa using hreplay htail⟩
          rw [hhead.signature]
          exact hreplayBody hspellAll

/-- What the grammar promises of the tree of a module. -/
structure ModuleTree.Sound (tree : ModuleTree) : Prop where
  returns : ∀ type ∈ tree.types.toList, type.returns.length ≤ 1
  blocks : ∀ func ∈ tree.funcs.toList, func.blocks? ≠ some []

/-- A tree resolves to a readable module, and every tree that spells that module resolves to the
same module again. -/
theorem resolve_replay {tree : ModuleTree} {m : Module} (hsound : tree.Sound)
    (h : Answers (resolve tree) m) :
    m.Readable ∧ ∀ {tree' : ModuleTree}, tree'.Spells m → Answers (resolve tree') m := by
  simp only [resolve, answers_bind, answers_step] at h
  obtain ⟨m1, htypes, m2, hstrings, m3, hdeclare, hdefine⟩ := h
  obtain ⟨hm1, hsignatureLimit⟩ := addTypes_effect htypes
  obtain ⟨hm2, hstringLimit⟩ := addStrings_effect hstrings
  obtain ⟨hm3, hsignatures, hfuncLimit⟩ := declareFuncs_effect hdeclare
  have hfuncs : m3.funcs.toList = [] ++ tree.funcs.toList.map FuncTree.decl := by
    simp [hm3, hm2, hm1]
  obtain ⟨hm, decls, hdecls, hbecome, hreplay⟩ := defineFuncs_replay hsound.blocks hfuncs hdefine
  have hsize : m.funcs.size = m3.funcs.size := by
    rw [← Table.length_toList, ← Table.length_toList, hdecls, hfuncs]
    simp [hbecome.length_eq]
  have hstrings' : m.strings.size = m3.strings.size := by rw [hm]
  have htypes' : m.signatures.toList = tree.types.toList := by
    rw [hm, hm3, hm2, hm1]
    simp
  have hstringList : m.strings.toList = tree.strings.toList := by
    rw [hm, hm3, hm2, hm1]
    simp
  have hbodies : ∀ decl ∈ m.funcs.toList, ∀ body ∈ decl.body?, body.Closed m ∧ body.Finished := by
    intro decl hdecl body hbody
    rw [hdecls] at hdecl
    obtain ⟨func, -, hbecomes⟩ := exists_left_of_forall₂ hbecome hdecl
    obtain ⟨hclosed, -, hfinished⟩ := hbecomes.body hbody
    exact ⟨hclosed.congr hstrings' hsize, hfinished⟩
  refine ⟨{
    signatures := ?_
    bodies := fun decl hdecl body hbody => (hbodies decl hdecl body hbody).1
    finished := fun decl hdecl body hbody => (hbodies decl hdecl body hbody).2
    returns := by
      rw [htypes']
      exact hsound.returns
    signatureLimit := ?_
    stringLimit := ?_
    funcLimit := ?_ }, ?_⟩
  · intro decl hdecl
    rw [hdecls] at hdecl
    obtain ⟨func, hfunc, hbecomes⟩ := exists_left_of_forall₂ hbecome hdecl
    have hlt := hsignatures func hfunc
    have hsame : m.signatures = m2.signatures := by rw [hm, hm3]
    rwa [hbecomes.signature, hsame]
  · have hsame : m.signatures = m1.signatures := by rw [hm, hm3, hm2]
    rw [hsame]
    exact hsignatureLimit (Nat.zero_le _)
  · have hsame : m.strings = m2.strings := by rw [hm, hm3]
    rw [hsame]
    refine hstringLimit ?_
    simp [hm1]
  · rw [hsize]
    refine hfuncLimit ?_
    simp [hm2, hm1]
  · intro tree' hspells
    have hfuncs' : List.Forall₂ FuncTree.Spells decls tree'.funcs.toList := by
      simpa [hdecls] using hspells.funcs
    simp only [resolve, answers_bind, answers_step]
    refine ⟨m1, ?_, m2, ?_, m3, declareFuncs_congr (map_decl_eq hbecome hfuncs') hdeclare,
      hreplay hfuncs'⟩
    · rw [hspells.types, htypes', htypes]
    · rw [hspells.strings, hstringList, hstrings]

end EntryTrace.Source
