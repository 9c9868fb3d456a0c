import EntryTrace.Proofs.CheckedBodies
import EntryTrace.Proofs.Extending
import EntryTrace.Proofs.ReplayedModules

/-!
# Resolving accepts the well-typed trees

A tree resolves to a module if and only if it is well-typed, and is refused with an error if it
is not, as long as there are numbers enough for what it asks for. All functions are declared
before any body is made, so that every body is checked against all of them.
-/

namespace EntryTrace

open Source

namespace Source

variable {tree : ModuleTree} {m : Module}

lemma exists_addTypes {types : List FuncType}
    (hroom : m.signatures.size + types.length ≤ Entity.limit) :
    ∃ m', (addTypes m types : Except Fault _) = .ok m' := by
  induction types generalizing m with
  | nil => exact ⟨m, rfl⟩
  | cons type types ih =>
    rw [List.length_cons] at hroom
    have hadd : (m.addSignature type : Except Fault _) =
        .ok (⟨m.signatures.size⟩, { m with signatures := m.signatures.append type }) :=
      bind_eq_ok.2 ⟨_, Table.push_eq_ok.2 ⟨by omega, rfl⟩, rfl⟩
    have hroom' : (m.signatures.append type).size + types.length ≤ Entity.limit := by
      rw [Table.size_append]
      omega
    obtain ⟨m', hrest⟩ := @ih { m with signatures := m.signatures.append type } hroom'
    exact ⟨m', bind_eq_ok.2 ⟨_, hadd, hrest⟩⟩

lemma exists_addStrings {strings : List String}
    (hroom : m.strings.size + strings.length ≤ Entity.limit) :
    ∃ m', (addStrings m strings : Except Fault _) = .ok m' := by
  induction strings generalizing m with
  | nil => exact ⟨m, rfl⟩
  | cons s strings ih =>
    rw [List.length_cons] at hroom
    have hadd : (m.addString s : Except Fault _) =
        .ok (⟨m.strings.size⟩, { m with strings := m.strings.append s }) :=
      bind_eq_ok.2 ⟨_, Table.push_eq_ok.2 ⟨by omega, rfl⟩, rfl⟩
    have hroom' : (m.strings.append s).size + strings.length ≤ Entity.limit := by
      rw [Table.size_append]
      omega
    obtain ⟨m', hrest⟩ := @ih { m with strings := m.strings.append s } hroom'
    exact ⟨m', bind_eq_ok.2 ⟨_, hadd, hrest⟩⟩

lemma decides_declareFuncs {trees : List FuncTree}
    (hroom : m.funcs.size + trees.length ≤ Entity.limit) :
    Decides (declareFuncs m trees) (∀ func ∈ trees, func.signature < m.signatures.size)
      fun _ => True := by
  induction trees generalizing m with
  | nil => exact Decides.congr (Decides.pure trivial) (by simp)
  | cons func trees ih =>
    rw [List.length_cons] at hroom
    rw [declareFuncs]
    by_cases hsignature : func.signature < m.signatures.size
    · have hsize : m.funcs.size < Entity.limit := by omega
      have hadd : (m.addFunc func.decl : Except Fault _) =
          .ok (⟨m.funcs.size⟩, { m with funcs := m.funcs.append func.decl }) :=
        bind_eq_ok.2 ⟨_, Table.push_eq_ok.2 ⟨hsize, rfl⟩, rfl⟩
      have hroom' : (m.funcs.append func.decl).size + trees.length ≤ Entity.limit := by
        rw [Table.size_append]
        omega
      rw [if_pos hsignature]
      refine Decides.congr (Decides.stepBind hadd (ih hroom')) ?_
      simp [hsignature]
    · rw [if_neg hsignature]
      exact .refuse fun h => hsignature (h func List.mem_cons_self)

lemma ModuleTree.Declares.withBody (h : tree.Declares m) (func : Func) (body : Body) :
    tree.Declares { m with funcs := m.funcs.modify func (Decl.withBody body) } where
  strings := h.strings
  funcs index hindex := by
    rw [Table.size_modify] at hindex
    obtain ⟨type, htype, htype'⟩ := h.funcs index hindex
    exact ⟨type, (Module.extends_withBody m func body).funcType htype, htype'⟩
  others index hindex := by
    rw [Table.size_modify] at hindex
    exact h.others index hindex

lemma decides_defineFuncs {trees : List FuncTree} {index : Nat} (htree : tree.Declares m)
    (htypes : m.signatures.toList = tree.types.toList)
    (hindex : index + trees.length ≤ m.funcs.size)
    (hsignatures : ∀ func ∈ trees, func.signature < tree.types.size)
    (hlimits : ∀ func ∈ trees, func.WithinLimits tree) :
    Decides (defineFuncs m index trees) (∀ func ∈ trees, func.WellTyped tree) fun _ => True := by
  induction trees generalizing m index with
  | nil => exact Decides.congr (Decides.pure trivial) (by simp)
  | cons func trees ih =>
    rw [List.length_cons] at hindex
    have hsignatures' : ∀ func ∈ trees, func.signature < tree.types.size :=
      fun func hfunc => hsignatures func (List.mem_cons_of_mem _ hfunc)
    have hlimits' : ∀ func ∈ trees, func.WithinLimits tree :=
      fun func hfunc => hlimits func (List.mem_cons_of_mem _ hfunc)
    rw [defineFuncs]
    cases hblocks : func.blocks? with
    | none =>
      have hfunc : func.WellTyped tree := by simp [FuncTree.WellTyped, hblocks]
      have hrest : Decides (defineFuncs m (index + 1) trees) (∀ func ∈ trees, func.WellTyped tree)
          fun _ => True := ih htree htypes (by omega) hsignatures' hlimits'
      refine Decides.congr hrest ?_
      simp [hfunc]
    | some blocks =>
      have hlt := hsignatures func List.mem_cons_self
      let type := tree.types[func.signature]
      have htype : tree.types[func.signature]? = some type := Array.getElem?_eq_getElem hlt
      have htype' : m.signatures.get? ⟨func.signature⟩ = some type := by
        rw [Table.get?_eq, htypes, Array.getElem?_toList, htype]
      obtain ⟨hcount, hvalues⟩ := hlimits func List.mem_cons_self blocks hblocks
      have hbody : Decides (resolveBody m ⟨func.signature⟩ blocks) (func.WellTyped tree)
          fun _ => True := by
        refine (decides_resolveBody htree htype' hcount (hvalues type htype)).congr ?_
        simp [FuncTree.WellTyped, hblocks, htype]
      apply hbody.bind
      · rintro - body -
        have hupdate : (m.funcs.update ⟨index⟩ (Decl.withBody body) : Except Fault _) =
            .ok (m.funcs.modify ⟨index⟩ (Decl.withBody body)) :=
          Table.update_eq_ok.2 ⟨show index < m.funcs.size by omega, rfl⟩
        apply Decides.stepBind (notePrinted_silent _ _)
        apply Decides.stepBind hupdate
        apply ih (htree.withBody ⟨index⟩ body) htypes _ hsignatures' hlimits'
        rw [Table.size_modify]
        omega
      · simp

/-- Once all functions are declared, the module has the types that the tree gives them. -/
lemma declares_of_declareFuncs {m' : Module} (htypes : m.signatures.toList = tree.types.toList)
    (hstrings : m.strings.toList = tree.strings.toList) (hfuncs : m.funcs.toList = [])
    (h : Answers (declareFuncs m tree.funcs.toList) m') : tree.Declares m' := by
  obtain ⟨heq, hsignatures, -⟩ := declareFuncs_effect h
  have hdecls : m'.funcs.toList = tree.funcs.toList.map FuncTree.decl := by
    rw [heq, hfuncs]
    simp
  have hsize : m'.funcs.size = tree.funcs.size := by
    rw [← Table.length_toList, hdecls, List.length_map, Array.length_toList]
  have hsignatures' : m'.signatures = m.signatures := by rw [heq]
  refine ⟨?_, fun index hindex => ?_, fun index hindex => ?_⟩
  · rw [show m'.strings = m.strings by rw [heq], ← Table.length_toList, hstrings,
      Array.length_toList]
  · have hindex' : index < tree.funcs.size := hsize ▸ hindex
    let func := tree.funcs[index]
    have hfunc : tree.funcs[index]? = some func := Array.getElem?_eq_getElem hindex'
    have hdecl : m'.funcs.get? ⟨index⟩ = some func.decl := by
      rw [Table.get?_eq, hdecls, List.getElem?_map, Array.getElem?_toList, hfunc]
      rfl
    obtain ⟨type, htype⟩ := Table.get?_of_lt (e := ⟨func.signature⟩)
      (hsignatures func (Array.mem_toList_iff.2 (Array.getElem_mem hindex')))
    refine ⟨type, Module.funcType_eq_ok.2 ⟨func.decl, hdecl, ?_⟩, ?_⟩
    · rw [FuncTree.signature_decl, hsignatures', htype]
    · rw [ModuleTree.funcType?, hfunc, Option.bind_some]
      rwa [Table.get?_eq, htypes, Array.getElem?_toList] at htype
  · rw [ModuleTree.funcType?, Array.getElem?_eq_none (by omega), Option.bind_none]

/-- Resolving a tree decides whether it is well-typed. -/
lemma decides_resolve (h : tree.WithinLimits) :
    Decides (resolve tree) tree.WellTyped fun _ => True := by
  have hnone : ({} : Module).signatures.size + tree.types.toList.length ≤ Entity.limit := by
    rw [Array.length_toList]
    exact (Nat.zero_add _).trans_le h.types
  obtain ⟨m1, hm1⟩ := exists_addTypes hnone
  obtain ⟨hsignatures, -⟩ := addTypes_effect hm1
  have hstrings : m1.strings.size + tree.strings.toList.length ≤ Entity.limit := by
    rw [hsignatures, Array.length_toList]
    exact (Nat.zero_add _).trans_le h.strings
  obtain ⟨m2, hm2⟩ := exists_addStrings hstrings
  obtain ⟨heq, -⟩ := addStrings_effect hm2
  have htypes2 : m2.signatures.toList = tree.types.toList := by simp [heq, hsignatures]
  have hstrings2 : m2.strings.toList = tree.strings.toList := by simp [heq, hsignatures]
  have hfuncs2 : m2.funcs.toList = [] := by simp [heq, hsignatures]
  have hcount : m2.signatures.size = tree.types.size := by
    rw [← Table.length_toList, htypes2, Array.length_toList]
  have hroom : m2.funcs.size + tree.funcs.toList.length ≤ Entity.limit := by
    rw [← Table.length_toList, hfuncs2, Array.length_toList]
    exact (Nat.zero_add _).trans_le h.funcs
  rw [resolve]
  apply Decides.stepBind hm1
  apply Decides.stepBind hm2
  apply (decides_declareFuncs hroom).withAnswer.bind (r := ∀ func ∈ tree.funcs.toList,
    func.WellTyped tree)
  · rintro hall m3 ⟨hanswer, -⟩
    have hdeclares := declares_of_declareFuncs htypes2 hstrings2 hfuncs2 hanswer
    obtain ⟨heq3, -, -⟩ := declareFuncs_effect hanswer
    rw [hcount] at hall
    apply decides_defineFuncs hdeclares (by rw [heq3]; exact htypes2) _ hall h.bodies
    rw [heq3]
    simp [hfuncs2]
  · rw [hcount]
    exact ⟨fun h => ⟨h.1, h.2⟩, fun h => ⟨h.signatures, h.funcs⟩⟩

end Source

/-- A tree resolves to a module if and only if it is well-typed; otherwise it is refused with an
error. -/
theorem resolve_iff_wellTyped {tree : ModuleTree} (h : tree.WithinLimits) :
    ((∃ m, Answers (resolve tree) m) ↔ tree.WellTyped) ∧
      (¬ tree.WellTyped → Refuses (resolve tree)) :=
  ⟨(decides_resolve h).iff, (decides_resolve h).refuses⟩

/-- A function that hands a string to one that comes after it, and then goes forward to a block
that returns its argument. -/
def forwardTree : ModuleTree where
  types := #[⟨[.i32], [.i32]⟩, ⟨[.ptr], []⟩]
  strings := #["s"]
  funcs := #[
    { line := 1, name := "f", signature := 0, blocks? := some [
      { line := 2, name := 3, params := [(7, .i32)]
        insts := [{ line := 3, result := 2, op := .call 1 [.str 0] }]
        term := .jump ⟨5, [.value 7]⟩, termLine := 4 },
      { line := 5, name := 5, params := [(4, .i32)], insts := []
        term := .ret [.value 4], termLine := 6 }] },
    { line := 7, name := "g", signature := 1, blocks? := none }]

theorem resolve_iff_wellTyped_forwardTree : forwardTree.WithinLimits ∧
    ((∃ m, Answers (resolve forwardTree) m) ↔ forwardTree.WellTyped) ∧
      (¬ forwardTree.WellTyped → Refuses (resolve forwardTree)) := by
  have hlimits : forwardTree.WithinLimits := by
    refine ⟨by decide, by decide, by decide, ?_⟩
    simp [forwardTree, FuncTree.WithinLimits, valueCount, Entity.limit, BlockTree.valueCount,
      InstTree.valueCount, pointerCount, OpTree.operands, TermTree.operands]
  exact ⟨hlimits, resolve_iff_wellTyped hlimits⟩

end EntryTrace
