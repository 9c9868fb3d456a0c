import EntryTrace.Proofs.ConstantBodies
import EntryTrace.Proofs.ResolvedModules

/-!
# Modules with another constant

The number of a constant is looked at when its function gets its body. One that does not fit is
refused there. With one that fits the module is the same but for one value of that function.
-/

namespace EntryTrace

open Source

/-- A function in which one value comes about in another way. -/
def Decl.withDef (value : Value) (d : Def) : Decl → Decl
  | .imported signature name => .imported signature name
  | .defined signature name body => .defined signature name (body.withDef value d)

@[simp] lemma Decl.signature_withDef (value : Value) (d : Def) (decl : Decl) :
    (decl.withDef value d).signature = decl.signature := by
  cases decl <;> rfl

/-- A module in which one value of one function comes about in another way. -/
def Module.withDef (m : Module) (func : Func) (value : Value) (d : Def) : Module :=
  { m with funcs := m.funcs.modify func (Decl.withDef value d) }

namespace Module

variable {m : Module} {func : Func} {signature : Signature} {name : String} {body : Body} {v : Value}
  {d : Def}

lemma get?_withDef (h : m.funcs.get? func = some (.defined signature name body)) :
    (m.withDef func v d).funcs.get? func = some (.defined signature name (body.withDef v d)) := by
  rw [withDef, Table.get?_modify, if_pos rfl, h]
  rfl

lemma extends_withDef (m : Module) (func : Func) (v : Value) (d : Def) :
    m.Extends (m.withDef func v d) where
  signatures := .refl _
  strings := le_refl _
  funcs := by
    have hsame : (m.withDef func v d).funcs.map Decl.signature = m.funcs.map Decl.signature :=
      Table.map_modify_of_eq fun decl => decl.signature_withDef v d
    rw [← Table.toList_map, ← Table.toList_map, hsame]

end Module

namespace Source

lemma defineFuncs_append {m : Module} {index : Nat} (xs ys : List FuncTree) :
    (defineFuncs m index (xs ++ ys) : Resolving (Except Fault) Module) =
      defineFuncs m index xs >>= fun m' => defineFuncs m' (index + xs.length) ys := by
  induction xs generalizing m index with
  | nil => exact (pure_bind _ _).symm
  | cons tree xs ih =>
    have hindex : index + (tree :: xs).length = index + 1 + xs.length := by
      rw [List.length_cons]
      omega
    rw [List.cons_append, defineFuncs, defineFuncs, hindex]
    cases tree.blocks? with
    | none => exact ih
    | some blocks =>
      simp only [bind_assoc, ih]

namespace ModuleSite

variable {site : ModuleSite} {n₀ : Int} {m₀ : Module}

lemma toList_funcs (site : ModuleSite) (n : Int) :
    (site.tree n).funcs.toList = site.funcs.before ++ site.func.tree n :: site.funcs.after := by
  rw [tree, Gap.fill]

/-- A number that does not fit is refused on the line of its instruction. -/
theorem refuses_resolve (h : Answers (resolve (site.tree n₀)) m₀) {n : Int}
    (hnot : ¬ site.func.block.inst.width.Fits n) :
    RefusesWith (resolve (site.tree n)) (site.func.block.inst.refusal n) := by
  simp only [resolve, answers_bind, answers_step] at h
  obtain ⟨m1, htypes, m2, hstrings, m3, hdeclare, hdefine⟩ := h
  have hdeclare' : Answers (declareFuncs m2 (site.tree n).funcs.toList) m3 := by
    refine declareFuncs_congr ?_ hdeclare
    rw [toList_funcs, toList_funcs, List.map_append, List.map_append, List.map_cons, List.map_cons]
    rfl
  rw [toList_funcs, defineFuncs_append, answers_bind] at hdefine
  obtain ⟨m4, hbefore, hhere⟩ := hdefine
  obtain ⟨body, hbody, -⟩ := (answers_defineFuncs_some rfl).1 hhere
  obtain ⟨v, -, hall⟩ := site.func.settles_resolveBody hbody
  have hrefuses := (hall n).2 hnot
  refine (answers_step.2 htypes).refusesWith_bind ((answers_step.2 hstrings).refusesWith_bind
    (hdeclare'.refusesWith_bind ?_))
  rw [toList_funcs, defineFuncs_append]
  exact hbefore.refusesWith_bind hrefuses.bind

/-- With a number that fits the module is the same but for the constant. -/
theorem answers_resolve (hsound : (site.tree n₀).Sound) (h : Answers (resolve (site.tree n₀)) m₀) :
    ∃ func signature name body v, m₀.funcs.get? func = some (.defined signature name body) ∧
      body.values.get? v = some (site.func.block.inst.width.constant n₀) ∧ ∀ n,
        site.func.block.inst.width.Fits n → Answers (resolve (site.tree n))
          (m₀.withDef func v (site.func.block.inst.width.constant n)) := by
  have hresolves := resolves_of_resolve hsound h
  have hreadable := (resolve_replay hsound h).1
  have hfuncs := hresolves.funcs
  rw [toList_funcs] at hfuncs
  obtain ⟨before, decl, after, hdecls, hbefore, hhere, hafter⟩ := forall₂_split hfuncs.flip
  obtain ⟨hsome, body, rfl, hbody⟩ := hhere
  obtain ⟨v, hv, hall⟩ := site.func.settles_resolveBody hbody
  have hfunc : m₀.funcs.get? ⟨before.length⟩ =
      some (.defined ⟨site.func.func.signature⟩ site.func.func.name body) := by
    rw [Table.get?_eq, hdecls, List.getElem?_append_right le_rfl, Nat.sub_self]
    rfl
  refine ⟨⟨before.length⟩, _, _, body, v, hfunc, hv, fun n hfits => ?_⟩
  have hextends := m₀.extends_withDef ⟨before.length⟩ v (site.func.block.inst.width.constant n)
  have hmodified := Table.toList_modify_append hdecls (Decl.withDef v (site.func.block.inst.width.constant n))
  have hkept {decls : List Decl} {trees : List FuncTree}
      (h : List.Forall₂ (flip (FuncTree.Resolves m₀)) decls trees) : List.Forall₂ (FuncTree.Resolves
        (m₀.withDef ⟨before.length⟩ v (site.func.block.inst.width.constant n))) trees decls :=
    (h.imp fun _ _ hresolves => FuncTree.Resolves.extend hresolves hextends).flip
  refine resolve_of_resolves ⟨hresolves.types, hresolves.strings, ?_⟩ ?_ hreadable.signatureLimit
    hreadable.stringLimit ?_
  · rw [toList_funcs, Module.withDef, hmodified]
    refine List.rel_append (hkept hbefore) (.cons ⟨?_, _, rfl, ?_⟩ (hkept hafter))
    · simp [FuncSite.trees, Gap.fill]
    · exact resolveBody_extend hextends ((hall n).1 hfits)
  · intro decl hdecl
    rcases Table.mem_modify hdecl with hmem | ⟨old, hold, rfl⟩
    · exact hreadable.signatures decl hmem
    · rw [Decl.signature_withDef]
      exact hreadable.signatures old (Table.mem_of_get? hold)
  · rw [Module.withDef, Table.size_modify]
    exact hreadable.funcLimit

end ModuleSite

end Source

end EntryTrace
