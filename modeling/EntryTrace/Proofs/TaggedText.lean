import EntryTrace.Proofs.CheckedModules
import EntryTrace.Proofs.ResolvedModules
import EntryTrace.Proofs.TaggedForm
import EntryTrace.Proofs.TaggedRuns

/-!
# Reading what is printed of a tagged module

The call that tagging puts in front of a helper has the highest numbers but is read first, so reading
the printed text numbers the values of the helper anew; nothing else changes. The text is refused
exactly if a helper hands its tag to a function that does not take it.
-/

namespace EntryTrace

open Source

/-! ### Modules that were read from text -/

lemma Body.Resolved.ordered {m : Module} {type : FuncType} {naming : Naming} {trees : List BlockTree}
    {body : Body} (h : body.Resolved m type naming trees) : body.Ordered type where
  entry := h.wellFormed.entry
  entryParams := h.wellFormed.entryParams
  params data hdata p hp := by
    obtain ⟨block, hblock⟩ := Table.get?_of_mem hdata
    obtain ⟨position, hposition⟩ := List.getElem?_of_mem hp
    exact ⟨block, position, p.1, h.params block data hblock position p.1 p.2 hposition⟩
  once := by
    have hlength := h.order.stop
    rw [Nat.zero_add] at hlength
    rw [Body.ReadOnce, h.order.eq, hlength]
  fresh v hv := by
    have hnotMem : v ∉ body.readingOrder := fun hmem => by
      have hlt := (h.order.mem_iff.1 hmem).2
      omega
    apply h.homeless
    · exact fun hparam => hnotMem (List.mem_append_left _ hparam)
    · exact fun hinst => hnotMem (body.listing_sublist_readingOrder.subset hinst)

lemma Source.ModuleTree.Resolves.ordered {tree : ModuleTree} {m : Module} (h : tree.Resolves m) :
    m.Ordered := by
  intro decl hdecl body hbody
  obtain ⟨func, -, hresolves⟩ := exists_left_of_forall₂ h.funcs hdecl
  obtain ⟨trees, -, hnonempty, hanswer⟩ := hresolves.body hbody
  obtain ⟨type, naming, htype, hresolved⟩ := resolved_of_resolveBody hnonempty hanswer
  rw [hresolves.signature]
  exact ⟨type, htype, hresolved.ordered⟩

/-- A module that was read from text is in the order in which it was read. -/
lemma Module.ordered_of_ofText {text : String} {m : Module}
    (h : (Module.ofText text : Except Fault (Except SourceError Module)) = .ok (.ok m)) : m.Ordered := by
  obtain ⟨located, tree, -, hparse, hresolve⟩ := ofText_eq_ok.1 h
  exact (resolves_of_resolve (sound_of_parse hparse) hresolve).ordered

/-- A tree that is refused makes a text that is refused. -/
lemma ofText_of_refusesWith {text : String} {located : List Located} {tree : ModuleTree}
    {e : SourceError} (htokens : tokens text = .ok located) (hparse : parse located = .ok tree)
    (h : RefusesWith (resolve tree) e) :
    (Module.ofText text : Except Fault (Except SourceError Module)) = .ok (.error e) := by
  have hread {α : Type} {x : Except SourceError α} {a : α} (hx : x = .ok a) :
      Answers (ExceptT.mk (pure x) : Resolving (Except Fault) α) a := by
    rw [Answers, hx]
    rfl
  have hnote : Answers (step (note .trace fun _ => "frontend: " ++ toString located.length ++
      " tokens") : Resolving (Except Fault) Unit) () := answers_step.2 (note_silent _ _)
  exact (hread htokens).refusesWith_bind
    (hnote.refusesWith_bind ((hread hparse).refusesWith_bind h.bind))

lemma ofText_eq_error {text : String} {located : List Located} {tree : ModuleTree}
    (htokens : tokens text = .ok located) (hparse : parse located = .ok tree)
    (hrefuses : Refuses (resolve tree)) :
    ∃ e, (Module.ofText text : Except Fault (Except SourceError Module)) = .ok (.error e) := by
  obtain ⟨e, he⟩ := hrefuses
  exact ⟨e, ofText_of_refusesWith htokens hparse he⟩

/-- Both forms of the text of what a tree resolves to can be printed, and are read as the same. -/
lemma ofText_render_of_resolve {tree : ModuleTree} {m : Module} (hsound : tree.Sound)
    (h : Answers (resolve tree) m) (verbose : Bool) : ∃ printed, m.render verbose = .ok printed ∧
      (Module.ofText printed : Except Fault (Except SourceError Module)) = .ok (.ok m) := by
  obtain ⟨hreadable, hreplay⟩ := resolve_replay hsound h
  obtain ⟨printed, hprinted, hrenders⟩ := renders_of_render hreadable verbose
  obtain ⟨located, htokens, hlocated⟩ := tokens_of_renders hrenders
  obtain ⟨tree', hparse, hspells⟩ := parse_of_tokens hreadable hlocated
  exact ⟨printed, hprinted, ofText_eq_ok.2 ⟨located, tree', htokens, hparse, hreplay hspells⟩⟩

/-! ### When tags can be handed over -/

namespace Module

variable {m m' : Module} {n : Nat}

/-- There is nothing to tag, or the function that tags are handed to is not there yet, or the first
one of its name takes a pointer and nothing else. -/
def TagsFit (m : Module) : Prop :=
  (∀ decl ∈ m.funcs.toList, decl.isHelper = false) ∨ m.funcNamed? tagCallee = none ∨
    ∃ func type, m.funcNamed? tagCallee = some func ∧
      (m.funcType func : Except Fault _) = .ok type ∧ type.params = [.ptr]

lemma tagsFit_iff : m.TagsFit ↔ (∀ decl ∈ m.funcs.toList, decl.isHelper = false) ∨
    ∃ type, (m.withTagCallee.funcType (m.funcOf tagCallee) : Except Fault _) = .ok type ∧
      type.params = [.ptr] := by
  apply or_congr_right
  unfold withTagCallee declared funcOf
  cases hnamed : m.funcNamed? tagCallee with
  | some func => simp
  | none =>
    refine ⟨fun _ => ⟨tagCalleeType, funcType_eq_ok.2 ⟨_, Table.get?_append_size _ _, ?_⟩, rfl⟩,
      fun _ => .inl rfl⟩
    exact get?_signatureOf tagCalleeType

namespace Taggable

variable (h : m.Taggable n)
include h

lemma runTimes (hn : 1 ≤ n) :
    tagPass.runTimes n m = .ok (List.replicate n true, m.taggedTimes n) := by
  obtain ⟨k, rfl⟩ := Nat.exists_eq_add_of_le' hn
  have hruns := @runTimes_taggedTimes m (k + 1) 0 (by rw [Nat.zero_add]; exact h.room)
  have hfirst : (tagPass : Pass (Except Fault)).run (m.taggedTimes 0) = tagPass.run m := by
    rw [taggedTimes_zero]
    exact congrArg (· >>= _) (tagHelpers_eq_tagHelpers_withTagCallee h.room).symm
  rwa [Nat.zero_add, Pass.runTimes, hfirst] at hruns

/-- If a tree that spells the module after some runs is well-typed, then whatever a helper hands
its tag to takes a pointer and nothing else. -/
lemma params_callee (hn : 1 ≤ n) {tree : ModuleTree} (hspells : tree.Spells (m.taggedTimes n))
    (hw : tree.WellTyped) {decl : Decl} (hdecl : decl ∈ m.funcs.toList)
    (hhelper : decl.isHelper = true) :
    ∃ type, (m.withTagCallee.funcType (m.funcOf tagCallee) : Except Fault _) = .ok type ∧
      type.params = [.ptr] := by
  obtain ⟨k, rfl⟩ := Nat.exists_eq_add_of_le' hn
  obtain ⟨body, hbody⟩ : ∃ body, decl.body? = some body := by
    cases decl with
    | imported => simp at hhelper
    | defined _ _ body => exact ⟨body, rfl⟩
  have hdeclared := (funcs_prefixOf_withTagCallee m).subset hdecl
  obtain ⟨hentry, hroom⟩ := h.room.helpers decl hdeclared hhelper body hbody
  obtain ⟨str, hmem⟩ := mem_taggedDecls (k + 1) hdeclared
  rw [← @Table.toList_ofList .func _ (m.taggedDecls (k + 1))] at hmem
  have htagged : (decl.taggedTimes (m.funcOf tagCallee) m.withTagCallee.tagReturns str (k + 1)).body? =
      some ((body.taggedTimes (m.funcOf tagCallee) m.withTagCallee.tagReturns str k).tagged
        (m.funcOf tagCallee) m.withTagCallee.tagReturns (str k)) := by
    rw [Body.tagged_taggedTimes hentry (by omega), Decl.eq_defined body hbody]
    rw [Decl.eq_defined body hbody, Decl.isHelper_defined] at hhelper
    rw [Decl.taggedTimes, if_pos hhelper, Decl.body?_defined]
  obtain ⟨hclosed, -, type, -, hordered⟩ := h.bodies hmem htagged
  obtain ⟨data, hdata⟩ := Table.get?_of_lt hclosed.entry
  obtain ⟨old, -, rfl⟩ := Body.get?_blocks_tagged_eq_some.1 hdata
  obtain ⟨calleeType, hcallee, hparams⟩ := hspells.params_of_firstCall hw hmem htagged
    hordered.entry hdata (congrArg (· ++ old.insts) (if_pos rfl)) Body.get?_values_tagged_call
    Body.get?_values_tagged_pointer
  exact ⟨calleeType, (funcType_taggedTimes m _ _ _).1 hcallee, hparams⟩

lemma wellFormed_of_tagsFit (hm : m.WellFormed) (hfit : m.TagsFit) :
    (m.taggedTimes n).WellFormed := by
  refine h.wellFormed_taggedTimes hm fun decl hdecl hhelper => ?_
  rcases tagsFit_iff.1 hfit with hnone | hcallee
  · rw [hnone decl hdecl] at hhelper
    cases hhelper
  · exact hcallee

/-- What is printed after some runs is well-typed exactly if tags can be handed over. -/
lemma wellTyped_iff_tagsFit (hn : 1 ≤ n) (hm : m.WellFormed) {tree : ModuleTree}
    (hspells : tree.Spells (m.taggedTimes n)) : tree.WellTyped ↔ m.TagsFit := by
  constructor
  · intro hw
    rw [tagsFit_iff]
    by_cases hnone : ∀ decl ∈ m.funcs.toList, decl.isHelper = false
    · exact .inl hnone
    · push Not at hnone
      obtain ⟨decl, hdecl, hhelper⟩ := hnone
      exact .inr (h.params_callee hn hspells hw hdecl (by simpa using hhelper))
  · intro hfit
    refine hspells.wellTyped (h.wellFormed_of_tagsFit hm hfit) fun decl hdecl body hbody => ?_
    obtain ⟨type, -, hordered⟩ := h.ordered_taggedTimes decl hdecl body hbody
    exact hordered.once

end Taggable

end Module

/-! ### What is read -/

section Reading

variable {m t t' : Module} {tree₀ tree : ModuleTree}

/-- Bodies that the trees which spell a well-formed one resolve to are renumberings of it. -/
lemma exists_renumberedBy {type : FuncType} {body body' : Body} {signature : Signature}
    {trees : List BlockTree} (hextends : t.Extends t') (hsignature : t.signatures.get? signature = some type)
    (hwell : body.WellFormed t type) (hclosed : body.Closed t) (hordered : body.Ordered type)
    (hspells : BlockTree.SpellAll body trees) (hnonempty : trees ≠ [])
    (hanswer : Answers (resolveBody t' signature trees) body') : ∃ σ, body.RenumberedBy σ body' := by
  obtain ⟨found, naming, hfound, hresolved⟩ := resolved_of_resolveBody hnonempty hanswer
  obtain rfl := Option.some.inj ((hextends.signatures.get? hsignature).symm.trans hfound)
  have htwins : Twins t t' type trees body.numbering naming body body' :=
    { offers := hextends
      wellFormed := hwell
      wellFormed' := hresolved.wellFormed
      means := hspells.means hordered hclosed
      means' := hresolved.means
      fits := body.fits_numbering
      fits' := hresolved.names
      injective := body.injective_numbering
      once := hordered.once
      once' := hresolved.ordered.once }
  obtain ⟨σ, hσ⟩ := htwins.exists_map_readingOrder
  exact ⟨σ, htwins.renumberedBy hσ⟩

/-- What a function after some runs is read as: a helper may be renumbered, and any other function
is made in the same way as before. -/
lemma renumberedAs_decl {n : Nat} (h : m.Taggable n) (hsource : tree₀.Resolves m)
    (hwell : (m.taggedTimes n).WellFormed) (hextends : (m.taggedTimes n).Extends t') {func : FuncTree}
    {decl decl' : Decl} (hdecl : decl ∈ (m.taggedTimes n).funcs.toList) (hspells : func.Spells decl)
    (hresolves : func.Resolves t' decl') : decl.RenumberedAs decl' := by
  have hsame : ({ index := func.signature } : Signature) = decl.signature := by rw [hspells.signature]
  unfold FuncTree.Resolves at hresolves
  rw [hsame, hspells.name] at hresolves
  cases hbody : decl.body? with
  | none =>
    rw [hspells.imported hbody] at hresolves
    have heq : decl' = decl := by
      rw [hresolves]
      cases decl with
      | imported => rfl
      | defined => simp at hbody
    rw [heq]
    exact .same decl
  | some body =>
    obtain ⟨trees, htrees, hall⟩ := hspells.defined body hbody
    rw [htrees] at hresolves
    obtain ⟨hnonempty, body', rfl, hanswer⟩ := hresolves
    rw [Decl.eq_defined body hbody]
    obtain ⟨decl₀, hdecl₀, body₀, hbody₀, hsignature, hname, hcases⟩ :=
      Module.of_mem_taggedTimes hdecl hbody
    rcases hcases with ⟨hhelper, -⟩ | ⟨-, rfl⟩
    · obtain ⟨type, htype, hbodyWell⟩ := hwell.bodies decl hdecl body hbody
      obtain ⟨hclosed, -, found, hfound, hordered⟩ := h.bodies hdecl hbody
      obtain rfl := Option.some.inj (htype.symm.trans hfound)
      obtain ⟨σ, hσ⟩ :=
        exists_renumberedBy hextends htype hbodyWell hclosed hordered hall hnonempty hanswer
      rw [Decl.eq_defined body₀ hbody₀, Decl.isHelper_defined, ← hname] at hhelper
      exact .helper σ hhelper hσ
    · obtain ⟨func₀, -, hresolves₀⟩ := exists_left_of_forall₂ hsource.funcs hdecl₀
      obtain ⟨trees₀, -, hnonempty₀, hanswer₀⟩ := hresolves₀.body hbody₀
      have hagain := (resolveBody_replay hnonempty₀ hanswer₀).2.2.2 hall
      rw [← hresolves₀.signature, ← hsignature] at hagain
      have hlater := resolveBody_extend ((m.extends_taggedTimes n).trans hextends) hagain
      obtain rfl : body = body' := by
        rw [Answers, hanswer] at hlater
        exact (Except.ok.inj (Except.ok.inj hlater)).symm
      exact .same _

/-- What is read of a module after some runs is that module with other numbers for the values in
helpers. -/
lemma renumberedAs_of_resolves {n : Nat} (h : m.Taggable n) (hsource : tree₀.Resolves m)
    (hwell : (m.taggedTimes n).WellFormed) (hspells : tree.Spells (m.taggedTimes n))
    (hresolves : tree.Resolves t') : (m.taggedTimes n).RenumberedAs t' where
  signatures := Table.ext (hresolves.types.trans hspells.types)
  strings := Table.ext (hresolves.strings.trans hspells.strings)
  funcs := forall₂_imp_of_mem (forall₂_common hspells.funcs.flip hresolves.funcs)
    fun _ hdecl _ _ ⟨_, hfunc, hresolve⟩ => renumberedAs_decl h hsource hwell
      (hresolves.extends_of_spells hspells) hdecl hfunc hresolve

/-- Reading what is printed of a tagged module succeeds exactly if helpers can hand over their tags,
and then gives the tagged module with other numbers for the values in helpers. -/
lemma ofText_render_taggable {n : Nat} (hsound₀ : tree₀.Sound) (hresolve₀ : Answers (resolve tree₀) m)
    (h : m.Taggable n) (hn : 1 ≤ n) (verbose : Bool) :
    ∃ printed, (m.taggedTimes n).render verbose = .ok printed ∧
      ((∃ m', (Module.ofText printed : Except Fault (Except SourceError Module)) = .ok (.ok m')) ↔
        m.TagsFit) ∧
      (¬ m.TagsFit → ∃ e,
        (Module.ofText printed : Except Fault (Except SourceError Module)) = .ok (.error e)) ∧
      ∀ m', (Module.ofText printed : Except Fault (Except SourceError Module)) = .ok (.ok m') →
        (m.taggedTimes n).RenumberedAs m' ∧ ∀ verbose', ∃ again, m'.render verbose' = .ok again ∧
          (Module.ofText again : Except Fault (Except SourceError Module)) = .ok (.ok m') := by
  have hsource := resolves_of_resolve hsound₀ hresolve₀
  have hwell := wellFormed_of_resolve hsound₀ hresolve₀
  obtain ⟨printed, hprinted, hrenders⟩ := renders_of_render h.readable_taggedTimes verbose
  obtain ⟨located, htokens, hlocated⟩ := tokens_of_renders hrenders
  obtain ⟨tree, hparse, hspells⟩ := parse_of_tokens h.readable_taggedTimes hlocated
  have hlimits := hspells.withinLimits h.readable_taggedTimes h.ordered_taggedTimes
  have hdecides := (decides_resolve hlimits).congr (h.wellTyped_iff_tagsFit hn hwell hspells)
  have hread : ∀ m', (Module.ofText printed : Except Fault (Except SourceError Module)) =
      .ok (.ok m') ↔ Answers (resolve tree) m' := by
    intro m'
    rw [ofText_eq_ok]
    constructor
    · rintro ⟨_, _, htokens', hparse', hanswer⟩
      obtain rfl := Except.ok.inj (htokens.symm.trans htokens')
      obtain rfl := Except.ok.inj (hparse.symm.trans hparse')
      exact hanswer
    · exact fun hanswer => ⟨located, tree, htokens, hparse, hanswer⟩
  refine ⟨printed, hprinted, (exists_congr hread).trans hdecides.iff,
    fun hnot => ofText_eq_error htokens hparse (hdecides.refuses hnot), fun m' hm' => ?_⟩
  have hanswer := (hread m').1 hm'
  have hsound := sound_of_parse hparse
  have hfit := hdecides.iff.1 ⟨m', hanswer⟩
  exact ⟨renumberedAs_of_resolves h hsource (h.wellFormed_of_tagsFit hwell hfit)
    hspells (resolves_of_resolve hsound hanswer), ofText_render_of_resolve hsound hanswer⟩

end Reading

/-- Reading what is printed of a module that was read from text and then tagged succeeds exactly if
helpers can hand over their tags; otherwise the text is refused. What is read is the tagged module
with other numbers for the values in helpers, and printing and reading it gives it back. -/
theorem ofText_render_tagged {text : String} {m : Module} {n : Nat}
    (h : (Module.ofText text : Except Fault (Except SourceError Module)) = .ok (.ok m)) (hn : 1 ≤ n)
    (hlimit : (m.taggedTimes n).BelowLimit) (verbose : Bool) :
    tagPass.runTimes n m = .ok (List.replicate n true, m.taggedTimes n) ∧
      ∃ printed, (m.taggedTimes n).render verbose = .ok printed ∧
        ((∃ m', (Module.ofText printed : Except Fault (Except SourceError Module)) = .ok (.ok m')) ↔
          m.TagsFit) ∧
        (¬ m.TagsFit → ∃ e,
          (Module.ofText printed : Except Fault (Except SourceError Module)) = .ok (.error e)) ∧
        ∀ m', (Module.ofText printed : Except Fault (Except SourceError Module)) = .ok (.ok m') →
          (m.taggedTimes n).RenumberedAs m' ∧ ∀ verbose', ∃ again, m'.render verbose' = .ok again ∧
            (Module.ofText again : Except Fault (Except SourceError Module)) = .ok (.ok m') := by
  obtain ⟨located, tree, -, hparse, hresolve⟩ := ofText_eq_ok.1 h
  have hsound := sound_of_parse hparse
  have htaggable : m.Taggable n := .of_belowLimit (resolve_replay hsound hresolve).1
    (resolves_of_resolve hsound hresolve).ordered hlimit
  exact ⟨htaggable.runTimes hn, ofText_render_taggable hsound hresolve htaggable hn verbose⟩

theorem ofText_render_tagged_countDown :
    (Module.ofText countDownText : Except Fault (Except SourceError Module)) = .ok (.ok countDown) ∧
      1 ≤ 2 ∧ (countDown.taggedTimes 2).BelowLimit ∧
      tagPass.runTimes 2 countDown = .ok ([true, true], countDown.taggedTimes 2) ∧
      ∃ printed, (countDown.taggedTimes 2).render false = .ok printed ∧
        ((∃ m', (Module.ofText printed : Except Fault (Except SourceError Module)) = .ok (.ok m')) ↔
          countDown.TagsFit) ∧
        (¬ countDown.TagsFit → ∃ e,
          (Module.ofText printed : Except Fault (Except SourceError Module)) = .ok (.error e)) ∧
        ∀ m', (Module.ofText printed : Except Fault (Except SourceError Module)) = .ok (.ok m') →
          (countDown.taggedTimes 2).RenumberedAs m' ∧ ∀ verbose, ∃ again,
            m'.render verbose = .ok again ∧
            (Module.ofText again : Except Fault (Except SourceError Module)) = .ok (.ok m') := by
  have hlimit : (countDown.taggedTimes 2).BelowLimit := by decide +kernel
  exact ⟨ofText_countDownText, by decide, hlimit,
    ofText_render_tagged ofText_countDownText (by decide) hlimit false⟩

end EntryTrace
