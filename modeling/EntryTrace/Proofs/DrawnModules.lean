import EntryTrace.Proofs.CheckedTags
import EntryTrace.Proofs.DrawnBodies
import EntryTrace.Proofs.TaggedText

/-!
# Modules that are drawn

Functions are drawn one after the other, and each finds the module as the ones before left it. What
all modules on the way have in common is kept by every step. From it follows that the module which
any bytes give is read back from its text, and that it passes through tagging, its check, printing
and reading.
-/

namespace EntryTrace

open Source

/-! ### Straight-line bodies -/

/-- The value is a word. -/
def Body.IsWord (body : Body) (value : Value) : Prop :=
  (body.values.get? value).bind Def.type? = some .i32

/-- The body of function `func` is one block. What is used in it are words that are parameters or
were computed before, and what is called are functions before `func`. -/
structure Body.StraightLine (func : Func) (body : Body) (data : BlockData) : Prop where
  entry : body.entry = ⟨0⟩
  blocks : body.blocks.toList = [data]
  insts : ∀ before inst after, data.insts = before ++ inst :: after → ∃ op args types,
    body.values.get? inst = some (.inst op args types) ∧
      (∀ callee, op = .call callee → callee.index < func.index) ∧
      ∀ arg ∈ args, arg ∈ data.paramValues ++ before ∧ body.IsWord arg
  terminator : ∀ arg ∈ data.terminator.operands,
    arg ∈ data.paramValues ++ data.insts ∧ body.IsWord arg

/-- All bodies of the module are straight-line bodies. -/
def Module.StraightLine (m : Module) : Prop :=
  ∀ func decl, m.funcs.get? func = some decl → ∀ body ∈ decl.body?,
    ∃ data, body.StraightLine func data

namespace Body.OfWords

variable {m : Module} {type : FuncType} {body : Body} {func : Func} {data : BlockData}

/-- Where a value is offered, it is a word that was there before. -/
lemma mem_of_offers {limit : Nat} (h : body.OfWords limit) (hwell : body.WellFormed m type)
    (hblocks : body.blocks.toList = [data]) {before : List Value} {v : Value}
    (hv : body.Offers m before v) : v ∈ data.paramValues ++ before ∧ body.IsWord v := by
  unfold Body.Offers at hv
  unfold Body.IsWord
  split at hv
  · rename_i str hget
    have hword := h.words _ (Table.mem_of_get? hget)
    cases hword
  · rename_i block position paramType hget
    obtain ⟨data', hdata', hparam⟩ := (hwell.params v block position paramType).1 hget
    have hmem := Table.mem_of_get? hdata'
    rw [hblocks, List.mem_singleton] at hmem
    subst hmem
    refine ⟨List.mem_append_left _ ?_, by rw [hget]; exact h.words _ (Table.mem_of_get? hget)⟩
    exact List.mem_map.2 ⟨_, List.mem_of_getElem? hparam, rfl⟩
  · rename_i op args types hget
    exact ⟨List.mem_append_right _ hv, by rw [hget]; exact h.words _ (Table.mem_of_get? hget)⟩
  · exact hv.elim

lemma straightLine (h : body.OfWords func.index) (hwell : body.WellFormed m type) :
    ∃ data, body.StraightLine func data := by
  obtain ⟨data, hblocks⟩ := List.length_eq_one_iff.1
    ((Table.length_toList body.blocks).trans h.oneBlock)
  have hlisting : body.listing = data.insts := by simp [Body.listing, listingOf, hblocks]
  have hdata : body.blocks.get? ⟨0⟩ = some data := by simp [Table.get?_eq, hblocks]
  refine ⟨data, h.entry, hblocks, fun before inst after hinsts => ?_, fun arg harg => ?_⟩
  · rw [← hlisting] at hinsts
    obtain ⟨op, args, types, hget⟩ :=
      hwell.insts inst (hinsts ▸ List.mem_append_right _ List.mem_cons_self)
    refine ⟨op, args, types, hget, ?_, fun arg harg => h.mem_of_offers hwell hblocks
      (hwell.operands before inst after hinsts op args types hget arg harg)⟩
    rintro callee rfl
    exact h.calls callee args types (Table.mem_of_get? hget)
  · have hthrough : body.listingThrough ⟨0⟩ = data.insts := by
      simp [Body.listingThrough, listingOf, hblocks]
    rw [← hthrough]
    exact h.mem_of_offers hwell hblocks (hwell.terminatorOperands ⟨0⟩ data hdata arg harg)

end Body.OfWords

/-! ### Drawing functions -/

lemma Module.extends_append (m : Module) (decl : Decl) :
    m.Extends { m with funcs := m.funcs.append decl } where
  signatures := .refl _
  strings := le_refl _
  funcs := by
    rw [Table.toList_append, List.map_append]
    exact List.prefix_append _ _

namespace Generate

/-- The types of drawn functions. -/
def drawnTypes : List FuncType := [⟨[], [.i32]⟩, ⟨[.i32], [.i32]⟩]

lemma ofWords_of_mem_drawnTypes {type : FuncType} (h : type ∈ drawnTypes) :
    type.OfWords ∧ type.params.length ≤ 1 := by
  simp only [drawnTypes, List.mem_cons, List.not_mem_nil, or_false] at h
  rcases h with rfl | rfl
  · exact ⟨⟨by simp, rfl⟩, by simp⟩
  · exact ⟨⟨by simp, rfl⟩, by simp⟩

/-- What a function drawn for `func` is like. -/
structure DrawnDecl (m : Module) (func : Func) (decl : Decl) : Prop where
  signature : decl.signature.index < m.signatures.size
  name : decl.name ≠ tagCallee
  words : ∀ body ∈ decl.body?, body.OfWords func.index
  size : ∀ body ∈ decl.body?, body.values.size ≤ maxInsts + 2
  text : ∃ tree : FuncTree, tree.Resolves m decl

/-- What all modules have in common into which functions are drawn. -/
structure Drawn (m : Module) : Prop where
  types : m.signatures.toList = drawnTypes
  strings : m.strings = {}
  funcs : ∀ func decl, m.funcs.get? func = some decl → DrawnDecl m func decl

variable {m : Module}

namespace Drawn

lemma size_signatures (h : Drawn m) : m.signatures.size = 2 := by
  rw [← Table.length_toList, h.types]
  rfl

lemma signaturesInRange (h : Drawn m) : m.SignaturesInRange := by
  intro decl hdecl
  obtain ⟨func, hfunc⟩ := Table.get?_of_mem hdecl
  exact (h.funcs func decl hfunc).signature

lemma ofWords (h : Drawn m) : m.OfWords :=
  ⟨h.signaturesInRange, fun _ htype => (ofWords_of_mem_drawnTypes (h.types ▸ htype)).1⟩

lemma append (h : Drawn m) {decl : Decl} (hdecl : DrawnDecl m ⟨m.funcs.size⟩ decl) :
    Drawn { m with funcs := m.funcs.append decl } where
  types := h.types
  strings := h.strings
  funcs func decl' hget := by
    have hdrawn : DrawnDecl m func decl' := by
      rw [Table.get?_append] at hget
      split at hget
      · rename_i hfunc
        obtain rfl := Option.some.inj hget
        obtain rfl : func = ⟨m.funcs.size⟩ := Entity.index_injective _ hfunc
        exact hdecl
      · exact h.funcs func decl' hget
    obtain ⟨tree, htree⟩ := hdrawn.text
    exact { hdrawn with text := ⟨tree, htree.extend (m.extends_append decl)⟩ }

end Drawn

/-- No drawn name is that of the function which tags are handed to. -/
lemma name_ne_tagCallee {stem : String} (hstem : stem ∈ "helper_" :: otherStems) (rest : String) :
    stem ++ rest ≠ tagCallee := by
  have hhead : ∀ stem ∈ "helper_" :: otherStems,
      stem.toList.head? ≠ none ∧ stem.toList.head? ≠ tagCallee.toList.head? := by decide
  obtain ⟨hsome, hother⟩ := hhead stem hstem
  intro heq
  have hlist := congrArg (fun s => s.toList.head?) heq
  simp only [String.toList_append] at hlist
  cases hcs : stem.toList with
  | nil => simp [hcs] at hsome
  | cons c cs =>
    rw [hcs] at hother hlist
    exact hother hlist

/-- One more function can be drawn as long as there is room for it. -/
lemma draws_drawFunc (h : Drawn m) (hroom : m.funcs.size < Entity.limit) :
    Draws (drawFunc m ⟨0⟩ ⟨1⟩) fun m' => Drawn m' ∧ m'.funcs.size = m.funcs.size + 1 := by
  have hadd {decl : Decl} (hdecl : DrawnDecl m ⟨m.funcs.size⟩ decl) :
      Draws (do let r ← liftM (m.addFunc decl : Except Fault _); pure r.2) fun m' =>
        Drawn m' ∧ m'.funcs.size = m.funcs.size + 1 := by
    have hok : (m.addFunc decl : Except Fault _) =
        .ok (⟨m.funcs.size⟩, { m with funcs := m.funcs.append decl }) :=
      bind_eq_ok.2 ⟨_, Table.push_eq_ok.2 ⟨hroom, rfl⟩, rfl⟩
    refine (draws_ok hok).bind ?_
    rintro _ rfl
    exact draws_pure ⟨h.append hdecl, Table.size_append _ _⟩
  refine (draws_choose _ _).bind fun signature hsignature => ?_
  refine (draws_choose _ _).bind fun stem hstem => ?_
  refine (draws_any _).bind fun number _ => ?_
  refine (draws_any _).bind fun imported _ => ?_
  have hlt : signature.index < m.signatures.size := by
    simp only [List.mem_cons, List.not_mem_nil, or_false] at hsignature
    rcases hsignature with rfl | rfl
    · simp [h.size_signatures]
    · simp [h.size_signatures]
  have hname := name_ne_tagCallee hstem (toString number)
  split
  · exact hadd ⟨hlt, hname, nofun, nofun, ⟨0, stem ++ toString number, signature.index, none⟩, rfl⟩
  · obtain ⟨type, htype⟩ := Table.get?_of_lt hlt
    have hparams := (ofWords_of_mem_drawnTypes (h.types ▸ Table.mem_of_get? htype)).2
    refine (draws_drawBody h.ofWords htype ?_).bind fun body ⟨hwords, hvalues, tree, htree⟩ => ?_
    · have : maxInsts + 1 < Entity.limit := by decide
      omega
    · refine hadd ⟨hlt, hname, ?_, ?_, ⟨0, stem ++ toString number, signature.index, some [tree]⟩, ?_⟩
      · rintro _ ⟨⟩
        exact hwords
      · rintro _ ⟨⟩
        omega
      · exact ⟨List.cons_ne_nil _ _, body, rfl, htree⟩

lemma draws_drawFuncs {n : Nat} (h : Drawn m) (hroom : m.funcs.size + n ≤ Entity.limit) :
    Draws (drawFuncs ⟨0⟩ ⟨1⟩ n m) fun m' => Drawn m' ∧ m'.funcs.size = m.funcs.size + n := by
  induction n generalizing m with
  | zero => exact draws_pure ⟨h, rfl⟩
  | succ n ih =>
    refine (draws_drawFunc h (by omega)).bind fun m' ⟨hm', hsize⟩ => ?_
    refine (ih hm' (by omega)).imp fun m'' ⟨hm'', hsize'⟩ => ⟨hm'', by omega⟩

/-- Whatever the supply, there is a module with few functions. -/
lemma exists_generate (supply : Supply) : ∃ m rest,
    (Module.generate supply : Except Fault _) = .ok (m, rest) ∧ Drawn m ∧
      m.funcs.size ≤ maxFuncs := by
  let start : Module := { signatures := .ofList drawnTypes }
  have hnullary : (({} : Module).internSignature ⟨[], [.i32]⟩ : Except Fault _) =
      .ok (⟨0⟩, { signatures := .ofList [⟨[], [.i32]⟩] }) := by cbv
  have hunary : (({ signatures := .ofList [⟨[], [.i32]⟩] } : Module).internSignature
      ⟨[.i32], [.i32]⟩ : Except Fault _) = .ok (⟨1⟩, start) := by cbv
  have hstart : Drawn start := ⟨rfl, rfl, fun func decl hget => by simp [start, Table.get?] at hget⟩
  have hcount := (@Supply.between_mem 8 0 maxFuncs (Nat.zero_le _) supply).2
  have hroom : start.funcs.size + (Supply.between 8 0 maxFuncs supply).1 ≤ Entity.limit := by
    have : maxFuncs ≤ Entity.limit := by decide
    exact (Nat.zero_add _).trans_le (hcount.trans this)
  obtain ⟨m, rest, hdraw, hm, hsize⟩ :=
    draws_drawFuncs hstart hroom (Supply.between 8 0 maxFuncs supply).2
  refine ⟨m, rest, ?_, hm, by rw [hsize]; exact (Nat.zero_add _).trans_le hcount⟩
  exact bind_eq_ok.2 ⟨_, hnullary, bind_eq_ok.2 ⟨_, hunary, hdraw⟩⟩

/-! ### Drawn modules are read back -/

namespace Drawn

variable (h : Drawn m) (hfuncs : m.funcs.size ≤ maxFuncs)
include h

lemma funcNamed?_tagCallee : m.funcNamed? tagCallee = none := by
  rw [Module.funcNamed?, Table.find?_eq_find?_entries, Option.map_eq_none_iff, List.find?_eq_none]
  intro entry hentry
  simpa using (h.funcs _ _ (Table.get?_of_mem_entries hentry)).name

include hfuncs

lemma exists_resolve : ∃ tree : ModuleTree, tree.Sound ∧ Answers (resolve tree) m := by
  obtain ⟨trees, hall⟩ : ∃ trees, List.Forall₂ (FuncTree.Resolves m) trees m.funcs.toList := by
    apply exists_forall₂
    intro decl hdecl
    obtain ⟨func, hfunc⟩ := Table.get?_of_mem hdecl
    exact (h.funcs func decl hfunc).text
  let tree : ModuleTree := ⟨drawnTypes.toArray, #[], trees.toArray⟩
  have htree : tree.Resolves m := ⟨h.types, by rw [h.strings]; rfl, hall⟩
  have hlimit : maxFuncs ≤ Entity.limit := by decide
  refine ⟨tree, ⟨fun type htype => ?_, fun func hfunc => ?_⟩, resolve_of_resolves htree
    h.signaturesInRange (by rw [h.size_signatures]; decide) (by rw [h.strings]; decide)
    (hfuncs.trans hlimit)⟩
  · rw [(ofWords_of_mem_drawnTypes htype).1.returns]
    exact le_refl _
  · obtain ⟨decl, -, hresolves⟩ := exists_right_of_forall₂ hall hfunc
    exact hresolves.blocks_ne_nil

/-- There is room for tags. -/
lemma roomForRuns : m.RoomForRuns 1 := by
  have hlimit : maxFuncs + maxInsts + 4 ≤ Entity.limit := by decide
  have hdeclared : m.withTagCallee.funcs =
      m.funcs.append (.imported (m.signatureOf tagCalleeType) tagCallee) := by
    simp [Module.withTagCallee, Module.declared, h.funcNamed?_tagCallee]
  refine ⟨h.signaturesInRange, ?_, ?_, ?_, fun decl hdecl _ body hbody => ?_⟩
  · have hadded : m.withTagCallee.signatures.size ≤ m.signatures.size + 1 := by
      unfold Module.withTagCallee Module.declared Module.interned
      split
      · exact Nat.le_succ _
      · split
        · exact Nat.le_succ _
        · exact (Table.size_append _ _).le
    rw [h.size_signatures] at hadded
    omega
  · rw [hdeclared, Table.size_append]
    omega
  · have htags : (helperTags m.funcs.toList).length ≤ m.funcs.size := by
      rw [helperTags, List.length_map, ← Table.length_toList]
      exact List.length_filter_le _ _
    rw [h.strings, Nat.one_mul]
    exact (Nat.zero_add _).trans_le (htags.trans (by omega))
  · rw [hdeclared, Table.toList_append, List.mem_append, List.mem_singleton] at hdecl
    rcases hdecl with hdecl | rfl
    · obtain ⟨func, hfunc⟩ := Table.get?_of_mem hdecl
      have hdrawn := h.funcs func decl hfunc
      have hsize := hdrawn.size body hbody
      exact ⟨(hdrawn.words body hbody).entry_lt, by omega⟩
    · cases hbody

end Drawn

end Generate

open Generate

/-- Whatever bytes a module is drawn from, it is a well-formed one of straight-line bodies, which
reading gets back from its text. Tagging it succeeds and passes the check, and reading gets back
what is printed of the tagged module, with all functions and strings. -/
theorem Module.generate_checked (supply : Supply) : ∃ m rest,
    (Module.generate supply : Except Fault _) = .ok (m, rest) ∧ m.WellFormed ∧ m.StraightLine ∧
      (∀ verbose, ∃ printed, m.render verbose = .ok printed ∧
        (Module.ofText printed : Except Fault (Except SourceError Module)) = .ok (.ok m)) ∧
      ∃ m', (tagPass : Pass (Except Fault)).run m = .ok (true, m') ∧ checkTagged m m' = .ok () ∧
        ∀ verbose, ∃ printed m'', m'.render verbose = .ok printed ∧
          (Module.ofText printed : Except Fault (Except SourceError Module)) = .ok (.ok m'') ∧
          m''.funcs.size = m'.funcs.size ∧ m''.strings.size = m'.strings.size := by
  obtain ⟨m, rest, hgenerate, hdrawn, hfuncs⟩ := exists_generate supply
  obtain ⟨tree, hsound, hresolve⟩ := hdrawn.exists_resolve hfuncs
  have hwell := wellFormed_of_resolve hsound hresolve
  have hreadable := (resolve_replay hsound hresolve).1
  have hroom := hdrawn.roomForRuns hfuncs
  have htag := hroom.tagHelpers_eq
  have htaggable : m.Taggable 1 := ⟨hreadable, (resolves_of_resolve hsound hresolve).ordered, hroom⟩
  refine ⟨m, rest, hgenerate, hwell, fun func decl hdecl body hbody => ?_,
    ofText_render_of_resolve hsound hresolve, m.taggedTimes 1, ?_, ?_, fun verbose => ?_⟩
  · obtain ⟨type, -, hbodyWell⟩ := hwell.bodies decl (Table.mem_of_get? hdecl) body hbody
    exact ((hdrawn.funcs func decl hdecl).words body hbody).straightLine hbodyWell
  · exact bind_eq_ok.2 ⟨_, htag, rfl⟩
  · exact checkTagged_of_tagHelpers
      (fun decl hdecl body hbody => (hreadable.bodies decl hdecl body hbody).entry) htag
  · obtain ⟨printed, hprinted, hreads, -, hrenumbered⟩ :=
      ofText_render_taggable hsound hresolve htaggable (le_refl _) verbose
    obtain ⟨m'', hm''⟩ := hreads.2 (.inr (.inl hdrawn.funcNamed?_tagCallee))
    obtain ⟨hsame, -⟩ := hrenumbered m'' hm''
    refine ⟨printed, m'', hprinted, hm'', ?_, ?_⟩
    · rw [← Table.length_toList, ← Table.length_toList, hsame.funcs.length_eq]
    · rw [hsame.strings]

end EntryTrace
