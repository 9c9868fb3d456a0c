import EntryTrace.Proofs.CheckedModules
import EntryTrace.Proofs.Isomorphic
import EntryTrace.Proofs.ResolvedModules
import EntryTrace.Proofs.SpelledTypes
import EntryTrace.Proofs.TreeSizes

/-!
# Printing and reading any module

However a module was made, if it can be presented and its text is not too long, then the text is
read as a module of the same structure: the tables of types and strings are the same, so are names
and signatures of functions, and blocks and values of bodies have new numbers.
-/

namespace EntryTrace

open Source

/-- The functions have the same signature and name, and bodies of one structure if they have any. -/
inductive Decl.Isomorphic : Decl → Decl → Prop
  | imported (signature : Signature) (name : String) :
    Isomorphic (.imported signature name) (.imported signature name)
  | defined (signature : Signature) (name : String) {body body' : Body} {σ : Value → Value}
    (h : body.IsomorphicBy σ body') :
    Isomorphic (.defined signature name body) (.defined signature name body')

/-- The second module is the first with other numbers for blocks and values. -/
structure Module.Isomorphic (m m' : Module) : Prop where
  signatures : m'.signatures = m.signatures
  strings : m'.strings = m.strings
  funcs : List.Forall₂ Decl.Isomorphic m.funcs.toList m'.funcs.toList

section Reading

variable {m m' : Module} {tree : ModuleTree}

/-- What a function is read as. -/
lemma Module.Presentable.decl_isomorphic (h : m.Presentable) (hextends : m.Extends m')
    {func : FuncTree} {decl decl' : Decl} (hdecl : decl ∈ m.funcs.toList)
    (hspells : func.Spells decl) (hresolves : func.Resolves m' decl') : decl.Isomorphic decl' := by
  have hsignature : ({ index := func.signature } : Signature) = decl.signature := by
    rw [hspells.signature]
  unfold FuncTree.Resolves at hresolves
  rw [hsignature, hspells.name] at hresolves
  cases decl with
  | imported signature name =>
    rw [hspells.imported rfl] at hresolves
    rw [hresolves]
    exact .imported signature name
  | defined signature name body =>
    obtain ⟨trees, htrees, hall⟩ := hspells.defined body rfl
    rw [htrees] at hresolves
    obtain ⟨hnonempty, body', rfl, hanswer⟩ := hresolves
    obtain ⟨type, htype, hpresentable⟩ := h.bodies _ hdecl body rfl
    obtain ⟨found, naming, hfound, hresolved⟩ := resolved_of_resolveBody hnonempty hanswer
    obtain rfl := Option.some.inj ((hextends.signatures.get? htype).symm.trans hfound)
    have hread : body.ReadAs m m' type naming trees body' := ⟨hextends, hpresentable, hall, hresolved⟩
    obtain ⟨σ, hσ⟩ := hread.exists_isomorphicBy
    exact .defined signature name hσ

/-- What the tree that spells a module stands for has the structure of the module. -/
lemma Module.Presentable.isomorphic (h : m.Presentable) (hspells : tree.Spells m)
    (hresolves : tree.Resolves m') : m.Isomorphic m' where
  signatures := Table.ext (hresolves.types.trans hspells.types)
  strings := Table.ext (hresolves.strings.trans hspells.strings)
  funcs := by
    apply forall₂_imp_of_mem (forall₂_common hspells.funcs.flip hresolves.funcs)
    rintro decl hdecl decl' - ⟨func, hfunc, hresolve⟩
    exact h.decl_isomorphic (hresolves.extends_of_spells hspells) hdecl hfunc hresolve

end Reading

/-- A module that can be presented, however it was made, can be printed. If one form of its text,
be it the plain or the verbose one, is not too long, then both are read as modules that have the
structure of the module. -/
theorem ofText_render_presentable {m : Module} (h : m.Presentable) (measured verbose : Bool) :
    ∃ text printed, m.render measured = .ok text ∧ m.render verbose = .ok printed ∧
      (text.length < Entity.limit → ∃ m',
        (Module.ofText printed : Except Fault (Except SourceError Module)) = .ok (.ok m') ∧
          m.Isomorphic m') := by
  obtain ⟨text, htext, htextRenders⟩ := renders_of_writable h.writable measured
  obtain ⟨printed, hprinted, hrenders⟩ := renders_of_writable h.writable verbose
  refine ⟨text, printed, htext, hprinted, fun hshort => ?_⟩
  obtain ⟨_, hmeasured, hsame⟩ := tokens_of_renders htextRenders
  obtain ⟨located, htokens, hlocated⟩ := tokens_of_renders hrenders
  obtain ⟨tree, hparse, hspells⟩ := exists_tree_of_writable h.writable hlocated
  -- Both forms have the same tokens, and a text has no more tokens than characters.
  have hfew : located.length ≤ Entity.limit := by
    have hlength := congrArg List.length (hlocated.trans hsame.symm)
    rw [List.length_map, List.length_map] at hlength
    have hle := length_of_tokens hmeasured
    omega
  have hlimits := withinLimits_of_derives (parse_eq_ok.1 hparse) hfew
  have hwell := hspells.wellTyped_of_presentable h.signatures h.bodies
  obtain ⟨m', hanswer⟩ := (decides_resolve hlimits).iff.2 hwell
  exact ⟨m', ofText_eq_ok.2 ⟨located, tree, htokens, hparse, hanswer⟩,
    h.isomorphic hspells (resolves_of_resolve (sound_of_parse hparse) hanswer)⟩

/-- The entry block of a body, though the second of the table. -/
def scatteredEntry : BlockData where
  params := [(.i32, ⟨3⟩)]
  insts := [⟨6⟩, ⟨4⟩]
  terminator := .branch ⟨3⟩ ⟨⟨0⟩, [⟨6⟩]⟩ ⟨⟨0⟩, [⟨3⟩]⟩

def scatteredExit : BlockData where
  params := [(.i32, ⟨5⟩)]
  insts := [⟨0⟩, ⟨7⟩]
  terminator := .ret [⟨0⟩]

/-- Values are numbered in no order. There is one that no block lists, and a pointer that is used
twice. -/
def scatteredBody : Body where
  paramCount := 1
  returns := [.i32]
  entry := ⟨1⟩
  blocks := .ofList [scatteredExit, scatteredEntry]
  values := .ofList [.inst (.binary .add32) [⟨6⟩, ⟨5⟩] [.i32], .undefined, .strRef ⟨0⟩,
    .param ⟨1⟩ 0 .i32, .inst (.call ⟨0⟩) [⟨2⟩] [], .param ⟨0⟩ 0 .i32, .inst (.const32 7) [] [.i32],
    .inst (.call ⟨0⟩) [⟨2⟩] []]

def scattered : Module where
  signatures := .ofList [⟨[.ptr], []⟩, ⟨[.i32], [.i32]⟩]
  strings := .ofList ["s"]
  funcs := .ofList [.imported ⟨0⟩ "f", .defined ⟨1⟩ "g" scatteredBody]

/-- The text of that module. -/
def scatteredText : String :=
  "module \x7b
  sig0 = (ptr) -> ()
  sig1 = (i32) -> (i32)
  str0 = \"s\"
  func0 = import \"f\" : sig0
  func1 = func \"g\" : sig1 \x7b
    block1(v3: i32):
      v6 = i32.const 7
      v4 = call func0(str0)
      if v3, block0(v6), block0(v3)
    block0(v5: i32):
      v0 = i32.add v6, v5
      v7 = call func0(str0)
      return v0
  \x7d
\x7d
"

lemma presentable_scatteredBody :
    scatteredBody.Presentable scattered ⟨[.i32], [.i32]⟩ where
  entryParams := ⟨scatteredEntry, rfl, rfl⟩
  params := by
    rintro ⟨_ | _ | i⟩ data hdata (_ | position) paramType value hposition
    · cases hdata
      cases hposition
      rfl
    · cases hdata
      cases hposition
    · cases hdata
      cases hposition
      rfl
    · cases hdata
      cases hposition
    · cases hdata
    · cases hdata
  distinct := by decide
  insts := by
    have hinsts : scatteredBody.displayedInsts = [⟨6⟩, ⟨4⟩, ⟨0⟩, ⟨7⟩] := rfl
    rw [hinsts]
    simp only [stepwise_cons]
    refine ⟨⟨_, _, _, _, rfl, rfl, rfl, .nil, by simp⟩,
      ⟨_, _, _, _, rfl, rfl, rfl, .cons rfl .nil, ?_⟩,
      ⟨_, _, _, _, rfl, rfl, rfl, .cons rfl (.cons rfl .nil), ?_⟩,
      ⟨_, _, _, _, rfl, rfl, rfl, .cons rfl .nil, ?_⟩, stepwise_nil⟩
    · decide
    · decide
    · decide
  terminators := by
    have hdisplayed : scatteredBody.displayed = [(⟨1⟩, scatteredEntry), (⟨0⟩, scatteredExit)] := rfl
    rw [hdisplayed]
    simp only [stepwise_cons]
    refine ⟨⟨⟨.cons rfl .nil, ⟨scatteredExit, rfl, .cons rfl .nil⟩,
      ⟨scatteredExit, rfl, .cons rfl .nil⟩⟩, ?_⟩, ⟨.cons rfl .nil, ?_⟩, stepwise_nil⟩
    · decide
    · decide

lemma presentable_scattered : scattered.Presentable where
  returns := by decide
  signatures := by decide
  bodies := by
    intro decl hdecl body hbody
    simp only [scattered, Table.toList_ofList, List.mem_cons, List.not_mem_nil, or_false] at hdecl
    rcases hdecl with rfl | rfl
    · cases hbody
    · obtain rfl : scatteredBody = body := Option.some.inj hbody
      exact ⟨_, rfl, presentable_scatteredBody⟩
  signatureLimit := by decide
  stringLimit := by decide
  funcLimit := by decide
  blockLimit := by decide
  valueLimit := by decide

set_option maxRecDepth 4000 in
theorem ofText_render_presentable_scattered : scattered.Presentable ∧
    ∃ printed, scattered.render false = .ok scatteredText ∧ scattered.render true = .ok printed ∧
      scatteredText.length < Entity.limit ∧ ∃ m',
        (Module.ofText printed : Except Fault (Except SourceError Module)) = .ok (.ok m') ∧
          scattered.Isomorphic m' := by
  have htext : scattered.render false = .ok scatteredText := render_of_chars (by decide +kernel)
  obtain ⟨chars, hchars, hfew⟩ : ∃ chars : List Char, scatteredText = String.ofList chars ∧
      chars.length < Entity.limit := ⟨_, rfl, by decide⟩
  have hshort : scatteredText.length < Entity.limit := by rwa [hchars, String.length_ofList]
  obtain ⟨text, printed, hfound, hprinted, hread⟩ :=
    ofText_render_presentable presentable_scattered false true
  obtain rfl := Except.ok.inj (htext.symm.trans hfound)
  exact ⟨presentable_scattered, printed, htext, hprinted, hshort, hread hshort⟩

end EntryTrace
