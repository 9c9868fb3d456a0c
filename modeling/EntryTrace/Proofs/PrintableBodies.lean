import EntryTrace.Proofs.TaggedModules
import EntryTrace.Proofs.WellFormed

/-!
# What can be printed

Printing a body looks up its entry block, and an instruction wherever a block lists one. It succeeds
exactly if all of that is there, also in bodies that were built by hand and are not finished. A module
can be printed if its bodies can, and tagging it keeps that.
-/

namespace EntryTrace

/-- What printing looks up is there. -/
structure Body.Printable (body : Body) : Prop where
  entry : body.entry.index < body.blocks.size
  insts : ∀ data ∈ body.blocks.toList, ∀ inst ∈ data.insts, body.IsInst inst

/-- Every body can be printed. -/
def Module.Printable (m : Module) : Prop :=
  ∀ decl ∈ m.funcs.toList, ∀ body ∈ decl.body?, body.Printable

/-! ### Printing succeeds -/

lemma exists_mapM_eq_ok {α β : Type} {f : α → Except Fault β} {as : List α} :
    (∃ bs, as.mapM f = .ok bs) ↔ ∀ a ∈ as, ∃ b, f a = .ok b := by
  induction as with
  | nil => simp
  | cons a as ih =>
    rw [List.forall_mem_cons, ← ih]
    simp only [List.mapM_cons, bind_eq_ok, pure_eq_ok, Except.ok.injEq]
    constructor
    · rintro ⟨_, b, hb, bs, hbs, -⟩
      exact ⟨⟨b, hb⟩, bs, hbs⟩
    · rintro ⟨⟨b, hb⟩, bs, hbs⟩
      exact ⟨_, b, hb, bs, hbs, rfl⟩

namespace Body

variable {body : Body} (verbose : Bool) (block : Block)

lemma exists_instLine_iff {value : Value} :
    (∃ line, body.instLine verbose block value = .ok line) ↔ body.IsInst value := by
  simp only [instLine, bind_eq_ok, Table.get_eq_ok, IsInst]
  constructor
  · rintro ⟨line, d, hd, h⟩
    split at h
    · exact ⟨_, _, _, hd⟩
    · simp at h
  · rintro ⟨op, args, types, hd⟩
    by_cases hcomment : (verbose && !types.isEmpty) = true
    · exact ⟨_, _, hd, if_pos hcomment⟩
    · exact ⟨_, _, hd, if_neg hcomment⟩

lemma exists_blockLines_iff : (∃ lines, body.blockLines verbose block = .ok lines) ↔
    ∃ data, body.blocks.get? block = some data ∧ ∀ inst ∈ data.insts, body.IsInst inst := by
  simp only [blockLines, bind_eq_ok, Table.get_eq_ok, pure_eq_ok, Except.ok.injEq]
  constructor
  · rintro ⟨_, data, hdata, insts, hinsts, -⟩
    have hlines := exists_mapM_eq_ok.1 ⟨insts, hinsts⟩
    exact ⟨data, hdata, fun inst hinst => (exists_instLine_iff _ _).1 (hlines inst hinst)⟩
  · rintro ⟨data, hdata, hall⟩
    obtain ⟨insts, hinsts⟩ := exists_mapM_eq_ok.2 fun inst hinst =>
      (exists_instLine_iff verbose block).2 (hall inst hinst)
    exact ⟨_, data, hdata, insts, hinsts, rfl⟩

lemma exists_lines_iff : (∃ lines, body.lines verbose = .ok lines) ↔ body.Printable := by
  have hmap : (∃ lines, body.lines verbose = .ok lines) ↔
      ∃ pages, body.displayOrder.mapM (body.blockLines verbose) = .ok pages := by
    simp only [lines, bind_eq_ok, pure_eq_ok, Except.ok.injEq]
    exact ⟨fun ⟨_, pages, hpages, _⟩ => ⟨pages, hpages⟩, fun ⟨pages, hpages⟩ => ⟨_, pages, hpages, rfl⟩⟩
  rw [hmap, exists_mapM_eq_ok]
  simp only [exists_blockLines_iff, displayOrder, List.forall_mem_cons]
  constructor
  · rintro ⟨⟨data, hentry, hdata⟩, hothers⟩
    refine ⟨Table.get?_lt hentry, fun data' hdata' => ?_⟩
    obtain ⟨block, hblock⟩ := Table.get?_of_mem hdata'
    by_cases hsame : block = body.entry
    · rw [hsame, hentry, Option.some.injEq] at hblock
      exact hblock ▸ hdata
    · have hid : block ∈ body.blocks.ids.filter (· != body.entry) := by
        rw [List.mem_filter, bne_iff_ne]
        exact ⟨List.mem_map.2 ⟨block.index, List.mem_range.2 (Table.get?_lt hblock), rfl⟩, hsame⟩
      obtain ⟨found, hfound, hall⟩ := hothers block hid
      rw [hblock, Option.some.injEq] at hfound
      exact hfound ▸ hall
  · rintro ⟨hentry, hall⟩
    have hblock {block : Block} (hlt : block.index < body.blocks.size) :
        ∃ data, body.blocks.get? block = some data ∧ ∀ inst ∈ data.insts, body.IsInst inst := by
      obtain ⟨data, hdata⟩ := Table.get?_of_lt hlt
      exact ⟨data, hdata, hall data (Table.mem_of_get? hdata)⟩
    refine ⟨hblock hentry, fun block hid => hblock ?_⟩
    obtain ⟨i, hi, rfl⟩ := List.mem_map.1 (List.mem_filter.1 hid).1
    exact List.mem_range.1 hi

lemma exists_render_iff (indent : String) :
    (∃ text, body.render verbose indent = .ok text) ↔ body.Printable := by
  rw [← exists_lines_iff verbose]
  simp only [render, map_eq_ok]
  exact ⟨fun ⟨_, lines, hlines, _⟩ => ⟨lines, hlines⟩, fun ⟨lines, hlines⟩ => ⟨_, lines, hlines, rfl⟩⟩

end Body

lemma Decl.exists_lines_iff {decl : Decl} (verbose : Bool) {func : Func} :
    (∃ lines, decl.lines verbose func = .ok lines) ↔ ∀ body ∈ decl.body?, body.Printable := by
  cases decl with
  | imported signature name => exact iff_of_true ⟨_, rfl⟩ nofun
  | defined signature name body =>
    simp only [Decl.lines, bind_eq_ok, pure_eq_ok, Except.ok.injEq, body?_defined, Option.mem_some_iff,
      forall_eq', ← Body.exists_lines_iff verbose]
    exact ⟨fun ⟨_, inner, hinner, _⟩ => ⟨inner, hinner⟩, fun ⟨inner, hinner⟩ => ⟨_, inner, hinner, rfl⟩⟩

/-- A module can be printed exactly if each of its bodies can. -/
theorem Module.exists_render_iff {m : Module} (verbose : Bool) :
    (∃ text, m.render verbose = .ok text) ↔ m.Printable := by
  have hmap : (∃ text, m.render verbose = .ok text) ↔
      ∃ pages, m.funcs.entries.mapM (fun entry => entry.2.lines verbose entry.1) = .ok pages := by
    simp only [render, innerLines, bind_eq_ok, pure_eq_ok, Except.ok.injEq]
    constructor
    · rintro ⟨_, _, ⟨pages, hpages, -⟩, -⟩
      exact ⟨pages, hpages⟩
    · rintro ⟨pages, hpages⟩
      exact ⟨_, _, ⟨pages, hpages, rfl⟩, rfl⟩
  rw [hmap, exists_mapM_eq_ok]
  simp only [Decl.exists_lines_iff]
  constructor
  · intro h decl hdecl
    obtain ⟨func, hfunc⟩ := Table.get?_of_mem hdecl
    exact h (func, decl) (List.mem_of_getElem? (Table.getElem?_entries_of_get? hfunc))
  · intro h entry hentry
    exact h entry.2 (Table.mem_of_get? (Table.get?_of_mem_entries hentry))

/-! ### Tagging -/

lemma Body.Printable.tagged {body : Body} (h : body.Printable) (callee : Func)
    (returns : List ValueType) (s : Str) : (body.tagged callee returns s).Printable where
  entry := by
    rw [Body.tagged, Table.size_modify]
    exact h.entry
  insts data' hdata' inst hinst := by
    have hkept {value : Value} (hvalue : body.IsInst value) :
        (body.tagged callee returns s).IsInst value := by
      obtain ⟨op, args, types, hget⟩ := hvalue
      exact ⟨op, args, types, by rw [get?_values_tagged_of_lt (Table.get?_lt hget), hget]⟩
    obtain ⟨block, hblock⟩ := Table.get?_of_mem hdata'
    rw [get?_blocks_tagged] at hblock
    split at hblock
    · obtain ⟨data, hdata, rfl⟩ := Option.map_eq_some_iff.1 hblock
      rcases List.mem_cons.1 hinst with rfl | hinst
      · exact ⟨_, _, _, get?_values_tagged_call⟩
      · exact hkept (h.insts data (Table.mem_of_get? hdata) inst hinst)
    · exact hkept (h.insts data' (Table.mem_of_get? hblock) inst hinst)

/-- What tagging makes of a module that can be printed can be printed. -/
lemma Module.Printable.tagHelpers {m m' : Module} (h : m.Printable)
    (htag : (EntryTrace.tagHelpers m : Except Fault _) = .ok m') : m'.Printable := by
  obtain ⟨-, hall⟩ := taggedAs_of_tagHelpers htag
  intro decl' hdecl' body' hbody'
  obtain ⟨decl, hdecl, htagged⟩ := exists_left_of_forall₂ hall hdecl'
  have hold : ∀ body ∈ decl.body?, body.Printable := by
    intro body hbody
    obtain ⟨func, hfunc⟩ := Table.get?_of_mem hdecl
    by_cases hlt : func.index < m.funcs.size
    · obtain ⟨decl₀, hdecl₀⟩ := Table.get?_of_lt hlt
      have hsame := (funcs_prefixOf_withTagCallee m).get? hdecl₀
      rw [hfunc, Option.some.injEq] at hsame
      exact h decl (hsame ▸ Table.mem_of_get? hdecl₀) body hbody
    · rw [body?_of_get?_withTagCallee hfunc (by omega)] at hbody
      cases hbody
  cases htagged with
  | imported => cases hbody'
  | other => exact hold body' hbody'
  | helper =>
    obtain rfl := Option.some.inj hbody'
    exact (hold _ rfl).tagged _ _ _

end EntryTrace
