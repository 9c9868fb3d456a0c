import EntryTrace.Proofs.ConstantModules
import EntryTrace.Proofs.DisplayOrder
import EntryTrace.Proofs.Frames
import EntryTrace.Proofs.PrintedRuns

/-!
# What a literal is worth

A literal is accepted exactly if its integer fits the type of its constant, read as signed or as
unsigned. What is stored, printed and computed is then this integer modulo as many values as the type
has. Any other integer is refused, one that is larger than every integer of a token already as a token.
-/

namespace EntryTrace

open Source

/-! ### One constant -/

/-- A word of a constant: its number, the operator that is stored, and what running it gives. -/
inductive Source.Width.Word : Width → Nat → Operator → Constant → Prop
  | i32 (w : UInt32) : Word .i32 w.toNat (.const32 w) (.i32 w)
  | i64 (w : UInt64) : Word .i64 w.toNat (.const64 w) (.i64 w)

/-- Running the instruction gives its value this constant, and does nothing else. -/
def Body.Yields (body : Body) (v : Value) (c : Constant) : Prop :=
  ∀ {σ : Type} (call : Func → List Constant → Run σ → Except Fault (Outcome × Run σ))
    (rest : List Value) (frame : Frame) (run : Run σ),
    Run.instructions call body (v :: rest) frame run =
        Run.instructions call body rest (frame.write v c) run ∧
      (frame.write v c).read body v = (.ok (some c) : Except Fault _)

/-- The line of a constant among those of its function. -/
def Source.Width.line (width : Width) (verbose : Bool) (v : Value) (r : Nat) : String :=
  "    " ++ v.text ++ " = " ++ width.mnemonic ++ " " ++ toString r ++
    if verbose then "  # " ++ width.type.name else ""

/-- A value of a function is a constant with this number. It is stored and run as one, and both texts of
the module have its line among those of the function and are read as the module again. -/
structure Module.HasConstant (m : Module) (func : Func) (v : Value) (width : Width) (r : Nat) : Prop where
  stored : ∃ op c signature name body, width.Word r op c ∧
    m.funcs.get? func = some (.defined signature name body) ∧
    body.values.get? v = some (.inst op [] [width.type]) ∧ body.Yields v c
  printed : ∀ verbose, ∃ decl lines above below, m.funcs.get? func = some decl ∧
    decl.lines verbose func = .ok lines ∧ width.line verbose v r ∈ lines ∧
    m.render verbose = .ok (above ++ textOfLines "  " lines ++ below) ∧
    (Module.ofText (above ++ textOfLines "  " lines ++ below) : Except Fault (Except SourceError Module)) =
      .ok (.ok m)

lemma Source.Width.exists_word (width : Width) (n : Int) :
    ∃ (r : Nat) (c : Constant), (r : Int) = n % 2 ^ width.bits ∧ width.Word r (width.operator n) c := by
  cases width with
  | i32 => exact ⟨_, _, toNat_ofInt32 n, .i32 _⟩
  | i64 => exact ⟨_, _, toNat_ofInt64 n, .i64 _⟩

section Word

variable {width : Width} {r : Nat} {op : Operator} {c : Constant} {body : Body} {v : Value}
  (hword : width.Word r op c) (hv : body.values.get? v = some (.inst op [] [width.type]))
include hword hv

lemma Body.yields_of_word : body.Yields v c := by
  intro σ call rest frame run
  have hget : (body.values.get v : Except Fault Def) = .ok (.inst op [] [width.type]) :=
    Table.get_eq_ok.2 hv
  have hevaluate : (Run.evaluate call body v frame run : Except Fault _) = .ok (.ok (some c), run) := by
    rw [Run.evaluate, hget]
    cases hword <;> rfl
  constructor
  · rw [Run.instructions, note_silent, hevaluate]
    rfl
  · rw [Frame.read_eq hv, Frame.held?, Frame.write, SideTable.get_set, if_pos rfl]
    rintro _ ⟨⟩

lemma Body.instLine_of_word (verbose : Bool) (block : Block) :
    ∃ line, body.instLine verbose block v = .ok line ∧ width.line verbose v r = "  " ++ line := by
  have hget : (body.values.get v : Except Fault Def) = .ok (.inst op [] [width.type]) :=
    Table.get_eq_ok.2 hv
  rw [Body.instLine, hget]
  cases hword <;> cases verbose
  all_goals
    refine ⟨_, rfl, String.toList_injective ?_⟩
    simp [Width.line, Width.mnemonic, Body.instText, Operator.text, Width.type, ValueType.name,
      commaSeparated]

end Word

/-! ### Its line in the text -/

/-- A page for each item, and the one of a given item among them. -/
lemma exists_split_of_mapM {α β : Type} {f : α → Except Fault β} {as : List α} {bs : List β}
    (h : as.mapM f = .ok bs) {a : α} (ha : a ∈ as) :
    ∃ front b back, f a = .ok b ∧ bs = front ++ b :: back := by
  induction as generalizing bs with
  | nil => cases ha
  | cons a' as ih =>
    simp only [List.mapM_cons, bind_eq_ok, pure_eq_ok, Except.ok.injEq] at h
    obtain ⟨b', hb', bs', hbs', rfl⟩ := h
    rcases List.mem_cons.1 ha with rfl | ha
    · exact ⟨[], b', bs', hb', rfl⟩
    · obtain ⟨front, b, back, hb, rfl⟩ := ih hbs' ha
      exact ⟨b' :: front, b, back, hb, rfl⟩

/-- The text of a body has a line for each instruction that a block lists. -/
lemma Body.exists_mem_lines {body : Body} {verbose : Bool} {lines : List String} {v : Value}
    (hentry : body.entry.index < body.blocks.size) (h : body.lines verbose = .ok lines)
    (hv : v ∈ body.listing) : ∃ block, ∃ line ∈ lines, body.instLine verbose block v = .ok line := by
  obtain ⟨data, hdata, hv⟩ := List.mem_flatMap.1 hv
  obtain ⟨block, hblock⟩ := Table.get?_of_mem hdata
  simp only [Body.lines, bind_eq_ok, pure_eq_ok, Except.ok.injEq] at h
  obtain ⟨pages, hpages, rfl⟩ := h
  obtain ⟨front, page, back, hpage, rfl⟩ :=
    exists_split_of_mapM hpages ((mem_displayOrder hentry).2 (Table.get?_lt hblock))
  simp only [blockLines, bind_eq_ok, Table.get_eq_ok, hblock, pure_eq_ok, Except.ok.injEq,
    Option.some.injEq, exists_eq_left'] at hpage
  obtain ⟨insts, hinsts, rfl⟩ := hpage
  obtain ⟨before, line, after, hline, rfl⟩ := exists_split_of_mapM hinsts hv
  exact ⟨block, line, by simp, hline⟩

lemma textOfLines_append (indent : String) (lines lines' : List String) :
    textOfLines indent (lines ++ lines') = textOfLines indent lines ++ textOfLines indent lines' := by
  rw [textOfLines, List.map_append, String.join_append]
  rfl

/-- The text of a module has the text of each of its functions. -/
lemma Module.exists_lines_of_render {m : Module} {verbose : Bool} {printed : String} {func : Func}
    {decl : Decl} (hdecl : m.funcs.get? func = some decl) (h : m.render verbose = .ok printed) :
    ∃ lines above below, decl.lines verbose func = .ok lines ∧
      printed = above ++ textOfLines "  " lines ++ below := by
  simp only [Module.render, Module.innerLines, bind_eq_ok, pure_eq_ok, Except.ok.injEq] at h
  obtain ⟨inner, ⟨pages, hpages, hinner⟩, rfl⟩ := h
  obtain ⟨heads, rfl⟩ : ∃ heads, inner = heads ++ pages.flatten := ⟨_, hinner.symm⟩
  obtain ⟨front, lines, back, hlines, rfl⟩ :=
    exists_split_of_mapM hpages (List.mem_of_getElem? (Table.getElem?_entries_of_get? hdecl))
  refine ⟨lines, "module \x7b\n" ++ textOfLines "  " (heads ++ front.flatten),
    textOfLines "  " back.flatten ++ "\x7d\n", hlines, ?_⟩
  simp only [List.flatten_append, List.flatten_cons, textOfLines_append, String.append_assoc]

/-- In a module that was read, an instruction that stores a word is a constant. -/
lemma hasConstant_of_ofText {text : String} {m : Module} {func : Func} {signature : Signature}
    {name : String} {body : Body} {v : Value} {width : Width} {r : Nat} {op : Operator} {c : Constant}
    (hread : (Module.ofText text : Except Fault (Except SourceError Module)) = .ok (.ok m))
    (hfunc : m.funcs.get? func = some (.defined signature name body))
    (hword : width.Word r op c) (hv : body.values.get? v = some (.inst op [] [width.type])) :
    m.HasConstant func v width r where
  stored := ⟨op, c, signature, name, body, hword, hfunc, hv, Body.yields_of_word hword hv⟩
  printed verbose := by
    obtain ⟨located, tree, -, hparse, hresolve⟩ := ofText_eq_ok.1 hread
    have hsound := sound_of_parse hparse
    obtain ⟨type, -, hwell⟩ :=
      (wellFormed_of_resolve hsound hresolve).bodies _ (Table.mem_of_get? hfunc) body rfl
    obtain ⟨entry, hentry, -⟩ := hwell.entryParams
    have hlisted : v ∈ body.listing := List.count_pos_iff.1 (by rw [hwell.once v ⟨_, _, _, hv⟩]; omega)
    obtain ⟨printed, hprinted, hagain⟩ := render_of_resolve hsound hresolve verbose
    obtain ⟨lines, above, below, hlines, rfl⟩ := Module.exists_lines_of_render hfunc hprinted
    refine ⟨_, lines, above, below, hfunc, hlines, ?_, hprinted, hagain⟩
    simp only [Decl.lines, bind_eq_ok, pure_eq_ok, Except.ok.injEq] at hlines
    obtain ⟨inner, hinner, rfl⟩ := hlines
    obtain ⟨block, line, hmem, hline⟩ := Body.exists_mem_lines (Table.get?_lt hentry) hinner hlisted
    obtain ⟨line', hline', hword⟩ := Body.instLine_of_word hword hv verbose block
    obtain rfl : line = line' := Except.ok.inj (hline.symm.trans hline')
    rw [hword]
    exact List.mem_cons_of_mem _ (List.mem_append_left _ (List.mem_map_of_mem hmem))

/-! ### All literals of one place -/

lemma Source.IntLiteral.magnitude_lt_iff {literal : IntLiteral} :
    literal.magnitude < literalLimit ↔ |literal.value| < 2 ^ 127 := by
  have hlimit : (literalLimit : Int) = 2 ^ 127 := by decide
  rw [Int.abs_eq_natAbs, literal.natAbs_value]
  omega

/-- Integers that fit are far smaller than those that are refused as tokens. -/
lemma Source.Width.Fits.abs_lt_two_pow {width : Width} {n : Int} (h : width.Fits n) : |n| < 2 ^ 127 := by
  obtain ⟨hmin, hmax⟩ := h
  rw [abs_lt]
  cases width <;> simp only [Width.bits] at hmin hmax <;> omega

/-- If a text is read with some literal of a constant, then with any literal in that place it is read
exactly if the integer of the literal fits. What is then read differs in one constant of one function
only, which is the integer modulo as many values as its type has: it is stored as this residue, printed
in decimal such that reading the text gives the same module, and running it gives this residue. An
integer that does not fit is refused for its type as long as it is smaller than `2 ^ 127` without its
sign, and else as a token. -/
theorem ofText_literal {width : Width} {before after : String} {literal₀ : IntLiteral} {m₀ : Module}
    (h₀ : literal₀.StandsIn width before after)
    (hread₀ : (Module.ofText (before ++ literal₀.text ++ after) :
      Except Fault (Except SourceError Module)) = .ok (.ok m₀)) :
    ∃ func v line line', ∀ literal : IntLiteral, literal.StandsIn width before after →
      ((∃ m : Module, (Module.ofText (before ++ literal.text ++ after) :
          Except Fault (Except SourceError Module)) = .ok (.ok m)) ↔
        -2 ^ (width.bits - 1) ≤ literal.value ∧ literal.value ≤ 2 ^ width.bits - 1) ∧
      (∀ m : Module, (Module.ofText (before ++ literal.text ++ after) :
          Except Fault (Except SourceError Module)) = .ok (.ok m) →
        m = m₀.withDef func v (width.constant literal.value) ∧
          ∃ r : Nat, (r : Int) = literal.value % 2 ^ width.bits ∧ m.HasConstant func v width r) ∧
      (¬ (-2 ^ (width.bits - 1) ≤ literal.value ∧ literal.value ≤ 2 ^ width.bits - 1) →
        |literal.value| < 2 ^ 127 →
        (Module.ofText (before ++ literal.text ++ after) : Except Fault (Except SourceError Module)) =
          .ok (.error ⟨line, .typing (.doesNotFit literal.value width.type)⟩)) ∧
      (2 ^ 127 ≤ |literal.value| →
        (Module.ofText (before ++ literal.text ++ after) : Except Fault (Except SourceError Module)) =
          .ok (.error ⟨line', .lexical (.integerOutOfRange (String.ofList literal.digits))⟩)) := by
  obtain ⟨located₀, tree₀, htokens₀, hparse₀, hresolve₀⟩ := ofText_eq_ok.1 hread₀
  obtain ⟨front, wordLine, line', back, rfl, htokens⟩ := exists_tokens_around h₀ htokens₀
  obtain ⟨site, rfl, rfl, hparse⟩ := exists_site_of_parse hparse₀
  obtain ⟨func, signature, name, body, v, hfunc, hv, hfits⟩ :=
    site.answers_resolve (sound_of_parse hparse₀) hresolve₀
  refine ⟨func, v, site.func.block.inst.line, line', fun literal h => ?_⟩
  have hlexed := htokens literal h
  simp only [IntLiteral.magnitude_lt_iff] at hlexed
  have hrefused (hnot : ¬ site.func.block.inst.width.Fits literal.value)
      (hlt : |literal.value| < 2 ^ 127) : (Module.ofText (before ++ literal.text ++ after) :
        Except Fault (Except SourceError Module)) =
          .ok (.error (site.func.block.inst.refusal literal.value)) :=
    ofText_of_refusesWith (hlexed.trans (if_pos hlt)) (hparse literal.value)
      (site.refuses_resolve hresolve₀ hnot)
  have hlarge (hge : 2 ^ 127 ≤ |literal.value|) : (Module.ofText (before ++ literal.text ++ after) :
      Except Fault (Except SourceError Module)) =
        .ok (.error ⟨line', .lexical (.integerOutOfRange (String.ofList literal.digits))⟩) :=
    ofText_of_tokens_error (hlexed.trans (if_neg hge.not_gt))
  have hread (hfit : site.func.block.inst.width.Fits literal.value) :
      (Module.ofText (before ++ literal.text ++ after) : Except Fault (Except SourceError Module)) =
        .ok (.ok (m₀.withDef func v (site.func.block.inst.width.constant literal.value))) :=
    ofText_eq_ok.2 ⟨_, _, hlexed.trans (if_pos hfit.abs_lt_two_pow), hparse literal.value,
      hfits literal.value hfit⟩
  have honly {m : Module} (hm : (Module.ofText (before ++ literal.text ++ after) :
      Except Fault (Except SourceError Module)) = .ok (.ok m)) :
      site.func.block.inst.width.Fits literal.value := by
    by_contra hnot
    rcases lt_or_ge |literal.value| (2 ^ 127) with hlt | hge
    · exact nomatch (hrefused hnot hlt).symm.trans hm
    · exact nomatch (hlarge hge).symm.trans hm
  refine ⟨⟨fun ⟨m, hm⟩ => honly hm, fun hfit => ⟨_, hread hfit⟩⟩, fun m hm => ?_, hrefused, hlarge⟩
  obtain rfl := Except.ok.inj (Except.ok.inj ((hread (honly hm)).symm.trans hm))
  obtain ⟨r, c, hr, hword⟩ := site.func.block.inst.width.exists_word literal.value
  exact ⟨rfl, r, hr, hasConstant_of_ofText hm (Module.get?_withDef hfunc) hword (Body.get?_withDef hv)⟩

/-- A text up to the literal of its constant. -/
def beforeConstant : String :=
  "module \x7b
    sig0 = () -> (i32)
    func0 = func \"f\" : sig0 \x7b
      block0():
        v0 = i32.const "

/-- That text after the literal. -/
def afterConstant : String :=
  "
        return v0
    \x7d
  \x7d"

set_option maxRecDepth 4000 in
/-- Any literal stands between the two. -/
lemma standsIn_beforeConstant (literal : IntLiteral) :
    literal.StandsIn .i32 beforeConstant afterConstant := by
  have hafter : ∃ cs, afterConstant = String.ofList ('\n' :: cs) := ⟨_, rfl⟩
  obtain ⟨cs, hcs⟩ := hafter
  obtain ⟨chars, hchars, hreads⟩ : ∃ chars, beforeConstant = String.ofList chars ∧
      ∀ s, ∃ ts line', ReadsTo 1 (chars ++ s) ts line' s ∧
        ts.getLast? = some ⟨.word Width.i32.mnemonic, 5⟩ := by
    refine ⟨_, rfl, fun s => ?_⟩
    apply Exists.intro
    apply Exists.intro
    constructor
    · repeat first | exact .here | apply ReadsTo.skip rfl | apply ReadsTo.token rfl
    · rfl
  refine ⟨?_, ?_⟩
  · rw [hcs, String.toList_ofList]
    rintro _ ⟨⟩
    rfl
  obtain ⟨ts, line', h, hlast⟩ := hreads (literal.text ++ afterConstant).toList
  obtain ⟨front, rfl⟩ := List.getLast?_eq_some_iff.1 hlast
  refine ⟨front, 5, line', ?_⟩
  rw [String.append_assoc, String.toList_append, hchars, String.toList_ofList]
  exact h

/-- The literal of a power of two: the digit 8 and zeros, hexadecimal. -/
def powerLiteral (negative : Bool) (zeros : Nat) : IntLiteral where
  negative := negative
  hex := true
  digits := '8' :: List.replicate zeros '0'
  nonempty := List.cons_ne_nil _ _
  valid := by simp [numerals, decimals, List.mem_replicate]

set_option maxRecDepth 4000 in
/-- The least integer of 32 bits is a constant, `2 ^ 35` is none, and `2 ^ 127` is no token. -/
theorem ofText_literal_powers :
    (powerLiteral false 0).StandsIn .i32 beforeConstant afterConstant ∧
    (∃ m : Module, (Module.ofText (beforeConstant ++ (powerLiteral false 0).text ++ afterConstant) :
      Except Fault (Except SourceError Module)) = .ok (.ok m)) ∧
    (powerLiteral true 7).value = -2 ^ 31 ∧
    (∃ m : Module, (Module.ofText (beforeConstant ++ (powerLiteral true 7).text ++ afterConstant) :
      Except Fault (Except SourceError Module)) = .ok (.ok m) ∧
        ∃ func v, m.HasConstant func v .i32 (2 ^ 31)) ∧
    (∃ line, (Module.ofText (beforeConstant ++ (powerLiteral false 8).text ++ afterConstant) :
      Except Fault (Except SourceError Module)) =
        .ok (.error ⟨line, .typing (.doesNotFit (2 ^ 35) .i32)⟩)) ∧
    ∃ line, (Module.ofText (beforeConstant ++ (powerLiteral false 31).text ++ afterConstant) :
      Except Fault (Except SourceError Module)) = .ok (.error ⟨line, .lexical (.integerOutOfRange
        "80000000000000000000000000000000")⟩) := by
  have hread : ∃ m : Module, (Module.ofText (beforeConstant ++ (powerLiteral false 0).text ++
      afterConstant) : Except Fault (Except SourceError Module)) = .ok (.ok m) := by
    have htext : beforeConstant ++ (powerLiteral false 0).text ++ afterConstant = "module \x7b
    sig0 = () -> (i32)
    func0 = func \"f\" : sig0 \x7b
      block0():
        v0 = i32.const 0x8
        return v0
    \x7d
  \x7d" := rfl
    rw [htext]
    exact exists_ofText_ofList (by decide +kernel)
  have hleast : (powerLiteral true 7).value = -2 ^ 31 := by decide +kernel
  have hwide : (powerLiteral false 8).value = 2 ^ 35 := by decide +kernel
  have hhuge : (powerLiteral false 31).value = 2 ^ 127 := by decide +kernel
  obtain ⟨m₀, hm₀⟩ := hread
  obtain ⟨func, v, line, line', hall⟩ := ofText_literal (standsIn_beforeConstant _) hm₀
  obtain ⟨hfits, hconstant, -, -⟩ := hall (powerLiteral true 7) (standsIn_beforeConstant _)
  obtain ⟨-, -, htype, -⟩ := hall (powerLiteral false 8) (standsIn_beforeConstant _)
  obtain ⟨-, -, -, htoken⟩ := hall (powerLiteral false 31) (standsIn_beforeConstant _)
  obtain ⟨m, hm⟩ := hfits.2 (by rw [hleast]; decide)
  obtain ⟨-, r, hr, hholds⟩ := hconstant m hm
  obtain rfl : r = 2 ^ 31 := by
    rw [hleast] at hr
    exact Int.ofNat.inj (hr.trans (by decide))
  rw [hwide] at htype
  refine ⟨standsIn_beforeConstant _, ⟨m₀, hm₀⟩, hleast, ⟨m, hm, func, v, hholds⟩,
    ⟨line, htype (by decide) (by decide)⟩, line', htoken (by rw [hhuge]; decide)⟩

end EntryTrace
