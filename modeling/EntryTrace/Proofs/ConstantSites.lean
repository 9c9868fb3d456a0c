import EntryTrace.Proofs.LiteralPlaces
import EntryTrace.Proofs.ParsedModules

/-!
# Sites of constants

An integer in the tokens of a module is the number of one constant of its tree. A site is the tree
but for that number; with another integer in the tokens the tree is the site with this other number.
-/

namespace EntryTrace.Source

/-- A list but for one of its items. -/
structure Gap (α : Type) where
  before : List α
  after : List α

def Gap.fill {α : Type} (gap : Gap α) (a : α) : List α := gap.before ++ a :: gap.after

/-- The operator of a constant in a tree. -/
def Width.tree : Width → Int → OpTree
  | .i32, n => .const32 n
  | .i64, n => .const64 n

/-- A constant but for its number. -/
structure InstSite where
  width : Width
  line : Nat
  result : Nat

def InstSite.tree (site : InstSite) (n : Int) : InstTree := ⟨site.line, site.result, site.width.tree n⟩

/-- A block but for the number of one constant. The instructions of `block` count for nothing. -/
structure BlockSite where
  inst : InstSite
  insts : Gap InstTree
  block : BlockTree

def BlockSite.tree (site : BlockSite) (n : Int) : BlockTree :=
  { site.block with insts := site.insts.fill (site.inst.tree n) }

/-- A function but for the number of one constant. The blocks of `func` count for nothing. -/
structure FuncSite where
  block : BlockSite
  blocks : Gap BlockTree
  func : FuncTree

def FuncSite.trees (site : FuncSite) (n : Int) : List BlockTree := site.blocks.fill (site.block.tree n)

def FuncSite.tree (site : FuncSite) (n : Int) : FuncTree :=
  { site.func with blocks? := some (site.trees n) }

/-- A module but for the number of one constant. The functions of `module` count for nothing. -/
structure ModuleSite where
  func : FuncSite
  funcs : Gap FuncTree
  module : ModuleTree

def ModuleSite.tree (site : ModuleSite) (n : Int) : ModuleTree :=
  { site.module with funcs := (site.funcs.fill (site.func.tree n)).toArray }

namespace Grammar

/-! ### Tokens that are no integers -/

/-- None of the tokens is an integer. -/
def WithoutInts (ts : List Located) : Prop := ∀ l ∈ ts, ∀ n, l.token ≠ .int n

@[simp] lemma withoutInts_nil : WithoutInts [] := by simp [WithoutInts]

@[simp] lemma withoutInts_cons {l : Located} {ts : List Located} :
    WithoutInts (l :: ts) ↔ (∀ n, l.token ≠ .int n) ∧ WithoutInts ts :=
  List.forall_mem_cons

@[simp] lemma withoutInts_append {ts us : List Located} :
    WithoutInts (ts ++ us) ↔ WithoutInts ts ∧ WithoutInts us :=
  List.forall_mem_append

variable {α : Type} {item : Rule α} {ts : List Located}

lemma CommaSeparated.withoutInts {as : List α} (h : CommaSeparated item ts as)
    (hitem : ∀ ts a, item ts a → WithoutInts ts) : WithoutInts ts := by
  induction h with
  | one head => exact hitem _ _ head
  | cons head _ ih => simp [hitem _ _ head, ih]

lemma Parenthesized.withoutInts {as : List α} (h : Parenthesized item ts as)
    (hitem : ∀ ts a, item ts a → WithoutInts ts) : WithoutInts ts := by
  cases h with
  | none => simp
  | some items => simp [items.withoutInts hitem]

lemma Operand.withoutInts {tree : OperandTree} (h : Operand ts tree) : WithoutInts ts := by
  cases h <;> simp

lemma TypeName.withoutInts {type : ValueType} (h : TypeName ts type) : WithoutInts ts := by
  cases h
  simp

lemma BlockParam.withoutInts {param : Nat × ValueType} (h : BlockParam ts param) :
    WithoutInts ts := by
  cases h with
  | intro _ htype => simp [htype.withoutInts]

lemma Target.withoutInts {tree : TargetTree} (h : Target ts tree) : WithoutInts ts := by
  cases h with
  | intro _ hargs => simp [hargs.withoutInts fun _ _ h => h.withoutInts]

lemma Terminator.withoutInts {line : Nat} {tree : TermTree} (h : Terminator line ts tree) :
    WithoutInts ts := by
  cases h with
  | jump h => simp [h.withoutInts]
  | branch hcond htrue hfalse => simp [hcond.withoutInts, htrue.withoutInts, hfalse.withoutInts]
  | retNone => simp
  | ret h => simp [h.withoutInts fun _ _ h => h.withoutInts]
  | unreachable => simp

lemma Signature.withoutInts {type : FuncType} (h : Signature ts type) : WithoutInts ts := by
  cases h with
  | intro hparams hreturns =>
    simp [hparams.withoutInts fun _ _ h => h.withoutInts, hreturns.withoutInts fun _ _ h => h.withoutInts]

/-! ### Where an integer is -/

/-- The last token before an integer is the word of a constant. -/
def EndsIn (width : Width) (front : List Located) : Prop :=
  front.getLast?.map Located.token = some (.word width.mnemonic)

lemma EndsIn.append {width : Width} {front : List Located} (h : EndsIn width front)
    (ts : List Located) : EndsIn width (ts ++ front) := by
  obtain ⟨l, hl, htoken⟩ := Option.map_eq_some_iff.1 h
  rw [EndsIn, List.getLast?_append, hl, Option.some_or, Option.map_some, htoken]

lemma EndsIn.cons {width : Width} {front : List Located} (h : EndsIn width front) (l : Located) :
    EndsIn width (l :: front) :=
  h.append [l]

section Splitting

variable {l : Located} {us front back : List Located}

/-- A token of two lists is in the first or in the second one. -/
lemma split (h : ts ++ us = front ++ l :: back) :
    (∃ rest, ts = front ++ l :: rest ∧ back = rest ++ us) ∨
      ∃ rest, front = ts ++ rest ∧ us = rest ++ l :: back := by
  obtain ⟨rest, hfront, hus⟩ | ⟨rest, hts, hrest⟩ := List.append_eq_append_iff.1 h
  · exact .inr ⟨rest, hfront, hus⟩
  · cases rest with
    | nil => exact .inr ⟨[], by simpa using hts.symm, hrest.symm⟩
    | cons l' rest =>
      obtain ⟨rfl, hback⟩ := List.cons.inj hrest
      exact .inl ⟨rest, hts, hback⟩

lemma split_right (hts : l ∉ ts) (h : ts ++ us = front ++ l :: back) :
    ∃ rest, front = ts ++ rest ∧ us = rest ++ l :: back := by
  obtain ⟨rest, rfl, -⟩ | hright := split h
  · simp at hts
  · exact hright

lemma split_left (hus : l ∉ us) (h : ts ++ us = front ++ l :: back) :
    ∃ rest, ts = front ++ l :: rest ∧ back = rest ++ us := by
  obtain hleft | ⟨rest, -, rfl⟩ := split h
  · exact hleft
  · simp at hus

lemma split_cons {l' : Located} (hne : l ≠ l') (h : l' :: ts = front ++ l :: back) :
    ∃ rest, front = l' :: rest ∧ ts = rest ++ l :: back :=
  split_right (fun hmem => hne (List.mem_singleton.1 hmem)) h

/-- One of many items has the token. -/
lemma Many.split {as : List α} (h : Many item (front ++ l :: back) as) :
    ∃ (gap : Gap α) (a : α) (before inFront inBack after : List Located), as = gap.fill a ∧
      front = before ++ inFront ∧ back = inBack ++ after ∧ Many item before gap.before ∧
      item (inFront ++ l :: inBack) a ∧ Many item after gap.after := by
  generalize htokens : front ++ l :: back = ts at h
  induction h generalizing front with
  | nil => simp at htokens
  | @cons ts us a as head tail ih =>
    obtain ⟨inBack, rfl, rfl⟩ | ⟨rest, rfl, rfl⟩ := Grammar.split htokens.symm
    · exact ⟨⟨[], as⟩, a, [], front, inBack, us, rfl, rfl, rfl, .nil, head, tail⟩
    · obtain ⟨gap, found, before, inFront, inBack, after, rfl, rfl, rfl, hbefore, hitem, hafter⟩ := ih rfl
      exact ⟨⟨a :: gap.before, gap.after⟩, found, ts ++ before, inFront, inBack, after, rfl,
        (List.append_assoc ..).symm, rfl, .cons head hbefore, hitem, hafter⟩

lemma Many.append {us : List Located} {as bs : List α} (h : Many item ts as) (h' : Many item us bs) :
    Many item (ts ++ us) (as ++ bs) := by
  induction h with
  | nil => exact h'
  | cons head _ ih =>
    rw [List.append_assoc]
    exact .cons head ih

/-- Another item in the gap. -/
lemma Many.fill {before inside after : List Located} {gap : Gap α} {a : α}
    (hbefore : Many item before gap.before) (ha : item inside a) (hafter : Many item after gap.after) :
    Many item (before ++ (inside ++ after)) (gap.fill a) :=
  hbefore.append (.cons ha hafter)

end Splitting

/-! ### Sites of integers -/

section Sites

variable {front back : List Located} {line : Nat} {n₀ : Int}

lemma WithoutInts.not_mem (h : WithoutInts ts) {n : Int} : (⟨.int n, line⟩ : Located) ∉ ts :=
  fun hmem => h _ hmem n rfl

lemma singleton_eq {l l' : Located} (h : [l'] = front ++ l :: back) :
    front = [] ∧ l' = l ∧ back = [] := by
  cases front with
  | nil => simpa [eq_comm] using h
  | cons => simp at h

lemma Operation.exists_width {tree₀ : OpTree} (h : Operation (front ++ ⟨.int n₀, line⟩ :: back) tree₀) :
    ∃ width : Width, tree₀ = width.tree n₀ ∧ EndsIn width front ∧
      ∀ n, Operation (front ++ ⟨.int n, line⟩ :: back) (width.tree n) := by
  generalize htokens : front ++ ⟨.int n₀, line⟩ :: back = ts at h
  have hwithout (hts : WithoutInts ts) : False :=
    hts ⟨.int n₀, line⟩ (by simp [← htokens]) n₀ rfl
  cases h with
  | nop => exact (hwithout (by simp)).elim
  | const32 n =>
    obtain ⟨rest, rfl, hrest⟩ := split_cons (by simp) htokens.symm
    obtain ⟨rfl, hl, rfl⟩ := singleton_eq hrest
    cases hl
    exact ⟨.i32, rfl, rfl, fun n => .const32 n⟩
  | const64 n =>
    obtain ⟨rest, rfl, hrest⟩ := split_cons (by simp) htokens.symm
    obtain ⟨rfl, hl, rfl⟩ := singleton_eq hrest
    cases hl
    exact ⟨.i64, rfl, rfl, fun n => .const64 n⟩
  | binary op hleft hright => exact (hwithout (by simp [hleft.withoutInts, hright.withoutInts])).elim
  | call hname hargs =>
    exact (hwithout (by simp [hargs.withoutInts fun _ _ h => h.withoutInts])).elim

lemma Inst.exists_site {tree₀ : InstTree} (h : Inst (front ++ ⟨.int n₀, line⟩ :: back) tree₀) :
    ∃ site : InstSite, tree₀ = site.tree n₀ ∧ EndsIn site.width front ∧
      ∀ n, Inst (front ++ ⟨.int n, line⟩ :: back) (site.tree n) := by
  generalize htokens : front ++ ⟨.int n₀, line⟩ :: back = ts at h
  cases h with
  | @intro _ instLine _ result _ _ hname hop =>
    obtain ⟨rest, rfl, hrest⟩ := split_cons (by simp) htokens.symm
    obtain ⟨rest, rfl, rfl⟩ := split_cons (by simp) hrest
    obtain ⟨width, rfl, hends, hops⟩ := hop.exists_width
    exact ⟨⟨width, instLine, result⟩, rfl, (hends.cons _).cons _, fun n => .intro hname (hops n)⟩

lemma Block.exists_site {tree₀ : BlockTree} (h : Block (front ++ ⟨.int n₀, line⟩ :: back) tree₀) :
    ∃ site : BlockSite, tree₀ = site.tree n₀ ∧ EndsIn site.inst.width front ∧
      ∀ n, Block (front ++ ⟨.int n, line⟩ :: back) (site.tree n) := by
  generalize htokens : front ++ ⟨.int n₀, line⟩ :: back = ts at h
  cases h with
  | @intro word blockLine line' name termLine _ _ _ params insts term hname hparams hinsts hterm =>
    obtain ⟨rest, rfl, hrest⟩ := split_cons (by simp) htokens.symm
    have hparams' := hparams.withoutInts fun _ _ h => h.withoutInts
    obtain ⟨rest, rfl, hcolon⟩ := split_right hparams'.not_mem hrest
    obtain ⟨rest, rfl, hinside⟩ := split_cons (by simp) hcolon
    obtain ⟨rest', rfl, rfl⟩ := split_left hterm.withoutInts.not_mem hinside
    obtain ⟨gap, a, before, inFront, inBack, after, rfl, rfl, rfl, hbefore, hinst, hafter⟩ := hinsts.split
    obtain ⟨site, rfl, hends, hsites⟩ := hinst.exists_site
    let block : BlockTree := { line := blockLine, name, params, insts := [], term, termLine }
    refine ⟨⟨site, gap, block⟩, rfl, ?_, fun n => ?_⟩
    · exact (((hends.append before).cons _).append _).cons _
    · have hinsts := hbefore.fill (hsites n) hafter
      have hblock := @Block.intro word blockLine line' _ _ _ _ _ _ _ _ hname hparams hinsts hterm
      simp only [List.append_assoc, List.cons_append] at hblock ⊢
      exact hblock

lemma Function.exists_site {funcLine : Nat} {tree₀ : FuncTree}
    (h : Function funcLine (front ++ ⟨.int n₀, line⟩ :: back) tree₀) :
    ∃ site : FuncSite, tree₀ = site.tree n₀ ∧ EndsIn site.block.inst.width front ∧
      ∀ n, Function funcLine (front ++ ⟨.int n, line⟩ :: back) (site.tree n) := by
  generalize htokens : front ++ ⟨.int n₀, line⟩ :: back = ts at h
  cases h with
  | imported =>
    have hwithout : WithoutInts (front ++ ⟨.int n₀, line⟩ :: back) := by simp [htokens]
    simp at hwithout
  | @defined name word line₁ line₂ line₃ line₄ line₅ line₆ signature _ _ hsignature hblocks =>
    obtain ⟨rest, rfl, hname⟩ := split_cons (by simp) htokens.symm
    obtain ⟨rest, rfl, hcolon⟩ := split_cons (by simp) hname
    obtain ⟨rest, rfl, hword⟩ := split_cons (by simp) hcolon
    obtain ⟨rest, rfl, hbrace⟩ := split_cons (by simp) hword
    obtain ⟨rest, rfl, hinside⟩ := split_cons (by simp) hbrace
    obtain ⟨rest', rfl, rfl⟩ := split_left (by simp) hinside
    obtain ⟨gap, a, before, inFront, inBack, after, rfl, rfl, rfl, hbefore, hblock, hafter⟩ := hblocks.split
    obtain ⟨site, rfl, hends, hsites⟩ := hblock.exists_site
    refine ⟨⟨site, gap, { line := funcLine, name, signature, blocks? := none }⟩, rfl, ?_, fun n => ?_⟩
    · exact (hends.append before).append [_, _, _, _, _]
    · have hblocks := hbefore.fill (hsites n) hafter
      have hfunc := @Function.defined funcLine name word line₁ line₂ line₃ line₄ line₅ line₆ signature
        _ _ hsignature hblocks (by simp [Gap.fill])
      simp only [List.append_assoc, List.cons_append] at hfunc ⊢
      exact hfunc

lemma Item.exists_site {tree₀ : ItemTree} (h : Item (front ++ ⟨.int n₀, line⟩ :: back) tree₀) :
    ∃ (index : Nat) (site : FuncSite), tree₀ = .func index (site.tree n₀) ∧
      EndsIn site.block.inst.width front ∧
      ∀ n, Item (front ++ ⟨.int n, line⟩ :: back) (.func index (site.tree n)) := by
  generalize htokens : front ++ ⟨.int n₀, line⟩ :: back = ts at h
  have hwithout (hts : WithoutInts ts) : False :=
    hts ⟨.int n₀, line⟩ (by simp [← htokens]) n₀ rfl
  cases h with
  | type hname htype => exact (hwithout (by simp [htype.withoutInts])).elim
  | str hname => exact (hwithout (by simp)).elim
  | @func _ _ _ index _ _ hname hfunc =>
    obtain ⟨rest, rfl, hequals⟩ := split_cons (by simp) htokens.symm
    obtain ⟨rest, rfl, rfl⟩ := split_cons (by simp) hequals
    obtain ⟨site, rfl, hends, hsites⟩ := hfunc.exists_site
    exact ⟨index, site, rfl, (hends.cons _).cons _, fun n => .func hname (hsites n)⟩

/-- An integer in a module is the number of a constant, and can be exchanged for another one. -/
theorem Module.exists_site {tree₀ : ModuleTree}
    (h : Module (front ++ ⟨.int n₀, line⟩ :: back) tree₀) :
    ∃ site : ModuleSite, tree₀ = site.tree n₀ ∧ EndsIn site.func.block.inst.width front ∧
      ∀ n, Module (front ++ ⟨.int n, line⟩ :: back) (site.tree n) := by
  generalize htokens : front ++ ⟨.int n₀, line⟩ :: back = ts at h
  cases h with
  | @intro _ line₁ line₂ line₃ _ tree hitems htypes hstrings hfuncs =>
    obtain ⟨rest, rfl, hbrace⟩ := split_cons (by simp) htokens.symm
    obtain ⟨rest, rfl, hinside⟩ := split_cons (by simp) hbrace
    obtain ⟨rest', rfl, rfl⟩ := split_left (by simp) hinside
    obtain ⟨gap, a, before, inFront, inBack, after, rfl, rfl, rfl, hbefore, hitem, hafter⟩ := hitems.split
    obtain ⟨index, site, rfl, hends, hsites⟩ := hitem.exists_site
    have hothers {β : Type} (f : ItemTree → Option β) (hf : ∀ func, f (.func index func) = none)
        (func : FuncTree) : (gap.fill (.func index func)).filterMap f =
          gap.before.filterMap f ++ gap.after.filterMap f := by
      rw [Gap.fill, List.filterMap_append, List.filterMap_cons_none (hf func)]
    have hfill (func : FuncTree) : (gap.fill (.func index func)).filterMap ItemTree.func? =
        gap.before.filterMap ItemTree.func? ++ (index, func) :: gap.after.filterMap ItemTree.func? := by
      rw [Gap.fill, List.filterMap_append, List.filterMap_cons]
      rfl
    have hnumbers := hfuncs.numbers
    have hthings := hfuncs.things
    rw [hfill] at hnumbers hthings
    simp only [List.map_append, List.map_cons, List.length_append, List.length_cons] at hnumbers hthings
    let funcs : Gap FuncTree := ⟨(gap.before.filterMap ItemTree.func?).map Prod.snd,
      (gap.after.filterMap ItemTree.func?).map Prod.snd⟩
    let whole : ModuleSite := ⟨site, funcs, tree₀⟩
    refine ⟨whole, ?_, ((hends.append before).cons _).cons _, fun n => ?_⟩
    · have hfuncs : tree₀.funcs = (funcs.fill (site.tree n₀)).toArray := by
        rw [Gap.fill, hthings, Array.toArray_toList]
      rw [ModuleSite.tree, ← hfuncs]
    · have hmodule := @Module.intro _ line₁ line₂ line₃ _ (whole.tree n) (hbefore.fill (hsites n) hafter)
        (by rw [hothers _ fun _ => rfl] at htypes ⊢; exact htypes)
        (by rw [hothers _ fun _ => rfl] at hstrings ⊢; exact hstrings)
        ⟨by rw [hfill]; simpa using hnumbers, by rw [hfill]; simp [whole, funcs, ModuleSite.tree, Gap.fill]⟩
      simp only [List.append_assoc, List.cons_append] at hmodule ⊢
      exact hmodule

end Sites

end Grammar

lemma Width.mnemonic_injective : Function.Injective Width.mnemonic := by
  intro w w' h
  cases w <;> cases w' <;> first | rfl | exact absurd h (by decide)

/-- The number of a constant can be exchanged for any other one in tokens that form a module. -/
theorem exists_site_of_parse {width : Width} {front back : List Located} {line line' : Nat} {n₀ : Int}
    {tree₀ : ModuleTree}
    (h : parse (front ++ ⟨.word width.mnemonic, line⟩ :: ⟨.int n₀, line'⟩ :: back) = .ok tree₀) :
    ∃ site : ModuleSite, site.func.block.inst.width = width ∧ tree₀ = site.tree n₀ ∧ ∀ n,
      parse (front ++ ⟨.word width.mnemonic, line⟩ :: ⟨.int n, line'⟩ :: back) = .ok (site.tree n) := by
  rw [parse_eq_ok, List.append_cons] at h
  obtain ⟨site, htree, hends, hsites⟩ := h.exists_site
  refine ⟨site, ?_, htree, fun n => ?_⟩
  · rw [Grammar.EndsIn, List.getLast?_append] at hends
    exact (Width.mnemonic_injective (Token.word.inj (Option.some.inj hends))).symm
  · rw [parse_eq_ok, List.append_cons]
    exact hsites n

end EntryTrace.Source
