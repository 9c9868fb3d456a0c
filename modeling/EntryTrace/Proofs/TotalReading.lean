import EntryTrace.Proofs.CheckedModules
import EntryTrace.Proofs.Mirroring
import EntryTrace.Proofs.RoundTrip
import EntryTrace.Proofs.Settling
import EntryTrace.Proofs.TreeSizes

/-!
# Reading never faults

A text that is not too long is read as a module or refused with an error, whatever it says. There are
numbers enough for all that it describes, everything that is looked up is there, literals and the
numbers of entities stay within the ranges of their types, and no loop runs on.
-/

namespace EntryTrace

open Source

namespace Source

/-! ### Integers -/

lemma lt_of_readDigits {radix : Nat} {p : Char → Bool} {cs rest : List Char} {n : Nat}
    (h : readDigits radix p cs = .ok (n, rest)) : n < literalLimit := by
  have hfinish {digits r : List Char} (h : readDigits.finish radix digits r = .ok (n, rest)) :
      n < literalLimit := by
    dsimp only [readDigits.finish] at h
    split at h
    · rename_i hlt
      cases h
      exact hlt
    · cases h
  dsimp only [readDigits] at h
  split at h
  · cases h
  · split at h
    · split at h
      · cases h
      · exact hfinish h
    · exact hfinish h

lemma lt_of_readMagnitude {cs rest : List Char} {n : Nat} (h : readMagnitude cs = .ok (n, rest)) :
    n < literalLimit := by
  unfold readMagnitude at h
  split at h
  · exact lt_of_readDigits h
  · exact lt_of_readDigits h

/-- A literal with its sign is within the range of a signed 128-bit integer. -/
def Token.InRange (t : Token) : Prop := ∀ n, t = .int n → -(2 ^ 127 : Int) < n ∧ n < 2 ^ 127

lemma inRange_of_magnitude {cs rest : List Char} {token : Token} {f : Nat → Int}
    (hf : ∀ n, f n = n ∨ f n = -n)
    (h : (readMagnitude cs).map (fun r => (some (Token.int (f r.1)), r.2)) = .ok (some token, rest)) :
    token.InRange := by
  cases hread : readMagnitude cs with
  | error cause =>
    rw [hread] at h
    cases h
  | ok r =>
    obtain ⟨n, rest'⟩ := r
    have hlt : n < 2 ^ 127 := lt_of_readMagnitude hread
    rw [hread] at h
    cases h
    rintro _ ⟨⟩
    rcases hf n with heq | heq <;> rw [heq] <;> omega

lemma inRange_of_readLexeme {c : Char} {cs rest : List Char} {token : Token}
    (h : readLexeme c cs = .ok (some token, rest)) : token.InRange := by
  unfold readLexeme at h
  split at h
  · rename_i found hfound
    cases h
    rintro n rfl
    unfold Token.ofChar? at hfound
    split at hfound <;> cases hfound
  split at h
  · cases h
  split at h
  · cases h
  split at h
  · split at h
    · cases h
      exact nofun
    · exact inRange_of_magnitude (fun n => .inr rfl) h
  split at h
  · exact inRange_of_magnitude (fun n => .inl rfl) h
  split at h
  · cases hread : readString [] cs with
    | error cause =>
      rw [hread] at h
      cases h
    | ok r =>
      rw [hread] at h
      cases h
      exact nofun
  split at h
  · cases h
    exact nofun
  · cases h

lemma inRange_of_readTokens {line : Nat} {acc located : List Located} {cs : List Char}
    (hacc : ∀ l ∈ acc, l.token.InRange) (h : readTokens line acc cs = .ok located) :
    ∀ l ∈ located, l.token.InRange := by
  fun_induction readTokens line acc cs with
  | case1 line acc =>
    cases h
    simpa using hacc
  | case2 => cases h
  | case3 line acc c cs rest hlexeme ih => exact ih hacc h
  | case4 line acc c cs token rest hlexeme ih =>
    refine ih (fun l hl => ?_) h
    rcases List.mem_cons.1 hl with rfl | hl
    · exact inRange_of_readLexeme hlexeme
    · exact hacc l hl

/-- An integer that fits a width is what its word says, read as unsigned or as signed. -/
lemma bitVec_of_fits {bits : Nat} {value : Int} (hbits : 0 < bits) (h : Scope.fits bits value = true) :
    ((BitVec.ofInt bits value).toNat : Int) = value ∨ (BitVec.ofInt bits value).toInt = value := by
  rw [Scope.fits, Bool.and_eq_true, decide_eq_true_eq, decide_eq_true_eq, Nat.one_shiftLeft,
    Nat.one_shiftLeft] at h
  obtain ⟨bits, rfl⟩ := Nat.exists_eq_succ_of_ne_zero (Nat.ne_of_gt hbits)
  rw [Nat.succ_eq_add_one, Nat.add_sub_cancel] at h
  rcases lt_or_ge value 0 with hlt | hge
  · right
    rw [BitVec.toInt_ofInt]
    have hdouble : 2 ^ (bits + 1) = 2 * 2 ^ bits := by rw [Nat.pow_succ, Nat.mul_comm]
    exact Int.bmod_eq_of_le (by omega) (by omega)
  · left
    rw [BitVec.toNat_ofInt, Int.emod_eq_of_lt hge h.2, Int.toNat_of_nonneg hge]

lemma toBitVec_ofInt32 (value : Int) : (UInt32.ofInt value).toBitVec = BitVec.ofInt 32 value := by
  apply BitVec.eq_of_toNat_eq
  rw [BitVec.toNat_ofInt, UInt32.toNat_toBitVec, UInt32.ofInt, UInt32.toNat_ofNat']
  omega

lemma ofInt_of_fits32 {value : Int} (h : Scope.fits 32 value = true) :
    ((UInt32.ofInt value).toNat : Int) = value ∨ (UInt32.ofInt value).toInt32.toInt = value := by
  have hword := bitVec_of_fits (by decide) h
  rwa [← toBitVec_ofInt32] at hword

lemma toBitVec_ofInt64 (value : Int) : (UInt64.ofInt value).toBitVec = BitVec.ofInt 64 value := by
  apply BitVec.eq_of_toNat_eq
  rw [BitVec.toNat_ofInt, UInt64.toNat_toBitVec, UInt64.ofInt, UInt64.toNat_ofNat']
  omega

lemma ofInt_of_fits64 {value : Int} (h : Scope.fits 64 value = true) :
    ((UInt64.ofInt value).toNat : Int) = value ∨ (UInt64.ofInt value).toInt64.toInt = value := by
  have hword := bitVec_of_fits (by decide) h
  rwa [← toBitVec_ofInt64] at hword

/-! ### Journals -/

/-- The body that a function resolves to can be printed. -/
lemma exists_render_of_resolveBody {m : Module} {signature : Signature} {trees : List BlockTree}
    {body : Body} (hstrings : m.strings.size ≤ Entity.limit) (hfuncs : m.funcs.size ≤ Entity.limit)
    (htrees : trees ≠ []) (h : Answers (resolveBody m signature trees) body) (verbose : Bool)
    (indent : String) : ∃ text, body.render verbose indent = .ok text := by
  obtain ⟨hclosed, -, hfinished, -⟩ := resolveBody_replay htrees h
  obtain ⟨lines, hlines, -⟩ := areLines_body hfuncs (hclosed.numberedBody hstrings hfinished) verbose
  exact ⟨_, by rw [Body.render, hlines]; rfl⟩

lemma mirrors_defineFuncs {m : Module} {trees : List FuncTree}
    (hblocks : ∀ tree ∈ trees, tree.blocks? ≠ some []) (hstrings : m.strings.size ≤ Entity.limit)
    (hfuncs : m.funcs.size ≤ Entity.limit) (index : Nat) :
    Mirrors (defineFuncs m index trees) (defineFuncs m index trees) := by
  induction trees generalizing m index with
  | nil => exact mirrors_pure _
  | cons tree trees ih =>
    have hblocks' : ∀ tree ∈ trees, tree.blocks? ≠ some [] :=
      fun tree htree => hblocks tree (List.mem_cons_of_mem _ htree)
    rw [defineFuncs, defineFuncs]
    cases htree : tree.blocks? with
    | none => exact ih hblocks' hstrings hfuncs _
    | some blocks =>
      have hnonempty : blocks ≠ [] := by
        rintro rfl
        exact hblocks tree List.mem_cons_self htree
      refine (mirrors_resolveBody _ _ _).bind fun body hbody => ?_
      obtain ⟨text, htext⟩ :=
        exists_render_of_resolveBody hstrings hfuncs hnonempty hbody true "| "
      refine (mirrors_step (Recorded.mirrors_notePrinted (by rw [htext]; rfl))).bind fun _ _ =>
        (mirrors_step (Recorded.mirrors_update _ _ _)).bind fun funcs hupdate => ?_
      obtain ⟨-, rfl⟩ := Table.update_eq_ok.1 (answers_step.1 hupdate)
      have hfuncs' : (m.funcs.modify ⟨index⟩ (Decl.withBody body)).size ≤ Entity.limit := by
        rwa [Table.size_modify]
      exact @ih { m with funcs := m.funcs.modify ⟨index⟩ (Decl.withBody body) } hblocks' hstrings
        hfuncs' _

lemma mirrors_resolve {tree : ModuleTree} (h : tree.Sound) : Mirrors (resolve tree) (resolve tree) := by
  refine (mirrors_step (mirrors_addTypes _ _)).bind fun m1 hm1 =>
    (mirrors_step (mirrors_addStrings _ _)).bind fun m2 hm2 =>
      (mirrors_declareFuncs _ _).bind fun m3 hm3 => ?_
  obtain ⟨heq1, -⟩ := addTypes_effect (answers_step.1 hm1)
  obtain ⟨heq2, hstrings⟩ := addStrings_effect (answers_step.1 hm2)
  obtain ⟨heq3, -, hfuncs⟩ := declareFuncs_effect hm3
  have hstrings3 : m3.strings.size ≤ Entity.limit := by
    rw [heq3]
    exact hstrings (by rw [heq1]; exact Nat.zero_le _)
  have hfuncs3 : m3.funcs.size ≤ Entity.limit := hfuncs (by rw [heq2, heq1]; exact Nat.zero_le _)
  exact mirrors_defineFuncs h.blocks hstrings3 hfuncs3 0

/-! ### Texts -/

section Returning

variable {α β : Type}

/-- The work comes to an answer or refuses the text. -/
def Returns (x : Resolving (Except Fault) α) : Prop := ∃ r, x.run = .ok r

lemma returns_given (x : Except SourceError α) :
    Returns (ExceptT.mk (pure x) : Resolving (Except Fault) α) := ⟨x, rfl⟩

lemma Returns.bind {x : Resolving (Except Fault) α} {f : α → Resolving (Except Fault) β}
    (hx : Returns x) (hf : ∀ a, Answers x a → Returns (f a)) : Returns (x >>= f) := by
  obtain ⟨r, hr⟩ := hx
  cases r with
  | error e =>
    obtain ⟨e', he'⟩ := Refuses.bind (f := f) ⟨e, hr⟩
    exact ⟨.error e', he'⟩
  | ok a =>
    obtain ⟨r', hr'⟩ := hf a hr
    exact ⟨r', by rw [ExceptT.run_bind, hr]; exact hr'⟩

lemma Decides.returns {x : Resolving (Except Fault) α} {p : Prop} {Q : α → Prop}
    (h : Decides x p Q) : Returns x := by
  by_cases hp : p
  · obtain ⟨a, ha, -⟩ := h.answers hp
    exact ⟨.ok a, ha⟩
  · obtain ⟨e, he⟩ := h.refuses hp
    exact ⟨.error e, he⟩

end Returning

end Source

lemma mirrors_ofText (text : String) :
    Recorded.Mirrors (Module.ofText text) (Module.ofText text) := by
  have hgiven {α : Type} (x : Except SourceError α) :
      Mirrors (ExceptT.mk (pure x)) (ExceptT.mk (pure x)) := fun _ _ => rfl
  refine (hgiven _).bind fun located _ => (mirrors_step (Recorded.mirrors_note _ _)).bind fun _ _ =>
    (hgiven _).bind fun tree htree => ?_
  have hparse : parse located = .ok tree := by simpa [Answers] using htree
  exact (mirrors_resolve (sound_of_parse hparse)).bind fun _ _ =>
    (mirrors_step (Recorded.mirrors_note _ _)).bind fun _ _ => mirrors_pure _

/-- Without a journal, there is an answer. -/
lemma exists_ofText {text : String} (h : text.length < Entity.limit) :
    ∃ answer, (Module.ofText text : Except Fault (Except SourceError Module)) = .ok answer := by
  refine (returns_given _).bind fun located hlocated => Returns.bind ⟨.ok (), rfl⟩ fun _ _ =>
    (returns_given _).bind fun tree htree => ?_
  have htokens : tokens text = .ok located := by simpa [Answers] using hlocated
  have hparse : parse located = .ok tree := by simpa [Answers] using htree
  have hfew : located.length ≤ Entity.limit := (length_of_tokens htokens).trans h.le
  have hlimits := withinLimits_of_derives (parse_eq_ok.1 hparse) hfew
  exact (decides_resolve hlimits).returns.bind fun module _ =>
    Returns.bind ⟨.ok (), rfl⟩ fun _ _ => ⟨.ok module, rfl⟩

/-- A text that is not too long is read or refused, whatever it says: with and without a journal there
is no fault, so every entity has a number and whatever is looked up is there. Literals and numbers of
entities stay within 128 and 64 bits, constants lose nothing, and the bound of the parser's loops is
not what ends them. -/
theorem ofText_total (text : String) (h : text.length < Entity.limit) :
    ∃ answer, (Module.ofText text : Except Fault (Except SourceError Module)) = .ok answer ∧
      (∀ threshold records,
        ((Module.ofText text : Recorded (Except SourceError Module)).after threshold records).1 =
          .ok answer) ∧
      (∀ located, tokens text = .ok located →
        (∀ l ∈ located, ∀ n, l.token = .int n → -(2 ^ 127 : Int) < n ∧ n < 2 ^ 127) ∧
        (∀ l ∈ located, ∀ name, l.token = .word name → ∀ kind index,
          entityIndex? kind name = some index → index < 2 ^ 64) ∧
        ∀ size, located.length ≤ size →
          (Reader.module ⟨(Extent.of located).endLine, size⟩ located).map Prod.fst = parse located) ∧
      (∀ value, Scope.fits 32 value = true →
        ((UInt32.ofInt value).toNat : Int) = value ∨ (UInt32.ofInt value).toInt32.toInt = value) ∧
      ∀ value, Scope.fits 64 value = true →
        ((UInt64.ofInt value).toNat : Int) = value ∨ (UInt64.ofInt value).toInt64.toInt = value := by
  obtain ⟨answer, hanswer⟩ := exists_ofText h
  refine ⟨answer, hanswer, fun threshold records => ?_, fun located htokens => ⟨?_, ?_, ?_⟩,
    fun _ => ofInt_of_fits32, fun _ => ofInt_of_fits64⟩
  · rw [mirrors_ofText text threshold records, hanswer]
  · exact fun l hl n hn => inRange_of_readTokens (by simp) htokens l hl n hn
  · intro l _ name _ kind index hindex
    obtain ⟨_, _, _, _, _, hlt⟩ := entityIndex?_eq_some.1 hindex
    exact hlt
  · intro size hsize
    rw [Reader.settles_module.same _ size located.length located hsize le_rfl]
    rfl

/-- A text that ends too early, after an entity whose number is too large for any table. -/
def brokenText : String := "module \x7b func18446744073709551615 = func \"f\" : sig4294967295"

theorem ofText_total_brokenText : brokenText.length < Entity.limit ∧
    ∃ answer, (Module.ofText brokenText : Except Fault (Except SourceError Module)) = .ok answer ∧
      ∀ threshold records,
        ((Module.ofText brokenText : Recorded (Except SourceError Module)).after threshold
          records).1 = .ok answer := by
  have hlength : brokenText.length < Entity.limit := by decide
  obtain ⟨answer, hanswer, hjournal, -⟩ := ofText_total brokenText hlength
  exact ⟨hlength, answer, hanswer, hjournal⟩

end EntryTrace
