import EntryTrace.Proofs.CheckedTags
import EntryTrace.Proofs.TaggedText

/-!
# How often tagging ran, as the check sees it

The check of tagging passes beside a module that was tagged once. Tagged twice, a helper starts with
two calls where the check wants one, and left alone it starts with none. So only where there are no
helpers can the check not tell how often tagging ran, and then all it asks for is that the function
that tags are handed to is there.
-/

namespace EntryTrace

/-! ### Modules without helpers -/

lemma helperTags_eq_nil {decls : List Decl} (h : ∀ decl ∈ decls, decl.isHelper = false) :
    helperTags decls = [] := by
  rw [helperTags, List.map_eq_nil_iff, List.filter_eq_nil_iff]
  intro decl hdecl
  simp [h decl hdecl]

lemma Decl.taggedTimes_of_not_isHelper {decl : Decl} (h : decl.isHelper = false) (callee : Func)
    (returns : List ValueType) (str : Nat → Str) (n : Nat) :
    decl.taggedTimes callee returns str n = decl := by
  cases decl with
  | imported => rfl
  | defined signature name body =>
    rw [Decl.isHelper_defined] at h
    rw [Decl.taggedTimes, if_neg (by simp [h])]

lemma declsTaggedTimes_of_not_isHelper {decls : List Decl}
    (h : ∀ decl ∈ decls, decl.isHelper = false) (callee : Func) (returns : List ValueType)
    (str : Nat → Nat → Str) (n j : Nat) : declsTaggedTimes callee returns str n j decls = decls := by
  induction decls generalizing j with
  | nil => rfl
  | cons decl rest ih =>
    obtain ⟨hdecl, hrest⟩ := List.forall_mem_cons.1 h
    rw [declsTaggedTimes, decl.taggedTimes_of_not_isHelper hdecl, ih hrest]

namespace Module

variable {m : Module}

lemma withTagCallee_of_funcNamed? {func : Func} (h : m.funcNamed? tagCallee = some func) :
    m.withTagCallee = m := by
  rw [withTagCallee, declared, h, Option.isSome_some, if_pos rfl]

/-- Where there is nothing to tag, runs do no more than declare the function that tags are handed
to. -/
lemma taggedTimes_of_not_isHelper (h : ∀ decl ∈ m.funcs.toList, decl.isHelper = false) (n : Nat) :
    m.taggedTimes n = m.withTagCallee := by
  have hdeclared : ∀ decl ∈ m.withTagCallee.funcs.toList, decl.isHelper = false := by
    intro decl hdecl
    cases decl with
    | imported => rfl
    | defined signature name body => exact h _ (mem_funcs_withTagCallee hdecl rfl)
  apply Module.ext
  · rfl
  · rw [taggedTimes, helperTags_eq_nil h, withTagCallee, strings_declared]
    simp
  · rw [taggedTimes, taggedDecls, declsTaggedTimes_of_not_isHelper hdeclared, Table.ofList_toList]

/-- After some runs a function stands where it stood before. -/
lemma get?_funcs_taggedTimes {func : Func} {decl : Decl} (h : m.funcs.get? func = some decl) (n : Nat) :
    ∃ str, (m.taggedTimes n).funcs.get? func =
      some (decl.taggedTimes (m.funcOf tagCallee) m.withTagCallee.tagReturns str n) := by
  have hdeclared := (funcs_prefixOf_withTagCallee m).get? h
  have hdecls : (m.taggedTimes n).funcs.toList = m.taggedDecls n := Table.toList_ofList _
  rw [Table.get?_eq] at hdeclared
  simp only [Table.get?_eq, hdecls]
  obtain ⟨k, hk⟩ := getElem?_declsTaggedTimes hdeclared
  exact ⟨_, hk⟩

end Module

/-! ### What the check accepts -/

variable {m : Module}

/-- Without helpers the check asks only for the function that tags are handed to. -/
lemma checkTagged_withTagCallee (hno : ∀ decl ∈ m.funcs.toList, decl.isHelper = false)
    (hentry : ∀ decl ∈ m.funcs.toList, ∀ body ∈ decl.body?, body.entry.index < body.blocks.size) :
    checkTagged m m.withTagCallee = .ok () := by
  obtain ⟨others, hothers, hnone, hsome⟩ := m.exists_funcsNamed_withTagCallee
  refine checkTagged_eq_ok.2 ⟨_, others, hothers, hnone, hsome, fun func old hold => ?_⟩
  have hmem := Table.mem_of_get? hold
  have hnew := (Module.funcs_prefixOf_withTagCallee m).get? hold
  refine checkTaggedFunc_eq_ok.2 ⟨old, hnew, rfl, ?_⟩
  cases hbody : old.body? with
  | none => exact .inl ⟨rfl, rfl⟩
  | some body =>
    obtain ⟨data, hdata⟩ := Table.get?_of_lt (hentry old hmem body hbody)
    exact .inr ⟨body, body, data, data, rfl, rfl, hdata, hdata, by simp [hno old hmem]⟩

/-- A helper that was tagged some times passes the check only if that was once: its entry block has
one call more for each time. -/
lemma eq_one_of_checkTaggedFunc {after : Module} {callee callee' func : Func} {old : Decl}
    {returns : List ValueType} {str : Nat → Str} {n : Nat} (hhelper : old.isHelper = true)
    (hnew : after.funcs.get? func = some (old.taggedTimes callee' returns str n))
    (h : checkTaggedFunc after callee func old = .ok ()) : n = 1 := by
  obtain ⟨new, hnew', -, hbodies⟩ := checkTaggedFunc_eq_ok.1 h
  obtain rfl := Option.some.inj (hnew.symm.trans hnew')
  cases old with
  | imported => simp at hhelper
  | defined signature name body =>
    rw [Decl.isHelper_defined] at hhelper
    rw [Decl.taggedTimes, if_pos hhelper] at hbodies
    obtain ⟨hnone, -⟩ | ⟨body₀, body', data, data', hbody₀, hbody', hdata, hdata', hinsts⟩ := hbodies
    · cases hnone
    · obtain rfl := Option.some.inj hbody₀
      obtain rfl := Option.some.inj hbody'
      rw [Decl.isHelper_defined, if_pos hhelper] at hinsts
      obtain ⟨inst, hinsts, -⟩ := hinsts
      have hget : (body.taggedTimes callee' returns str n).blocks.get? body.entry =
          some data' := hdata'
      rw [Body.taggedTimes, Table.get?_modify, if_pos rfl, hdata, Option.map_some,
        Option.some.injEq] at hget
      have hlength := congrArg (fun b => b.insts.length) hget
      simp only [hinsts, List.length_append, List.length_reverse, List.length_map, List.length_range,
        List.length_cons] at hlength
      omega

/-- Beside what any other number of runs than one makes of a module, the check passes only if there is
nothing to tag. -/
lemma not_isHelper_of_checkTagged {m' : Module} {n : Nat} (hn : n ≠ 1)
    (hfuncs : ∀ func decl, m.funcs.get? func = some decl → ∃ callee returns str,
      m'.funcs.get? func = some (decl.taggedTimes callee returns str n))
    (h : checkTagged m m' = .ok ()) : ∀ decl ∈ m.funcs.toList, decl.isHelper = false := by
  obtain ⟨callee, -, -, -, -, hchecks⟩ := checkTagged_eq_ok.1 h
  intro decl hdecl
  obtain ⟨func, hfunc⟩ := Table.get?_of_mem hdecl
  obtain ⟨_, _, _, hnew⟩ := hfuncs func decl hfunc
  by_contra hhelper
  exact hn (eq_one_of_checkTaggedFunc (by simpa using hhelper) hnew (hchecks func decl hfunc))

/-- A module passes beside itself only if it has the function that tags are handed to. -/
lemma exists_funcNamed?_of_checkTagged_self (h : checkTagged m m = .ok ()) :
    ∃ func, m.funcNamed? tagCallee = some func := by
  obtain ⟨callee, others, hnamed, -, -, -⟩ := checkTagged_eq_ok.1 h
  exact ⟨callee, by rw [← Module.head?_funcsNamed, hnamed, List.head?_cons]⟩

/-- The check tells one run of tagging from any other number of runs. What `n` runs make of a module
that was read from text passes the check beside it exactly if `n` is one, or there is nothing to tag
and the function that tags are handed to is there, because it was before or because it was declared.
The runs come to an end if no table gets as large as it can be. -/
theorem checkTagged_runTimes_iff {text : String} {m : Module} {n : Nat}
    (hread : (Module.ofText text : Except Fault (Except SourceError Module)) = .ok (.ok m))
    (hlimit : 1 ≤ n → (m.taggedTimes n).BelowLimit) :
    ∃ m', tagPass.runTimes n m = .ok (List.replicate n true, m') ∧
      (checkTagged m m' = .ok () ↔
        n = 1 ∨ (∀ decl ∈ m.funcs.toList, decl.isHelper = false) ∧
          (2 ≤ n ∨ ∃ func, m.funcNamed? tagCallee = some func)) := by
  have hreadable := readable_of_ofText hread
  have hentry : ∀ decl ∈ m.funcs.toList, ∀ body ∈ decl.body?,
      body.entry.index < body.blocks.size := fun decl hdecl body hbody =>
    (hreadable.bodies decl hdecl body hbody).entry
  obtain rfl | hn := Nat.eq_zero_or_pos n
  · refine ⟨m, rfl, fun hcheck => .inr ⟨?_, .inr (exists_funcNamed?_of_checkTagged_self hcheck)⟩, ?_⟩
    · exact not_isHelper_of_checkTagged Nat.zero_ne_one
        (fun func decl hdecl => ⟨.unset, [], fun _ => .unset, by rwa [Decl.taggedTimes_zero]⟩) hcheck
    · rintro (hone | ⟨hno, htwo | ⟨func, hfunc⟩⟩)
      · cases hone
      · cases htwo
      · have hpasses := checkTagged_withTagCallee hno hentry
        rwa [Module.withTagCallee_of_funcNamed? hfunc] at hpasses
  · have hroom : m.RoomForRuns n :=
      .of_belowLimit hreadable.signatures hreadable.helperEntries (hlimit hn)
    refine ⟨m.taggedTimes n, ?_, fun hcheck => ?_, ?_⟩
    · exact hroom.runTimes_eq hn
    · by_cases hone : n = 1
      · exact .inl hone
      · refine .inr ⟨not_isHelper_of_checkTagged hone (fun func decl hdecl => ?_) hcheck, .inl (by omega)⟩
        obtain ⟨str, hstr⟩ := Module.get?_funcs_taggedTimes hdecl n
        exact ⟨_, _, str, hstr⟩
    · rintro (rfl | ⟨hno, -⟩)
      · exact checkTagged_of_tagHelpers hentry hroom.tagHelpers_eq
      · rw [Module.taggedTimes_of_not_isHelper hno]
        exact checkTagged_withTagCallee hno hentry

/-- The countdown does not pass after two runs: its helper starts with two calls. -/
theorem checkTagged_runTimes_iff_countDown :
    (Module.ofText countDownText : Except Fault (Except SourceError Module)) = .ok (.ok countDown) ∧
      (1 ≤ 2 → (countDown.taggedTimes 2).BelowLimit) ∧
      ∃ m', tagPass.runTimes 2 countDown = .ok ([true, true], m') ∧
        checkTagged countDown m' ≠ .ok () := by
  have hlimit : 1 ≤ 2 → (countDown.taggedTimes 2).BelowLimit := fun _ => by decide +kernel
  have hhelper : ¬ ∀ decl ∈ countDown.funcs.toList, decl.isHelper = false := by decide +kernel
  obtain ⟨m', hruns, hpasses⟩ := checkTagged_runTimes_iff ofText_countDownText hlimit
  refine ⟨ofText_countDownText, hlimit, m', hruns, fun hcheck => ?_⟩
  rcases hpasses.1 hcheck with hone | ⟨hno, -⟩
  · omega
  · exact hhelper hno

end EntryTrace
