import EntryTrace.Proofs.TaggedModules
import EntryTrace.Tagging.Check

/-!
# What the check of tagging accepts

For each step of the check this file says when it passes. What tagging makes of a module passes
beside the module itself: the function that tags are handed to is found by the same name, and the
functions of the two modules correspond one by one.
-/

namespace EntryTrace

@[simp] lemma check_eq_ok {p : Bool} {u : Unit} :
    (check p : Except Fault Unit) = .ok u ↔ p = true := by
  cases p with
  | false => simp [check]
  | true => simp [check]

lemma forM_eq_ok {α : Type} {f : α → Except Fault Unit} {as : List α} :
    forM as f = .ok () ↔ ∀ a ∈ as, f a = .ok () := by
  induction as with
  | nil => simp
  | cons a as ih =>
    rw [List.forM_cons, bind_eq_ok, List.forall_mem_cons, ← ih]
    exact ⟨fun ⟨_, ha, has⟩ => ⟨ha, has⟩, fun ⟨ha, has⟩ => ⟨(), ha, has⟩⟩

/-! ### Functions of a name -/

lemma Table.find?_eq_find?_entries {kind : Kind} {α : Type} (t : Table kind α) (p : α → Bool) :
    t.find? p = (t.entries.find? fun entry => p entry.2).map Prod.fst := by
  obtain ⟨⟨items⟩⟩ := t
  simp only [find?, entries, toList, List.findIdx?_toArray, List.findIdx?_eq_fst_find?_zipIdx,
    List.find?_map, Option.map_map]
  rfl

namespace Module

variable {m m' : Module} {name : String}

lemma head?_funcsNamed (m : Module) (name : String) :
    (m.funcsNamed name).head? = m.funcNamed? name := by
  rw [funcsNamed, List.head?_map, List.head?_filter, funcNamed?, Table.find?_eq_find?_entries]

/-- Which functions have a name depends on the names alone. -/
lemma funcsNamed_eq (m : Module) (name : String) : m.funcsNamed name =
    ((m.funcs.toList.map Decl.name).zipIdx.filter fun p => p.1 == name).map fun p => ⟨p.2⟩ := by
  rw [funcsNamed, Table.entries, List.zipIdx_map, List.filter_map, List.filter_map, List.map_map,
    List.map_map]
  rfl

lemma funcsNamed_congr (h : m'.funcs.toList.map Decl.name = m.funcs.toList.map Decl.name) :
    m'.funcsNamed name = m.funcsNamed name := by
  rw [funcsNamed_eq, funcsNamed_eq, h]

lemma funcsNamed_eq_nil (h : m.funcNamed? name = none) : m.funcsNamed name = [] := by
  rw [← List.head?_eq_none_iff, head?_funcsNamed, h]

/-- The function that tags are handed to comes first among those of its name, and is the only one
if it had to be declared. -/
lemma exists_funcsNamed_withTagCallee (m : Module) : ∃ others,
    m.withTagCallee.funcsNamed tagCallee = m.funcOf tagCallee :: others ∧
      (m.funcNamed? tagCallee = none → others = [] ∧
        m.withTagCallee.funcs.size = m.funcs.size + 1) ∧
      ∀ func, m.funcNamed? tagCallee = some func → m.withTagCallee.funcs.size = m.funcs.size := by
  have hhead : (m.withTagCallee.funcsNamed tagCallee).head? = some (m.funcOf tagCallee) := by
    rw [head?_funcsNamed, withTagCallee, funcNamed?_declared]
  obtain ⟨others, hothers⟩ := List.head?_eq_some_iff.1 hhead
  refine ⟨others, hothers, fun hnone => ?_, fun func hfunc => ?_⟩
  · have hfuncs : m.withTagCallee.funcs =
        m.funcs.append (.imported (m.signatureOf tagCalleeType) tagCallee) := by
      simp [withTagCallee, declared, hnone]
    have hempty := funcsNamed_eq_nil hnone
    rw [funcsNamed_eq, List.map_eq_nil_iff] at hempty
    have hlength := congrArg List.length hothers
    rw [funcsNamed_eq, hfuncs, Table.toList_append, List.map_append, List.zipIdx_append,
      List.filter_append, hempty] at hlength
    refine ⟨List.length_eq_zero_iff.1 ?_, by rw [hfuncs, Table.size_append]⟩
    simpa using hlength.symm
  · simp [withTagCallee, declared, hfunc]

end Module

/-! ### The steps of the check -/

section Check

variable {before after : Module} {callee func : Func} {name : String} {old : Decl}

lemma Body.entryInsts_eq_ok {body : Body} {insts : List Value} :
    body.entryInsts = .ok insts ↔
      ∃ data, body.blocks.get? body.entry = some data ∧ data.insts = insts := by
  simp [Body.entryInsts, bind_eq_ok]

lemma checkTagCall_eq_ok {body : Body} {inst : Value} :
    checkTagCall after callee func name body inst = .ok () ↔
      ∃ pointer types str, body.values.get? inst = some (.inst (.call callee) [pointer] types) ∧
        body.values.get? pointer = some (.strRef str) ∧
        after.strings.get? str = some (tagFor name) := by
  simp only [checkTagCall, bind_eq_ok, Table.get_eq_ok]
  constructor
  · rintro ⟨d, hd, h⟩
    split at h
    · simp only [bind_eq_ok, check_eq_ok, decide_eq_true_eq] at h
      obtain ⟨-, rfl, h⟩ := h
      split at h
      · obtain ⟨d', hd', h⟩ := bind_eq_ok.1 h
        split at h
        · simp only [Module.string, bind_eq_ok, Table.get_eq_ok, check_eq_ok,
            decide_eq_true_eq] at h
          obtain ⟨_, htag, rfl⟩ := h
          exact ⟨_, _, _, hd, by simpa using hd', htag⟩
        · simp at h
      · simp at h
    · simp at h
  · rintro ⟨pointer, types, str, hcall, hpointer, htag⟩
    refine ⟨_, hcall, ?_⟩
    simp [bind_eq_ok, hpointer, Module.string, htag]

/-- The check of a function passes if it is imported both times, or else has the same instructions
in its entry block, after the call that tags it if it is a helper. -/
lemma checkTaggedFunc_eq_ok : checkTaggedFunc after callee func old = .ok () ↔
    ∃ new, after.funcs.get? func = some new ∧ old.name = new.name ∧
      ((old.body? = none ∧ new.body? = none) ∨
        ∃ body body' data data', old.body? = some body ∧ new.body? = some body' ∧
          body.blocks.get? body.entry = some data ∧ body'.blocks.get? body'.entry = some data' ∧
          if old.isHelper then
            ∃ inst, data'.insts = inst :: data.insts ∧
              checkTagCall after callee func old.name body' inst = .ok ()
          else data'.insts = data.insts) := by
  simp only [checkTaggedFunc, bind_eq_ok, Table.get_eq_ok, check_eq_ok, decide_eq_true_eq]
  refine exists_congr fun new => and_congr_right fun _ => ?_
  rw [exists_const, and_congr_right_iff]
  rintro -
  cases old.body? with
  | none =>
    cases new.body? with
    | none => simp
    | some body' => simp
  | some body =>
    cases new.body? with
    | none => simp
    | some body' =>
      simp only [bind_eq_ok, Body.entryInsts_eq_ok]
      constructor
      · rintro ⟨_, ⟨data, hdata, rfl⟩, _, ⟨data', hdata', rfl⟩, h⟩
        refine .inr ⟨body, body', data, data', rfl, rfl, hdata, hdata', ?_⟩
        split at h
        · rename_i hhelper
          rw [if_pos hhelper]
          split at h
          · simp at h
          · rename_i first rest hinsts
            simp only [bind_eq_ok, check_eq_ok, decide_eq_true_eq] at h
            obtain ⟨-, rfl, h⟩ := h
            exact ⟨first, hinsts, h⟩
        · rename_i hhelper
          rw [if_neg hhelper]
          simpa [eq_comm] using h
      · rintro (⟨h, -⟩ | ⟨_, _, data, data', hbody, hbody', hdata, hdata', h⟩)
        · cases h
        · obtain rfl := Option.some.inj hbody
          obtain rfl := Option.some.inj hbody'
          refine ⟨_, ⟨data, hdata, rfl⟩, _, ⟨data', hdata', rfl⟩, ?_⟩
          split
          · rename_i hhelper
            rw [if_pos hhelper] at h
            obtain ⟨first, hinsts, h⟩ := h
            simp [hinsts, bind_eq_ok, h]
          · rename_i hhelper
            rw [if_neg hhelper] at h
            simp [h]

lemma checkTagged_eq_ok : checkTagged before after = .ok () ↔
    ∃ callee others, after.funcsNamed tagCallee = callee :: others ∧
      (before.funcNamed? tagCallee = none →
        others = [] ∧ after.funcs.size = before.funcs.size + 1) ∧
      (∀ func, before.funcNamed? tagCallee = some func → after.funcs.size = before.funcs.size) ∧
      ∀ func old, before.funcs.get? func = some old →
        checkTaggedFunc after callee func old = .ok () := by
  have hentries (callee : Func) : (forM before.funcs.entries fun entry =>
      checkTaggedFunc after callee entry.1 entry.2) = .ok () ↔
      ∀ func old, before.funcs.get? func = some old →
        checkTaggedFunc after callee func old = .ok () := by
    rw [forM_eq_ok]
    exact ⟨fun h func old hold => h _ (List.mem_of_getElem? (Table.getElem?_entries_of_get? hold)),
      fun h entry hentry => h _ _ (Table.get?_of_mem_entries hentry)⟩
  unfold checkTagged
  cases hnamed : after.funcsNamed tagCallee with
  | nil => simp
  | cons callee others =>
    simp only [List.cons.injEq]
    cases before.funcNamed? tagCallee with
    | none => simp [bind_eq_ok, hentries, and_assoc]
    | some func => simp [bind_eq_ok, hentries]

end Check

/-! ### The check of what tagging makes -/

lemma Decl.TaggedAs.name_eq {before after : Table .str String} {callee : Func} {decl decl' : Decl}
    (h : decl.TaggedAs before after callee decl') : decl.name = decl'.name := by
  cases h with
  | imported => rfl
  | other => rfl
  | helper => rfl

lemma checkTaggedFunc_of_taggedAs {before : Table .str String} {after : Module}
    {callee func : Func} {old new : Decl} (hnew : after.funcs.get? func = some new)
    (htagged : old.TaggedAs before after.strings callee new)
    (hentry : ∀ body ∈ old.body?, body.entry.index < body.blocks.size) :
    checkTaggedFunc after callee func old = .ok () := by
  refine checkTaggedFunc_eq_ok.2 ⟨new, hnew, htagged.name_eq, ?_⟩
  cases htagged with
  | imported => exact .inl ⟨rfl, rfl⟩
  | @other signature name body hname =>
    obtain ⟨data, hdata⟩ := Table.get?_of_lt (hentry body rfl)
    refine .inr ⟨body, body, data, data, rfl, rfl, hdata, hdata, ?_⟩
    simp [hname]
  | @helper signature name body returns s hname _ htag =>
    obtain ⟨data, hdata⟩ := Table.get?_of_lt (hentry body rfl)
    have hdata' : (body.tagged callee returns s).blocks.get? body.entry =
        some { data with insts := ⟨body.values.size + 1⟩ :: data.insts } := by
      rw [Body.get?_blocks_tagged, if_pos rfl, hdata]
      rfl
    refine .inr ⟨body, _, data, _, rfl, rfl, hdata, hdata', ?_⟩
    rw [Decl.isHelper_defined, if_pos hname]
    exact ⟨_, rfl, checkTagCall_eq_ok.2 ⟨_, returns, s, Body.get?_values_tagged_call,
      Body.get?_values_tagged_pointer, htag⟩⟩

/-- What one run of tagging makes of a module passes the check beside it. -/
theorem checkTagged_of_tagHelpers {m m' : Module}
    (hentry : ∀ decl ∈ m.funcs.toList, ∀ body ∈ decl.body?, body.entry.index < body.blocks.size)
    (h : (tagHelpers m : Except Fault _) = .ok m') : checkTagged m m' = .ok () := by
  obtain ⟨-, hall⟩ := Module.taggedAs_of_tagHelpers h
  have hnames : m'.funcs.toList.map Decl.name = m.withTagCallee.funcs.toList.map Decl.name :=
    (map_eq_of_forall₂ (hall.imp fun _ _ htagged => htagged.name_eq)).symm
  have hsize : m'.funcs.size = m.withTagCallee.funcs.size := by
    rw [← Table.length_toList, ← Table.length_toList, hall.length_eq]
  obtain ⟨others, hothers, hnone, hsome⟩ := m.exists_funcsNamed_withTagCallee
  rw [← hsize] at hnone hsome
  refine checkTagged_eq_ok.2 ⟨m.funcOf tagCallee, others, ?_, hnone, hsome, fun func old hold => ?_⟩
  · rw [Module.funcsNamed_congr hnames, hothers]
  · have hdeclared := (Module.funcs_prefixOf_withTagCallee m).get? hold
    rw [Table.get?_eq] at hdeclared
    obtain ⟨new, hnew, htagged⟩ := getElem?_of_forall₂ hall hdeclared
    rw [← Table.get?_eq] at hnew
    exact checkTaggedFunc_of_taggedAs hnew htagged (hentry old (Table.mem_of_get? hold))

end EntryTrace
