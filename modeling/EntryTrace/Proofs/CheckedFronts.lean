import EntryTrace.Proofs.CheckedRuns
import EntryTrace.Proofs.Renumbering

/-!
# What the check of tagging sees

The check sees the names of all functions, and of each function that was there before whether it is
imported and how it starts: the instructions of its entry block by their numbers, and of the call in
front of a helper what it calls and which tag it hands over. A module passes exactly if it looks like
what tagging makes, as far as this goes. It may differ in all the rest: in what instructions are and what
they are applied to, in terminators, other blocks, signatures and strings.
-/

namespace EntryTrace

/-! ### How functions start -/

/-- How a body starts. -/
structure Front where
  /-- What the call in front of a helper calls, and the tag that it hands over. -/
  call? : Option (Func × String)
  /-- The instructions of the entry block, without that call. -/
  insts : List Value

/-- The instructions of the entry block, if there is one. -/
def Body.startInsts (body : Body) : List Value :=
  ((body.blocks.get? body.entry).map BlockData.insts).getD []

/-- What an instruction calls and the tag that it hands over, if that is what it does. -/
def Module.tagCall? (m : Module) (body : Body) (inst : Value) : Option (Func × String) :=
  match body.values.get? inst with
  | some (.inst (.call callee) [pointer] _) =>
    match body.values.get? pointer with
    | some (.strRef str) => (m.strings.get? str).map (callee, ·)
    | _ => none
  | _ => none

/-- How a function of the module starts, if it has a body. -/
def Decl.front? (m : Module) (decl : Decl) : Option Front :=
  decl.body?.map fun body =>
    if decl.isHelper then
      ⟨body.startInsts.head?.bind (m.tagCall? body), body.startInsts.tail⟩
    else ⟨none, body.startInsts⟩

/-- How a function starts once it is tagged. -/
def Decl.taggedFront? (callee : Func) (decl : Decl) : Option Front :=
  decl.body?.map fun body =>
    ⟨if decl.isHelper then some (callee, tagFor decl.name) else none, body.startInsts⟩

lemma Module.tagCall?_eq_some {m : Module} {body : Body} {inst : Value} {callee : Func}
    {tag : String} : m.tagCall? body inst = some (callee, tag) ↔
      ∃ pointer types str, body.values.get? inst = some (.inst (.call callee) [pointer] types) ∧
        body.values.get? pointer = some (.strRef str) ∧ m.strings.get? str = some tag := by
  constructor
  · intro h
    unfold tagCall? at h
    split at h
    · rename_i hcall
      split at h
      · rename_i hpointer
        obtain ⟨_, htag, hpair⟩ := Option.map_eq_some_iff.1 h
        obtain ⟨rfl, rfl⟩ := Prod.mk.inj hpair
        exact ⟨_, _, _, hcall, hpointer, htag⟩
      · cases h
    · cases h
  · rintro ⟨pointer, types, str, hcall, hpointer, htag⟩
    simp only [tagCall?, hcall, hpointer, htag, Option.map_some]

lemma Body.startInsts_eq {body : Body} {data : BlockData}
    (h : body.blocks.get? body.entry = some data) : body.startInsts = data.insts := by
  rw [startInsts, h, Option.map_some, Option.getD_some]

section Check

variable {after : Module} {callee func : Func} {old new : Decl}

lemma checkTagCall_iff_tagCall? {name : String} {body : Body} {inst : Value} :
    checkTagCall after callee func name body inst = .ok () ↔
      after.tagCall? body inst = some (callee, tagFor name) := by
  rw [checkTagCall_eq_ok, Module.tagCall?_eq_some]

/-- A helper starts as if it were tagged exactly if the check passes the call in front of it. -/
lemma starts_with_call_iff {name : String} {body : Body} {insts rest : List Value} :
    (⟨insts.head?.bind (after.tagCall? body), insts.tail⟩ : Front) =
        ⟨some (callee, tagFor name), rest⟩ ↔
      ∃ inst, insts = inst :: rest ∧ checkTagCall after callee func name body inst = .ok () := by
  simp only [checkTagCall_iff_tagCall?, Front.mk.injEq]
  cases insts with
  | nil => simp
  | cons first others =>
    simp only [List.head?_cons, Option.bind_some, List.tail_cons, List.cons.injEq]
    exact ⟨fun ⟨hcall, hrest⟩ => ⟨first, ⟨rfl, hrest⟩, hcall⟩,
      fun ⟨_, ⟨hfirst, hrest⟩, hcall⟩ => ⟨hfirst ▸ hcall, hrest⟩⟩

/-- The check of a function passes if it has its name still and starts as if it were tagged. -/
lemma checkTaggedFunc_iff_front (hnew : after.funcs.get? func = some new)
    (hentry : ∀ body ∈ old.body?, body.entry.index < body.blocks.size)
    (hentry' : ∀ body ∈ new.body?, body.entry.index < body.blocks.size) :
    checkTaggedFunc after callee func old = .ok () ↔
      old.name = new.name ∧ new.front? after = old.taggedFront? callee := by
  rw [checkTaggedFunc_eq_ok, hnew]
  simp only [Option.some.injEq, exists_eq_left']
  refine and_congr_right fun hname => ?_
  cases old with
  | imported =>
    cases new with
    | imported => simp [Decl.front?, Decl.taggedFront?]
    | defined => simp [Decl.front?, Decl.taggedFront?]
  | defined signature name body =>
    cases new with
    | imported => simp [Decl.front?, Decl.taggedFront?]
    | defined signature' name' body' =>
      obtain rfl : name = name' := hname
      obtain ⟨data, hdata⟩ := Table.get?_of_lt (hentry body rfl)
      obtain ⟨data', hdata'⟩ := Table.get?_of_lt (hentry' body' rfl)
      have hhelpers (b : Bool) (h : isHelperName name = b) :
          (Decl.defined signature name body).isHelper = b ∧
            (Decl.defined signature' name body').isHelper = b := by
        rw [Decl.isHelper_defined, Decl.isHelper_defined]
        exact ⟨h, h⟩
      simp only [Decl.front?, Decl.taggedFront?, Decl.body?_defined, reduceCtorEq, false_and,
        false_or, Option.some.injEq, exists_eq_left', exists_and_left, hdata, hdata',
        Option.map_some, Body.startInsts_eq hdata, Body.startInsts_eq hdata']
      cases hhelper : isHelperName name with
      | true =>
        obtain ⟨hold, hnew⟩ := hhelpers _ hhelper
        simp only [hold, hnew, if_true, Decl.name_defined]
        exact starts_with_call_iff.symm
      | false =>
        obtain ⟨hold, hnew⟩ := hhelpers _ hhelper
        simp only [hold, hnew, Bool.false_eq_true, if_false, Front.mk.injEq, true_and]

/-- What tagging makes of a function starts as if it were tagged. -/
lemma front?_of_taggedAs {before : Table .str String} (hnew : after.funcs.get? func = some new)
    (htagged : old.TaggedAs before after.strings callee new)
    (hentry : ∀ body ∈ old.body?, body.entry.index < body.blocks.size) :
    new.front? after = old.taggedFront? callee := by
  have hentry' : ∀ body ∈ new.body?, body.entry.index < body.blocks.size := by
    cases htagged with
    | imported => exact hentry
    | other => exact hentry
    | @helper signature name body =>
      rintro _ ⟨⟩
      rw [Body.tagged, Table.size_modify]
      exact hentry body rfl
  exact ((checkTaggedFunc_iff_front hnew hentry hentry').1
    (checkTaggedFunc_of_taggedAs hnew htagged hentry)).2

end Check

/-! ### How modules look -/

/-- Two modules look alike up to a function: all functions have the same names, and the functions
before it start alike. -/
structure Module.LooksLike (m m' : Module) (count : Nat) : Prop where
  names : m.funcs.toList.map Decl.name = m'.funcs.toList.map Decl.name
  fronts : ∀ func, func.index < count →
    (m.funcs.get? func).map (Decl.front? m) = (m'.funcs.get? func).map (Decl.front? m')

namespace Module

variable {before tagged after : Module}

lemma map_name_tagged (htag : (tagHelpers before : Except Fault _) = .ok tagged) :
    tagged.funcs.toList.map Decl.name = before.withTagCallee.funcs.toList.map Decl.name :=
  have ⟨_, hall⟩ := taggedAs_of_tagHelpers htag
  (map_eq_of_forall₂ (hall.imp fun _ _ htagged => htagged.name_eq)).symm

/-- What tagging makes of the functions that were there before starts as if it were tagged. -/
lemma exists_tagged_func (htag : (tagHelpers before : Except Fault _) = .ok tagged)
    (hentry : ∀ decl ∈ before.funcs.toList, ∀ body ∈ decl.body?, body.entry.index < body.blocks.size)
    {func : Func} {old : Decl} (hold : before.funcs.get? func = some old) :
    ∃ new, tagged.funcs.get? func = some new ∧ old.name = new.name ∧
      new.front? tagged = old.taggedFront? (before.funcOf tagCallee) := by
  obtain ⟨-, hall⟩ := taggedAs_of_tagHelpers htag
  have hdeclared := (funcs_prefixOf_withTagCallee before).get? hold
  rw [Table.get?_eq] at hdeclared
  obtain ⟨new, hnew, htagged⟩ := getElem?_of_forall₂ hall hdeclared
  rw [← Table.get?_eq] at hnew
  exact ⟨new, hnew, htagged.name_eq,
    front?_of_taggedAs hnew htagged (hentry old (Table.mem_of_get? hold))⟩

lemma funcsNamed_eq_nil_iff {m : Module} {name : String} :
    m.funcsNamed name = [] ↔ name ∉ m.funcs.toList.map Decl.name := by
  rw [funcsNamed, List.map_eq_nil_iff, List.filter_eq_nil_iff, ← Table.map_snd_entries m.funcs,
    List.map_map, List.mem_map]
  simp only [beq_iff_eq, Function.comp_apply, not_exists, not_and]

/-- The names that the check accepts are those that tagging leaves. -/
lemma map_name_of_checkTagged (h : checkTagged before after = .ok ()) :
    after.funcs.toList.map Decl.name = before.withTagCallee.funcs.toList.map Decl.name := by
  obtain ⟨callee, others, hnamed, hnone, hsome, hchecks⟩ := checkTagged_eq_ok.1 h
  have hkept : before.funcs.toList.map Decl.name <+: after.funcs.toList.map Decl.name := by
    refine List.prefix_iff_getElem?.2 fun i hi => ?_
    rw [List.length_map] at hi
    obtain ⟨new, hnew, hname, -⟩ := checkTaggedFunc_eq_ok.1
      (hchecks ⟨i⟩ before.funcs.toList[i] (by rw [Table.get?_eq]; exact List.getElem?_eq_getElem hi))
    rw [Table.get?_eq] at hnew
    rw [List.getElem?_map, hnew, Option.map_some, List.getElem_map, hname]
  obtain ⟨added, hadded⟩ := hkept
  have hlength := congrArg List.length hadded
  rw [List.length_append, List.length_map, List.length_map, Table.length_toList,
    Table.length_toList] at hlength
  cases hcallee : before.funcNamed? tagCallee with
  | some func =>
    rw [hsome func hcallee] at hlength
    rw [withTagCallee_of_funcNamed? hcallee, ← hadded, (List.length_eq_zero_iff.1 (by omega) : added = []),
      List.append_nil]
  | none =>
    rw [(hnone hcallee).2] at hlength
    obtain ⟨name, rfl⟩ := List.length_eq_one_iff.1 (by omega : added.length = 1)
    have hmem : tagCallee ∈ after.funcs.toList.map Decl.name := by
      by_contra hnot
      rw [funcsNamed_eq_nil_iff.2 hnot] at hnamed
      cases hnamed
    have hfresh := funcsNamed_eq_nil_iff.1 (funcsNamed_eq_nil hcallee)
    rw [← hadded, List.mem_append, or_iff_right hfresh, List.mem_singleton] at hmem
    rw [← hadded, ← hmem]
    simp [withTagCallee, declared, hcallee]

/-- Beside a module the check passes what looks like the tagged module, and only that. -/
lemma checkTagged_iff_looksLike (hbefore : before.Readable) (hafter : after.Readable)
    (htag : (tagHelpers before : Except Fault _) = .ok tagged) :
    checkTagged before after = .ok () ↔ after.LooksLike tagged before.funcs.size := by
  have hentry : ∀ decl ∈ before.funcs.toList, ∀ body ∈ decl.body?,
      body.entry.index < body.blocks.size := fun decl hdecl body hbody =>
    (hbefore.bodies decl hdecl body hbody).entry
  have hentry' : ∀ decl ∈ after.funcs.toList, ∀ body ∈ decl.body?,
      body.entry.index < body.blocks.size := fun decl hdecl body hbody =>
    (hafter.bodies decl hdecl body hbody).entry
  obtain ⟨others, hothers, hnone, hsome⟩ := before.exists_funcsNamed_withTagCallee
  constructor
  · intro h
    have hnames := map_name_of_checkTagged h
    refine ⟨hnames.trans (map_name_tagged htag).symm, fun func hfunc => ?_⟩
    obtain ⟨callee, others', hnamed, -, -, hchecks⟩ := checkTagged_eq_ok.1 h
    rw [funcsNamed_congr hnames, hothers, List.cons.injEq] at hnamed
    obtain ⟨rfl, -⟩ := hnamed
    obtain ⟨old, hold⟩ := Table.get?_of_lt hfunc
    obtain ⟨new, hnew, -, hfront⟩ := exists_tagged_func htag hentry hold
    have hcheck := hchecks func old hold
    obtain ⟨new', hnew', -⟩ := checkTaggedFunc_eq_ok.1 hcheck
    obtain ⟨-, hfront'⟩ := (checkTaggedFunc_iff_front hnew' (hentry _ (Table.mem_of_get? hold))
      (hentry' _ (Table.mem_of_get? hnew'))).1 hcheck
    rw [hnew, hnew', Option.map_some, Option.map_some, hfront, hfront']
  · rintro ⟨hnames, hfronts⟩
    rw [map_name_tagged htag] at hnames
    have hsize : after.funcs.size = before.withTagCallee.funcs.size := by
      rw [← Table.length_toList, ← Table.length_toList, ← List.length_map (f := Decl.name), hnames,
        List.length_map]
    rw [← hsize] at hnone hsome
    refine checkTagged_eq_ok.2 ⟨_, others, by rw [funcsNamed_congr hnames, hothers], hnone, hsome,
      fun func old hold => ?_⟩
    obtain ⟨new, hnew, hname, hfront⟩ := exists_tagged_func htag hentry hold
    have hfronts := hfronts func (Table.get?_lt hold)
    rw [hnew, Option.map_some] at hfronts
    obtain ⟨new', hnew', hfront'⟩ := Option.map_eq_some_iff.1 hfronts
    refine (checkTaggedFunc_iff_front hnew' (hentry _ (Table.mem_of_get? hold))
      (hentry' _ (Table.mem_of_get? hnew'))).2 ⟨?_, hfront'.trans hfront⟩
    have hsame := congrArg (·[func.index]?) (hnames.trans (map_name_tagged htag).symm)
    rw [Table.get?_eq] at hnew hnew'
    simp only [List.getElem?_map, hnew, hnew', Option.map_some, Option.some.injEq] at hsame
    exact hname.trans hsame.symm

end Module

/-- The check of tagging sees how functions start, and nothing else. For modules that were read from
text, it passes the second beside the first exactly if the second looks like what tagging makes of the
first: its functions have the same names in the same order, and of those that the first has the same are
imported, the entry blocks of the others list the same instructions by number, and the call in front of
each helper calls the same function with the same tag. -/
theorem checkTagged_iff_looksLike_ofText {text text' : String} {before after tagged : Module}
    (hbefore : (Module.ofText text : Except Fault (Except SourceError Module)) = .ok (.ok before))
    (hafter : (Module.ofText text' : Except Fault (Except SourceError Module)) = .ok (.ok after))
    (htag : (tagHelpers before : Except Fault _) = .ok tagged) :
    checkTagged before after = .ok () ↔ after.LooksLike tagged before.funcs.size :=
  Module.checkTagged_iff_looksLike (readable_of_ofText hbefore) (readable_of_ofText hafter) htag

/-! ### What the check does not see -/

/-- A helper that returns 1 from its second block. -/
def oneText : String :=
  "module \x7b sig0 = (ptr) -> (i32) sig1 = () -> (i32)
  func0 = import \"print_tagged_helper\" : sig0
  func1 = func \"helper_one\" : sig1 \x7b
    block0(): br block1()
    block1(): v0 = i32.const 1 return v0 \x7d \x7d"

/-- The same helper with the call that tags it, but it returns 2. -/
def twoText : String :=
  "module \x7b sig0 = (ptr) -> (i32) sig1 = () -> (i32) str0 = \"|-- helper_one\"
  func0 = import \"print_tagged_helper\" : sig0
  func1 = func \"helper_one\" : sig1 \x7b
    block0(): v0 = call func0(str0) br block1()
    block1(): v1 = i32.const 2 return v1 \x7d \x7d"

def oneHelper : Module :=
  let entry : BlockData := { terminator := .jump ⟨⟨1⟩, []⟩, succs := [⟨1⟩] }
  let exit : BlockData := { insts := [⟨0⟩], terminator := .ret [⟨0⟩], preds := [⟨0⟩] }
  let body : Body :=
    { returns := [.i32]
      entry := ⟨0⟩
      blocks := ⟨#[entry, exit]⟩
      values := ⟨#[.inst (.const32 1) [] [.i32]]⟩
      home := ⟨#[⟨1⟩]⟩ }
  { signatures := ⟨#[⟨[.ptr], [.i32]⟩, ⟨[], [.i32]⟩]⟩
    funcs := ⟨#[.imported ⟨0⟩ "print_tagged_helper", .defined ⟨1⟩ "helper_one" body]⟩ }

def twoHelper : Module :=
  let entry : BlockData := { insts := [⟨1⟩], terminator := .jump ⟨⟨1⟩, []⟩, succs := [⟨1⟩] }
  let exit : BlockData := { insts := [⟨2⟩], terminator := .ret [⟨2⟩], preds := [⟨0⟩] }
  let body : Body :=
    { returns := [.i32]
      entry := ⟨0⟩
      blocks := ⟨#[entry, exit]⟩
      values := ⟨#[.strRef ⟨0⟩, .inst (.call ⟨0⟩) [⟨0⟩] [.i32], .inst (.const32 2) [] [.i32]]⟩
      home := ⟨#[.unset, ⟨0⟩, ⟨1⟩]⟩ }
  { signatures := ⟨#[⟨[.ptr], [.i32]⟩, ⟨[], [.i32]⟩]⟩
    strings := ⟨#["|-- helper_one"]⟩
    funcs := ⟨#[.imported ⟨0⟩ "print_tagged_helper", .defined ⟨1⟩ "helper_one" body]⟩ }

set_option maxRecDepth 4000 in
lemma ofText_oneText :
    (Module.ofText oneText : Except Fault (Except SourceError Module)) = .ok (.ok oneHelper) :=
  (ofText_ofList _).trans (by decide +kernel)

set_option maxRecDepth 4000 in
lemma ofText_twoText :
    (Module.ofText twoText : Except Fault (Except SourceError Module)) = .ok (.ok twoHelper) :=
  (ofText_ofList _).trans (by decide +kernel)

lemma tagHelpers_oneHelper :
    (tagHelpers oneHelper : Except Fault _) = .ok (oneHelper.taggedTimes 1) := by
  have hreadable := readable_of_ofText ofText_oneText
  refine Module.RoomForRuns.tagHelpers_eq ?_
  exact .of_belowLimit hreadable.signatures hreadable.helperEntries (by decide +kernel)

/-- The helper that returns 2 looks like the tagged helper that returns 1. -/
theorem checkTagged_iff_looksLike_oneText :
    (Module.ofText oneText : Except Fault (Except SourceError Module)) = .ok (.ok oneHelper) ∧
      (Module.ofText twoText : Except Fault (Except SourceError Module)) = .ok (.ok twoHelper) ∧
      (tagHelpers oneHelper : Except Fault _) = .ok (oneHelper.taggedTimes 1) ∧
      twoHelper.LooksLike (oneHelper.taggedTimes 1) 2 :=
  ⟨ofText_oneText, ofText_twoText, tagHelpers_oneHelper,
    (checkTagged_iff_looksLike_ofText ofText_oneText ofText_twoText tagHelpers_oneHelper).1
      (by decide +kernel)⟩

/-- Other numbers for the values do not take a constant away. -/
lemma Decl.RenumberedAs.mem_values {decl decl' : Decl} (h : decl.RenumberedAs decl') {n : UInt32}
    {types : List ValueType} {body : Body} (hbody : decl.body? = some body)
    (hmem : .inst (.const32 n) [] types ∈ body.values.toList) :
    ∃ body' ∈ decl'.body?, .inst (.const32 n) [] types ∈ body'.values.toList := by
  cases h with
  | same => exact ⟨body, hbody, hmem⟩
  | helper σ _ hrenumbered =>
    obtain rfl := Option.some.inj hbody
    obtain ⟨v, hv⟩ := Table.get?_of_mem hmem
    exact ⟨_, rfl, Table.mem_of_get? (hrenumbered.values v _ hv)⟩

/-- The check passes the helper that returns 2 beside the one that returns 1, although it is not what
tagging makes, whatever numbers its values have, and is something else to call. -/
theorem checkTagged_twoHelper :
    (Module.ofText oneText : Except Fault (Except SourceError Module)) = .ok (.ok oneHelper) ∧
      (Module.ofText twoText : Except Fault (Except SourceError Module)) = .ok (.ok twoHelper) ∧
      checkTagged oneHelper twoHelper = .ok () ∧
      ∃ tagged, (tagHelpers oneHelper : Except Fault _) = .ok tagged ∧
        ¬ tagged.RenumberedAs twoHelper ∧
        (tagged.call Host.tagRecorder ⟨1⟩ [] ⟨{}, #[]⟩ : Except Fault _).map Prod.fst =
          .ok (.returned [.i32 1]) ∧
        (twoHelper.call Host.tagRecorder ⟨1⟩ [] ⟨{}, #[]⟩ : Except Fault _).map Prod.fst =
          .ok (.returned [.i32 2]) := by
  refine ⟨ofText_oneText, ofText_twoText, by decide +kernel, _, tagHelpers_oneHelper, fun h => ?_,
    by decide +kernel, by decide +kernel⟩
  have hone : ∃ decl ∈ (oneHelper.taggedTimes 1).funcs.toList, ∃ body ∈ decl.body?,
      .inst (.const32 1) [] [.i32] ∈ body.values.toList := by decide +kernel
  obtain ⟨decl, hdecl, body, hbody, hmem⟩ := hone
  obtain ⟨decl', hdecl', hrenumbered⟩ := exists_right_of_forall₂ h.funcs hdecl
  obtain ⟨body', hbody', hmem'⟩ := hrenumbered.mem_values hbody hmem
  have hnone : ∀ decl ∈ twoHelper.funcs.toList, ∀ body ∈ decl.body?,
      .inst (.const32 1) [] [.i32] ∉ body.values.toList := by decide +kernel
  exact hnone decl' hdecl' body' hbody' hmem'

end EntryTrace
