import EntryTrace.Proofs.TaggedFiles
import EntryTrace.Proofs.TotalReading
import EntryTrace.Proofs.TwoHosts

/-!
# Running functions from the command line

A command that runs a function prints the tags that a host would collect which keeps them, and then
what the call returned. The two hosts word a refusal differently and agree in everything else.
-/

namespace EntryTrace

open Source

/-! ### Two hosts for tags -/

/-- Each tag on a line of its own. -/
def linesOf (tags : Array String) : String := String.join (tags.toList.map (· ++ "\n"))

lemma linesOf_push (tags : Array String) (tag : String) :
    linesOf (tags.push tag) = linesOf tags ++ tag ++ "\n" := by
  simp [linesOf, String.join_append, String.append_assoc]

lemma Host.paired_tags (m : Module) :
    Host.Paired (fun tags output => output = linesOf tags) tagRecorder tagPrinter m := by
  rintro name args tags _ rfl
  by_cases hshape : name = tagCallee ∧ ∃ str, args = [.ptr str]
  · obtain ⟨rfl, str, rfl⟩ := hshape
    simp only [tagRecorder, tagPrinter, if_true, note_silent, ok_bind]
    exact beside_bind_left fun tag => beside_pure ⟨.returned _, (linesOf_push tags tag).symm⟩
  · obtain ⟨message, hmessage⟩ := tagRecorder_other hshape
    rw [hmessage, tagPrinter_other hshape]
    exact ⟨.refused _ _, rfl⟩

/-! ### Constants from integers and back -/

/-- The constant of a type that an integer is, reduced to as many bits as the type has. -/
inductive Constant.Residue : ValueType → Int → Constant → Prop
  | i32 {n : Int} {w : UInt32} (h : (w.toNat : Int) = n % 2 ^ 32) : Residue .i32 n (.i32 w)
  | i64 {n : Int} {w : UInt64} (h : (w.toNat : Int) = n % 2 ^ 64) : Residue .i64 n (.i64 w)

/-- How a constant is shown: words as the signed integers that they are, pointers as what they point
to. -/
inductive Constant.Shows : Constant → String → Prop
  | i32 {w : UInt32} {n : Int} (h : (w.toNat : Int) = n % 2 ^ 32) (hmin : -2 ^ 31 ≤ n)
    (hmax : n < 2 ^ 31) : Shows (.i32 w) (toString n)
  | i64 {w : UInt64} {n : Int} (h : (w.toNat : Int) = n % 2 ^ 64) (hmin : -2 ^ 63 ≤ n)
    (hmax : n < 2 ^ 63) : Shows (.i64 w) (toString n)
  | ptr (str : Str) : Shows (.ptr str) ("&" ++ str.text)

lemma toNat_ofInt32 (n : Int) : ((UInt32.ofInt n).toNat : Int) = n % 2 ^ 32 := by
  rw [← UInt32.toNat_toBitVec, toBitVec_ofInt32, BitVec.toNat_ofInt]
  exact Int.toNat_of_nonneg (Int.emod_nonneg n (by decide))

lemma toNat_ofInt64 (n : Int) : ((UInt64.ofInt n).toNat : Int) = n % 2 ^ 64 := by
  rw [← UInt64.toNat_toBitVec, toBitVec_ofInt64, BitVec.toNat_ofInt]
  exact Int.toNat_of_nonneg (Int.emod_nonneg n (by decide))

lemma toNat_eq_toInt_emod {k : Nat} (b : BitVec k) : (b.toNat : Int) = b.toInt % 2 ^ k := by
  have hmod : b.toInt % (2 ^ k : Nat) = b.toNat % (2 ^ k : Nat) := by
    rw [BitVec.toInt_eq_toNat_bmod, Int.bmod_emod]
  have hlt : (b.toNat : Int) < (2 ^ k : Nat) := by exact_mod_cast b.isLt
  rw [Int.emod_eq_of_lt (Int.natCast_nonneg _) hlt] at hmod
  exact_mod_cast hmod.symm

lemma Constant.shows_text (c : Constant) : c.Shows c.text := by
  cases c with
  | i32 w => exact .i32 (toNat_eq_toInt_emod w.toBitVec) w.toInt32.le_toInt w.toInt32.toInt_lt
  | i64 w => exact .i64 (toNat_eq_toInt_emod w.toBitVec) w.toInt64.le_toInt w.toInt64.toInt_lt
  | ptr str => exact .ptr str

lemma Module.RenumberedAs.refl (m : Module) : m.RenumberedAs m :=
  ⟨rfl, rfl, List.forall₂_same.2 fun decl _ => .same decl⟩

namespace Command

lemma constantsOf_eq_none {types : List ValueType} {args : List Int}
    (hlength : types.length = args.length) (hptr : ValueType.ptr ∈ types) :
    constantsOf types args = none := by
  induction types generalizing args with
  | nil => cases hptr
  | cons type types ih =>
    obtain _ | ⟨n, rest⟩ := args
    · cases hlength
    · cases type with
      | ptr => rfl
      | i32 | i64 =>
        have hrest : constantsOf types rest = none :=
          ih (Nat.succ.inj hlength) (by simpa using hptr)
        rw [constantsOf, hrest, Option.map_none]

/-- Without pointers among their types all integers are constants, of these types. -/
lemma exists_constantsOf {types : List ValueType} {args : List Int}
    (hlength : types.length = args.length) (hptr : ValueType.ptr ∉ types) :
    ∃ constants, constantsOf types args = some constants ∧ constants.map Constant.type = types ∧
      List.Forall₂ (fun (p : ValueType × Int) c => Constant.Residue p.1 p.2 c) (types.zip args)
        constants := by
  induction types generalizing args with
  | nil =>
    obtain _ | _ := args
    · exact ⟨[], rfl, rfl, .nil⟩
    · cases hlength
  | cons type types ih =>
    obtain _ | ⟨n, rest⟩ := args
    · cases hlength
    · obtain ⟨constants, hconstants, htypes, hresidues⟩ :=
        ih (Nat.succ.inj hlength) (List.not_mem_of_not_mem_cons hptr)
      cases type with
      | ptr => exact absurd List.mem_cons_self hptr
      | i32 =>
        refine ⟨.i32 (UInt32.ofInt n) :: constants, ?_, congrArg _ htypes,
          .cons (.i32 (toNat_ofInt32 n)) hresidues⟩
        rw [constantsOf, hconstants, Option.map_some]
      | i64 =>
        refine ⟨.i64 (UInt64.ofInt n) :: constants, ?_, congrArg _ htypes,
          .cons (.i64 (toNat_ofInt64 n)) hresidues⟩
        rw [constantsOf, hconstants, Option.map_some]

/-! ### Calls -/

/-- What makes a command refuse to run a function: there is none of that name, it takes another number
of arguments, or it takes a pointer. -/
def Declines (m : Module) (func : String) (args : List Int) : Prop :=
  m.funcNamed? func = none ∨
    ∃ entity type, m.funcNamed? func = some entity ∧
      (m.funcType entity : Except Fault FuncType) = .ok type ∧
      (type.params.length ≠ args.length ∨ ValueType.ptr ∈ type.params)

lemma exists_of_not_declines {m : Module} {func : String} {args : List Int} (hclosed : m.Closed)
    (h : ¬ Declines m func args) : ∃ entity type, m.funcNamed? func = some entity ∧
      (m.funcType entity : Except Fault FuncType) = .ok type ∧
      type.params.length = args.length ∧ ValueType.ptr ∉ type.params := by
  obtain ⟨hsome, hsuits⟩ := not_or.1 h
  obtain ⟨entity, hnamed⟩ := Option.ne_none_iff_exists'.1 hsome
  obtain ⟨type, htype⟩ := hclosed.signatures.funcType hnamed
  refine ⟨entity, type, hnamed, htype, ?_, fun hptr => hsuits ⟨entity, type, hnamed, htype, .inr hptr⟩⟩
  by_contra hlength
  exact hsuits ⟨entity, type, hnamed, htype, .inl hlength⟩

/-- The answer to a call that has ended. -/
def Answer.ofOutcome (outcome : Outcome) (printed : String) : Answer :=
  match outcome with
  | .returned values =>
    ⟨printed ++ "=> " ++ commaSeparated (values.map Constant.text) ++ "\n", .ok none⟩
  | outcome => .failedAfter printed (.execution outcome)

section Calls

variable {m : Module} {func : String} {args : List Int} {entity : Func} {type : FuncType}
  {constants : List Constant} (hnamed : m.funcNamed? func = some entity)
  (htype : (m.funcType entity : Except Fault FuncType) = .ok type)

lemma runModule_declines (h : Declines m func args) (fuel : Option Nat) : ∃ failure,
    (runModule m func args fuel : Except Fault Answer) = .ok (.failed failure) ∧
      (∀ outcome, failure ≠ .execution outcome) ∧ ∀ cause, failure ≠ .call cause := by
  obtain hnone | ⟨entity, type, hnamed, htype, hargs⟩ := h
  · refine ⟨.noFunction func, ?_, nofun, nofun⟩
    rw [runModule, hnone]
    rfl
  · by_cases hlength : type.params.length = args.length
    · have hnone := constantsOf_eq_none hlength (hargs.resolve_left (not_not_intro hlength))
      refine ⟨.pointerArgument, ?_, nofun, nofun⟩
      simp only [runModule, hnamed, htype, ok_bind, hlength, ne_eq, not_true, if_false, hnone, pure_eq_ok]
    · refine ⟨.argumentCount func type.params.length args.length, ?_, nofun, nofun⟩
      simp only [runModule, hnamed, htype, ok_bind, ne_eq, hlength, not_false_eq_true, if_true, pure_eq_ok]

include hnamed htype

lemma callNamed_eq {σ : Type} {host : Host (Except Fault) σ}
    (htypes : constants.map Constant.type = type.params) (run : Run σ) :
    (m.callNamed host func constants run : Except Fault _) = .ok <$> m.call host entity constants run := by
  simp only [Module.callNamed, hnamed, htype, ok_bind, htypes, ne_eq, not_true, if_false]
  cases m.call host entity constants run <;> rfl

lemma runModule_eq (hlength : type.params.length = args.length)
    (hconstants : constantsOf type.params args = some constants)
    (htypes : constants.map Constant.type = type.params) (fuel : Option Nat) :
    (runModule m func args fuel : Except Fault Answer) =
      (fun r => .ofOutcome r.1 r.2.host) <$>
        m.call Host.tagPrinter entity constants ⟨⟨fuel.getD maxFuel, 0⟩, ""⟩ := by
  simp only [runModule, hnamed, htype, ok_bind, hlength, ne_eq, not_true, if_false, hconstants,
    callNamed_eq hnamed htype htypes]
  cases (m.call Host.tagPrinter entity constants ⟨⟨fuel.getD maxFuel, 0⟩, ""⟩ : Except Fault _) with
  | error fault => rfl
  | ok r =>
    obtain ⟨outcome, run⟩ := r
    cases outcome <;> rfl

/-- Both hosts see a call to its end, which is the same but for the words of a refusal. The one that
prints has then printed what the other one has collected. -/
lemma exists_calls (hclosed : m.Closed) (hlength : type.params.length = args.length)
    (hconstants : constantsOf type.params args = some constants)
    (htypes : constants.map Constant.type = type.params) (fuel : Option Nat) :
    ∃ outcome run outcome',
      m.callNamed Host.tagRecorder func constants ⟨⟨fuel.getD maxFuel, 0⟩, #[]⟩ =
        (.ok (.ok (outcome, run)) : Except Fault _) ∧ outcome.Alike outcome' ∧
      (runModule m func args fuel : Except Fault Answer) = .ok (.ofOutcome outcome' (linesOf run.host)) := by
  obtain ⟨outcome', run', hprints, -⟩ := (Module.RenumberedAs.refl m).call hclosed
    (Host.answersBoth_tagPrinter rfl) (Module.lt_of_funcNamed? hnamed)
    (inRange_constantsOf hconstants) ⟨⟨fuel.getD maxFuel, 0⟩, ""⟩
  have hstart : Run.Paired (fun tags output => output = linesOf tags)
      ⟨⟨fuel.getD maxFuel, 0⟩, #[]⟩ ⟨⟨fuel.getD maxFuel, 0⟩, ""⟩ := ⟨rfl, rfl⟩
  obtain ⟨⟨outcome, run⟩, hcollects, houtcome, hrun⟩ :=
    (Module.call_paired (Host.paired_tags m) entity constants hstart).exists_left hprints
  refine ⟨outcome, run, outcome', ?_, houtcome, ?_⟩
  · rw [callNamed_eq hnamed htype htypes, hcollects, Except.map_ok]
  · rw [runModule_eq hnamed htype hlength hconstants htypes, hprints, Except.map_ok, ← hrun.host]

end Calls

/-- A module that was read from text, tagged or not, is closed. -/
lemma closed_of_run {text : String} {m₀ m : Module} {tag : Bool}
    (hread : (Module.ofText text : Except Fault (Except SourceError Module)) = .ok (.ok m₀))
    (htag : (if tag then tagHelpers m₀ else pure m₀ : Except Fault Module) = .ok m) : m.Closed := by
  have hreadable := readable_of_ofText hread
  cases tag with
  | false =>
    obtain rfl : m₀ = m := Except.ok.inj htag
    exact hreadable.toClosed
  | true =>
    have hroom : m₀.RoomForRuns 1 := .of_tagHelpers hreadable.signatures hreadable.signatureLimit
      hreadable.funcLimit hreadable.stringLimit htag
    obtain rfl : m₀.taggedTimes 1 = m := Except.ok.inj (hroom.tagHelpers_eq.symm.trans htag)
    have htaggable : m₀.Taggable 1 := ⟨hreadable, Module.ordered_of_ofText hread, hroom⟩
    exact htaggable.readable_taggedTimes.toClosed

/-- Running a function from the command line is calling it under the host that collects tags. The
command fails before anything is executed exactly if there is no function of that name, it takes
another number of arguments, or it takes a pointer; the check of the call itself is never what fails.
Otherwise every argument is reduced to as many bits as its type has, and what is printed starts with
the tags that are collected, each on a line of its own. If the call returns, then follows the line with
what it returned, integers as signed and pointers as what they point to; else the command fails as the
call does, with the same function and block, where only a refusal may be worded differently. If there
is no room for the tags the command faults, and there is room if no table gets as large as it can be. -/
theorem execute_run {line : List String} {debug : Bool} {file func text : String} {args : List Int}
    {tag : Bool} {fuel : Option Nat} {dir : Directory} {m₀ : Module}
    (hline : Options.ofArgs? line = some ⟨debug, .run file func args tag fuel⟩)
    (hfile : dir.read file = .ok text)
    (hread : (Module.ofText text : Except Fault (Except SourceError Module)) = .ok (.ok m₀)) :
    (∀ fault, (if tag then tagHelpers m₀ else pure m₀ : Except Fault Module) = .error fault →
      (execute line dir : Except Fault (Conclusion × Directory)) = .error fault) ∧
    ((tag = true → (m₀.taggedTimes 1).BelowLimit) →
      ∃ m, (if tag then tagHelpers m₀ else pure m₀ : Except Fault Module) = .ok m) ∧
    ∀ m, (if tag then tagHelpers m₀ else pure m₀ : Except Fault Module) = .ok m →
      ∃ stdout failure?, (execute line dir : Except Fault (Conclusion × Directory)) =
          .ok (.finished stdout failure?, dir) ∧
        ((∃ failure, failure? = some failure ∧ ∀ outcome, failure ≠ .execution outcome) ↔
          Declines m func args) ∧
        (Declines m func args → stdout = "") ∧ (∀ cause, failure? ≠ some (.call cause)) ∧
        (¬ Declines m func args → ∃ entity type constants outcome run,
          m.funcNamed? func = some entity ∧
          (m.funcType entity : Except Fault FuncType) = .ok type ∧
          type.params.length = args.length ∧
          List.Forall₂ (fun (p : ValueType × Int) c => Constant.Residue p.1 p.2 c)
            (type.params.zip args) constants ∧
          m.callNamed Host.tagRecorder func constants ⟨⟨fuel.getD maxFuel, 0⟩, #[]⟩ =
            (.ok (.ok (outcome, run)) : Except Fault _) ∧
          (∀ values, outcome = .returned values → ∃ shown,
            List.Forall₂ Constant.Shows values shown ∧
            stdout = linesOf run.host ++ "=> " ++ commaSeparated shown ++ "\n" ∧ failure? = none) ∧
          ((∀ values, outcome ≠ .returned values) → ∃ outcome', outcome.Alike outcome' ∧
            stdout = linesOf run.host ∧ failure? = some (.execution outcome'))) := by
  refine ⟨fun fault hfault => ?_, fun hlimit => ?_, fun m htag => ?_⟩
  · refine execute_of_fault hline rfl hfile ?_
    rw [perform_run hread, hfault]
    rfl
  · cases tag with
    | false => exact ⟨m₀, rfl⟩
    | true =>
      have hreadable := readable_of_ofText hread
      have hroom : m₀.RoomForRuns 1 :=
        .of_belowLimit hreadable.signatures hreadable.helperEntries (hlimit rfl)
      exact ⟨_, hroom.tagHelpers_eq⟩
  · have hclosed := closed_of_run hread htag
    have hperform : ((Action.run file func args tag fuel).perform (.ok text) : Except Fault Answer) =
        runModule m func args fuel := by
      rw [perform_run hread, htag, ok_bind]
    by_cases hdeclines : Declines m func args
    · obtain ⟨failure, hruns, hbefore, hcall⟩ := runModule_declines hdeclines fuel
      refine ⟨"", some failure, ?_, ⟨fun _ => hdeclines, fun _ => ⟨failure, rfl, hbefore⟩⟩, fun _ => rfl,
        fun cause heq => hcall cause (Option.some.inj heq), absurd hdeclines⟩
      exact execute_of_writesNothing hline rfl hfile (hperform.trans hruns) (.inr ⟨failure, rfl⟩)
    · obtain ⟨entity, type, hnamed, htype, hlength, hptr⟩ := exists_of_not_declines hclosed hdeclines
      obtain ⟨constants, hconstants, htypes, hresidues⟩ := exists_constantsOf hlength hptr
      obtain ⟨outcome, run, outcome', hcollects, houtcome, hruns⟩ :=
        exists_calls hnamed htype hclosed hlength hconstants htypes fuel
      have halike := houtcome
      cases houtcome with
      | returned values =>
        refine ⟨_, none, execute_of_writesNothing hline rfl hfile (hperform.trans hruns) (.inl rfl),
          ⟨nofun, fun h => absurd h hdeclines⟩, fun h => absurd h hdeclines, nofun, fun _ => ?_⟩
        refine ⟨entity, type, constants, _, run, hnamed, htype, hlength, hresidues, hcollects, ?_,
          fun hfails => absurd rfl (hfails values)⟩
        rintro _ ⟨⟩
        exact ⟨values.map Constant.text, List.forall₂_map_right_iff.2
          (List.forall₂_same.2 fun c _ => c.shows_text), rfl, rfl⟩
      | trapped | outOfFuel | refused =>
        refine ⟨_, some (.execution _),
          execute_of_writesNothing hline rfl hfile (hperform.trans hruns) (.inr ⟨_, rfl⟩),
          ⟨fun ⟨failure, heq, hbefore⟩ => absurd (Option.some.inj heq).symm (hbefore _),
            fun h => absurd h hdeclines⟩, fun h => absurd h hdeclines, nofun, fun _ => ?_⟩
        exact ⟨entity, type, constants, _, run, hnamed, htype, hlength, hresidues, hcollects, nofun,
          fun _ => ⟨_, halike, rfl, rfl⟩⟩

/-- The countdown enters its entry block three times, and so does the tag in front of it. -/
theorem execute_run_countDown :
    Options.ofArgs? ["run", "a.ir", "helper_count_down", "2", "--tag"] =
      some ⟨false, .run "a.ir" "helper_count_down" [2] true none⟩ ∧
    countDownDirectory.read "a.ir" = .ok countDownText ∧
    (Module.ofText countDownText : Except Fault (Except SourceError Module)) = .ok (.ok countDown) ∧
    (execute ["run", "a.ir", "helper_count_down", "2", "--tag"] countDownDirectory :
      Except Fault (Conclusion × Directory)) =
        .ok (.finished ("|-- helper_count_down\n|-- helper_count_down\n|-- helper_count_down\n" ++
          "=> 0\n") none, countDownDirectory) := by
  have hline : Options.ofArgs? ["run", "a.ir", "helper_count_down", "2", "--tag"] =
      some ⟨false, .run "a.ir" "helper_count_down" [2] true none⟩ := by decide +kernel
  obtain ⟨-, hroom, hruns⟩ := execute_run hline read_countDownDirectory ofText_countDownText
  obtain ⟨m, htag⟩ := hroom fun _ => by decide +kernel
  obtain ⟨stdout, failure?, hexecute, -, -, -, hcalls⟩ := hruns m htag
  have hreadable := readable_of_ofText ofText_countDownText
  have hroom : countDown.RoomForRuns 1 :=
    .of_belowLimit hreadable.signatures hreadable.helperEntries (by decide +kernel)
  obtain rfl : countDown.taggedTimes 1 = m := Except.ok.inj (hroom.tagHelpers_eq.symm.trans htag)
  have hnamed : (countDown.taggedTimes 1).funcNamed? "helper_count_down" = some ⟨0⟩ := by
    decide +kernel
  have htype : ((countDown.taggedTimes 1).funcType ⟨0⟩ : Except Fault FuncType) =
      .ok ⟨[.i32], [.i32]⟩ := by decide +kernel
  have hcalled : (((countDown.taggedTimes 1).callNamed Host.tagRecorder "helper_count_down" [.i32 2]
      ⟨⟨maxFuel, 0⟩, #[]⟩ : Except Fault _).toOption.bind Except.toOption).map
        (fun r => (r.1, r.2.host)) = some (.returned [.i32 0],
          #["|-- helper_count_down", "|-- helper_count_down", "|-- helper_count_down"]) := by
    decide +kernel
  have hsuits : ¬ Declines (countDown.taggedTimes 1) "helper_count_down" [2] := by
    rintro (hnone | ⟨entity, type, hnamed', htype', hargs⟩)
    · rw [hnamed] at hnone
      cases hnone
    · obtain rfl := Option.some.inj (hnamed.symm.trans hnamed')
      obtain rfl := Except.ok.inj (htype.symm.trans htype')
      simp at hargs
  obtain ⟨entity, type, constants, outcome, run, hnamed', htype', -, hresidues, hcollects, hreturned, -⟩ :=
    hcalls hsuits
  obtain rfl := Option.some.inj (hnamed.symm.trans hnamed')
  obtain rfl := Except.ok.inj (htype.symm.trans htype')
  obtain rfl : constants = [.i32 2] := by
    cases hresidues with
    | cons hfirst hrest =>
      cases hrest
      cases hfirst with
      | @i32 _ w hword =>
        have htwo : (w.toNat : Int) = 2 := hword
        obtain rfl : w = 2 := UInt32.toNat.inj (show w.toNat = 2 by omega)
        rfl
  rw [Option.getD_none] at hcollects
  rw [hcollects] at hcalled
  obtain ⟨rfl, htags⟩ := Prod.mk.inj (Option.some.inj hcalled)
  obtain ⟨shown, hshown, rfl, rfl⟩ := hreturned _ rfl
  obtain rfl : shown = ["0"] := by
    cases hshown with
    | cons hfirst hrest =>
      cases hrest
      cases hfirst with
      | @i32 _ n hword hmin hmax =>
        obtain rfl : n = 0 := by
          have hzero : (0 : Int) = n % 2 ^ 32 := hword
          omega
        rfl
  refine ⟨hline, read_countDownDirectory, ofText_countDownText, ?_⟩
  rw [hexecute, htags]
  rfl

/-- A function that returns the pointer to a string. -/
def pointerText : String :=
  "module \x7b
    sig0 = () -> (ptr)
    str0 = \"x\"
    func0 = func \"f\" : sig0 \x7b
      block0():
        return str0
    \x7d
  \x7d"

/-- The module of that text. -/
def pointerModule : Module :=
  let body : Body :=
    { paramCount := 0
      returns := [.ptr]
      entry := ⟨0⟩
      blocks := ⟨#[{ terminator := .ret [⟨0⟩] }]⟩
      values := ⟨#[.strRef ⟨0⟩]⟩ }
  { signatures := ⟨#[⟨[], [.ptr]⟩]⟩
    strings := ⟨#["x"]⟩
    funcs := ⟨#[.defined ⟨0⟩ "f" body]⟩ }

set_option maxRecDepth 4000 in
lemma ofText_pointerText :
    (Module.ofText pointerText : Except Fault (Except SourceError Module)) = .ok (.ok pointerModule) :=
  (ofText_ofList _).trans (by decide +kernel)

lemma ampersand_notMem_toString (n : Int) : '&' ∉ (toString n).toList := by
  have hdigits (k : Nat) : '&' ∉ (Nat.repr k).toList := by
    rw [Nat.toList_repr]
    exact fun h => absurd (isDigit_of_mem_toDigits h) (by decide)
  cases n with
  | ofNat k => exact hdigits k
  | negSucc k =>
    change '&' ∉ ("-" ++ Nat.repr (k + 1)).toList
    rw [String.toList_append, List.mem_append]
    rintro (h | h)
    · exact absurd h (by decide)
    · exact hdigits _ h

/-- A directory with that text. -/
def pointerDirectory : Directory := ({} : Directory).put "a.ir" pointerText.toUTF8

/-- A pointer that a call returns is not shown as a signed integer. -/
theorem execute_run_pointer :
    Options.ofArgs? ["run", "a.ir", "f"] = some ⟨false, .run "a.ir" "f" [] false none⟩ ∧
    pointerDirectory.read "a.ir" = .ok pointerText ∧
    (Module.ofText pointerText : Except Fault (Except SourceError Module)) = .ok (.ok pointerModule) ∧
    pointerModule.callNamed Host.tagRecorder "f" [] ⟨⟨maxFuel, 0⟩, #[]⟩ =
      (.ok (.ok (.returned [.ptr ⟨0⟩], ⟨⟨maxFuel - 1, 0⟩, #[]⟩)) : Except Fault _) ∧
    ∃ stdout, (execute ["run", "a.ir", "f"] pointerDirectory : Except Fault (Conclusion × Directory)) =
        .ok (.finished stdout none, pointerDirectory) ∧
      ∀ n : Int, stdout ≠ linesOf #[] ++ "=> " ++ commaSeparated [toString n] ++ "\n" := by
  have hline : Options.ofArgs? ["run", "a.ir", "f"] =
      some ⟨false, .run "a.ir" "f" [] false none⟩ := by decide +kernel
  have hfile : pointerDirectory.read "a.ir" = .ok pointerText := Directory.read_put rfl pointerText
  have hcollects : pointerModule.callNamed Host.tagRecorder "f" [] ⟨⟨maxFuel, 0⟩, #[]⟩ =
      (.ok (.ok (.returned [.ptr ⟨0⟩], ⟨⟨maxFuel - 1, 0⟩, #[]⟩)) : Except Fault _) := by cbv
  have hruns : (runModule pointerModule "f" [] none : Except Fault Answer) =
      .ok ⟨"=> &str0\n", .ok none⟩ := by cbv
  have hperform : ((Action.run "a.ir" "f" [] false none).perform (.ok pointerText) :
      Except Fault Answer) = .ok ⟨"=> &str0\n", .ok none⟩ := by
    rw [perform_run ofText_pointerText, if_neg Bool.false_ne_true, pure_eq_ok, ok_bind, hruns]
  refine ⟨hline, hfile, ofText_pointerText, hcollects, "=> &str0\n",
    execute_of_writesNothing hline rfl hfile hperform (.inl rfl), fun n h => ?_⟩
  have hmem : '&' ∈ (linesOf #[] ++ "=> " ++ commaSeparated [toString n] ++ "\n").toList :=
    h ▸ (by decide)
  have hlines : '&' ∉ (linesOf #[] ++ "=> ").toList := by decide
  rw [String.toList_append, String.toList_append, List.mem_append, List.mem_append] at hmem
  obtain (hmem | hmem) | hmem := hmem
  · exact hlines hmem
  · exact ampersand_notMem_toString n (by simpa [commaSeparated] using hmem)
  · exact absurd hmem (by decide)

end Command

end EntryTrace
