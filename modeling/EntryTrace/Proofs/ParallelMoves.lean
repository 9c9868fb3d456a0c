import EntryTrace.Proofs.ResolvedModules
import EntryTrace.Proofs.TypedFrames

/-!
# Branches

To take a branch is to assign in parallel. Every parameter of the target gets what its argument was
before, even if arguments are parameters of the target themselves, and whatever else the frame holds
stays. If an argument is not defined, nothing is assigned, and the run is trapped at the block that it
was to leave.
-/

namespace EntryTrace

open Source

section Branches

variable {module : Module} {type : FuncType} {body : Body} {frame frame' : Frame} {target : Target}
  {values : List Value} {cs : List Constant} {value : Value} {term : Terminator}

namespace Frame

/-- The frame has a constant for the value. -/
def Defines (body : Body) (frame : Frame) (value : Value) : Prop :=
  ∃ c, (frame.read body value : Except Fault _) = .ok (some c)

/-- The second frame is the first one after the branch to a target: there, and with every parameter of
the target read as its argument was. -/
structure Assigns (body : Body) (target : Target) (frame frame' : Frame) : Prop where
  func : frame'.func = frame.func
  block : frame'.block = target.block
  params : List.Forall₂ (fun param arg =>
      (frame'.read body param : Except Fault _) = frame.read body arg)
    (body.paramsAt target.block) target.args
  others : ∀ value, value ∉ body.paramsAt target.block →
    frame'.constants.get value = frame.constants.get value

/-- A frame at the end of a block goes on at this target, if it can. -/
inductive Takes (body : Body) (frame : Frame) : Terminator → Target → Prop
  | jump {target : Target} : Takes body frame (.jump target) target
  | branch {cond : Value} {onTrue onFalse : Target} {c : Constant} :
    (frame.read body cond : Except Fault _) = .ok (some c) →
    Takes body frame (.branch cond onTrue onFalse) (if c.isTrue then onTrue else onFalse)

lemma Takes.leave_eq (h : frame.Takes body term target) :
    (frame.leave body term : Except Fault _) = frame.follow body target := by
  cases h with
  | jump => rfl
  | branch hread => rw [leave, hread, ok_bind]

/-! ### Writing -/

lemma get_writeAll_of_notMem (h : value ∉ values) (frame : Frame) (cs : List Constant) :
    (frame.writeAll values cs).constants.get value = frame.constants.get value := by
  induction values generalizing frame cs with
  | nil => rfl
  | cons v values ih =>
    cases cs with
    | nil => rfl
    | cons c cs =>
      rw [List.mem_cons, not_or] at h
      obtain ⟨hne, hnot⟩ := h
      rw [writeAll, ih hnot, write, SideTable.get_set, if_neg hne]

/-- Of values that are distinct each gets its own constant. -/
lemma get_writeAll (hdistinct : values.Nodup) (hlength : values.length = cs.length) (frame : Frame) :
    List.Forall₂ (fun value c => (frame.writeAll values cs).constants.get value = some c) values cs := by
  induction values generalizing frame cs with
  | nil =>
    obtain rfl := List.length_eq_zero_iff.1 hlength.symm
    exact .nil
  | cons v values ih =>
    obtain ⟨c, cs, rfl⟩ := List.exists_cons_of_length_eq_add_one hlength.symm
    obtain ⟨hnot, hdistinct⟩ := List.nodup_cons.1 hdistinct
    refine .cons ?_ (ih hdistinct (Nat.succ.inj hlength) (frame.write v c))
    -- what is written later leaves the first value alone
    rw [writeAll, get_writeAll_of_notMem hnot, write, SideTable.get_set, if_pos rfl]

/-! ### Reading -/

lemma readAll_eq_some (h : ∀ value ∈ values, frame.Defines body value) :
    ∃ cs, (frame.readAll body values : Except Fault _) = .ok (some cs) ∧
      List.Forall₂ (fun c value =>
        (frame.read body value : Except Fault _) = .ok (some c)) cs values := by
  induction values with
  | nil => exact ⟨[], rfl, .nil⟩
  | cons value values ih =>
    obtain ⟨⟨c, hc⟩, hrest⟩ := List.forall_mem_cons.1 h
    obtain ⟨cs, hcs, hread⟩ := ih hrest
    exact ⟨c :: cs, by rw [readAll, hc, ok_bind, hcs]; rfl, .cons hc hread⟩

/-- One value that is not defined is enough for there to be no constants. -/
lemma readAll_eq_none (hvalues : ∀ value ∈ values, ∃ d, body.values.get? value = some d)
    (h : ∃ value ∈ values, ¬ frame.Defines body value) :
    (frame.readAll body values : Except Fault _) = .ok none := by
  induction values with
  | nil =>
    obtain ⟨_, hmem, -⟩ := h
    cases hmem
  | cons value values ih =>
    obtain ⟨⟨d, hd⟩, hrest⟩ := List.forall_mem_cons.1 hvalues
    have hread : (frame.read body value : Except Fault _) = .ok (frame.held? value d) := read_eq hd
    rw [readAll, hread, ok_bind]
    cases hheld : frame.held? value d with
    | none => rfl
    | some c =>
      have hdefined : frame.Defines body value := ⟨c, by rw [hread, hheld]⟩
      obtain ⟨other, hother, hnot⟩ := h
      obtain rfl | hother := List.mem_cons.1 hother
      · exact absurd hdefined hnot
      · dsimp only
        rw [ih hrest ⟨other, hother, hnot⟩, ok_bind]
        rfl

end Frame

/-! ### Going on at a target -/

lemma Body.WellFormed.get?_param (h : body.WellFormed module type) {block : Block} {data : BlockData}
    (hdata : body.blocks.get? block = some data) {position : Nat}
    (hvalue : data.paramValues[position]? = some value) :
    ∃ paramType, body.values.get? value = some (.param block position paramType) := by
  rw [BlockData.paramValues, List.getElem?_map, Option.map_eq_some_iff] at hvalue
  obtain ⟨⟨paramType, value⟩, hparam, rfl⟩ := hvalue
  exact ⟨paramType, (h.params _ _ _ _).2 ⟨data, hdata, hparam⟩⟩

/-- A value is a parameter in one position only, as its definition says in which. -/
lemma Body.WellFormed.nodup_paramValues (h : body.WellFormed module type) {block : Block}
    {data : BlockData} (hdata : body.blocks.get? block = some data) : data.paramValues.Nodup := by
  rw [List.nodup_iff_getElem?_ne_getElem?]
  intro i j hij hj heq
  have hsome : data.paramValues[j]? = some data.paramValues[j] := List.getElem?_eq_getElem hj
  obtain ⟨type, htype⟩ := h.get?_param hdata (heq.trans hsome)
  obtain ⟨type', htype'⟩ := h.get?_param hdata hsome
  cases htype.symm.trans htype'
  exact absurd hij (lt_irrefl _)

lemma Terminator.Typed.of_mem_targets (h : term.Typed body) (htarget : target ∈ term.targets) :
    target.Typed body := by
  cases term with
  | jump onward =>
    obtain rfl := List.mem_singleton.1 htarget
    exact h
  | branch cond onTrue onFalse =>
    obtain rfl | rfl : target = onTrue ∨ target = onFalse := by simpa [targets] using htarget
    · exact h.2.1
    · exact h.2.2
  | ret | unreachable | missing => cases htarget

namespace Frame

lemma follow_eq_ok (hbody : body.WellFormed module type) (htyped : target.Typed body)
    (h : ∀ arg ∈ target.args, frame.Defines body arg) :
    ∃ frame', (frame.follow body target : Except Fault _) = .ok (.ok frame') ∧
      Assigns body target frame frame' := by
  obtain ⟨data, hdata, hargs⟩ := htyped
  obtain ⟨cs, hcs, hread⟩ := readAll_eq_some h
  have hget : (body.blocks.get target.block : Except Fault _) = .ok data := Table.get_eq_ok.2 hdata
  have hlength : data.paramValues.length = cs.length := by
    rw [hread.length_eq, hargs.length_eq, BlockData.paramValues, BlockData.paramTypes,
      List.length_map, List.length_map]
  let written := frame.writeAll data.paramValues cs
  have hwritten : List.Forall₂ (fun c param =>
      (written.read body param : Except Fault _) = .ok (some c)) cs data.paramValues := by
    apply List.Forall₂.flip
    apply forall₂_imp_of_mem (get_writeAll (hbody.nodup_paramValues hdata) hlength frame)
    intro param hparam c _ hc
    obtain ⟨position, hposition⟩ := List.getElem?_of_mem hparam
    obtain ⟨paramType, hdef⟩ := hbody.get?_param hdata hposition
    exact (read_eq hdef).trans (congrArg Except.ok hc)
  refine ⟨{ written with block := target.block }, ?_, ?_⟩
  · rw [follow, hcs, ok_bind]
    simp [hget, written]
  · refine ⟨frame.func_writeAll _ _, rfl, ?_, ?_⟩
    · rw [Body.paramsAt_eq hdata]
      refine (forall₂_common hwritten hread).imp fun param arg hboth => ?_
      obtain ⟨c, hparam, harg⟩ := hboth
      exact hparam.trans harg.symm
    · rw [Body.paramsAt_eq hdata]
      exact fun value hnot => get_writeAll_of_notMem hnot frame cs

lemma follow_eq_trap (htyped : target.Typed body)
    (h : ∃ arg ∈ target.args, ¬ frame.Defines body arg) :
    (frame.follow body target : Except Fault _) = .ok (.error frame.trap) := by
  obtain ⟨data, -, hargs⟩ := htyped
  rw [follow, readAll_eq_none (fun _ hvalue => hargs.exists_get? hvalue) h]
  rfl

lemma assigns_of_follow (hbody : body.WellFormed module type) (htyped : target.Typed body)
    (h : (frame.follow body target : Except Fault _) = .ok (.ok frame')) :
    Assigns body target frame frame' := by
  by_cases hdefined : ∀ arg ∈ target.args, frame.Defines body arg
  · obtain ⟨frame₁, hfollow, hassigns⟩ := follow_eq_ok hbody htyped hdefined
    cases h.symm.trans hfollow
    exact hassigns
  · rw [follow_eq_trap htyped (by simpa using hdefined)] at h
    cases h

/-! ### Loops -/

/-- A frame goes round a loop so many times. Each time the branch back is taken, and what is run in between
leaves the parameters alone. -/
inductive Rounds (body : Body) (target : Target) : Nat → Frame → Frame → Prop
  | none (frame : Frame) : Rounds body target 0 frame frame
  | more {n : Nat} {frame arrived left frame' : Frame} : Rounds body target n frame arrived →
    (∀ param ∈ body.paramsAt target.block,
      (left.read body param : Except Fault _) = arrived.read body param) →
    (left.follow body target : Except Fault _) = .ok (.ok frame') → Rounds body target (n + 1) frame frame'

/-- A loop that hands its parameters around does so once more in every round, in whatever arrangement:
none of them is lost, though each is overwritten. -/
theorem read_of_rounds {σ : Value → Value} {n : Nat} (hbody : body.WellFormed module type)
    (htyped : target.Typed body) (hargs : target.args = (body.paramsAt target.block).map σ)
    (hσ : ∀ param ∈ body.paramsAt target.block, σ param ∈ body.paramsAt target.block)
    (h : Rounds body target n frame frame') : ∀ param ∈ body.paramsAt target.block,
      (frame'.read body param : Except Fault _) = frame.read body (σ^[n] param) := by
  induction h with
  | none => exact fun _ _ => rfl
  | more _ hkept hfollow ih =>
    intro param hparam
    have hparams := (assigns_of_follow hbody htyped hfollow).params
    rw [hargs, List.forall₂_map_right_iff, List.forall₂_same] at hparams
    rw [hparams param hparam, hkept _ (hσ param hparam), ih _ (hσ param hparam),
      Function.iterate_succ_apply]

end Frame

end Branches

/-! ### Runs that branch -/

namespace Run

variable {σ : Type} {host : Host (Except Fault) σ} {module : Module} {bound : Nat} {body : Body}
  {start frame : Frame} {run run' : Run σ} {target : Target}

/-- The frame `start` runs the instructions of its block, is `frame` after them, and takes the branch to
a target. -/
structure Branches (host : Host (Except Fault) σ) (module : Module) (bound : Nat) (body : Body)
    (start : Frame) (run : Run σ) (frame : Frame) (run' : Run σ) (target : Target) : Prop where
  fuel : run.budget.fuel ≠ 0
  takes : ∃ data, body.blocks.get? start.block = some data ∧
    instructions (enter host module (Run.frame host module bound)) body data.insts start run.burn =
      .ok (.ok frame, run') ∧
    frame.Takes body data.terminator target

lemma of_instructions_eq_ok {call : Func → List Constant → Run σ → Except Fault (Outcome × Run σ)}
    {insts : List Value} {frame frame' : Frame} {run run' : Run σ}
    (h : instructions call body insts frame run = .ok (.ok frame', run')) :
    frame'.func = frame.func ∧ frame'.block = frame.block := by
  induction insts generalizing frame run with
  | nil =>
    cases h
    exact ⟨rfl, rfl⟩
  | cons inst insts ih =>
    simp only [instructions, note_silent, ok_bind, bind_eq_ok] at h
    obtain ⟨⟨result, run₁⟩, -, h⟩ := h
    cases result with
    | error outcome => cases h
    | ok result =>
      obtain ⟨hfunc, hblock⟩ := ih h
      exact ⟨hfunc.trans (frame.func_keep inst result), hblock.trans (frame.block_keep inst result)⟩

lemma Branches.trap_eq (h : Branches host module bound body start run frame run' target) :
    frame.trap = .trapped start.func start.block := by
  obtain ⟨data, -, hinsts, -⟩ := h.takes
  obtain ⟨hfunc, hblock⟩ := of_instructions_eq_ok hinsts
  rw [Frame.trap, hfunc, hblock]

/-- How a run goes on when a frame has left its block, or has not. -/
def goOn (host : Host (Except Fault) σ) (module : Module) (bound : Nat) (body : Body) (run : Run σ) :
    Except Outcome Frame → Except Fault (Outcome × Run σ)
  | .error outcome => .ok (outcome, run)
  | .ok frame => Run.frame host module bound body frame run

/-- What becomes of the branch becomes of the run. -/
lemma Branches.frame_eq (h : Branches host module bound body start run frame run' target)
    {result : Except Outcome Frame}
    (hfollow : (frame.follow body target : Except Fault _) = .ok result) :
    Run.frame host module (bound + 1) body start run = goOn host module bound body run' result := by
  obtain ⟨data, hdata, hinsts, htakes⟩ := h.takes
  have hget : (body.blocks.get start.block : Except Fault _) = .ok data := Table.get_eq_ok.2 hdata
  rw [burn] at hinsts
  rw [Run.frame, if_neg h.fuel]
  simp only [note_silent, ok_bind, hget, hinsts, htakes.leave_eq, hfollow]
  cases result <;> rfl

end Run

/-- A branch in a module that was read from text is a parallel assignment, whatever the frame holds. If
all arguments are defined, the run goes on at the target with every parameter there read as its argument
was and all other constants as before. If not, there is no other frame, and the run is trapped at the
block with the branch. -/
theorem follow_assigns {text : String} {m : Module} {func : Func} {signature : Signature} {name : String}
    {body : Body} {block : Block} {data : BlockData} {target : Target}
    (hread : (Module.ofText text : Except Fault (Except SourceError Module)) = .ok (.ok m))
    (hfunc : m.funcs.get? func = some (.defined signature name body))
    (hblock : body.blocks.get? block = some data) (htarget : target ∈ data.terminator.targets)
    (frame : Frame) :
    ((∀ arg ∈ target.args, frame.Defines body arg) →
      ∃ frame', (frame.follow body target : Except Fault _) = .ok (.ok frame') ∧
        Frame.Assigns body target frame frame' ∧
        ∀ (σ : Type) (host : Host (Except Fault) σ) bound start run run',
          Run.Branches host m bound body start run frame run' target →
          Run.frame host m (bound + 1) body start run = Run.frame host m bound body frame' run') ∧
    ((∃ arg ∈ target.args, ¬ frame.Defines body arg) →
      (frame.follow body target : Except Fault _) = .ok (.error (.trapped frame.func frame.block)) ∧
        ∀ (σ : Type) (host : Host (Except Fault) σ) bound start run run',
          Run.Branches host m bound body start run frame run' target →
          Run.frame host m (bound + 1) body start run = .ok (.trapped start.func start.block, run')) := by
  obtain ⟨located, tree, -, hparse, hresolve⟩ := ofText_eq_ok.1 hread
  have hwell := wellFormed_of_resolve (sound_of_parse hparse) hresolve
  obtain ⟨type, -, hbody⟩ := hwell.bodies _ (Table.mem_of_get? hfunc) body rfl
  have htyped : target.Typed body :=
    (hbody.terminators data (Table.mem_of_get? hblock)).of_mem_targets htarget
  refine ⟨fun hdefined => ?_, fun hnot => ?_⟩
  · obtain ⟨frame', hfollow, hassigns⟩ := Frame.follow_eq_ok hbody htyped hdefined
    refine ⟨frame', hfollow, hassigns, fun σ host bound start run run' hrun => ?_⟩
    exact hrun.frame_eq hfollow
  · have hfollow := Frame.follow_eq_trap htyped hnot
    refine ⟨hfollow, fun σ host bound start run run' hrun => ?_⟩
    rw [hrun.frame_eq hfollow, Run.goOn, hrun.trap_eq]

/-- A loop whose parameters change places. -/
def swapText : String :=
  "module \x7b
    sig0 = (i32, i32) -> (i32)
    func0 = func \"swap\" : sig0 \x7b
      block0(v0: i32, v1: i32):
        if v0, block0(v1, v0), block1()
      block1():
        return v1
    \x7d
  \x7d"

/-- The branch back to the start of the loop. -/
def swapTarget : Target := ⟨⟨0⟩, [⟨1⟩, ⟨0⟩]⟩

def swapBlock : BlockData where
  params := [(.i32, ⟨0⟩), (.i32, ⟨1⟩)]
  terminator := .branch ⟨0⟩ swapTarget ⟨⟨1⟩, []⟩
  succs := [⟨0⟩, ⟨1⟩]
  preds := [⟨0⟩]

def swapBody : Body where
  paramCount := 2
  returns := [.i32]
  entry := ⟨0⟩
  blocks := ⟨#[swapBlock, { terminator := .ret [⟨1⟩], preds := [⟨0⟩] }]⟩
  values := ⟨#[.param ⟨0⟩ 0 .i32, .param ⟨0⟩ 1 .i32]⟩
  home := ⟨#[⟨0⟩, ⟨0⟩]⟩

def swapModule : Module where
  signatures := ⟨#[⟨[.i32, .i32], [.i32]⟩]⟩
  funcs := ⟨#[.defined ⟨0⟩ "swap" swapBody]⟩

set_option maxRecDepth 4000 in
lemma ofText_swapText :
    (Module.ofText swapText : Except Fault (Except SourceError Module)) = .ok (.ok swapModule) :=
  (ofText_ofList _).trans (by decide +kernel)

/-- The two parameters change places, and where one is missing the run is trapped. -/
theorem follow_assigns_swap :
    let both : Frame := ⟨⟨0⟩, ⟨0⟩, ⟨#[some (.i32 7), some (.i32 9)]⟩⟩
    let one : Frame := ⟨⟨0⟩, ⟨0⟩, ⟨#[some (.i32 7), none]⟩⟩
    (Module.ofText swapText : Except Fault (Except SourceError Module)) = .ok (.ok swapModule) ∧
    swapModule.funcs.get? ⟨0⟩ = some (.defined ⟨0⟩ "swap" swapBody) ∧
    swapBody.blocks.get? ⟨0⟩ = some swapBlock ∧ swapTarget ∈ swapBlock.terminator.targets ∧
    (∃ frame', (both.follow swapBody swapTarget : Except Fault _) = .ok (.ok frame') ∧
      (frame'.read swapBody ⟨0⟩ : Except Fault _) = .ok (some (.i32 9)) ∧
      (frame'.read swapBody ⟨1⟩ : Except Fault _) = .ok (some (.i32 7))) ∧
    Run.frame Host.tagRecorder swapModule 4 swapBody one ⟨⟨4, 0⟩, #[]⟩ =
      (.ok (.trapped ⟨0⟩ ⟨0⟩, ⟨⟨3, 0⟩, #[]⟩) : Except Fault _) := by
  intro both one
  have hfunc : swapModule.funcs.get? ⟨0⟩ = some (.defined ⟨0⟩ "swap" swapBody) := rfl
  have hblock : swapBody.blocks.get? ⟨0⟩ = some swapBlock := rfl
  have htarget : swapTarget ∈ swapBlock.terminator.targets := List.mem_cons_self
  obtain ⟨hgoes, -⟩ := follow_assigns ofText_swapText hfunc hblock htarget both
  obtain ⟨-, hstays⟩ := follow_assigns ofText_swapText hfunc hblock htarget one
  have hdefined : ∀ arg ∈ swapTarget.args, both.Defines swapBody arg := by
    simp only [swapTarget, List.forall_mem_cons]
    exact ⟨⟨.i32 9, rfl⟩, ⟨.i32 7, rfl⟩, nofun⟩
  have hmissing : ¬ one.Defines swapBody ⟨1⟩ := by
    rintro ⟨c, hc⟩
    cases hc
  have hrun : Run.Branches Host.tagRecorder swapModule 3 swapBody one ⟨⟨4, 0⟩, #[]⟩ one
      ⟨⟨3, 0⟩, #[]⟩ swapTarget := ⟨by decide, swapBlock, rfl, rfl, .branch (c := .i32 7) rfl⟩
  obtain ⟨frame', hfollow, hassigns, -⟩ := hgoes hdefined
  obtain ⟨hfirst, hrest⟩ := List.forall₂_cons.1 hassigns.params
  obtain ⟨hsecond, -⟩ := List.forall₂_cons.1 hrest
  exact ⟨ofText_swapText, hfunc, hblock, htarget, ⟨frame', hfollow, hfirst, hsecond⟩,
    (hstays ⟨⟨1⟩, List.mem_cons_self, hmissing⟩).2 _ _ _ _ _ _ hrun⟩

end EntryTrace
