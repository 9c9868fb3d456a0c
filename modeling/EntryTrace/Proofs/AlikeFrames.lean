import EntryTrace.Proofs.RenumberedFrames
import EntryTrace.Proofs.TaggedModules
import EntryTrace.Proofs.Tracing

/-!
# Frames of a body and of its tagged form

Two frames are alike if they agree on the values of the original body. Reading, branching and
returning then do the same in both, and pointers stay in range of the strings of the original
module.
-/

namespace EntryTrace

/-! ### Frames -/

/-- The frames are of one function and at one block, and agree on the values of its body, where
they hold no pointer out of range. -/
structure Frame.Alike (m : Module) (func : Func) (body : Body) (frame frame' : Frame) : Prop where
  left : frame.func = func
  right : frame'.func = func
  block : frame'.block = frame.block
  inBody : frame.block.index < body.blocks.size
  constants : ∀ value : Value, value.index < body.values.size →
    frame'.constants.get value = frame.constants.get value
  inRange : ∀ value c, frame.constants.get value = some c → c.InRange m

namespace Frame.Alike

variable {m m' : Module} {func : Func} {name : String} {body body' : Body} {frame frame' : Frame}

/-- Alike frames hold the same under the same numbers. -/
lemma iff_renumbered : Frame.Alike m func body frame frame' ↔
    Frame.Renumbered m func id body frame frame' :=
  ⟨fun ⟨left, right, block, inBody, constants, inRange⟩ =>
      ⟨left, right, block, inBody, constants, inRange⟩,
    fun ⟨left, right, block, inBody, constants, inRange⟩ =>
      ⟨left, right, block, inBody, constants, inRange⟩⟩

lemma keep (h : Frame.Alike m func body frame frame') (inst : Value) {result : Option Constant}
    (hresult : ∀ c ∈ result, c.InRange m) :
    Frame.Alike m func body (frame.keep inst result) (frame'.keep inst result) :=
  iff_renumbered.2 ((iff_renumbered.1 h).keep (fun _ _ heq => heq) hresult)

lemma writeAll (h : Frame.Alike m func body frame frame') (values : List Value) {constants : List Constant}
    (hconstants : ∀ c ∈ constants, c.InRange m) :
    Frame.Alike m func body (frame.writeAll values constants) (frame'.writeAll values constants) := by
  have hdistinct : ∀ value ∈ values, ∀ v : Value, v.index < body.values.size → id v = id value →
      v = value := fun _ _ _ _ heq => heq
  have hwritten := (iff_renumbered.1 h).writeAll hdistinct hconstants
  rw [List.map_id] at hwritten
  exact iff_renumbered.2 hwritten

/-- Values that the original body does not have do not matter. -/
lemma keep_new (h : Frame.Alike m func body frame frame') {inst : Value}
    (hinst : body.values.size ≤ inst.index) (result : Option Constant) :
    Frame.Alike m func body frame (frame'.keep inst result) := by
  cases result with
  | none => exact h
  | some c =>
    refine { h with constants := fun v hv => ?_ }
    have hne : v ≠ inst := by
      rintro rfl
      omega
    rw [Frame.keep, Frame.write, SideTable.get_set, if_neg hne, h.constants v hv]

lemma fresh (hbody : body.Closed m) :
    Frame.Alike m func body { func, block := body.entry } { func, block := body.entry } :=
  iff_renumbered.2 (.fresh hbody)

end Frame.Alike

/-- A body is found in its tagged form under the same numbers. -/
lemma Module.Counterpart.embedded {m m' : Module} {func : Func} {name : String} {body body' : Body}
    (h : m.Counterpart m' func name body body') : body.EmbeddedBy id body' where
  distinct _ _ _ _ := id
  values v d hd := by rw [Def.renumber_id, id, h.values (Table.get?_lt hd), hd]
  blocks block data hdata := ⟨_, h.blocks hdata, (List.map_id _).symm⟩

namespace Frame.Alike

variable {m m' : Module} {func : Func} {name : String} {body body' : Body} {frame frame' : Frame}

lemma readAll (h : Frame.Alike m func body frame frame') (hbody : body.Closed m)
    (hcounterpart : m.Counterpart m' func name body body') {values : List Value}
    (hvalues : ∀ v ∈ values, v.index < body.values.size) :
    Agree (fun cs cs' => cs' = cs ∧ ∀ ks ∈ cs, ∀ k ∈ ks, Constant.InRange m k)
      (frame.readAll body values) (frame'.readAll body' values) := by
  have hread := (iff_renumbered.1 h).readAll hbody hcounterpart.embedded hvalues
  rwa [List.map_id] at hread

/-- How two frames go on: they end alike, or are alike at some block. -/
inductive Onward (m : Module) (func : Func) (body : Body) :
    Except Outcome Frame → Except Outcome Frame → Prop
  | ended {outcome : Outcome} : outcome.InRange m → Onward m func body (.error outcome) (.error outcome)
  | onward {frame frame' : Frame} : Frame.Alike m func body frame frame' →
    Onward m func body (.ok frame) (.ok frame')

lemma leave (h : Frame.Alike m func body frame frame') (hbody : body.Closed m)
    (hcounterpart : m.Counterpart m' func name body body') {data : BlockData}
    (hdata : data.Closed body.values body.blocks.size) :
    Agree (Onward m func body) (frame.leave body data.terminator) (frame'.leave body' data.terminator) := by
  have hleave := (iff_renumbered.1 h).leave hbody hcounterpart.embedded hdata
  rw [Terminator.renumber_id] at hleave
  refine hleave.imp fun _ _ honward => ?_
  cases honward with
  | ended hrange => exact .ended hrange
  | onward hframe => exact .onward (iff_renumbered.2 hframe)

end Frame.Alike

/-! ### The calls that tagging adds -/

/-- Was a call made by an instruction that tagging adds to the module? -/
def Event.isInserted (m : Module) : Event → Bool
  | .asked (some (func, inst)) _ _ => m.announcement? func == some inst
  | .asked none .. | .started .. => false

lemma Event.isInserted_asked {m : Module} {func : Func} {inst : Value}
    (hinst : inst ∈ m.announcement? func) (call : Host.Call)
    (answer : Except String (List Constant)) :
    Event.isInserted m (.asked (some (func, inst)) call answer) = true := by
  simp [Event.isInserted, Option.mem_def.1 hinst]

lemma Module.Counterpart.isInserted_asked {m m' : Module} {func : Func} {name : String}
    {body body' : Body} (h : m.Counterpart m' func name body body') {inst : Value}
    (hinst : inst.index < body.values.size) (call : Host.Call)
    (answer : Except String (List Constant)) :
    Event.isInserted m (.asked (some (func, inst)) call answer) = false := by
  rw [Event.isInserted, beq_eq_false_iff_ne]
  intro hannouncement
  have := (h.announcement inst hannouncement).1
  omega

/-- The inserted instruction of a helper hands the tag of the helper to the host. -/
lemma Module.Counterpart.evaluate_announcement {σ : Type} {host : Host (Except Fault) σ}
    {m m' : Module} {func : Func} {name : String} {body body' : Body}
    (h : m.Counterpart m' func name body body') (htagged : m.TaggedTo m') {inst : Value}
    (hinst : inst ∈ m.announcement? func) :
    ∃ tag, m.strings.size ≤ tag.index ∧ m'.strings.get? tag = some (tagFor name) ∧
      ∀ {run : Run (List Event × σ)} {values state'},
        host m' tagCallee [.ptr tag] run.host.2 = .ok (.ok values, state') →
        ∀ caller runFrame frame,
          Run.evaluate (Run.enter (host.logging caller) m' runFrame) body' inst frame run =
            .ok (.ok values.head?, ⟨run.budget,
              run.host.1 ++ [.asked caller ⟨tagCallee, [.ptr tag]⟩ (.ok values)], state'⟩) := by
  obtain ⟨-, pointer, tag, returns, hcall, hpointer, hnew, hstring⟩ := h.announcement inst hinst
  refine ⟨tag, hnew, hstring, fun {run values state'} hanswer caller runFrame frame => ?_⟩
  obtain ⟨signature, hcallee⟩ := htagged.callee
  have hget : (body'.values.get inst : Except Fault Def) =
      .ok (.inst (.call (m.funcOf tagCallee)) [pointer] returns) := Table.get_eq_ok.2 hcall
  have hfunc : (m'.funcs.get (m.funcOf tagCallee) : Except Fault Decl) =
      .ok (.imported signature tagCallee) := Table.get_eq_ok.2 hcallee
  have hargs : (frame.readAll body' [pointer] : Except Fault _) = .ok (some [.ptr tag]) := by
    simp [Frame.readAll, Frame.read_eq hpointer, Frame.held?]
  have hlog := Host.logging_eq_ok hanswer caller run.host.1
  simp only [Run.evaluate, hget, hargs, ok_bind, Run.enter, hfunc, hlog, pure_eq_ok]

end EntryTrace
