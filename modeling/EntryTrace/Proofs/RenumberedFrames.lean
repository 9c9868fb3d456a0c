import EntryTrace.Proofs.Closed
import EntryTrace.Proofs.Frames
import EntryTrace.Proofs.Renumbering

/-!
# Frames of a body whose values have other numbers elsewhere

A body may be found in another one under other numbers for its values, among values and instructions
that the other one has besides. Frames of both that hold the same constants read the same, branch and
return alike, and keep their pointers in range.
-/

namespace EntryTrace

/-! ### Constants in range -/

/-- A pointer leads to a string of the module. -/
def Constant.InRange (m : Module) : Constant → Prop
  | .ptr str => str.index < m.strings.size
  | .i32 _ | .i64 _ => True

/-- All pointers among returned values lead to strings of the module. -/
def Outcome.InRange (m : Module) : Outcome → Prop
  | .returned values => ∀ c ∈ values, c.InRange m
  | .trapped .. | .outOfFuel | .refused .. => True

lemma Operator.eval?_inRange {m : Module} {op : Operator} {args : List Constant} {c : Constant}
    (h : op.eval? args = some c) : c.InRange m := by
  unfold Operator.eval? at h
  split at h
  · cases h
    trivial
  · cases h
    trivial
  · obtain ⟨_, -, rfl⟩ := Option.map_eq_some_iff.1 h
    trivial
  · obtain ⟨_, -, rfl⟩ := Option.map_eq_some_iff.1 h
    trivial
  · cases h

/-! ### Steps that agree -/

section Agreeing

variable {α β γ δ : Type} {R : α → β → Prop} {S : γ → δ → Prop}

/-- Both steps succeed, and their answers are related. -/
def Agree (R : α → β → Prop) (x : Except Fault α) (y : Except Fault β) : Prop :=
  ∃ a b, x = .ok a ∧ y = .ok b ∧ R a b

lemma agree_pure {a : α} {b : β} (h : R a b) : Agree R (pure a) (pure b) := ⟨a, b, rfl, rfl, h⟩

lemma agree_bind {x : Except Fault α} {y : Except Fault β} {f : α → Except Fault γ}
    {g : β → Except Fault δ} (h : Agree R x y) (hf : ∀ a b, R a b → Agree S (f a) (g b)) :
    Agree S (x >>= f) (y >>= g) := by
  obtain ⟨a, b, rfl, rfl, hab⟩ := h
  exact hf a b hab

lemma Agree.imp {S : α → β → Prop} {x : Except Fault α} {y : Except Fault β} (h : Agree R x y)
    (himp : ∀ a b, R a b → S a b) : Agree S x y := by
  obtain ⟨a, b, hx, hy, hab⟩ := h
  exact ⟨a, b, hx, hy, himp a b hab⟩

end Agreeing

/-! ### Bodies inside bodies -/

lemma Target.renumber_id (target : Target) : target.renumber id = target := by
  simp [Target.renumber]

lemma Terminator.renumber_id (term : Terminator) : term.renumber id = term := by
  cases term <;> simp [Terminator.renumber, Target.renumber_id]

lemma Def.renumber_id (d : Def) : d.renumber id = d := by
  cases d <;> simp [Def.renumber]

/-- The second body has the values of the first one under the numbers that `σ` gives to them, and its
blocks with their parameters and terminators. Instructions of blocks may differ. -/
structure Body.EmbeddedBy (σ : Value → Value) (body body' : Body) : Prop where
  distinct : ∀ v v', v.index < body.values.size → v'.index < body.values.size → σ v = σ v' → v = v'
  values : ∀ v d, body.values.get? v = some d → body'.values.get? (σ v) = some (d.renumber σ)
  blocks : ∀ block data, body.blocks.get? block = some data →
    ∃ data', body'.blocks.get? block = some data' ∧ data'.paramValues = data.paramValues.map σ

lemma BlockData.paramValues_renumber (σ : Value → Value) (b : BlockData) :
    (b.renumber σ).paramValues = b.paramValues.map σ := by
  simp [BlockData.renumber, BlockData.paramValues]

lemma Body.RenumberedBy.get?_blocks {σ : Value → Value} {body body' : Body}
    (h : body.RenumberedBy σ body') {block : Block} {data : BlockData}
    (hdata : body.blocks.get? block = some data) :
    body'.blocks.get? block = some (data.renumber σ) := by
  rw [h.blocks, Table.get?_map, hdata, Option.map_some]

/-- The numbers of the parameters of a block are those of no other value. -/
lemma Body.EmbeddedBy.params {σ : Value → Value} {body body' : Body} (h : body.EmbeddedBy σ body')
    {data : BlockData} (hdata : data.Closed body.values body.blocks.size) :
    ∀ value ∈ data.paramValues, ∀ v : Value, v.index < body.values.size → σ v = σ value → v = value := by
  intro value hvalue v hv heq
  obtain ⟨p, hp, rfl⟩ := List.mem_map.1 hvalue
  exact h.distinct v p.2 hv (hdata.params p hp) heq

lemma Body.RenumberedBy.embedded {σ : Value → Value} {body body' : Body}
    (h : body.RenumberedBy σ body') : body.EmbeddedBy σ body' where
  distinct := h.distinct
  values := h.values
  blocks _ data hdata := ⟨_, h.get?_blocks hdata, data.paramValues_renumber σ⟩

/-! ### Frames -/

/-- The frames are of one function and at one block, and hold the same for the values of its body,
which the second one has under other numbers; no pointer is out of range. -/
structure Frame.Renumbered (m : Module) (func : Func) (σ : Value → Value) (body : Body)
    (frame frame' : Frame) : Prop where
  left : frame.func = func
  right : frame'.func = func
  block : frame'.block = frame.block
  inBody : frame.block.index < body.blocks.size
  constants : ∀ value : Value, value.index < body.values.size →
    frame'.constants.get (σ value) = frame.constants.get value
  inRange : ∀ value c, frame.constants.get value = some c → c.InRange m

namespace Frame.Renumbered

variable {m : Module} {func : Func} {σ : Value → Value} {body body' : Body} {frame frame' : Frame}

lemma fresh (hbody : body.Closed m) :
    Frame.Renumbered m func σ body { func, block := body.entry } { func, block := body.entry } where
  left := rfl
  right := rfl
  block := rfl
  inBody := hbody.entry
  constants _ _ := rfl
  inRange v c h := by simp [SideTable.get] at h

/-- What is written for a value is found under its other number, which no other value has. -/
lemma write (h : Frame.Renumbered m func σ body frame frame') {value : Value}
    (hvalue : ∀ v : Value, v.index < body.values.size → σ v = σ value → v = value) {c : Constant}
    (hc : c.InRange m) :
    Frame.Renumbered m func σ body (frame.write value c) (frame'.write (σ value) c) where
  left := h.left
  right := h.right
  block := h.block
  inBody := h.inBody
  constants v hv := by
    rw [Frame.write, Frame.write, SideTable.get_set, SideTable.get_set, h.constants v hv]
    by_cases heq : v = value
    · rw [if_pos heq, if_pos (congrArg σ heq)]
    · rw [if_neg heq, if_neg fun hσ => heq (hvalue v hv hσ)]
  inRange v c' hc' := by
    rw [Frame.write, SideTable.get_set] at hc'
    split at hc'
    · rw [← Option.some.inj hc']
      exact hc
    · exact h.inRange v c' hc'

lemma keep (h : Frame.Renumbered m func σ body frame frame') {inst : Value}
    (hinst : ∀ v : Value, v.index < body.values.size → σ v = σ inst → v = inst)
    {result : Option Constant} (hresult : ∀ c ∈ result, c.InRange m) :
    Frame.Renumbered m func σ body (frame.keep inst result) (frame'.keep (σ inst) result) := by
  cases result with
  | none => exact h
  | some c => exact h.write hinst (hresult c rfl)

lemma writeAll (h : Frame.Renumbered m func σ body frame frame') {values : List Value}
    (hvalues : ∀ value ∈ values, ∀ v : Value, v.index < body.values.size → σ v = σ value → v = value)
    {constants : List Constant} (hconstants : ∀ c ∈ constants, c.InRange m) :
    Frame.Renumbered m func σ body (frame.writeAll values constants)
      (frame'.writeAll (values.map σ) constants) := by
  induction values generalizing frame frame' constants with
  | nil => exact h
  | cons value values ih =>
    cases constants with
    | nil => exact h
    | cons c constants =>
      exact ih (h.write (hvalues value List.mem_cons_self) (hconstants c List.mem_cons_self))
        (fun value hvalue => hvalues value (List.mem_cons_of_mem _ hvalue))
        fun c' hc' => hconstants c' (List.mem_cons_of_mem _ hc')

/-! ### Steps of frames -/

lemma read (h : Frame.Renumbered m func σ body frame frame') (hbody : body.Closed m)
    (hembedded : body.EmbeddedBy σ body') {value : Value} (hvalue : value.index < body.values.size) :
    Agree (fun c c' => c' = c ∧ ∀ k ∈ c, Constant.InRange m k) (frame.read body value)
      (frame'.read body' (σ value)) := by
  obtain ⟨d, hd⟩ := Table.get?_of_lt hvalue
  have hheld : frame'.held? (σ value) (d.renumber σ) = frame.held? value d := by
    cases d with
    | strRef => rfl
    | param | inst | undefined => exact h.constants value hvalue
  refine ⟨_, _, Frame.read_eq hd, Frame.read_eq (hembedded.values value d hd), hheld, ?_⟩
  cases d with
  | strRef str =>
    rintro _ ⟨⟩
    exact hbody.values _ (Table.mem_of_get? hd)
  | param | inst | undefined => exact h.inRange value

lemma readAll (h : Frame.Renumbered m func σ body frame frame') (hbody : body.Closed m)
    (hembedded : body.EmbeddedBy σ body') {values : List Value}
    (hvalues : ∀ v ∈ values, v.index < body.values.size) :
    Agree (fun cs cs' => cs' = cs ∧ ∀ ks ∈ cs, ∀ k ∈ ks, Constant.InRange m k)
      (frame.readAll body values) (frame'.readAll body' (values.map σ)) := by
  induction values with
  | nil => exact agree_pure ⟨rfl, by simp⟩
  | cons value rest ih =>
    rw [List.map_cons, Frame.readAll, Frame.readAll]
    refine agree_bind (h.read hbody hembedded (hvalues value List.mem_cons_self)) ?_
    rintro _ c ⟨rfl, hc⟩
    cases c with
    | none => exact agree_pure ⟨rfl, by simp⟩
    | some c =>
      refine agree_bind (ih fun v hv => hvalues v (List.mem_cons_of_mem _ hv)) ?_
      rintro _ cs ⟨rfl, hcs⟩
      cases cs with
      | none => exact agree_pure ⟨rfl, by simp⟩
      | some cs =>
        refine agree_pure ⟨rfl, ?_⟩
        rintro _ ⟨⟩ k hk
        rcases List.mem_cons.1 hk with rfl | hk
        · exact hc _ rfl
        · exact hcs cs rfl k hk

/-- How two frames go on: they end alike, or hold the same at some block. -/
inductive Onward (m : Module) (func : Func) (σ : Value → Value) (body : Body) :
    Except Outcome Frame → Except Outcome Frame → Prop
  | ended {outcome : Outcome} : outcome.InRange m →
    Onward m func σ body (.error outcome) (.error outcome)
  | onward {frame frame' : Frame} : Frame.Renumbered m func σ body frame frame' →
    Onward m func σ body (.ok frame) (.ok frame')

lemma trap_eq (h : Frame.Renumbered m func σ body frame frame') : frame'.trap = frame.trap := by
  rw [Frame.trap, Frame.trap, h.left, h.right, h.block]

lemma trap (h : Frame.Renumbered m func σ body frame frame') :
    Onward m func σ body (.error frame.trap) (.error frame'.trap) := by
  rw [h.trap_eq]
  exact .ended trivial

lemma follow (h : Frame.Renumbered m func σ body frame frame') (hbody : body.Closed m)
    (hembedded : body.EmbeddedBy σ body') {target : Target}
    (htarget : target.block.index < body.blocks.size)
    (hargs : ∀ arg ∈ target.args, arg.index < body.values.size) :
    Agree (Onward m func σ body) (frame.follow body target) (frame'.follow body' (target.renumber σ)) := by
  unfold Frame.follow
  refine agree_bind (h.readAll hbody hembedded hargs) ?_
  rintro _ cs ⟨rfl, hcs⟩
  cases cs with
  | none => exact agree_pure h.trap
  | some cs =>
    obtain ⟨data, hdata⟩ := Table.get?_of_lt htarget
    obtain ⟨data', hdata', hparams⟩ := hembedded.blocks _ _ hdata
    have hget : (body.blocks.get target.block : Except Fault BlockData) = .ok data :=
      Table.get_eq_ok.2 hdata
    have hget' : (body'.blocks.get (target.renumber σ).block : Except Fault BlockData) = .ok data' :=
      Table.get_eq_ok.2 hdata'
    simp only [note_silent, ok_bind, hget, hget', hparams]
    have hwritten := h.writeAll (hembedded.params (hbody.blocks data (Table.mem_of_get? hdata)))
      (hcs cs rfl)
    exact agree_pure (.onward { hwritten with block := rfl, inBody := htarget })

lemma leave (h : Frame.Renumbered m func σ body frame frame') (hbody : body.Closed m)
    (hembedded : body.EmbeddedBy σ body') {data : BlockData}
    (hdata : data.Closed body.values body.blocks.size) :
    Agree (Onward m func σ body) (frame.leave body data.terminator)
      (frame'.leave body' (data.terminator.renumber σ)) := by
  have htargets := hdata.targets
  have hoperands := hdata.operands
  have hargs (target : Target) (htarget : target ∈ data.terminator.targets) (arg : Value)
      (harg : arg ∈ target.args) : arg.index < body.values.size :=
    hoperands arg (Terminator.mem_operands htarget harg)
  cases hterm : data.terminator with
  | missing | unreachable => exact agree_pure h.trap
  | jump target =>
    rw [hterm] at htargets hargs
    exact h.follow hbody hembedded (htargets target List.mem_cons_self)
      (hargs target List.mem_cons_self)
  | branch cond onTrue onFalse =>
    rw [hterm] at htargets hoperands hargs
    refine agree_bind (h.read hbody hembedded (hoperands cond List.mem_cons_self)) ?_
    rintro _ c ⟨rfl, -⟩
    cases c with
    | none => exact agree_pure h.trap
    | some c =>
      have hmem : (if c.isTrue then onTrue else onFalse) ∈
          (Terminator.branch cond onTrue onFalse).targets := by
        split <;> simp [Terminator.targets]
      have hfollow := h.follow hbody hembedded (htargets _ hmem) (hargs _ hmem)
      rwa [apply_ite (Target.renumber σ)] at hfollow
  | ret values =>
    rw [hterm] at hoperands
    refine agree_bind (h.readAll hbody hembedded hoperands) ?_
    rintro _ cs ⟨rfl, hcs⟩
    cases cs with
    | none => exact agree_pure h.trap
    | some cs => exact agree_pure (.ended (hcs cs rfl))

end Frame.Renumbered

end EntryTrace
