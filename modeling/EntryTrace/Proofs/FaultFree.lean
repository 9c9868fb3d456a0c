import EntryTrace.Proofs.Frames
import EntryTrace.Proofs.PrintedText
import EntryTrace.Proofs.WellFormed

/-!
# Runs that do not fault

In a readable module a call faults only where the host does, whatever the host answers and
whatever the arguments are. The proof goes through the steps of a run once, for every monad that
a run can be in: all it knows of the monad is what an `Assurance` says. So it covers runs without
a journal, and also runs with one, where texts are printed along the way.
-/

namespace EntryTrace

/-! ### Activities that end well -/

/-- A way to say of activities that they end well: `holds P x` says that `x` does, and that its
answer has the property `P`. Taking a note ends well if its text can be printed. -/
structure Assurance (m : Type → Type) [Monad m] [Journal m] where
  holds {α : Type} (P : α → Prop) (x : m α) : Prop
  of_pure {α : Type} {P : α → Prop} {a : α} (h : P a) : holds P (pure a)
  of_bind {α β : Type} {P : α → Prop} {Q : β → Prop} {x : m α} {f : α → m β} (hx : holds P x)
    (hf : ∀ a, P a → holds Q (f a)) : holds Q (x >>= f)
  of_note {level : Level} {text : Unit → Except Fault String} {s : String} (h : text () = .ok s) :
    holds (fun _ => True) (Journal.note level text)

namespace Recorded

variable {α β : Type}

/-- What an activity comes to after some notes: its outcome, and the notes there are then. -/
def after (x : Recorded α) (threshold : Option Level) (records : Array Record) :
    Except Fault α × Array Record :=
  (x threshold).run records

variable (threshold : Option Level) (records : Array Record)

lemma after_bind (x : Recorded α) (f : α → Recorded β) :
    (x >>= f).after threshold records =
      match x.after threshold records with
      | (.ok a, records') => (f a).after threshold records'
      | (.error fault, records') => (.error fault, records') := by
  simp only [after, bind, ReaderT.bind, ExceptT.bind, ExceptT.bindCont, ExceptT.mk, ExceptT.run,
    StateT.bind]
  rcases x threshold records with ⟨_ | a, records'⟩ <;> rfl

lemma after_note {level : Level} {text : Unit → Except Fault String} {s : String}
    (h : text () = .ok s) :
    ∃ records', (Journal.note level text : Recorded Unit).after threshold records =
      (.ok (), records') := by
  dsimp only [after, Journal.note]
  split
  · rw [h]
    exact ⟨_, rfl⟩
  · exact ⟨_, rfl⟩

end Recorded

namespace Assurance

/-- Without a journal, an activity ends well if it answers or its fault is excused. -/
def silent (excused : Fault → Prop) : Assurance (Except Fault) where
  holds P x := match x with
    | .ok a => P a
    | .error fault => excused fault
  of_pure h := h
  of_bind {_ _ _ _ x _} hx hf := by
    cases x with
    | error fault => exact hx
    | ok a => exact hf a hx
  of_note _ := trivial

/-- With a journal, the same has to hold whatever notes there are already. -/
def recorded (threshold : Option Level) (excused : Fault → Prop) : Assurance Recorded where
  holds P x := ∀ records, match (x.after threshold records).1 with
    | .ok a => P a
    | .error fault => excused fault
  of_pure h _ := h
  of_bind {_ _ _ _ x f} hx hf := by
    intro records
    have hx := hx records
    rw [Recorded.after_bind]
    rcases hafter : x.after threshold records with ⟨_ | a, records'⟩
    · rw [hafter] at hx
      exact hx
    · rw [hafter] at hx
      exact hf a hx records'
  of_note h := by
    intro records
    obtain ⟨records', hafter⟩ := Recorded.after_note threshold records h
    rw [hafter]
    trivial

variable {m : Type → Type} [Monad m] [Journal m] (A : Assurance m)

lemma of_note_bind {α : Type} {P : α → Prop} {level : Level} {text : Unit → String}
    {f : Unit → m α} (h : A.holds P (f ())) : A.holds P (note level text >>= f) :=
  A.of_bind (A.of_note rfl) fun _ _ => h

lemma of_get_bind [MonadExceptOf Fault m] {kind : Kind} {α β : Type} {t : Table kind α}
    {e : Entity kind} {a : α} {P : β → Prop} {f : α → m β} (ha : t.get? e = some a)
    (hf : A.holds P (f a)) : A.holds P (t.get e >>= f) := by
  have hget : A.holds (fun b => b = a) (t.get e : m α) := by
    rw [Table.get, ha]
    exact A.of_pure rfl
  exact A.of_bind hget fun b hb => hb ▸ hf

lemma of_noteArgs (values : List Value) (cs : List Constant) :
    A.holds (fun _ => True) (Run.noteArgs values cs : m Unit) := by
  induction values generalizing cs with
  | nil => exact A.of_pure trivial
  | cons value values ih =>
    cases cs with
    | nil => exact A.of_pure trivial
    | cons c cs => exact A.of_note_bind (ih cs)

end Assurance

/-! ### Frames -/

section Runs

variable {m : Type → Type} [Monad m] [MonadExceptOf Fault m] [Journal m] (A : Assurance m)
  {module : Module} {body : Body} {σ : Type}

namespace Frame

variable (frame : Frame)

lemma read_assured {value : Value} (hvalue : value.index < body.values.size) :
    A.holds (fun _ => True) (frame.read body value : m _) := by
  obtain ⟨d, hd⟩ := Table.get?_of_lt hvalue
  refine A.of_get_bind hd ?_
  split
  · exact A.of_pure trivial
  · split
    · exact A.of_pure trivial
    · exact A.of_note_bind (A.of_pure trivial)

lemma readAll_assured {values : List Value} (hvalues : ∀ v ∈ values, v.index < body.values.size) :
    A.holds (fun _ => True) (frame.readAll body values : m _) := by
  induction values with
  | nil => exact A.of_pure trivial
  | cons value rest ih =>
    refine A.of_bind (frame.read_assured A (hvalues value List.mem_cons_self)) fun c _ => ?_
    cases c with
    | none => exact A.of_pure trivial
    | some c =>
      refine A.of_bind (ih fun v hv => hvalues v (List.mem_cons_of_mem _ hv)) fun cs _ => ?_
      cases cs with
      | none => exact A.of_pure trivial
      | some cs => exact A.of_pure trivial

/-- A frame that goes on does so at a block of the body. -/
def StaysIn (body : Body) (r : Except Outcome Frame) : Prop :=
  ∀ frame, r = .ok frame → frame.block.index < body.blocks.size

lemma follow_assured {target : Target} (hargs : ∀ arg ∈ target.args, arg.index < body.values.size)
    (htarget : target.block.index < body.blocks.size) :
    A.holds (StaysIn body) (frame.follow body target : m _) := by
  obtain ⟨data, hdata⟩ := Table.get?_of_lt htarget
  refine A.of_bind (frame.readAll_assured A hargs) fun args _ => ?_
  cases args with
  | none => exact A.of_pure (by rintro _ ⟨⟩)
  | some args =>
    refine A.of_note_bind (A.of_get_bind hdata (A.of_pure ?_))
    rintro _ ⟨⟩
    exact htarget

lemma leave_assured {data : BlockData} (hdata : data.Closed body.values body.blocks.size) :
    A.holds (StaysIn body) (frame.leave body data.terminator : m _) := by
  have htargets := hdata.targets
  have hoperands := hdata.operands
  have hfollow (target : Target) (htarget : target ∈ data.terminator.targets) :
      A.holds (StaysIn body) (frame.follow body target : m _) :=
    frame.follow_assured A
      (fun arg harg => hoperands arg (Terminator.mem_operands htarget harg)) (htargets target htarget)
  cases hterm : data.terminator with
  | missing => exact A.of_pure (by rintro _ ⟨⟩)
  | unreachable => exact A.of_pure (by rintro _ ⟨⟩)
  | jump target =>
    rw [hterm] at hfollow
    exact hfollow target List.mem_cons_self
  | branch cond onTrue onFalse =>
    rw [hterm] at hoperands hfollow
    refine A.of_bind (frame.read_assured A (hoperands cond List.mem_cons_self)) fun c _ => ?_
    cases c with
    | none => exact A.of_pure (by rintro _ ⟨⟩)
    | some c => exact hfollow _ (by split <;> simp [Terminator.targets])
  | ret values =>
    rw [hterm] at hoperands
    refine A.of_bind (frame.readAll_assured A hoperands) fun cs _ => ?_
    cases cs with
    | none => exact A.of_pure (by rintro _ ⟨⟩)
    | some cs => exact A.of_note_bind (A.of_pure (by rintro _ ⟨⟩))

end Frame

/-! ### Runs -/

namespace Run

variable {host : Host m σ}

/-- Every frame of the module ends well if it starts at a block of its body. -/
def FramesAssured (module : Module)
    (runFrame : Body → Frame → Run σ → m (Outcome × Run σ)) : Prop :=
  ∀ decl ∈ module.funcs.toList, ∀ body ∈ decl.body?, ∀ (frame : Frame) (run : Run σ),
    frame.block.index < body.blocks.size → A.holds (fun _ => True) (runFrame body frame run)

variable {A}

lemma enter_assured (h : module.Readable)
    (hhost : ∀ name args state, A.holds (fun _ => True) (host module name args state))
    {runFrame : Body → Frame → Run σ → m (Outcome × Run σ)}
    (hframes : FramesAssured A module runFrame) {func : Func}
    (hfunc : func.index < module.funcs.size) (args : List Constant) (run : Run σ) :
    A.holds (fun _ => True) (enter host module runFrame func args run) := by
  obtain ⟨decl, hdecl⟩ := Table.get?_of_lt hfunc
  refine A.of_get_bind hdecl ?_
  have hmem := Table.mem_of_get? hdecl
  cases decl with
  | imported signature name =>
    refine A.of_bind (hhost name args run.host) ?_
    rintro ⟨answer, state⟩ -
    cases answer <;> exact A.of_pure trivial
  | defined signature name body =>
    have hentry := (h.bodies _ hmem body rfl).entry
    obtain ⟨entry, hget⟩ := Table.get?_of_lt hentry
    obtain ⟨lines, hlines, -⟩ := areLines_body h.funcLimit ((h.numberedDecl hmem).body body rfl) true
    dsimp only
    split
    · exact A.of_pure trivial
    · refine A.of_bind (A.of_note (by rw [Body.render, hlines]; rfl)) fun _ _ => ?_
      refine A.of_note_bind (A.of_get_bind hget ?_)
      refine A.of_bind (A.of_noteArgs _ args) fun _ _ => ?_
      refine A.of_bind (hframes _ hmem body rfl _ _ ?_) fun r _ => A.of_pure trivial
      rw [Frame.block_writeAll]
      exact hentry

lemma evaluate_assured (hbody : body.Closed module)
    {call : Func → List Constant → Run σ → m (Outcome × Run σ)}
    (hcall : ∀ callee args run, callee.index < module.funcs.size →
      A.holds (fun _ => True) (call callee args run))
    {inst : Value} (hinst : body.IsInst inst) (frame : Frame) (run : Run σ) :
    A.holds (fun _ => True) (evaluate call body inst frame run) := by
  obtain ⟨op, args, types, hget⟩ := hinst
  obtain ⟨haccepts, hargs⟩ := hbody.values _ (Table.mem_of_get? hget)
  refine A.of_get_bind hget ?_
  refine A.of_bind (frame.readAll_assured A hargs) fun cs _ => ?_
  cases cs with
  | none => exact A.of_pure trivial
  | some cs =>
    cases op with
    | call callee =>
      refine A.of_bind (hcall callee cs run haccepts) ?_
      rintro ⟨outcome, run'⟩ -
      cases outcome <;> exact A.of_pure trivial
    | nop => exact A.of_pure trivial
    | const32 => exact A.of_pure trivial
    | const64 => exact A.of_pure trivial
    | binary => exact A.of_pure trivial

lemma instructions_assured (hbody : body.Closed module)
    {call : Func → List Constant → Run σ → m (Outcome × Run σ)}
    (hcall : ∀ callee args run, callee.index < module.funcs.size →
      A.holds (fun _ => True) (call callee args run))
    {insts : List Value} (hinsts : ∀ inst ∈ insts, body.IsInst inst) (frame : Frame) (run : Run σ) :
    A.holds (fun _ => True) (instructions call body insts frame run) := by
  induction insts generalizing frame run with
  | nil => exact A.of_pure trivial
  | cons inst rest ih =>
    refine A.of_note_bind (A.of_bind
      (evaluate_assured hbody hcall (hinsts inst List.mem_cons_self) frame run) ?_)
    rintro ⟨result, run'⟩ -
    cases result with
    | error outcome => exact A.of_pure trivial
    | ok result =>
      exact A.of_note_bind (ih (fun v hv => hinsts v (List.mem_cons_of_mem _ hv)) _ run')

/-- However many blocks are run, frames end well. -/
lemma framesAssured_frame (h : module.Readable)
    (hhost : ∀ name args state, A.holds (fun _ => True) (host module name args state))
    (bound : Nat) : FramesAssured A module (Run.frame host module bound) := by
  induction bound with
  | zero => exact fun decl hdecl body hbody frame run hblock => A.of_pure trivial
  | succ bound ih =>
    intro decl hdecl body hbody frame run hblock
    have hclosed := h.bodies decl hdecl body hbody
    obtain ⟨data, hdata⟩ := Table.get?_of_lt hblock
    have hdataClosed := hclosed.blocks data (Table.mem_of_get? hdata)
    rw [Run.frame]
    split
    · exact A.of_pure trivial
    · refine A.of_note_bind (A.of_get_bind hdata ?_)
      refine A.of_bind (instructions_assured hclosed
        (fun callee args run hcallee => enter_assured h hhost ih hcallee args run)
        hdataClosed.insts frame _) ?_
      rintro ⟨result, run'⟩ -
      cases result with
      | error outcome => exact A.of_pure trivial
      | ok frame' =>
        refine A.of_bind (frame'.leave_assured A hdataClosed) fun next hnext => ?_
        cases next with
        | error outcome => exact A.of_pure trivial
        | ok frame'' => exact ih decl hdecl body hbody frame'' run' (hnext frame'' rfl)

end Run

variable {A}

/-- A call ends well if the host's answers do. -/
theorem Module.Readable.call_assured (h : module.Readable) {host : Host m σ}
    (hhost : ∀ name args state, A.holds (fun _ => True) (host module name args state)) {func : Func}
    (hfunc : func.index < module.funcs.size) (args : List Constant) (run : Run σ) :
    A.holds (fun _ => True) (module.call host func args run) :=
  Run.enter_assured h hhost (Run.framesAssured_frame h hhost run.budget.fuel) hfunc args run

end Runs

/-! ### Faults of calls -/

namespace Module.Readable

variable {m : Module} {σ : Type} {func : Func} {args : List Constant} {run : Run σ} {fault : Fault}

/-- Without a journal, a call that faults does so by a fault of the host. -/
theorem of_call_eq_error (h : m.Readable) {host : Host (Except Fault) σ}
    (hfunc : func.index < m.funcs.size) (hcall : m.call host func args run = .error fault) :
    ∃ name args state, host m name args state = .error fault := by
  let A := Assurance.silent fun fault => ∃ name args state, host m name args state = .error fault
  have hhost (name : String) (args : List Constant) (state : σ) :
      A.holds (fun _ => True) (host m name args state) := by
    dsimp only [A, Assurance.silent]
    split
    · trivial
    · rename_i fault hfault
      exact ⟨name, args, state, hfault⟩
  have hassured := h.call_assured hhost hfunc args run
  rw [hcall] at hassured
  exact hassured

/-- With a journal, a call that faults does so by a fault of the host, whatever is noted. -/
theorem of_call_after_eq_error (h : m.Readable) {host : Host Recorded σ}
    (hfunc : func.index < m.funcs.size) {threshold : Option Level} {records : Array Record}
    (hcall : ((m.call host func args run).after threshold records).1 = .error fault) :
    ∃ name args state records, ((host m name args state).after threshold records).1 = .error fault := by
  let A := Assurance.recorded threshold fun fault =>
    ∃ name args state records, ((host m name args state).after threshold records).1 = .error fault
  have hhost (name : String) (args : List Constant) (state : σ) :
      A.holds (fun _ => True) (host m name args state) := by
    intro records
    dsimp only
    split
    · trivial
    · rename_i fault hfault
      exact ⟨name, args, state, records, hfault⟩
  have hassured := h.call_assured hhost hfunc args run records
  dsimp only at hassured
  rw [hcall] at hassured
  exact hassured

end Module.Readable

end EntryTrace
