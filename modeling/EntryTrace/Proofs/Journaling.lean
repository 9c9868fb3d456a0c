import EntryTrace.Proofs.Mirroring
import EntryTrace.Proofs.Optimizing
import EntryTrace.Proofs.PrintableBodies

/-!
# What a journal changes

Tagging, pipelines and calls print whole modules and bodies into the journal, if it goes down to
traces. Printing faults where a body lacks an entry block or lists something that is no instruction,
and then so does the operation, although it may have no use for what is missing. Apart from that a
journal changes nothing: on modules that can be printed, and above traces on all modules, each of these
operations ends with a journal as it ends without one.
-/

namespace EntryTrace

namespace Recorded

variable {α β : Type} {threshold : Option Level} {spoilt : Prop}

/-- With a journal down to a level it ends as without one, or it faults where `spoilt` allows that. -/
def Follows (threshold : Option Level) (spoilt : Prop) (x : Recorded α) (y : Except Fault α) : Prop :=
  ∀ records, (x.after threshold records).1 = y ∨
    spoilt ∧ ∃ fault, (x.after threshold records).1 = .error fault

/-- With a journal down to a level it ends as without one. -/
def Unnoticed (threshold : Option Level) (x : Recorded α) (y : Except Fault α) : Prop :=
  ∀ records, (x.after threshold records).1 = y

lemma follows_false {x : Recorded α} {y : Except Fault α} :
    Follows threshold False x y ↔ Unnoticed threshold x y := by
  simp only [Follows, Unnoticed, false_and, or_false]

lemma Follows.unnoticed {x : Recorded α} {y : Except Fault α} (h : Follows threshold spoilt x y)
    (hspoilt : ¬ spoilt) : Unnoticed threshold x y :=
  fun records => (h records).resolve_right fun hnot => hspoilt hnot.1

lemma Mirrors.follows {x : Recorded α} {y : Except Fault α} (h : Mirrors x y) :
    Follows threshold spoilt x y := fun records => .inl (h threshold records)

lemma follows_pure (a : α) : Follows threshold spoilt (pure a) (pure a) := (mirrors_pure a).follows

lemma Follows.bind {x : Recorded α} {y : Except Fault α} {f : α → Recorded β}
    {g : α → Except Fault β} (hx : Follows threshold spoilt x y)
    (hf : ∀ a, y = .ok a → Follows threshold spoilt (f a) (g a)) :
    Follows threshold spoilt (x >>= f) (y >>= g) := by
  intro records
  have hend := hx records
  rw [after_bind]
  rcases hafter : x.after threshold records with ⟨fault | a, records'⟩
  · rw [hafter] at hend
    rcases hend with hsame | ⟨hspoilt, -⟩
    · exact .inl (by rw [← hsame]; rfl)
    · exact .inr ⟨hspoilt, fault, rfl⟩
  · rw [hafter] at hend
    rcases hend with hsame | ⟨-, fault, hfault⟩
    · rw [← hsame]
      exact hf a hsame.symm records'
    · cases hfault

/-- A note of a text that cannot be printed is a fault. -/
lemma after_note_error {level : Level} {text : Unit → Except Fault String} {fault : Fault}
    (hadmits : admits threshold level = true) (h : text () = .error fault) (records : Array Record) :
    ((notePrinted level text : Recorded Unit).after threshold records).1 = .error fault := by
  dsimp only [after, notePrinted, Journal.note]
  rw [if_pos hadmits, h]
  rfl

lemma admits_trace : admits threshold .trace = true ↔ threshold = some .trace := by
  cases threshold with
  | none => simp [admits]
  | some level => cases level <;> simp [admits, Level.rank]

/-- A text that is printed for a trace spoils the work only where it is kept and cannot be printed. -/
lemma follows_notePrinted {text : Unit → Except Fault String}
    (h : threshold = some .trace → (∃ s, text () = .ok s) ∨ spoilt) :
    Follows threshold spoilt (notePrinted .trace text) (notePrinted .trace text) := by
  intro records
  cases htext : text () with
  | ok s => exact .inl (mirrors_notePrinted htext threshold records)
  | error fault =>
    by_cases hadmits : admits threshold .trace = true
    · rcases h (admits_trace.1 hadmits) with ⟨s, hs⟩ | hspoilt
      · rw [htext] at hs
        cases hs
      · exact .inr ⟨hspoilt, fault, after_note_error hadmits htext records⟩
    · left
      dsimp only [after, notePrinted, Journal.note]
      rw [if_neg hadmits]
      rfl

/-- It faults with a journal down to a level. -/
def Faults (threshold : Option Level) (x : Recorded α) : Prop :=
  ∀ records, ∃ fault, (x.after threshold records).1 = .error fault

lemma Faults.bind {x : Recorded α} (h : Faults threshold x) (f : α → Recorded β) :
    Faults threshold (x >>= f) := by
  intro records
  obtain ⟨fault, hfault⟩ := h records
  rw [after_bind]
  rcases hafter : x.after threshold records with ⟨_ | _, records'⟩
  · exact ⟨_, rfl⟩
  · rw [hafter] at hfault
    cases hfault

lemma Mirrors.bind_faults {x : Recorded α} {a : α} (h : Mirrors x (.ok a)) {f : α → Recorded β}
    (hf : Faults threshold (f a)) : Faults threshold (x >>= f) := by
  intro records
  have hread := h threshold records
  rw [after_bind]
  rcases hafter : x.after threshold records with ⟨_ | b, records'⟩
  · rw [hafter] at hread
    cases hread
  · rw [hafter] at hread
    obtain rfl := Except.ok.inj hread
    exact hf records'

lemma faults_notePrinted {text : Unit → Except Fault String} (htrace : threshold = some .trace)
    (h : ¬ ∃ s, text () = .ok s) : Faults threshold (notePrinted .trace text) := by
  intro records
  cases htext : text () with
  | ok s => exact absurd ⟨s, htext⟩ h
  | error fault => exact ⟨fault, after_note_error (admits_trace.2 htrace) htext records⟩

/-! ### Tagging -/

section Tagging

variable (m : Module)

lemma mirrors_internSignature (type : FuncType) :
    Mirrors (m.internSignature type) (m.internSignature type) := by
  unfold Module.internSignature
  split
  · exact mirrors_pure _
  · exact (mirrors_addSignature _ _).bind fun _ _ => (mirrors_note _ _).bind fun _ _ =>
      mirrors_pure _

lemma mirrors_declare (name : String) (type : FuncType) :
    Mirrors (m.declare name type) (m.declare name type) := by
  unfold Module.declare
  split
  · refine (mirrors_funcType _ _).bind fun existing _ => ?_
    dsimp only
    split
    · exact (mirrors_note _ _).bind fun _ _ => mirrors_pure _
    · exact mirrors_pure _
  · exact (mirrors_internSignature _ _).bind fun _ _ => (mirrors_addFunc _ _).bind fun _ _ =>
      (mirrors_note _ _).bind fun _ _ => mirrors_pure _

lemma mirrors_tag (body : Body) (callee : Func) (returns : List ValueType) (str : Str) :
    Mirrors (body.tag callee returns str) (body.tag callee returns str) :=
  (mirrors_addValue _ _).bind fun _ _ => (mirrors_addValue _ _).bind fun _ _ =>
    Mirrors.bind ((mirrors_update _ _ _).bind fun _ _ => mirrors_pure _) fun _ _ => mirrors_pure _

lemma mirrors_tagDecls (callee : Func) (returns : List ValueType) (strings : Table .str String)
    (decls : List Decl) :
    Mirrors (tagDecls callee returns strings decls) (tagDecls callee returns strings decls) := by
  induction decls generalizing strings with
  | nil => exact mirrors_pure _
  | cons decl rest ih =>
    cases decl with
    | imported => exact (ih _).bind fun _ _ => mirrors_pure _
    | defined =>
      refine mirrors_ite ?_ ((ih _).bind fun _ _ => mirrors_pure _)
      exact (mirrors_push _ _).bind fun _ _ => (mirrors_tag _ _ _ _).bind fun _ _ =>
        (mirrors_note _ _).bind fun _ _ => (ih _).bind fun _ _ => mirrors_pure _

/-- Tagging without the note of what came of it. -/
def tagQuietly (m : Module) : Recorded Module := do
  let (callee, m) ← m.declare tagCallee tagCalleeType
  let type ← m.funcType callee
  let (decls, strings) ← tagDecls callee type.returns m.strings m.funcs.toList
  pure { m with strings, funcs := Table.ofList decls }

lemma mirrors_tagQuietly : Mirrors (tagQuietly m) (tagHelpers m) :=
  (mirrors_declare _ _ _).bind fun _ _ => (mirrors_funcType _ _).bind fun _ _ =>
    (mirrors_tagDecls _ _ _ _).bind fun _ _ => mirrors_pure _

lemma tagHelpers_eq : (tagHelpers m : Recorded Module) = (do
    let m' ← tagQuietly m
    notePrinted .trace fun _ => do
      pure ("tag_helpers: result:\n" ++ (← m'.render false))
    pure m') := by
  simp only [tagHelpers, tagQuietly, bind_assoc, pure_bind]

/-- A note for which a module is printed between two texts. -/
lemma exists_page_iff {before : String} :
    (∃ s, (do pure (before ++ (← m.render false)) : Except Fault String) = .ok s) ↔
      m.Printable := by
  rw [← Module.exists_render_iff false]
  simp only [bind_eq_ok, pure_eq_ok, Except.ok.injEq]
  exact ⟨fun ⟨_, page, hpage, _⟩ => ⟨page, hpage⟩, fun ⟨page, hpage⟩ => ⟨_, page, hpage, rfl⟩⟩

/-- The notes go down to traces, and what tagging makes of the module cannot be printed. -/
def SpoilsTagging (threshold : Option Level) (m : Module) : Prop :=
  threshold = some .trace ∧ ∃ m', (tagHelpers m : Except Fault _) = .ok m' ∧ ¬ m'.Printable

variable {m}

lemma follows_tagHelpers (h : ¬ SpoilsTagging threshold m) :
    Follows threshold False (tagHelpers m) (tagHelpers m) := by
  rw [tagHelpers_eq, ← bind_pure (tagHelpers m : Except Fault Module)]
  refine (mirrors_tagQuietly m).follows.bind fun m' htag => ?_
  have hprinted : threshold = some .trace → m'.Printable := fun htrace =>
    of_not_not fun hnot => h ⟨htrace, m', htag, hnot⟩
  exact (follows_notePrinted fun htrace => .inl ((exists_page_iff m').2 (hprinted htrace))).bind
    fun _ _ => follows_pure m'

lemma faults_tagHelpers (h : SpoilsTagging threshold m) :
    Faults threshold (tagHelpers m : Recorded Module) := by
  obtain ⟨htrace, m', htag, hnot⟩ := h
  rw [tagHelpers_eq]
  have hquiet : Mirrors (tagQuietly m) (.ok m') := htag ▸ mirrors_tagQuietly m
  exact hquiet.bind_faults
    ((faults_notePrinted htrace fun hpage => hnot ((exists_page_iff m').1 hpage)).bind _)

end Tagging

/-! ### Pipelines -/

section Pipelines

variable {m : Module}

lemma follows_runPass {passes : List (Pass Recorded)} {passes' : List (Pass (Except Fault))}
    (modified : Bool) (h : ¬ SpoilsTagging threshold m)
    (hrest : ∀ m', (tagHelpers m : Except Fault _) = .ok m' → ∀ modified, Follows threshold False
      (Pipeline.runPasses modified m' passes) (Pipeline.runPasses modified m' passes')) :
    Follows threshold False (Pipeline.runPasses modified m (tagPass :: passes))
      (Pipeline.runPasses modified m (tagPass :: passes')) := by
  refine (mirrors_note _ _).follows.bind fun _ _ => ?_
  have hpass : Follows threshold False ((tagPass : Pass Recorded).run m)
      ((tagPass : Pass (Except Fault)).run m) :=
    (follows_tagHelpers h).bind fun m' _ => follows_pure (true, m')
  refine hpass.bind ?_
  rintro ⟨changed, m'⟩ hrun
  obtain ⟨tagged, htag, hpair⟩ := bind_eq_ok.1 hrun
  obtain ⟨rfl, rfl⟩ := Prod.mk.inj (Except.ok.inj hpair)
  refine (follows_notePrinted fun htrace => .inl ((exists_page_iff _).2 ?_)).bind fun _ _ =>
    hrest _ htag _
  exact of_not_not fun hnot => h ⟨htrace, _, htag, hnot⟩

lemma follows_runPasses_of_printable (h : threshold = some .trace → m.Printable) (k : Nat)
    (modified : Bool) :
    Follows threshold False (Pipeline.runPasses modified m (List.replicate k tagPass))
      (Pipeline.runPasses modified m (List.replicate k tagPass)) := by
  induction k generalizing m modified with
  | zero => exact follows_pure _
  | succ k ih =>
    refine follows_runPass modified ?_ fun m' htag modified =>
      ih (fun htrace => (h htrace).tagHelpers htag) modified
    rintro ⟨htrace, m', htag, hnot⟩
    exact hnot ((h htrace).tagHelpers htag)

lemma follows_runPasses (h : ¬ SpoilsTagging threshold m) (k : Nat) :
    Follows threshold False (Pipeline.run ⟨List.replicate k tagPass⟩ m)
      (Pipeline.run ⟨List.replicate k tagPass⟩ m) := by
  cases k with
  | zero => exact follows_pure _
  | succ k =>
    exact follows_runPass false h fun m' htag modified => follows_runPasses_of_printable
      (fun htrace => of_not_not fun hnot => h ⟨htrace, m', htag, hnot⟩) k modified

lemma faults_runPasses (h : SpoilsTagging threshold m) (k : Nat) :
    Faults threshold (Pipeline.run ⟨List.replicate (k + 1) tagPass⟩ m : Recorded _) :=
  (mirrors_note _ _).bind_faults (((faults_tagHelpers h).bind _).bind _)

end Pipelines

end Recorded

end EntryTrace
