import EntryTrace.Command.Execute
import EntryTrace.Proofs.Lists
import EntryTrace.Proofs.Registrations
import EntryTrace.Proofs.TaggingEffect

/-!
# Running passes from the command line

The registry that commands start from knows one pass, which tags helpers, and wants it once in the
standard pipeline. So whatever passes are named, optimizing a module tags it once for each name, and
once more for the standard pipeline; a pass is never left out because an earlier one reported a change.
-/

namespace EntryTrace

/-! ### Runs of one pass -/

lemma Pass.runTimes_add (pass : Pass (Except Fault)) (k l : Nat) (m : Module) :
    pass.runTimes (k + l) m = pass.runTimes k m >>= fun r =>
      (fun r' => (r.1 ++ r'.1, r'.2)) <$> pass.runTimes l r.2 := by
  induction k generalizing m with
  | zero =>
    rw [Nat.zero_add]
    cases hruns : pass.runTimes l m <;> simp [Pass.runTimes, hruns]
  | succ k ih =>
    rw [Nat.add_right_comm, Pass.runTimes, Pass.runTimes]
    cases pass.run m with
    | error fault => rfl
    | ok r =>
      simp only [ok_bind, ih]
      cases pass.runTimes k r.2 with
      | error fault => rfl
      | ok r' =>
        simp only [ok_bind, pure_eq_ok]
        cases pass.runTimes l r'.2 <;> rfl

/-- A pipeline of one pass runs it as often as it holds it, whatever the runs report. -/
lemma Pipeline.runPasses_replicate (pass : Pass (Except Fault)) (k : Nat) (modified : Bool)
    (m : Module) : Pipeline.runPasses modified m (List.replicate k pass) =
      (fun r => (modified || r.1.any id, r.2)) <$> pass.runTimes k m := by
  induction k generalizing modified m with
  | zero => simp [Pipeline.runPasses, Pass.runTimes]
  | succ k ih =>
    rw [List.replicate_succ, Pipeline.runPasses, Pass.runTimes]
    simp only [note_silent, notePrinted_silent, ok_bind]
    cases pass.run m with
    | error fault => rfl
    | ok r =>
      simp only [ok_bind, ih]
      cases pass.runTimes k r.2 with
      | error fault => rfl
      | ok r' => simp [Bool.or_assoc]

namespace Command

/-! ### The registry of all commands -/

/-- The registry that all commands start from: it knows tagging. -/
def tagRegistry : Registry (Except Fault) where
  passes := [tagPassInfo]
  extensions := [(.early, "TagHelpersPass")]
  plugins := ["helpertag"]

lemma toolRegistry_eq : (toolRegistry : Except Fault _) = .ok (.ok tagRegistry) := rfl

lemma standardPipeline_tagRegistry : tagRegistry.standardPipeline = .ok ⟨[tagPass]⟩ := rfl

lemma mem_names_tagRegistry {name : String} : name ∈ tagRegistry.names ↔ name = "TagHelpersPass" :=
  List.mem_singleton

lemma eq_tagPass_of_provides {name : String} {pass : Pass (Except Fault)}
    (h : tagRegistry.Provides name pass) : pass = tagPass := by
  obtain ⟨info, hinfo, -, rfl⟩ := h
  rw [List.mem_singleton.1 hinfo]
  rfl

lemma pipeline_tagRegistry {passes : List String} (h : ∀ name ∈ passes, name = "TagHelpersPass") :
    tagRegistry.pipeline passes = .ok (.ok ⟨List.replicate passes.length tagPass⟩) := by
  obtain ⟨⟨found⟩, hpipeline, hprovides⟩ :=
    Registry.exists_pipeline fun name hname => mem_names_tagRegistry.2 (h name hname)
  have hfound : found = List.replicate passes.length tagPass := by
    rw [hprovides.length_eq]
    exact List.eq_replicate_length.2 fun pass hpass =>
      let ⟨_, _, hname⟩ := exists_left_of_forall₂ hprovides hpass
      eq_tagPass_of_provides hname
  rw [hpipeline, hfound]

/-! ### Optimizing modules -/

section Modules

variable {passes : List String} {standard : Bool}

/-- How often optimizing runs the pass that it knows. -/
def passRuns (passes : List String) (standard : Bool) : Nat := passes.length + standard.toNat

/-- All passes are known, and there is at least one to run. -/
def KnownPasses (passes : List String) (standard : Bool) : Prop :=
  (∀ name ∈ passes, name = "TagHelpersPass") ∧ (passes ≠ [] ∨ standard = true)

lemma optimizeModule_known (h : KnownPasses passes standard) (m : Module) :
    (optimizeModule m passes standard : Except Fault (Except Failure Module)) =
      (fun r => .ok r.2) <$> tagPass.runTimes (passRuns passes standard) m := by
  have hsome : (!standard && passes.isEmpty) = false := by
    rcases h.2 with hpasses | rfl
    · simp [hpasses]
    · rfl
  simp only [optimizeModule, toolRegistry_eq, ok_bind, pipeline_tagRegistry h.1, hsome,
    Bool.false_eq_true, if_false, Pipeline.run, Pipeline.runPasses_replicate, note_silent, passRuns,
    Pass.runTimes_add]
  cases tagPass.runTimes passes.length m with
  | error fault => cases standard <;> rfl
  | ok r =>
    cases standard with
    | false => rfl
    | true =>
      have hlast : Pipeline.runPasses false r.2 [tagPass] = _ :=
        Pipeline.runPasses_replicate tagPass 1 false r.2
      simp only [if_true, standardPipeline_tagRegistry, Except.map_ok, ok_bind, hlast, Bool.toNat_true]
      cases tagPass.runTimes 1 r.2 <;> rfl

end Modules

end Command

end EntryTrace
