import EntryTrace.Pass.Registry
import EntryTrace.Proofs.Tables

/-!
# What registries come to hold

A registry is asked for one thing after the other, by whoever owns it and, while a plugin is loaded,
by the plugin itself. Any of them may look at the registry, knows how each request ended, and may go
on after one that failed: a `Registration` is all that they may do. What a registry holds afterwards
is what was done there, in order. So names stay distinct, every extension names a pass that is known,
and no pass that a plugin asked for is missing from the standard pipeline.
-/

namespace EntryTrace

/-- What is asked of a registry, step by step. -/
inductive Registration (m : Type → Type)
  /-- Stops. A plugin that stops with an error has not been loaded. -/
  | finish (result : Except RegistryError Unit)
  /-- Looks at the registry and goes on from what is there. -/
  | look (next : Registry m → Registration m)
  | register (info : PassInfo m) (next : Except RegistryError Unit → Registration m)
  | extend (point : ExtensionPoint) (name : String)
    (next : Except RegistryError Unit → Registration m)
  /-- Loads a plugin, which does `plugin` to register itself. -/
  | load (name version : String) (plugin : Registration m)
    (next : Except RegistryError Unit → Registration m)

namespace Registration

variable {m : Type → Type}

mutual

def ofRequest (next : Except RegistryError Unit → Registration m) : Request m → Registration m
  | .register info => .register info next
  | .extend point name => .extend point name next
  | .load name version requests => .load name version (ofRequests requests) next

/-- One request after the other, up to the first that fails. -/
def ofRequests : List (Request m) → Registration m
  | [] => .finish (.ok ())
  | request :: rest => ofRequest
      (fun
        | .ok () => ofRequests rest
        | .error e => .finish (.error e)) request

end

end Registration

section Running

variable {m : Type → Type} [Monad m] [Journal m]

/-- Loads a plugin, once; `register` is how it registers itself. -/
def Registry.loadWith (registry : Registry m) (name version : String)
    (register : Registry m → m (Except RegistryError Unit × Registry m)) :
    m (Except RegistryError Unit × Registry m) := do
  if registry.plugins.contains name then
    pure (.error (.pluginLoaded name), registry)
  else
    let (result, registry) ← register registry
    match result with
    | .error e => pure (.error e, registry)
    | .ok () =>
      note .info fun _ => "loaded plugin " ++ name ++ " version " ++ version
      pure (.ok (), { registry with plugins := registry.plugins ++ [name] })

namespace Registration

/-- Asks a registry for everything, and answers how that ended and what the registry is then. -/
def run : Registration m → Registry m → m (Except RegistryError Unit × Registry m)
  | finish result, registry => pure (result, registry)
  | look next, registry => (next registry).run registry
  | register info next, registry => do
    let (answer, registry) ← registry.register info
    (next answer).run registry
  | extend point name next, registry => do
    let (answer, registry) ← registry.extend point name
    (next answer).run registry
  | load name version plugin next, registry => do
    let (answer, registry) ← registry.loadWith name version plugin.run
    (next answer).run registry

mutual

theorem run_ofRequest (next : Except RegistryError Unit → Registration m)
    (request : Request m) (registry : Registry m) :
    (ofRequest next request).run registry = (do
      let (answer, registry) ← registry.perform request
      (next answer).run registry) := by
  cases request with
  | register info => rfl
  | extend point name => rfl
  | load name version requests =>
    have hrequests : (ofRequests requests).run = (Registry.performAll · requests) :=
      funext (run_ofRequests requests)
    rw [ofRequest, run, hrequests, Registry.perform]
    rfl

/-- What the requests of a plugin do, one after the other, is a registration. -/
theorem run_ofRequests (requests : List (Request m)) (registry : Registry m) :
    (ofRequests requests).run registry = registry.performAll requests := by
  cases requests with
  | nil => rfl
  | cons request rest =>
    rw [ofRequests, run_ofRequest, Registry.performAll]
    refine congrArg _ (funext fun (answer, registry) => ?_)
    cases answer with
    | error e => rfl
    | ok => exact run_ofRequests rest registry

end

end Registration

end Running

/-! ### Known passes -/

namespace Registry

section Names

variable {m : Type → Type} {registry : Registry m} {name : String} {info : PassInfo m}

/-- The names of the passes, in the order in which these were registered. -/
def names (registry : Registry m) : List String := registry.passes.map PassInfo.name

/-- The name stands for the pass. -/
def Provides (registry : Registry m) (name : String) (pass : Pass m) : Prop :=
  ∃ info ∈ registry.passes, info.name = name ∧ info.pass = pass

lemma lookup?_eq_none : registry.lookup? name = none ↔ name ∉ registry.names := by
  simp [lookup?, names, List.find?_eq_none]

lemma exists_lookup? (h : name ∈ registry.names) : ∃ info, registry.lookup? name = some info :=
  Option.ne_none_iff_exists'.1 fun hnone => lookup?_eq_none.1 hnone h

lemma provides_of_lookup? (h : registry.lookup? name = some info) :
    registry.Provides name info.pass :=
  ⟨info, List.mem_of_find?_eq_some h, by simpa using List.find?_some h, rfl⟩

/-- No two passes share a name, and what is to be extended by is known. -/
structure Consistent (registry : Registry m) : Prop where
  distinct : registry.names.Nodup
  known : ∀ extension ∈ registry.extensions, extension.2 ∈ registry.names

namespace Consistent

lemma empty : ({} : Registry m).Consistent := ⟨List.nodup_nil, nofun⟩

lemma register (h : registry.Consistent) (hnew : info.name ∉ registry.names) :
    { registry with passes := registry.passes ++ [info] }.Consistent where
  distinct := by
    rw [names, List.map_append]
    exact List.nodup_append'.2 ⟨h.distinct, List.nodup_singleton _, List.disjoint_singleton.2 hnew⟩
  known extension hextension := by
    rw [names, List.map_append]
    exact List.mem_append_left _ (h.known extension hextension)

lemma extend (h : registry.Consistent) (hknown : name ∈ registry.names) (point : ExtensionPoint) :
    { registry with extensions := registry.extensions ++ [(point, name)] }.Consistent where
  distinct := h.distinct
  known extension hextension := by
    rcases List.mem_append.1 hextension with hold | hnew
    · exact h.known extension hold
    · rw [List.mem_singleton.1 hnew]
      exact hknown

end Consistent

end Names

variable {registry registry' : Registry (Except Fault)} {answer : Except RegistryError Unit}

lemma register_eq_ok {info : PassInfo (Except Fault)} :
    registry.register info = .ok (answer, registry') ↔
      info.name ∈ registry.names ∧ answer = .error (.passRegistered info.name) ∧
          registry' = registry ∨
        info.name ∉ registry.names ∧ answer = .ok () ∧
          registry' = { registry with passes := registry.passes ++ [info] } := by
  by_cases hknown : info.name ∈ registry.names
  · obtain ⟨found, hfound⟩ := exists_lookup? hknown
    simp [register, hfound, hknown, eq_comm]
  · simp [register, lookup?_eq_none.2 hknown, hknown, eq_comm]

lemma extend_eq_ok {point : ExtensionPoint} {name : String} :
    registry.extend point name = .ok (answer, registry') ↔
      name ∉ registry.names ∧ answer = .error (.extensionUnknown point name) ∧
          registry' = registry ∨
        name ∈ registry.names ∧ answer = .ok () ∧
          registry' = { registry with extensions := registry.extensions ++ [(point, name)] } := by
  by_cases hknown : name ∈ registry.names
  · obtain ⟨found, hfound⟩ := exists_lookup? hknown
    simp [extend, hfound, hknown, eq_comm]
  · simp [extend, lookup?_eq_none.2 hknown, hknown, eq_comm]

lemma exists_register (registry : Registry (Except Fault)) (info : PassInfo (Except Fault)) :
    ∃ answer registry', registry.register info = .ok (answer, registry') := by
  by_cases hknown : info.name ∈ registry.names
  · exact ⟨_, _, register_eq_ok.2 (.inl ⟨hknown, rfl, rfl⟩)⟩
  · exact ⟨_, _, register_eq_ok.2 (.inr ⟨hknown, rfl, rfl⟩)⟩

lemma exists_extend (registry : Registry (Except Fault)) (point : ExtensionPoint) (name : String) :
    ∃ answer registry', registry.extend point name = .ok (answer, registry') := by
  by_cases hknown : name ∈ registry.names
  · exact ⟨_, _, extend_eq_ok.2 (.inr ⟨hknown, rfl, rfl⟩)⟩
  · exact ⟨_, _, extend_eq_ok.2 (.inl ⟨hknown, rfl, rfl⟩)⟩

end Registry

/-! ### What is granted -/

/-- What a request was for that the registry met. -/
inductive Grant (m : Type → Type)
  | pass (info : PassInfo m)
  | extension (point : ExtensionPoint) (name : String)
  | plugin (name : String)

namespace Grant

variable {m : Type → Type}

def pass? : Grant m → Option (PassInfo m)
  | pass info => some info
  | _ => none

def extension? : Grant m → Option (ExtensionPoint × String)
  | extension point name => some (point, name)
  | _ => none

def plugin? : Grant m → Option String
  | plugin name => some name
  | _ => none

/-- What was asked for, if the answer is that it was granted. -/
def ifMet (grant : Grant m) : Except RegistryError Unit → List (Grant m)
  | .ok () => [grant]
  | .error _ => []

end Grant

/-- What a run obtains from a registry, in order. What plugins obtain is part of it, also if they fail
in the end. -/
inductive Registration.Obtains : Registration (Except Fault) → Registry (Except Fault) →
    List (Grant (Except Fault)) → Except RegistryError Unit → Registry (Except Fault) → Prop
  | finish {result registry} : Obtains (.finish result) registry [] result registry
  | look {next registry grants result registry'}
    (rest : Obtains (next registry) registry grants result registry') :
    Obtains (.look next) registry grants result registry'
  | register {info next registry answer mid grants result registry'}
    (h : registry.register info = .ok (answer, mid))
    (rest : Obtains (next answer) mid grants result registry') :
    Obtains (.register info next) registry ((Grant.pass info).ifMet answer ++ grants) result registry'
  | extend {point name next registry answer mid grants result registry'}
    (h : registry.extend point name = .ok (answer, mid))
    (rest : Obtains (next answer) mid grants result registry') :
    Obtains (.extend point name next) registry
      ((Grant.extension point name).ifMet answer ++ grants) result registry'
  | loadRefused {name version plugin next registry grants result registry'}
    (h : name ∈ registry.plugins)
    (rest : Obtains (next (.error (.pluginLoaded name))) registry grants result registry') :
    Obtains (.load name version plugin next) registry grants result registry'
  | loadFailed {name version plugin next registry e mid within grants result registry'}
    (h : name ∉ registry.plugins) (inside : Obtains plugin registry within (.error e) mid)
    (rest : Obtains (next (.error e)) mid grants result registry') :
    Obtains (.load name version plugin next) registry (within ++ grants) result registry'
  | loaded {name version plugin next registry mid within grants result registry'}
    (h : name ∉ registry.plugins) (inside : Obtains plugin registry within (.ok ()) mid)
    (rest : Obtains (next (.ok ())) { mid with plugins := mid.plugins ++ [name] } grants result
      registry') :
    Obtains (.load name version plugin next) registry (within ++ .plugin name :: grants) result
      registry'

namespace Registry

variable {registry : Registry (Except Fault)}

/-- The registry once more was granted. -/
def after (registry : Registry (Except Fault)) (grants : List (Grant (Except Fault))) :
    Registry (Except Fault) where
  passes := registry.passes ++ grants.filterMap Grant.pass?
  extensions := registry.extensions ++ grants.filterMap Grant.extension?
  plugins := registry.plugins ++ grants.filterMap Grant.plugin?

@[simp] lemma after_nil : registry.after [] = registry := by
  simp [after]

lemma after_append (grants grants' : List (Grant (Except Fault))) :
    registry.after (grants ++ grants') = (registry.after grants).after grants' := by
  simp [after, List.append_assoc]

lemma after_pass (info : PassInfo (Except Fault)) :
    registry.after [.pass info] = { registry with passes := registry.passes ++ [info] } := by
  simp [after, Grant.pass?, Grant.extension?, Grant.plugin?]

lemma after_extension (point : ExtensionPoint) (name : String) :
    registry.after [.extension point name] =
      { registry with extensions := registry.extensions ++ [(point, name)] } := by
  simp [after, Grant.pass?, Grant.extension?, Grant.plugin?]

lemma after_plugin (name : String) :
    registry.after [.plugin name] = { registry with plugins := registry.plugins ++ [name] } := by
  simp [after, Grant.pass?, Grant.extension?, Grant.plugin?]

end Registry

namespace Registration

variable {program : Registration (Except Fault)} {registry registry' : Registry (Except Fault)}
  {grants : List (Grant (Except Fault))} {result : Except RegistryError Unit}

/-- A registry holds what was granted, and nothing is ever taken away. -/
theorem Obtains.eq_after (h : program.Obtains registry grants result registry') :
    registry' = registry.after grants := by
  induction h with
  | finish => rw [Registry.after_nil]
  | look _ ih => exact ih
  | register h _ ih =>
    obtain ⟨-, rfl, rfl⟩ | ⟨-, rfl, rfl⟩ := Registry.register_eq_ok.1 h
    · exact ih
    · rw [ih, Registry.after_append, Grant.ifMet, Registry.after_pass]
  | extend h _ ih =>
    obtain ⟨-, rfl, rfl⟩ | ⟨-, rfl, rfl⟩ := Registry.extend_eq_ok.1 h
    · exact ih
    · rw [ih, Registry.after_append, Grant.ifMet, Registry.after_extension]
  | loadRefused _ _ ih => exact ih
  | loadFailed _ _ _ ihinside ih => rw [ih, ihinside, Registry.after_append]
  | loaded _ _ _ ihinside ih =>
    rw [ih, ihinside, ← Registry.after_plugin, ← Registry.after_append, ← Registry.after_append,
      List.singleton_append]

theorem Obtains.consistent (h : program.Obtains registry grants result registry')
    (hconsistent : registry.Consistent) : registry'.Consistent := by
  induction h with
  | finish => exact hconsistent
  | look _ ih => exact ih hconsistent
  | register h _ ih =>
    obtain ⟨-, -, rfl⟩ | ⟨hnew, -, rfl⟩ := Registry.register_eq_ok.1 h
    · exact ih hconsistent
    · exact ih (hconsistent.register hnew)
  | extend h _ ih =>
    obtain ⟨-, -, rfl⟩ | ⟨hknown, -, rfl⟩ := Registry.extend_eq_ok.1 h
    · exact ih hconsistent
    · exact ih (hconsistent.extend hknown _)
  | loadRefused _ _ ih => exact ih hconsistent
  | loadFailed _ _ _ ihinside ih => exact ih (ihinside hconsistent)
  | loaded _ _ _ ihinside ih => exact ih ⟨(ihinside hconsistent).distinct, (ihinside hconsistent).known⟩

/-- Every run comes to an end, and does something. -/
theorem exists_obtains (program : Registration (Except Fault)) (registry : Registry (Except Fault)) :
    ∃ grants result registry', program.run registry = .ok (result, registry') ∧
      program.Obtains registry grants result registry' := by
  induction program generalizing registry with
  | finish result => exact ⟨[], result, registry, rfl, .finish⟩
  | look next ih =>
    obtain ⟨grants, result, registry', hrun, hobtains⟩ := ih registry registry
    exact ⟨grants, result, registry', hrun, .look hobtains⟩
  | register info next ih =>
    obtain ⟨answer, mid, hanswer⟩ := registry.exists_register info
    obtain ⟨grants, result, registry', hrun, hobtains⟩ := ih answer mid
    refine ⟨_, result, registry', ?_, .register hanswer hobtains⟩
    rw [run, hanswer]
    exact hrun
  | extend point name next ih =>
    obtain ⟨answer, mid, hanswer⟩ := registry.exists_extend point name
    obtain ⟨grants, result, registry', hrun, hobtains⟩ := ih answer mid
    refine ⟨_, result, registry', ?_, .extend hanswer hobtains⟩
    rw [run, hanswer]
    exact hrun
  | load name version plugin next ihplugin ih =>
    by_cases hloaded : name ∈ registry.plugins
    · obtain ⟨grants, result, registry', hrun, hobtains⟩ := ih (.error (.pluginLoaded name)) registry
      refine ⟨grants, result, registry', ?_, .loadRefused hloaded hobtains⟩
      rw [run, Registry.loadWith, if_pos (List.contains_iff_mem.2 hloaded)]
      exact hrun
    · have hnew : ¬ registry.plugins.contains name = true := mt List.contains_iff_mem.1 hloaded
      obtain ⟨within, answer, mid, hinside, hwithin⟩ := ihplugin registry
      cases answer with
      | error e =>
        obtain ⟨grants, result, registry', hrun, hobtains⟩ := ih (.error e) mid
        refine ⟨_, result, registry', ?_, .loadFailed hloaded hwithin hobtains⟩
        rw [run, Registry.loadWith, if_neg hnew, hinside]
        exact hrun
      | ok =>
        obtain ⟨grants, result, registry', hrun, hobtains⟩ :=
          ih (.ok ()) { mid with plugins := mid.plugins ++ [name] }
        refine ⟨_, result, registry', ?_, .loaded hloaded hwithin hobtains⟩
        rw [run, Registry.loadWith, if_neg hnew, hinside]
        exact hrun

end Registration

/-! ### Pipelines -/

namespace Registry

variable {registry : Registry (Except Fault)} {names : List String}

/-- If all names are known, none is left out. -/
lemma exists_addKnown (h : ∀ name ∈ names, name ∈ registry.names) (pipeline : Pipeline (Except Fault)) :
    ∃ passes, registry.addKnown pipeline names = .ok ⟨pipeline.passes ++ passes⟩ ∧
      List.Forall₂ registry.Provides names passes := by
  induction names generalizing pipeline with
  | nil => exact ⟨[], by rw [addKnown, List.append_nil]; rfl, .nil⟩
  | cons name names ih =>
    obtain ⟨hname, hnames⟩ := List.forall_mem_cons.1 h
    obtain ⟨info, hinfo⟩ := exists_lookup? hname
    obtain ⟨passes, hadd, hpasses⟩ := ih hnames ⟨pipeline.passes ++ [info.pass]⟩
    refine ⟨info.pass :: passes, ?_, .cons (provides_of_lookup? hinfo) hpasses⟩
    simpa [addKnown, hinfo, Pipeline.add] using hadd

lemma addNamed_eq_addKnown (h : ∀ name ∈ names, name ∈ registry.names)
    (pipeline : Pipeline (Except Fault)) :
    registry.addNamed pipeline names = .ok <$> registry.addKnown pipeline names := by
  induction names generalizing pipeline with
  | nil => rfl
  | cons name names ih =>
    obtain ⟨hname, hnames⟩ := List.forall_mem_cons.1 h
    obtain ⟨info, hinfo⟩ := exists_lookup? hname
    simpa [addNamed, addKnown, hinfo, Pipeline.add] using ih hnames ⟨pipeline.passes ++ [info.pass]⟩

/-- The first name that is not known is the one that is reported. -/
lemma addNamed_unknown {before after : List String} {name : String}
    (hbefore : ∀ name ∈ before, name ∈ registry.names) (hname : name ∉ registry.names)
    (pipeline : Pipeline (Except Fault)) :
    registry.addNamed pipeline (before ++ name :: after) = .ok (.error (.passUnknown name)) := by
  induction before generalizing pipeline with
  | nil => simp [addNamed, lookup?_eq_none.2 hname]
  | cons first before ih =>
    obtain ⟨hfirst, hbefore⟩ := List.forall_mem_cons.1 hbefore
    obtain ⟨info, hinfo⟩ := exists_lookup? hfirst
    simpa [addNamed, hinfo, Pipeline.add] using ih hbefore ⟨pipeline.passes ++ [info.pass]⟩

/-- A pipeline of known names has the pass of each. -/
lemma exists_pipeline (h : ∀ name ∈ names, name ∈ registry.names) :
    ∃ pipeline, registry.pipeline names = .ok (.ok pipeline) ∧
      List.Forall₂ registry.Provides names pipeline.passes := by
  obtain ⟨passes, hadd, hpasses⟩ := exists_addKnown h {}
  refine ⟨⟨passes⟩, ?_, hpasses⟩
  rw [pipeline, addNamed_eq_addKnown h, hadd]
  rfl

lemma pipeline_unknown (h : ¬ ∀ name ∈ names, name ∈ registry.names) :
    ∃ name ∈ names, name ∉ registry.names ∧
      registry.pipeline names = .ok (.error (.passUnknown name)) := by
  have hsome : (names.find? fun name => decide (name ∉ registry.names)).isSome = true := by
    simpa [List.find?_isSome] using h
  obtain ⟨name, hfind⟩ := Option.isSome_iff_exists.1 hsome
  obtain ⟨hname, before, after, rfl, hbefore⟩ := List.find?_eq_some_iff_append.1 hfind
  refine ⟨name, by simp, of_decide_eq_true hname, addNamed_unknown ?_ (of_decide_eq_true hname) {}⟩
  simpa using hbefore

/-- If passes are registered under their own names, a pipeline shows the names it was asked for. -/
lemma map_name_of_provides (h : ∀ info ∈ registry.passes, info.pass.name = info.name)
    {passes : List (Pass (Except Fault))} (hpasses : List.Forall₂ registry.Provides names passes) :
    passes.map Pass.name = names := by
  induction hpasses with
  | nil => rfl
  | cons hpass _ ih =>
    obtain ⟨info, hinfo, rfl, rfl⟩ := hpass
    rw [List.map_cons, ih, h info hinfo]

/-- Every extension is in the standard pipeline, place by place. -/
lemma Consistent.exists_standardPipeline (h : registry.Consistent) :
    ∃ pipeline, registry.standardPipeline = .ok pipeline ∧
      List.Forall₂ (fun extension pass => registry.Provides extension.2 pass)
        (registry.extensions.filter (·.1 = .early) ++ registry.extensions.filter (·.1 = .last))
        pipeline.passes := by
  have hknown : ∀ name ∈ ExtensionPoint.all.flatMap registry.extensionsAt, name ∈ registry.names := by
    intro name hname
    obtain ⟨point, -, hname⟩ := List.mem_flatMap.1 hname
    obtain ⟨extension, hextension, rfl⟩ := List.mem_map.1 hname
    exact h.known extension (List.mem_filter.1 hextension).1
  obtain ⟨passes, hadd, hpasses⟩ := exists_addKnown hknown {}
  refine ⟨⟨passes⟩, hadd, ?_⟩
  have hpoints : ExtensionPoint.all.flatMap registry.extensionsAt =
      (registry.extensions.filter (·.1 = .early) ++
        registry.extensions.filter (·.1 = .last)).map Prod.snd := by
    simp [ExtensionPoint.all, extensionsAt, beq_eq_decide]
  rw [hpoints, List.forall₂_map_left_iff] at hpasses
  exact hpasses

end Registry

/-- Whatever is asked of an empty registry, by its owner and by plugins, and whether or not it fails,
the registry holds the passes and extensions that were accepted, in order, and later runs only add to
them. Names are distinct, and extensions name passes that are known. So the standard pipeline has one
pass for each extension that was accepted, those wanted early first, and a pipeline of names has one
for each name if all are known, and is refused otherwise. -/
theorem Registration.run_empty (program : Registration (Except Fault)) :
    ∃ grants result registry, program.run {} = .ok (result, registry) ∧
      program.Obtains {} grants result registry ∧
      registry.passes = grants.filterMap Grant.pass? ∧
      registry.extensions = grants.filterMap Grant.extension? ∧
      registry.names.Nodup ∧ (∀ extension ∈ registry.extensions, extension.2 ∈ registry.names) ∧
      (∀ later : Registration (Except Fault), ∃ result' registry',
        later.run registry = .ok (result', registry') ∧
          registry.passes <+: registry'.passes ∧ registry.extensions <+: registry'.extensions) ∧
      (∃ pipeline, registry.standardPipeline = .ok pipeline ∧
        List.Forall₂ (fun extension pass => registry.Provides extension.2 pass)
          ((grants.filterMap Grant.extension?).filter (·.1 = .early) ++
            (grants.filterMap Grant.extension?).filter (·.1 = .last)) pipeline.passes) ∧
      ∀ names,
        ((∀ name ∈ names, name ∈ registry.names) →
          ∃ pipeline, registry.pipeline names = .ok (.ok pipeline) ∧
            List.Forall₂ registry.Provides names pipeline.passes ∧
            ((∀ info ∈ registry.passes, info.pass.name = info.name) → pipeline.names = names)) ∧
        (¬ (∀ name ∈ names, name ∈ registry.names) →
          ∃ name ∈ names, name ∉ registry.names ∧
            registry.pipeline names = .ok (.error (.passUnknown name))) := by
  obtain ⟨grants, result, registry, hrun, hobtains⟩ := exists_obtains program {}
  have hconsistent := hobtains.consistent Registry.Consistent.empty
  have hafter := hobtains.eq_after
  have hpasses : registry.passes = grants.filterMap Grant.pass? := by
    rw [hafter]
    exact List.nil_append _
  have hextensions : registry.extensions = grants.filterMap Grant.extension? := by
    rw [hafter]
    exact List.nil_append _
  refine ⟨grants, result, registry, hrun, hobtains, hpasses, hextensions, hconsistent.distinct,
    hconsistent.known, fun later => ?_, ?_, fun names => ⟨fun hknown => ?_, Registry.pipeline_unknown⟩⟩
  · obtain ⟨grants', result', registry', hrun', hobtains'⟩ := exists_obtains later registry
    refine ⟨result', registry', hrun', ?_⟩
    rw [hobtains'.eq_after]
    exact ⟨List.prefix_append _ _, List.prefix_append _ _⟩
  · rw [← hextensions]
    exact hconsistent.exists_standardPipeline
  · obtain ⟨pipeline, hpipeline, hprovides⟩ := Registry.exists_pipeline hknown
    exact ⟨pipeline, hpipeline, hprovides, fun hown => Registry.map_name_of_provides hown hprovides⟩

end EntryTrace
