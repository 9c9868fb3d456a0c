import EntryTrace.Proofs.Registrations

/-!
# Plugins that fail to load

A plugin stops at the first of its requests that fails, and is then not among the loaded ones. What it
was granted before that stays in the registry, so its names are taken when a plugin of the same name
tries again.
-/

namespace EntryTrace

section Requests

variable {m : Type → Type}

namespace Request

/-- The request is about a pass, not about another plugin. -/
def IsDirect : Request m → Prop
  | register _ | extend _ _ => True
  | load _ _ _ => False

/-- What is done if a direct request is met. -/
def grant? : Request m → Option (Grant m)
  | register info => some (.pass info)
  | extend point name => some (.extension point name)
  | load _ _ _ => none

/-- One after the other, the requests register passes under new names and extend the pipeline by known
ones. -/
def Acceptable (known : List String) : List (Request m) → Prop
  | [] => True
  | register info :: rest => info.name ∉ known ∧ Acceptable (known ++ [info.name]) rest
  | extend _ name :: rest => name ∈ known ∧ Acceptable known rest
  | load _ _ _ :: _ => False

end Request

end Requests

namespace Registry

variable {registry registry' : Registry (Except Fault)} {answer : Except RegistryError Unit}
  {request : Request (Except Fault)} {requests : List (Request (Except Fault))}

/-- A direct request is met, or changes nothing. -/
lemma perform_direct (hdirect : request.IsDirect)
    (h : registry.perform request = .ok (answer, registry')) :
    answer = .ok () ∧ registry' = registry.after request.grant?.toList ∨
      ∃ e, answer = .error e ∧ registry' = registry := by
  cases request with
  | register info =>
    obtain ⟨-, rfl, rfl⟩ | ⟨-, rfl, rfl⟩ := register_eq_ok.1 h
    · exact .inr ⟨_, rfl, rfl⟩
    · exact .inl ⟨rfl, (after_pass info).symm⟩
  | extend point name =>
    obtain ⟨-, rfl, rfl⟩ | ⟨-, rfl, rfl⟩ := extend_eq_ok.1 h
    · exact .inr ⟨_, rfl, rfl⟩
    · exact .inl ⟨rfl, (after_extension point name).symm⟩
  | load => exact hdirect.elim

/-- Direct requests are met up to the first that fails, which changes nothing. -/
lemma performAll_direct (hdirect : ∀ request ∈ requests, request.IsDirect)
    (h : registry.performAll requests = .ok (answer, registry')) :
    answer = .ok () ∧ registry' = registry.after (requests.filterMap Request.grant?) ∨
      ∃ e met failing rest, answer = .error e ∧ requests = met ++ failing :: rest ∧
        registry.performAll met = .ok (.ok (), registry') ∧
        registry' = registry.after (met.filterMap Request.grant?) ∧
        registry'.perform failing = .ok (.error e, registry') := by
  induction requests generalizing registry with
  | nil =>
    cases h
    exact .inl ⟨rfl, after_nil.symm⟩
  | cons request requests ih =>
    obtain ⟨hrequest, hrequests⟩ := List.forall_mem_cons.1 hdirect
    rw [performAll, bind_eq_ok] at h
    obtain ⟨⟨first, mid⟩, hfirst, h⟩ := h
    obtain ⟨rfl, hmid⟩ | ⟨e, rfl, rfl⟩ := perform_direct hrequest hfirst
    · have hafter (met : List (Request (Except Fault))) :
          mid.after (met.filterMap Request.grant?) =
            registry.after ((request :: met).filterMap Request.grant?) := by
        rw [hmid, ← after_append]
        cases hgrant : request.grant? <;> simp [hgrant]
      obtain ⟨rfl, hall⟩ | ⟨e, met, failing, rest, rfl, rfl, hmet, hafter', hfailing⟩ := ih hrequests h
      · exact .inl ⟨rfl, hall.trans (hafter _)⟩
      · refine .inr ⟨e, request :: met, failing, rest, rfl, rfl, ?_, hafter'.trans (hafter _), hfailing⟩
        rw [performAll, hfirst]
        exact hmet
    · cases h
      exact .inr ⟨e, [], request, requests, rfl, rfl, rfl, after_nil.symm, hfirst⟩

/-- Plugins are loaded by other requests only. -/
lemma plugins_after_grants (registry : Registry (Except Fault))
    (requests : List (Request (Except Fault))) :
    (registry.after (requests.filterMap Request.grant?)).plugins = registry.plugins := by
  have hnone : (requests.filterMap Request.grant?).filterMap Grant.plugin? = [] := by
    rw [List.filterMap_filterMap, List.filterMap_eq_nil_iff]
    rintro (_ | _ | _) - <;> rfl
  rw [after, hnone, List.append_nil]

lemma performAll_iff_acceptable (hdirect : ∀ request ∈ requests, request.IsDirect) :
    (∃ registry', registry.performAll requests = .ok (.ok (), registry')) ↔
      Request.Acceptable registry.names requests := by
  induction requests generalizing registry with
  | nil => exact ⟨fun _ => trivial, fun _ => ⟨registry, rfl⟩⟩
  | cons request requests ih =>
    obtain ⟨hrequest, hrequests⟩ := List.forall_mem_cons.1 hdirect
    have hnext {mid : Registry (Except Fault)}
        (h : registry.perform request = .ok (.ok (), mid)) :
        (∃ registry', registry.performAll (request :: requests) = .ok (.ok (), registry')) ↔
          Request.Acceptable mid.names requests := by
      rw [← ih hrequests, performAll, h]
      rfl
    have hrefused {mid : Registry (Except Fault)} {e : RegistryError}
        (h : registry.perform request = .ok (.error e, mid)) :
        ¬ ∃ registry', registry.performAll (request :: requests) = .ok (.ok (), registry') := by
      rw [performAll, h]
      exact nofun
    cases request with
    | register info =>
      obtain ⟨answer, mid, hperform⟩ := registry.exists_register info
      obtain ⟨hknown, rfl, rfl⟩ | ⟨hnew, rfl, rfl⟩ := register_eq_ok.1 hperform
      · exact iff_of_false (hrefused hperform) fun h => h.1 hknown
      · rw [hnext hperform, Request.Acceptable, names, List.map_append]
        exact (and_iff_right hnew).symm
    | extend point name =>
      obtain ⟨answer, mid, hperform⟩ := registry.exists_extend point name
      obtain ⟨hunknown, rfl, rfl⟩ | ⟨hknown, rfl, rfl⟩ := extend_eq_ok.1 hperform
      · exact iff_of_false (hrefused hperform) fun h => hunknown h.1
      · rw [hnext hperform, Request.Acceptable]
        exact (and_iff_right hknown).symm
    | load => exact hrequest.elim

/-! ### Loading -/

variable {plugin : Plugin (Except Fault)}

lemma load_of_mem (h : plugin.name ∈ registry.plugins) :
    registry.load plugin = .ok (.error (.pluginLoaded plugin.name), registry) := by
  rw [load, perform, if_pos (List.contains_iff_mem.2 h)]
  rfl

lemma load_of_error {e : RegistryError} (h : plugin.name ∉ registry.plugins)
    (hall : registry.performAll plugin.requests = .ok (.error e, registry')) :
    registry.load plugin = .ok (.error e, registry') := by
  rw [load, perform, if_neg (mt List.contains_iff_mem.1 h), hall]
  rfl

lemma load_of_ok (h : plugin.name ∉ registry.plugins)
    (hall : registry.performAll plugin.requests = .ok (.ok (), registry')) :
    registry.load plugin =
      .ok (.ok (), { registry' with plugins := registry'.plugins ++ [plugin.name] }) := by
  rw [load, perform, if_neg (mt List.contains_iff_mem.1 h), hall]
  rfl

lemma exists_performAll (registry : Registry (Except Fault))
    (requests : List (Request (Except Fault))) :
    ∃ answer registry', registry.performAll requests = .ok (answer, registry') := by
  obtain ⟨-, answer, registry', hrun, -⟩ :=
    Registration.exists_obtains (.ofRequests requests) registry
  exact ⟨answer, registry', Registration.run_ofRequests requests registry ▸ hrun⟩

lemma load_iff_acceptable (hnew : plugin.name ∉ registry.plugins)
    (hdirect : ∀ request ∈ plugin.requests, request.IsDirect) :
    (∃ registry', registry.load plugin = .ok (.ok (), registry')) ↔
      Request.Acceptable registry.names plugin.requests := by
  rw [← performAll_iff_acceptable hdirect]
  obtain ⟨answer, mid, hall⟩ := registry.exists_performAll plugin.requests
  cases answer with
  | error e => simp [load_of_error hnew hall, hall]
  | ok => simp [load_of_ok hnew hall, hall]

/-- A plugin that fails to load is not among the loaded ones, but the passes and extensions it was
granted before its failing request stay. A plugin of the same name can still be loaded: exactly if it
registers no pass under a name that is taken by then, be it by what the failed one left, and extends the
pipeline only by known passes. -/
theorem load_refused {e : RegistryError} (hdirect : ∀ request ∈ plugin.requests, request.IsDirect)
    (h : registry.load plugin = .ok (.error e, registry')) :
    registry'.plugins = registry.plugins ∧
      (plugin.name ∈ registry.plugins ∧ registry' = registry ∨
        plugin.name ∉ registry.plugins ∧
          (∃ met failing rest, plugin.requests = met ++ failing :: rest ∧
            registry.performAll met = .ok (.ok (), registry') ∧
            registry'.perform failing = .ok (.error e, registry') ∧
            registry'.passes =
              registry.passes ++ (met.filterMap Request.grant?).filterMap Grant.pass? ∧
            registry'.extensions =
              registry.extensions ++ (met.filterMap Request.grant?).filterMap Grant.extension?) ∧
          ∀ corrected : Plugin (Except Fault), corrected.name = plugin.name →
            (∀ request ∈ corrected.requests, request.IsDirect) →
              ((∃ registry'', registry'.load corrected = .ok (.ok (), registry'')) ↔
                Request.Acceptable registry'.names corrected.requests)) := by
  by_cases hloaded : plugin.name ∈ registry.plugins
  · rw [load_of_mem hloaded] at h
    cases h
    exact ⟨rfl, .inl ⟨hloaded, rfl⟩⟩
  · obtain ⟨answer, mid, hall⟩ := registry.exists_performAll plugin.requests
    cases answer with
    | ok =>
      rw [load_of_ok hloaded hall] at h
      cases h
    | error =>
      rw [load_of_error hloaded hall] at h
      cases h
      obtain ⟨⟨⟩, -⟩ | ⟨_, met, failing, rest, ⟨⟩, hrequests, hmet, hafter, hfailing⟩ :=
        performAll_direct hdirect hall
      have hplugins : registry'.plugins = registry.plugins := by
        rw [hafter, plugins_after_grants]
      refine ⟨hplugins, .inr ⟨hloaded, ⟨met, failing, rest, hrequests, hmet, hfailing, ?_, ?_⟩, ?_⟩⟩
      · rw [hafter, after]
      · rw [hafter, after]
      · intro corrected hname hcorrected
        refine load_iff_acceptable ?_ hcorrected
        rwa [hname, hplugins]

end Registry

/-! ### A plugin that fails halfway -/

/-- Does nothing. -/
def quietPassInfo : PassInfo (Except Fault) where
  name := "HalfPass"
  description := "test pass"
  cfgOnly := false
  isAnalysis := true
  pass := ⟨"Quiet", fun module => .ok (false, module)⟩

/-- Registers a pass and asks for it, and then for one that no one registered. -/
def halfPlugin : Plugin (Except Fault) where
  name := "half"
  version := "9.9"
  requests := [.register quietPassInfo, .extend .last "HalfPass", .extend .early "MissingPass"]

/-- The same plugin without its failing request. -/
def mendedPlugin : Plugin (Except Fault) where
  name := "half"
  version := "9.10"
  requests := [.register quietPassInfo, .extend .last "HalfPass"]

/-- What the plugin leaves behind in an empty registry. -/
def halfRegistry : Registry (Except Fault) where
  passes := [quietPassInfo]
  extensions := [(.last, "HalfPass")]

lemma load_halfPlugin : ({} : Registry (Except Fault)).load halfPlugin =
    .ok (.error (.extensionUnknown .early "MissingPass"), halfRegistry) := rfl

theorem Registry.load_refused_halfPlugin :
    (∀ request ∈ halfPlugin.requests, request.IsDirect) ∧
      ({} : Registry (Except Fault)).load halfPlugin =
        .ok (.error (.extensionUnknown .early "MissingPass"), halfRegistry) ∧
      halfRegistry.plugins = [] ∧
      ((∃ registry'', halfRegistry.load mendedPlugin = .ok (.ok (), registry'')) ↔
        Request.Acceptable halfRegistry.names mendedPlugin.requests) := by
  have hdirect : ∀ request ∈ halfPlugin.requests, request.IsDirect := by
    simp [halfPlugin, Request.IsDirect]
  obtain ⟨hplugins, ⟨hloaded, -⟩ | ⟨-, -, hagain⟩⟩ := load_refused hdirect load_halfPlugin
  · cases hloaded
  · refine ⟨hdirect, load_halfPlugin, hplugins, hagain mendedPlugin rfl ?_⟩
    simp [mendedPlugin, Request.IsDirect]

/-- A failed load is not undone: the registry was empty before it and is not afterwards, so that the
plugin cannot be loaded once it is mended. -/
theorem Registry.load_halfPlugin_leaves :
    ∃ e registry', ({} : Registry (Except Fault)).load halfPlugin = .ok (.error e, registry') ∧
      ¬ (registry'.passes = [] ∧ registry'.extensions = [] ∧ registry'.plugins = []) ∧
      ∃ e' registry'', registry'.load mendedPlugin = .ok (.error e', registry'') := by
  refine ⟨_, _, load_halfPlugin, ?_, _, _, rfl⟩
  rintro ⟨hpasses, -, -⟩
  cases hpasses

end EntryTrace
