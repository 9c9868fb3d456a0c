import EntryTrace.Pass.Pipeline

/-!
# Registries

A registry knows passes by name, and where in the standard pipeline plugins want them to run.
Nothing is ever removed. A plugin is a list of requests to a registry; it stops at the first
request that fails, and what the earlier ones did stays.
-/

namespace EntryTrace

/-- A pass that can be asked for by name. -/
structure PassInfo (m : Type → Type) where
  name : String
  description : String
  /-- The pass leaves the edges between blocks alone. -/
  cfgOnly : Bool
  /-- The pass changes nothing at all. -/
  isAnalysis : Bool
  pass : Pass m

/-- Places in the standard pipeline. -/
inductive ExtensionPoint
  /-- Before anything else. -/
  | early
  /-- After everything else. -/
  | last
  deriving DecidableEq

namespace ExtensionPoint

/-- All places, in the order of the pipeline. -/
def all : List ExtensionPoint := [early, last]

def text : ExtensionPoint → String
  | .early => "early-as-possible"
  | .last => "optimizer-last"

def describe : ExtensionPoint → String
  | .early => "EarlyAsPossible"
  | .last => "OptimizerLast"

end ExtensionPoint

/-- Why a registry does not do what it is asked for. -/
inductive RegistryError
  | passRegistered (name : String)
  | extensionUnknown (point : ExtensionPoint) (name : String)
  | pluginLoaded (name : String)
  | passUnknown (name : String)
  deriving DecidableEq

def RegistryError.message : RegistryError → String
  | .passRegistered name => "pass `" ++ name ++ "` is already registered"
  | .extensionUnknown point name =>
    "cannot extend " ++ point.text ++ " with unknown pass `" ++ name ++ "`"
  | .pluginLoaded name => "plugin `" ++ name ++ "` is already loaded"
  | .passUnknown name => "unknown pass `" ++ name ++ "`"

/-- What a registry can be asked to do. -/
inductive Request (m : Type → Type)
  | register (info : PassInfo m)
  | extend (point : ExtensionPoint) (name : String)
  | load (name version : String) (requests : List (Request m))

structure Plugin (m : Type → Type) where
  name : String
  version : String
  requests : List (Request m)

structure Registry (m : Type → Type) where
  passes : List (PassInfo m) := []
  extensions : List (ExtensionPoint × String) := []
  plugins : List String := []

section Texts

variable {m : Type → Type}

def PassInfo.describe (info : PassInfo m) : String :=
  withFields "PassInfo"
    [("name", Literal.ofString info.name), ("description", Literal.ofString info.description),
      ("cfg_only", toString info.cfgOnly), ("is_analysis", toString info.isAnalysis)]

def Plugin.describe (plugin : Plugin m) : String :=
  withFields "PluginDescriptor"
    [("name", Literal.ofString plugin.name), ("version", Literal.ofString plugin.version)]

def Registry.describe (registry : Registry m) : String :=
  withFields "PassRegistry"
    [("passes", bracketed (registry.passes.map PassInfo.describe)),
      ("extensions", bracketed (registry.extensions.map fun (point, name) =>
        "(" ++ point.describe ++ ", " ++ Literal.ofString name ++ ")")),
      ("plugins", bracketed (registry.plugins.map Literal.ofString))]

end Texts

namespace Registry

variable {m : Type → Type}

instance : Inhabited (Registry m) := ⟨{}⟩

def lookup? (registry : Registry m) (name : String) : Option (PassInfo m) :=
  registry.passes.find? (·.name == name)

/-- The passes wanted at a place, in the order in which they were asked for. -/
def extensionsAt (registry : Registry m) (point : ExtensionPoint) : List String :=
  (registry.extensions.filter (·.1 == point)).map Prod.snd

variable [Monad m] [Journal m]

/-- Makes a pass known under its name, which no other has. -/
def register (registry : Registry m) (info : PassInfo m) :
    m (Except RegistryError Unit × Registry m) := do
  match registry.lookup? info.name with
  | some _ => pure (.error (.passRegistered info.name), registry)
  | none =>
    note .debug fun _ => "registry: registered pass " ++ info.name ++ " (" ++ info.description
      ++ ")"
    pure (.ok (), { registry with passes := registry.passes ++ [info] })

/-- Asks for a known pass to run at a place of the standard pipeline. -/
def extend (registry : Registry m) (point : ExtensionPoint) (name : String) :
    m (Except RegistryError Unit × Registry m) := do
  match registry.lookup? name with
  | none => pure (.error (.extensionUnknown point name), registry)
  | some _ =>
    note .debug fun _ => "registry: " ++ name ++ " scheduled at " ++ point.text
    pure (.ok (), { registry with extensions := registry.extensions ++ [(point, name)] })

mutual

/-- Does what is asked for. -/
def perform (registry : Registry m) : Request m → m (Except RegistryError Unit × Registry m)
  | .register info => registry.register info
  | .extend point name => registry.extend point name
  | .load name version requests => do
    if registry.plugins.contains name then
      pure (.error (.pluginLoaded name), registry)
    else
      let (result, registry) ← performAll registry requests
      match result with
      | .error e => pure (.error e, registry)
      | .ok () =>
        note .info fun _ => "loaded plugin " ++ name ++ " version " ++ version
        pure (.ok (), { registry with plugins := registry.plugins ++ [name] })

/-- Does one thing after the other, up to the first that fails. -/
def performAll (registry : Registry m) :
    List (Request m) → m (Except RegistryError Unit × Registry m)
  | [] => pure (.ok (), registry)
  | request :: rest => do
    let (result, registry) ← perform registry request
    match result with
    | .error e => pure (.error e, registry)
    | .ok () => performAll registry rest

end

/-- Loads a plugin, once. -/
def load (registry : Registry m) (plugin : Plugin m) :
    m (Except RegistryError Unit × Registry m) :=
  registry.perform (.load plugin.name plugin.version plugin.requests)

/-- Adds the named passes to a pipeline, up to the first name that is not known. -/
def addNamed (registry : Registry m) (pipeline : Pipeline m) :
    List String → m (Except RegistryError (Pipeline m))
  | [] => pure (.ok pipeline)
  | name :: rest => do
    match registry.lookup? name with
    | none => pure (.error (.passUnknown name))
    | some info =>
      let pipeline ← pipeline.add info.pass
      addNamed registry pipeline rest

/-- The pipeline of the named passes. -/
def pipeline (registry : Registry m) (names : List String) :
    m (Except RegistryError (Pipeline m)) :=
  registry.addNamed {} names

/-- Adds those of the named passes that are known. -/
def addKnown (registry : Registry m) (pipeline : Pipeline m) : List String → m (Pipeline m)
  | [] => pure pipeline
  | name :: rest => do
    match registry.lookup? name with
    | none => addKnown registry pipeline rest
    | some info =>
      let pipeline ← pipeline.add info.pass
      addKnown registry pipeline rest

/-- The pipeline of all passes that plugins asked for, place by place. -/
def standardPipeline (registry : Registry m) : m (Pipeline m) :=
  registry.addKnown {} (ExtensionPoint.all.flatMap registry.extensionsAt)

end Registry

section Tagging

variable {m : Type → Type} [Monad m] [MonadExceptOf Fault m] [Journal m]

def tagPassInfo : PassInfo m where
  name := "TagHelpersPass"
  description := "A pass that inserts a `print_tagged_helper` call to every helper function."
  cfgOnly := true
  isAnalysis := false
  pass := tagPass

/-- Makes tagging known and wants it to run first. -/
def tagPlugin : Plugin m where
  name := "helpertag"
  version := "0.1.0"
  requests := [.register tagPassInfo, .extend .early "TagHelpersPass"]

end Tagging

end EntryTrace
