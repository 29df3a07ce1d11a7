import Pezhwan.Atomic.Dict

namespace Pezhwan.Plugins
open Atomic

-- A property of an exported object. `η` stands for the function values.
inductive Value (η : Type) where
  | function (handler : η)
  | other
  deriving DecidableEq, Repr

def Value.function? : Value η → Option η
  | .function handler => some handler
  | .other => none

-- exports.hooks
inductive Candidate (η : Type) where
  | object (entries : List (String × Value η))
  | array (items : List (Value η))
  | other
  deriving DecidableEq, Repr

-- Object.entries
def Candidate.entries : Candidate η → List (String × Value η)
  | .object entries => entries
  | .array items => items.zipIdx.map fun item => (toString item.2,item.1)
  | .other => []

-- An object, with its `hooks` when it has some, or a value of another type.
inductive Exports (η : Type) where
  | object (hooks : Option (Candidate η))
  | other
  deriving DecidableEq, Repr

def Exports.candidate : Exports η → Candidate η
  | .object (some candidate) => candidate
  | .object none | .other => .other

-- An imported module: its default export, unless that is null or missing, and
-- its namespace object.
structure Module (η : Type) where
  default : Option (Exports η)
  namespace_ : Exports η
  deriving DecidableEq, Repr

structure PluginManifest where
  name : String
  version : String
  entry : String
  enabled : Option Bool
  deriving DecidableEq, Repr

structure LoadedPlugin (η : Type) where
  manifest : PluginManifest
  «exports» : Exports η
  hooks : Option (List (Value η))
  deriving DecidableEq, Repr

inductive PluginState where
  | active | disabled | error
  deriving DecidableEq, Repr

structure PluginStatus (η : Type) extends LoadedPlugin η where
  state : PluginState
  lastError : Option String
  deriving DecidableEq, Repr

-- Hook registry: the handlers of each name in the order they were registered.
abbrev Hooks (η : Type) := Dict String (List η)

namespace Hooks

def handlers (hooks : Hooks η) (name : String) : List η := (hooks.get? name).getD []

def register (hooks : Hooks η) (name : String) (handler : η) : Hooks η :=
  hooks.set name (hooks.handlers name ++ [handler])

-- The handlers that are invoked, and whether all of them completed.
def invoke (completes : η → Bool) : List η → List η × Bool
  | [] => ([],true)
  | handler :: rest =>
    if completes handler then (handler :: (invoke completes rest).1,(invoke completes rest).2) else ([handler],false)

def run (completes : η → Bool) (hooks : Hooks η) (name : String) : List η × Bool := invoke completes (hooks.handlers name)

end Hooks

structure PluginLoader where
  enabledOnly : Bool
  -- new URL(...) throws on an address it cannot resolve
  resolveUrl : String → Except String String

structure PluginManager (η : Type) where
  statuses : Dict String (PluginStatus η) := .empty
  loadedPlugins : Dict String (LoadedPlugin η) := .empty
  hooks : Hooks η := .empty
  cache : Dict String (Module η) := .empty
  deriving DecidableEq

section
variable {η : Type}

def loadedPlugin (manifest : PluginManifest) (module_ : Module η) : LoadedPlugin η where
  manifest
  «exports» := module_.default.getD module_.namespace_
  hooks :=
    match (module_.default.getD module_.namespace_).candidate with
    | .array items => some items
    | _ => none

namespace PluginLoader

-- The module and the cache; `imported` is what import() answers.
def resolve (loader : PluginLoader) (cache : Dict String (Module η)) (manifest : PluginManifest)
    (imported : Except String (Module η)) : Except String (Module η × Dict String (Module η)) :=
  if loader.enabledOnly ∧ manifest.enabled = some false then .error ("Plugin " ++ manifest.name ++ " is disabled")
  else
    match loader.resolveUrl manifest.entry with
    | .error message => .error message
    | .ok url =>
      match cache.get? url with
      | some module_ => .ok (module_,cache)
      | none =>
        match imported with
        | .ok module_ => .ok (module_,cache.set url module_)
        | .error message => .error message

end PluginLoader

namespace PluginManager

def activateHooks (hooks : Hooks η) («exports» : Exports η) : Hooks η :=
  «exports».candidate.entries.foldl (fun hooks entry =>
    match entry.2 with
    | .function handler => hooks.register entry.1 handler
    | .other => hooks) hooks

def broken (manifest : PluginManifest) (message : String) : PluginStatus η where
  manifest
  «exports» := .other
  hooks := none
  state := .error
  lastError := some message

def loadedStatus (loaded : LoadedPlugin η) : PluginStatus η where
  toLoadedPlugin := loaded
  state := if loaded.manifest.enabled = some false then .disabled else .active
  lastError := none

def keep (manager : PluginManager η) (loaded : LoadedPlugin η) (cache : Dict String (Module η)) : PluginManager η where
  statuses := manager.statuses.set loaded.manifest.name (loadedStatus loaded)
  loadedPlugins := manager.loadedPlugins.set loaded.manifest.name loaded
  hooks :=
    if (loadedStatus loaded).state = .active then activateHooks manager.hooks loaded.exports else manager.hooks
  cache

def load (loader : PluginLoader) (manager : PluginManager η) (mult : PluginManifest) (imported : Except String (Module η)) :
    PluginManager η :=
  match loader.resolve manager.cache mult imported with
  | .ok (module_,cache) => manager.keep (loadedPlugin mult module_) cache
  | .error message => { manager with statuses := manager.statuses.set mult.name (broken mult message) }

def enabled (status : PluginStatus η) : Option (LoadedPlugin η) → PluginStatus η
  | some fresh => { status with «exports» := fresh.exports, hooks := fresh.hooks, state := .active, lastError := none }
  | none => { status with state := .active, lastError := none }

def reactivate (hooks : Hooks η) : Option (LoadedPlugin η) → Hooks η
  | some fresh => activateHooks hooks fresh.exports
  | none => hooks

def enable (manager : PluginManager η) (name : String) : PluginManager η :=
  match manager.statuses.get? name with
  | none => manager
  | some status =>
    if status.state ≠ .active then
      { manager with
        statuses := manager.statuses.set name (enabled status (manager.loadedPlugins.get? name))
        hooks := reactivate manager.hooks (manager.loadedPlugins.get? name) }
    else manager

def disable (manager : PluginManager η) (name : String) : PluginManager η :=
  match manager.statuses.get? name with
  | none => manager
  | some status => { manager with statuses := manager.statuses.set name { status with state := .disabled } }

end PluginManager

inductive Event (η : Type) where
  | load (mult : PluginManifest) (imported : Except String (Module η))
  | enable (name : String)
  | disable (name : String)

def perform (loader : PluginLoader) (manager : PluginManager η) : Event η → PluginManager η
  | .load mult imported => manager.load loader mult imported
  | .enable name => manager.enable name
  | .disable name => manager.disable name

def step (loader : PluginLoader) (manager : PluginManager η) (event : Event η) : Option (PluginManager η) :=
  some (perform loader manager event)

end
end Pezhwan.Plugins
