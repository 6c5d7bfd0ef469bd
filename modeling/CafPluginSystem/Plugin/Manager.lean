import CafPluginSystem.Library.Interaction
import CafPluginSystem.Plugin.LoadOrder
import CafPluginSystem.Service.Proxy

/-!
# The handlers of the plugin manager

`PluginManager` (`src/core/plugin/plugin_manager.cpp`) loads, reloads and unloads plugins and reacts to the end of
their actors.  Its handlers send to the service registry, to the proxies of services and to plugin actors, and
block on requests to them; a request is answered, or it fails: by an error, or by its time-out, after which its
message may still be on its way.

Each handler is written here as the program it is: a sequence of operations on the surroundings, with its early
returns.  What the operations do is the business of `Plugin.World`.

Where the manager acts for a plugin, its messages carry the name of that plugin as their origin.  Nothing reads it;
it lets a statement say on whose account a message was sent.
-/

namespace Caf.Plugin

open EntityStore Service

/-- `plugin_manifest`. -/
structure Manifest extends PluginManifest where
  name : Bytes
  aclAllow : List Bytes := []
deriving Repr

/-- An opened library: whether it exports `create_plugin` and `destroy_plugin`, and the manifest of its plugin. -/
structure Library where
  symbols : Bool
  manifest : Manifest
deriving Repr

/-- A plugin in the table: the instance that `create` returned, its actor and its manifest. -/
structure LoadedPlugin where
  entry : ℕ
  actor : Address
  manifest : Manifest
deriving Repr

/-- The members of the plugin manager: `plugins_`, `retired_` and `dep_graph_`. -/
structure PluginManager where
  plugins : StringMap LoadedPlugin := ∅
  retired : List LoadedPlugin := []
  depGraph : DependencyGraph := {}

/-- What the registry is sent. -/
inductive RegistryMsg where
  | register (service : Bytes) (impl : Address) (plugin : Bytes)
  | hotReload (service : Bytes) (newImpl : Address)
  | unregister (service : Bytes)
  | setServiceAcl (service : Bytes) (allowed : List (Option Address))
  | resolve (request : ℕ) (service : Bytes)
deriving DecidableEq, Repr

/-- The lifecycle messages that the manager sends to plugin actors, the final `send_exit` included. -/
inductive LifecycleMsg where
  | restoreState (data : Bytes)
  | init
  | serviceGone (services : List Bytes)
  | exit
deriving DecidableEq, Repr

/-- The reply to a request: an actor handle, which may be null, a flag, or bytes. -/
inductive Answer where
  | handle (actor : Option Address)
  | flag (b : Bool)
  | data (bytes : Bytes)
deriving DecidableEq, Repr

/-- What a request asks for. -/
inductive Request where
  | resolve
  | quiesce
  | saveState
deriving DecidableEq, Repr

/-- The operations of the manager on its surroundings.  A request only hands out its number; the reply to it, or
none if it fails, comes with `receive`. -/
inductive Op where
  | openLibrary (path : Bytes)
  | create
  | destroy (entry : ℕ)
  | resolve (origin service : Bytes)
  | quiesce (origin : Bytes) (proxy : Address)
  | saveState (actor : Address)
  | receive (kind : Request) (request : ℕ)
  | restoreState (name : Bytes)
  | spawn (entry : ℕ) (deps : List Address)
  | monitor (actor : Address)
  | tellRegistry (origin : Bytes) (msg : RegistryMsg)
  | resume (origin : Bytes) (proxy target : Address)
  | tell (actor : Address) (msg : LifecycleMsg)
deriving DecidableEq, Repr

@[reducible] def Op.Reply : Op → Type
  | .openLibrary _ => Option Library
  | .create => ℕ
  | .resolve _ _ => ℕ
  | .quiesce _ _ => ℕ
  | .saveState _ => ℕ
  | .receive _ _ => Option Answer
  | .restoreState _ => Bytes
  | .spawn _ _ => Address
  | _ => Unit

/-- The programs that the handlers are. -/
abbrev Program := Interaction.Program Op Op.Reply

/-- `caf::result<bool>`: an error carries its text. -/
abbrev Outcome := Except Bytes Bool

/-! ## The operations as programs -/

section

open Interaction.Program (perform)

def openLibrary (path : Bytes) : Program (Option Library) := perform (Op.openLibrary path)

def create : Program ℕ := perform Op.create

def destroy (entry : ℕ) : Program Unit := perform (Op.destroy entry)

def requestResolve (origin service : Bytes) : Program ℕ := perform (Op.resolve origin service)

def requestQuiesce (origin : Bytes) (proxy : Address) : Program ℕ := perform (Op.quiesce origin proxy)

def requestSaveState (actor : Address) : Program ℕ := perform (Op.saveState actor)

def receive (kind : Request) (request : ℕ) : Program (Option Answer) := perform (Op.receive kind request)

def restoreState (name : Bytes) : Program Bytes := perform (Op.restoreState name)

def spawn (entry : ℕ) (deps : List Address) : Program Address := perform (Op.spawn entry deps)

def monitor (actor : Address) : Program Unit := perform (Op.monitor actor)

def tellRegistry (origin : Bytes) (msg : RegistryMsg) : Program Unit := perform (Op.tellRegistry origin msg)

def sendResume (origin : Bytes) (proxy target : Address) : Program Unit := perform (Op.resume origin proxy target)

def tell (actor : Address) (msg : LifecycleMsg) : Program Unit := perform (Op.tell actor msg)

end

namespace PluginManager

/-! ## Requests -/

/-- `request(registry_, ..., resolve_atom{}, service)`; the handle stays null if the request fails. -/
def resolveService (origin service : Bytes) : Program (Option Address) := do
  let request ← requestResolve origin service
  match ← receive .resolve request with
  | some (.handle actor) => return actor
  | _ => return none

/-- `request(proxy, ..., quiesce_atom{})`. -/
def quiesceProxy (origin : Bytes) (proxy : Address) : Program Bool := do
  let request ← requestQuiesce origin proxy
  match ← receive .quiesce request with
  | some (.flag paused) => return paused
  | _ => return false

/-- `request(actor, ..., save_state_atom{})`; on an error the state stays empty. -/
def saveState (actor : Address) : Program Bytes := do
  let request ← requestSaveState actor
  match ← receive .saveState request with
  | some (.data bytes) => return bytes
  | _ => return []

/-! ## The loops of the handlers -/

/-- The proxies of the dependencies, or the first dependency without one. -/
def resolveDeps (origin : Bytes) : List Bytes → Program (Except Bytes (List Address))
  | [] => return .ok []
  | dep :: rest => do
      match ← resolveService origin dep with
      | none => return .error dep
      | some actor =>
        match ← resolveDeps origin rest with
        | .error missing => return .error missing
        | .ok actors => return .ok (actor :: actors)

def registerAll (origin : Bytes) (actor : Address) : List Bytes → Program Unit
  | [] => return ()
  | service :: rest => do
      tellRegistry origin (.register service actor origin)
      registerAll origin actor rest

/-- The addresses behind the names of `acl_allow`: a loaded plugin's actor, or else the proxy of a service of that
name; other names are skipped with a warning. -/
def collectAllowed (m : PluginManager) (origin : Bytes) : List Bytes → Program (List (Option Address))
  | [] => return []
  | pname :: rest => do
      match m.plugins[pname]? with
      | some p => return some p.actor :: (← m.collectAllowed origin rest)
      | none =>
        match ← resolveService origin pname with
        | some actor => return some actor :: (← m.collectAllowed origin rest)
        | none => m.collectAllowed origin rest

def setAclAll (origin : Bytes) (allowed : List (Option Address)) : List Bytes → Program Unit
  | [] => return ()
  | service :: rest => do
      tellRegistry origin (.setServiceAcl service allowed)
      setAclAll origin allowed rest

def unregisterAll (origin : Bytes) : List Bytes → Program Unit
  | [] => return ()
  | service :: rest => do
      tellRegistry origin (.unregister service)
      unregisterAll origin rest

def resumeAll (origin : Bytes) (target : Address) : List Address → Program Unit
  | [] => return ()
  | proxy :: rest => do
      sendResume origin proxy target
      resumeAll origin target rest

/-- The loop of `reload` that quiesces the proxies of the old services: all of them in the end, or the service
where it failed and the proxies that had been quiesced by then. -/
def quiesceAll (origin : Bytes) (proxies : List Address) :
    List Bytes → Program (Except (Bytes × List Address) (List Address))
  | [] => return .ok proxies
  | service :: rest => do
      match ← resolveService origin service with
      | none => return .error (service, proxies)
      | some proxy =>
        if ← quiesceProxy origin proxy then quiesceAll origin (proxies ++ [proxy]) rest
        else return .error (service, proxies)

/-- The loop of `unload`, which goes on whatever comes back. -/
def quiesceEach (origin : Bytes) : List Bytes → Program Unit
  | [] => return ()
  | service :: rest => do
      match ← resolveService origin service with
      | none => quiesceEach origin rest
      | some proxy => do
          let _ ← quiesceProxy origin proxy
          quiesceEach origin rest

/-- The registry after a reload: services of the old manifest get the new implementation, new ones are registered,
with an ACL if there is anyone to allow. -/
def switchServices (origin : Bytes) (old : List Bytes) (newActor : Address) (newSvcAllowed : List (Option Address)) :
    List Bytes → Program Unit
  | [] => return ()
  | service :: rest => do
      if service ∈ old then
        tellRegistry origin (.hotReload service newActor)
      else do
        tellRegistry origin (.register service newActor origin)
        if !newSvcAllowed.isEmpty then
          tellRegistry origin (.setServiceAcl service newSvcAllowed)
      switchServices origin old newActor newSvcAllowed rest

def tellGone (services : List Bytes) : List Address → Program Unit
  | [] => return ()
  | actor :: rest => do
      tell actor (.serviceGone services)
      tellGone services rest

/-- A new actor: it is sent the state unless that is empty, is monitored, and is sent `init`. -/
def startActor (entry : ℕ) (deps : List Address) (state : Bytes) : Program Address := do
  let actor ← spawn entry deps
  if !state.isEmpty then tell actor (.restoreState state)
  monitor actor
  tell actor .init
  return actor

/-! ## The handlers -/

/-- The dependency graph with a plugin that is being loaded. -/
def enterGraph (g : DependencyGraph) (name : Bytes) (manifest : Manifest) : DependencyGraph :=
  (manifest.provides.foldl (fun g service => g.registerService service name) g).addPlugin name manifest.dependencies

/-- `load_atom` once the dependencies are resolved. -/
def loadResolved (m : PluginManager) (name : Bytes) (entry : ℕ) (manifest : Manifest) (deps : List Address) :
    Program (Outcome × PluginManager) := do
  let state ← restoreState name
  let actor ← startActor entry deps state
  registerAll name actor manifest.provides
  if !manifest.aclAllow.isEmpty then
    let allowed ← m.collectAllowed name manifest.aclAllow
    setAclAll name allowed manifest.provides
  return (.ok true, { m with plugins := m.plugins.insert name { entry, actor, manifest } })

/-- `load_atom`. -/
def load (m : PluginManager) (name path : Bytes) : Program (Outcome × PluginManager) := do
  if name ∈ m.plugins then return (.error (str "Already loaded"), m)
  else
    match ← openLibrary path with
    | none => return (.error (str "Failed to load library"), m)
    | some lib =>
      if !lib.symbols then return (.ok false, m)
      else
        let entry ← create
        let m := { m with depGraph := enterGraph m.depGraph name lib.manifest }
        if m.depGraph.hasCycleFrom name then
          destroy entry
          return (.error (str "Circular dependency"), m)
        else
          match ← resolveDeps name lib.manifest.dependencies with
          | .error dep =>
            destroy entry
            return (.error (str "Missing dep: " ++ dep), m)
          | .ok deps => m.loadResolved name entry lib.manifest deps

/-- The checks of a reloaded manifest: the name is kept and no service is dropped. -/
def reloadRefusal (name : Bytes) (old manifest : Manifest) : Option Bytes :=
  if manifest.name ≠ name then some (str "Reloaded manifest name mismatch: " ++ manifest.name)
  else
    match old.provides.find? (· ∉ manifest.provides) with
    | some service => some (str "Reload rejected: service removed from provides: " ++ service)
    | none => none

/-- `reload_atom` once the proxies are quiesced: the snapshot, the new actor, the switch and the end of the old
actor. -/
def reloadQuiesced (m : PluginManager) (name : Bytes) (old : LoadedPlugin) (entry : ℕ) (manifest : Manifest)
    (deps proxies : List Address) : Program (Outcome × PluginManager) := do
  let state ← saveState old.actor
  let newActor ← startActor entry deps state
  let newSvcAllowed ← m.collectAllowed name manifest.aclAllow
  switchServices name old.manifest.provides newActor newSvcAllowed manifest.provides
  resumeAll name newActor proxies
  tell old.actor .exit
  return (.ok true, { m with
    retired := m.retired ++ [old]
    plugins := m.plugins.insert name { entry, actor := newActor, manifest } })

/-- `reload_atom`. -/
def reload (m : PluginManager) (name path : Bytes) : Program (Outcome × PluginManager) := do
  match m.plugins[name]? with
  | none => return (.error (str "Plugin not loaded: " ++ name), m)
  | some old =>
    match ← openLibrary path with
    | none => return (.error (str "Failed to load library: " ++ path), m)
    | some lib =>
      if !lib.symbols then return (.error (str "Missing create/destroy symbols in: " ++ path), m)
      else
        let entry ← create
        match reloadRefusal name old.manifest lib.manifest with
        | some reason =>
          destroy entry
          return (.error reason, m)
        | none =>
          match ← resolveDeps name lib.manifest.dependencies with
          | .error dep =>
            destroy entry
            return (.error (str "Missing dep: " ++ dep), m)
          | .ok deps =>
            match ← quiesceAll name [] old.manifest.provides with
            | .error (service, proxies) =>
              resumeAll name old.actor proxies
              destroy entry
              return (.error (str "Reload: failed to quiesce proxy for service: " ++ service), m)
            | .ok proxies => m.reloadQuiesced name old entry lib.manifest deps proxies

/-- `unload_atom`. -/
def unload (m : PluginManager) (name : Bytes) : Program (Outcome × PluginManager) := do
  match m.plugins[name]? with
  | none => return (.ok false, m)
  | some old =>
    quiesceEach name old.manifest.provides
    let _ ← saveState old.actor
    unregisterAll name old.manifest.provides
    let others := (m.plugins.erase name).toList.map fun other => other.2.actor
    if !old.manifest.provides.isEmpty then tellGone old.manifest.provides others
    tell old.actor .exit
    return (.ok true, { m with retired := m.retired ++ [old], plugins := m.plugins.erase name })

/-- `down_msg`: a retired instance is destroyed; a loaded plugin is taken out of the registry and the table. -/
def down (m : PluginManager) (source : Address) : Program (Outcome × PluginManager) := do
  match m.retired.find? fun old => old.actor = source with
  | some old =>
    destroy old.entry
    return (.ok true, { m with retired := m.retired.eraseP fun old => old.actor = source })
  | none =>
    match m.plugins.toList.find? fun plugin => plugin.2.actor = source with
    | some (name, plugin) =>
      unregisterAll name plugin.manifest.provides
      destroy plugin.entry
      return (.ok true, { m with plugins := m.plugins.erase name })
    | none => return (.ok true, m)

end PluginManager

/-- The messages of the plugin manager that change its plugins. -/
inductive ManagerMsg where
  | load (name path : Bytes)
  | reload (name path : Bytes)
  | unload (name : Bytes)
  | down (source : Address)
deriving DecidableEq, Repr

def PluginManager.handler (m : PluginManager) : ManagerMsg → Program (Outcome × PluginManager)
  | .load name path => m.load name path
  | .reload name path => m.reload name path
  | .unload name => m.unload name
  | .down source => m.down source

end Caf.Plugin
