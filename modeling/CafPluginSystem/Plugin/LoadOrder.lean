import CafPluginSystem.EntityStore.Schema

/-!
# The load order of plugins

`DependencyGraph` of `src/core/dependency_graph.hpp` and `compute_load_order` of `plugin_loader.cpp`.  A
plugin depends on the services that other plugins provide; the load order is a topological order of the graph of
providers, in which the priority queue of Kahn's algorithm takes the plugin with the smallest priority first.

The order in which an `unordered_map` is gone through has no influence: the queue is ordered by priority and name.
-/

namespace Caf.Plugin

open EntityStore

/-- The members of `plugin_manifest` that the load order depends on. -/
structure PluginManifest where
  provides : List Bytes := []
  dependencies : List Bytes := []
  priority : ℤ := 0
  deriving Repr

structure PluginInfo where
  name : Bytes
  manifest : PluginManifest := {}
  deriving Repr

structure DependencyGraph where
  graph : StringMap (List Bytes) := ∅
  serviceProviders : StringMap Bytes := ∅
  priorities : StringMap ℤ := ∅

namespace DependencyGraph

/-- The last plugin that registers a service is its provider. -/
def registerService (g : DependencyGraph) (service plugin : Bytes) : DependencyGraph :=
  { g with serviceProviders := g.serviceProviders.insert service plugin }

/-- An edge for each service that another plugin provides; services without a provider are skipped, and a provider
of several services gets several edges. -/
def addPlugin (g : DependencyGraph) (name : Bytes) (serviceDeps : List Bytes) : DependencyGraph :=
  let pluginDeps := serviceDeps.filterMap fun service =>
    match g.serviceProviders[service]? with
    | some provider => if provider ≠ name then some provider else none
    | none => none
  { g with graph := g.graph.insert name pluginDeps }

def setPriority (g : DependencyGraph) (name : Bytes) (priority : ℤ) : DependencyGraph :=
  { g with priorities := g.priorities.insert name priority }

/-- The depth-first search: whether it meets a cycle, and the nodes that are done.  `visiting` is the path to the
node; its length bounds the depth, so `fuel` does not run out when it exceeds the number of nodes. -/
def dfs (g : DependencyGraph) : ℕ → Bytes → List Bytes → List Bytes → Bool × List Bytes
  | 0, _, _, visited => (true, visited)
  | fuel + 1, node, visiting, visited =>
    if node ∈ visiting then (true, visited)
    else if node ∈ visited then (false, visited)
    else
      let (cycle, visited) := (g.graph.getD node []).foldl
        (fun (found : Bool × List Bytes) dep =>
          if found.1 then found else dfs g fuel dep (node :: visiting) found.2)
        (false, visited)
      if cycle then (true, visited) else (false, node :: visited)

def hasCycleFrom (g : DependencyGraph) (name : Bytes) : Bool := (g.dfs (g.graph.size + 2) name [] []).1

/-- The number of edges of each node; a provider that was not added has none. -/
def inDegree (g : DependencyGraph) : StringMap ℤ :=
  g.graph.toList.foldl
    (fun degrees entry => entry.2.foldl (fun degrees dep => degrees.insertIfNew dep 0)
      (degrees.insert entry.1 entry.2.length)) ∅

/-- Whether `a` leaves the queue before `b`. -/
def leavesBefore (g : DependencyGraph) (a b : Bytes) : Bool :=
  let pa := g.priorities.getD a 0
  let pb := g.priorities.getD b 0
  if pa ≠ pb then pa < pb else a < b

/-- The top of the priority queue. -/
def top (g : DependencyGraph) : List Bytes → Option Bytes
  | [] => none
  | a :: q => some (q.foldl (fun best b => if g.leavesBefore b best then b else best) a)

/-- A node that depends on `u` has one edge less; without edges it enters the queue. -/
def release (u : Bytes) (work : StringMap ℤ × List Bytes) (entry : Bytes × List Bytes) :
    StringMap ℤ × List Bytes :=
  if u ∈ entry.2 then
    let degree := work.1.getD entry.1 0 - 1
    (work.1.insert entry.1 degree, if degree = 0 then work.2 ++ [entry.1] else work.2)
  else work

/-- The main loop of Kahn's algorithm; each round takes a node of its own from the queue. -/
def kahn (g : DependencyGraph) : ℕ → StringMap ℤ → List Bytes → List Bytes → List Bytes
  | 0, _, _, result => result
  | fuel + 1, degrees, q, result =>
    match g.top q with
    | none => result
    | some u =>
      let (degrees, q) := g.graph.toList.foldl (release u) (degrees, q.erase u)
      g.kahn fuel degrees q (result ++ [u])

def topologicalOrder (g : DependencyGraph) : List Bytes :=
  let degrees := g.inDegree
  let q := (degrees.toList.filter fun entry => entry.2 = 0).map Prod.fst
  let result := g.kahn degrees.size degrees q []
  if result.length ≠ degrees.size then [] else result

end DependencyGraph

open DependencyGraph in
/-- The graph of a list of plugins. -/
def dependencyGraph (plugins : List PluginInfo) : DependencyGraph :=
  let g := plugins.foldl
    (fun g p => p.manifest.provides.foldl (fun g service => g.registerService service p.name) g) {}
  plugins.foldl (fun g p => (g.addPlugin p.name p.manifest.dependencies).setPriority p.name p.manifest.priority) g

def computeLoadOrder (plugins : List PluginInfo) : List Bytes :=
  let g := dependencyGraph plugins
  if plugins.any fun p => g.hasCycleFrom p.name then [] else g.topologicalOrder

/-- A plugin depends on a service that the other one provides. -/
def DependsOn (plugins : List PluginInfo) (dependent provider : Bytes) : Prop :=
  ∃ d ∈ plugins, d.name = dependent ∧ ∃ p ∈ plugins, p.name = provider ∧
    ∃ service ∈ d.manifest.dependencies, service ∈ p.manifest.provides

instance DependsOn.decidable (plugins : List PluginInfo) (dependent provider : Bytes) :
    Decidable (DependsOn plugins dependent provider) :=
  inferInstanceAs (Decidable (∃ d ∈ plugins, d.name = dependent ∧ ∃ p ∈ plugins, p.name = provider ∧
    ∃ service ∈ d.manifest.dependencies, service ∈ p.manifest.provides))

/-- A provider is loaded before the plugins that depend on it; of the others the smaller priority comes first. -/
example : computeLoadOrder
    [{ name := str "game", manifest := { dependencies := [str "store", str "log"] } },
      { name := str "store", manifest := { provides := [str "store"], dependencies := [str "db"], priority := 100 } },
      { name := str "db", manifest := { provides := [str "db"] } },
      { name := str "log", manifest := { provides := [str "log"], priority := -1 } }] =
    [str "log", str "db", str "store", str "game"] := by
  decide +kernel

end Caf.Plugin
