import CafPluginSystem.Plugin.Kahn

/-!
# The load order is a topological order of the providers

`compute_load_order` enters the plugins of a list into a dependency graph and orders them.  The graph it enters is
the graph of providers: an edge from each plugin to the other plugins that provide what it depends on.

* `needs_iff`, `nodes_perm` — the edges and the nodes of the graph are the providers and the plugins.
* `loadOrder_iff` — **the load order**: it is what it should be exactly when the graph has a cycle anyway or no
  plugin depends on one provider through two services.
-/

namespace Caf.Plugin

open EntityStore History Placing List Std.ExtTreeMap StringMap

variable {p : PluginInfo}

/-! ## The graph of providers -/

/-- The provider of a service: of the plugins that provide it, the last one in the list. -/
def providerOf (plugins : List PluginInfo) (service : Bytes) : Option Bytes :=
  (plugins.filter fun p => service ∈ p.manifest.provides).getLast?.map PluginInfo.name

/-- The providers of what a plugin depends on, one for each entry of its list; the plugin itself does not count. -/
def providers (plugins : List PluginInfo) (p : PluginInfo) : List Bytes :=
  p.manifest.dependencies.filterMap fun service => (providerOf plugins service).filter (· ≠ p.name)

/-- The edges of the graph of providers. -/
def Needs (plugins : List PluginInfo) (dependent provider : Bytes) : Prop :=
  ∃ p ∈ plugins, p.name = dependent ∧ provider ∈ providers plugins p

def ProviderCycle (plugins : List PluginInfo) : Prop := ∃ a, Relation.TransGen (Needs plugins) a a

/-- A load order of the plugins: each of them once, behind its providers, and always the one with the least
priority and name among those whose providers are all there. -/
structure IsLoadOrder (plugins : List PluginInfo) (order : List Bytes) : Prop where
  perm : order.Perm (plugins.map PluginInfo.name)
  behind : ∀ front a back, order = front ++ a :: back → ∀ b, Needs plugins a b → b ∈ front
  least : ∀ front p back, p ∈ plugins → order = front ++ p.name :: back →
    ∀ q ∈ plugins, q.name ∉ front → (∀ b, Needs plugins q.name b → b ∈ front) →
    p.manifest.priority < q.manifest.priority ∨
      (p.manifest.priority = q.manifest.priority ∧ p.name ≤ q.name)

open DependencyGraph

lemma registered_services (provides : List Bytes) (g : DependencyGraph) (name service : Bytes) :
    (provides.foldl (fun g service => g.registerService service name) g).serviceProviders[service]?
      = if service ∈ provides then some name else g.serviceProviders[service]? := by
  induction provides generalizing g with
  | nil => simp
  | cons s provides ih =>
    rw [foldl_cons, ih, registerService, lookup_insert]
    by_cases hs : service ∈ provides
    · simp [hs]
    · by_cases heq : s = service
      · simp [heq]
      · simp [hs, heq, Ne.symm heq]

lemma providerOf_cons (p : PluginInfo) (plugins : List PluginInfo) (service : Bytes) :
    providerOf (p :: plugins) service
      = (providerOf plugins service).or (if service ∈ p.manifest.provides then some p.name else none) := by
  unfold providerOf
  by_cases h : service ∈ p.manifest.provides
  · rw [filter_cons_of_pos (by simpa using h), getLast?_cons, if_pos h]
    cases (plugins.filter fun p => service ∈ p.manifest.provides).getLast? <;> rfl
  · rw [filter_cons_of_neg (by simpa using h), if_neg h, Option.or_none]

/-- The first loop of `compute_load_order` enters the provider of each service. -/
lemma registered_providers (plugins : List PluginInfo) (g : DependencyGraph) (service : Bytes) :
    (plugins.foldl (fun g p => p.manifest.provides.foldl
        (fun g service => g.registerService service p.name) g) g).serviceProviders[service]?
      = (providerOf plugins service).or g.serviceProviders[service]? := by
  induction plugins generalizing g with
  | nil => rfl
  | cons p plugins ih =>
    rw [foldl_cons, ih, registered_services, providerOf_cons, Option.or_assoc]
    split <;> rfl

/-- The second loop of `compute_load_order`. -/
def addAll (plugins : List PluginInfo) (g : DependencyGraph) : DependencyGraph :=
  plugins.foldl
    (fun g p => (g.addPlugin p.name p.manifest.dependencies).setPriority p.name p.manifest.priority) g

lemma addAll_cons (p : PluginInfo) (plugins : List PluginInfo) (g : DependencyGraph) :
    addAll (p :: plugins) g = addAll plugins
      ((g.addPlugin p.name p.manifest.dependencies).setPriority p.name p.manifest.priority) := rfl

lemma addAll_of_not_mem (plugins : List PluginInfo) (g : DependencyGraph) {v : Bytes}
    (h : v ∉ plugins.map PluginInfo.name) :
    (addAll plugins g).graph[v]? = g.graph[v]? ∧ (addAll plugins g).priorities[v]? = g.priorities[v]? := by
  induction plugins generalizing g with
  | nil => exact ⟨rfl, rfl⟩
  | cons p plugins ih =>
    rw [map_cons, mem_cons, not_or] at h
    obtain ⟨hg, hp⟩ := ih ((g.addPlugin p.name p.manifest.dependencies).setPriority p.name
      p.manifest.priority) h.2
    rw [addAll_cons, hg, hp]
    simp only [setPriority, addPlugin, lookup_insert, if_neg (Ne.symm h.1), and_self]

lemma addAll_of_mem (plugins : List PluginInfo) (g : DependencyGraph) (all : List PluginInfo)
    (hserv : ∀ s, g.serviceProviders[s]? = providerOf all s) (hd : (plugins.map PluginInfo.name).Nodup) (h : p ∈ plugins) :
    (addAll plugins g).graph[p.name]? = some (providers all p) ∧
      (addAll plugins g).priorities[p.name]? = some p.manifest.priority := by
  induction plugins generalizing g with
  | nil => exact absurd h (by simp)
  | cons q plugins ih =>
    rw [map_cons, nodup_cons] at hd
    rw [addAll_cons]
    obtain rfl | h := mem_cons.mp h
    · obtain ⟨hg, hp⟩ := addAll_of_not_mem plugins ((g.addPlugin p.name p.manifest.dependencies).setPriority
        p.name p.manifest.priority) hd.1
      rw [hg, hp]
      simp only [setPriority, addPlugin, lookup_insert, if_true, hserv, and_true,
        Option.some.injEq, providers]
      refine filterMap_congr fun s _ => ?_
      cases providerOf all s with
      | none => rfl
      | some b => simp [Option.filter_some]
    · exact ih _ hserv hd.2 h

variable {plugins : List PluginInfo}

lemma dependencyGraph_mem (hd : (plugins.map PluginInfo.name).Nodup) (h : p ∈ plugins) :
    (dependencyGraph plugins).graph[p.name]? = some (providers plugins p) ∧
      (dependencyGraph plugins).priorities[p.name]? = some p.manifest.priority :=
  addAll_of_mem plugins _ plugins (fun s => by rw [registered_providers]; simp) hd h

lemma dependencyGraph_not_mem {v : Bytes} (h : v ∉ plugins.map PluginInfo.name) :
    (dependencyGraph plugins).graph[v]? = none := by
  have hkeep : ∀ (l : List PluginInfo) (g : DependencyGraph), (l.foldl (fun g p => p.manifest.provides.foldl
      (fun g service => g.registerService service p.name) g) g).graph = g.graph := by
    intro l
    induction l with
    | nil => intro g; rfl
    | cons p l ih =>
      intro g
      rw [foldl_cons, ih]
      induction p.manifest.provides generalizing g with
      | nil => rfl
      | cons s provides ihs => rw [foldl_cons, ihs]; rfl
  obtain ⟨hg, -⟩ := addAll_of_not_mem plugins (plugins.foldl (fun g p => p.manifest.provides.foldl
    (fun g service => g.registerService service p.name) g) {}) h
  rw [hkeep] at hg
  exact hg.trans (by simp)

section

variable (hd : (plugins.map PluginInfo.name).Nodup)
include hd

lemma dependencyGraph_deps (h : p ∈ plugins) :
    (dependencyGraph plugins).deps p.name = providers plugins p := by
  rw [deps, getD_eq_getD_getElem?, (dependencyGraph_mem hd h).1]
  rfl

/-- The edges that `add_plugin` enters are those of the graph of providers. -/
lemma needs_iff (a b : Bytes) :
    b ∈ (dependencyGraph plugins).deps a ↔ Needs plugins a b := by
  constructor
  · intro h
    by_cases ha : a ∈ plugins.map PluginInfo.name
    · obtain ⟨p, hp, rfl⟩ := mem_map.mp ha
      exact ⟨p, hp, rfl, dependencyGraph_deps hd hp ▸ h⟩
    · rw [deps, getD_eq_getD_getElem?, dependencyGraph_not_mem ha] at h
      exact absurd h (by simp)
  · rintro ⟨p, hp, rfl, hb⟩
    rwa [dependencyGraph_deps hd hp]

lemma cyclic_iff :
    Cyclic (dependencyGraph plugins).deps ↔ ProviderCycle plugins := by
  have : (fun a b => b ∈ (dependencyGraph plugins).deps a) = Needs plugins :=
    funext fun a => funext fun b => propext (needs_iff hd a b)
  rw [Cyclic, this, ProviderCycle]

end

lemma mem_of_mem_providers {b : Bytes} (h : b ∈ providers plugins p) :
    b ∈ plugins.map PluginInfo.name := by
  obtain ⟨s, -, hs⟩ := mem_filterMap.mp h
  obtain ⟨hb, -⟩ := Option.filter_eq_some_iff.mp hs
  obtain ⟨q, hq, rfl⟩ := Option.map_eq_some_iff.mp hb
  exact mem_map_of_mem (mem_of_mem_filter (mem_of_getLast? hq))

/-- Every provider is itself one of the plugins, so the nodes of the graph are the plugins. -/
lemma nodes_perm (hd : (plugins.map PluginInfo.name).Nodup) :
    (dependencyGraph plugins).nodes.Perm (plugins.map PluginInfo.name) := by
  refine (perm_ext_iff_of_nodup (nodes_nodup _) hd).mpr fun v => ?_
  rw [mem_nodes]
  constructor
  · rintro (h | ⟨w, hw⟩)
    · by_contra hv
      rw [mem_iff_isSome_getElem?, dependencyGraph_not_mem hv] at h
      exact absurd h (by simp)
    · obtain ⟨p, -, -, hb⟩ := (needs_iff hd w v).mp hw
      exact mem_of_mem_providers hb
  · intro hv
    obtain ⟨p, hp, rfl⟩ := mem_map.mp hv
    refine .inl (mem_iff_isSome_getElem?.mpr ?_)
    rw [(dependencyGraph_mem hd hp).1]
    rfl

lemma ranksUpTo_iff (hd : (plugins.map PluginInfo.name).Nodup) {q : PluginInfo} (hp : p ∈ plugins) (hq : q ∈ plugins) :
    (dependencyGraph plugins).RanksUpTo p.name q.name ↔ p.manifest.priority < q.manifest.priority ∨
      (p.manifest.priority = q.manifest.priority ∧ p.name ≤ q.name) := by
  rw [RanksUpTo, getD_eq_getD_getElem?, getD_eq_getD_getElem?,
    (dependencyGraph_mem hd hp).2, (dependencyGraph_mem hd hq).2]
  rfl

/-! ## The load order -/

/-- No plugin has two dependencies with the same provider. -/
def NoRepeatedProvider (plugins : List PluginInfo) : Prop := ∀ p ∈ plugins, (providers plugins p).Nodup

instance (plugins : List PluginInfo) : Decidable (NoRepeatedProvider plugins) :=
  inferInstanceAs (Decidable (∀ p ∈ plugins, _))

section

variable (hd : (plugins.map PluginInfo.name).Nodup)
include hd

lemma nodes_noRepeated_iff :
    (∀ v ∈ (dependencyGraph plugins).nodes, ((dependencyGraph plugins).deps v).Nodup) ↔
      NoRepeatedProvider plugins := by
  constructor
  · intro h p hp
    rw [← dependencyGraph_deps hd hp]
    exact h p.name ((nodes_perm hd).mem_iff.mpr (mem_map_of_mem hp))
  · intro h v hv
    obtain ⟨p, hp, rfl⟩ := mem_map.mp ((nodes_perm hd).mem_iff.mp hv)
    rw [dependencyGraph_deps hd hp]
    exact h p hp

/-- An order in which every node was chosen when it was placed is a load order. -/
lemma isLoadOrder_of_chosen {placed : List Bytes}
    (hb : Books (dependencyGraph plugins).deps (dependencyGraph plugins).nodes placed [])
    (hg : Guarded (dependencyGraph plugins).Chosen placed) (hrep : NoRepeatedProvider plugins)
    (hlen : placed.length = (dependencyGraph plugins).nodes.length) : IsLoadOrder plugins placed := by
  have hp := hb.placed_nodup
  have hperm : placed.Perm (dependencyGraph plugins).nodes :=
    (hp.subperm fun v hv => ((hb.mem_iff v).mp (by simpa using hv)).1).perm_of_length_le hlen.ge
  have hfront : ∀ front v back, placed = front ++ v :: back → front.Nodup := by
    rintro front v back rfl
    exact (nodup_append.mp hp).1
  refine ⟨hperm.trans (nodes_perm hd), ?_, ?_⟩
  · intro front a back hsplit b hab
    have h0 := (hg front a back hsplit).1
    exact ((openCount_eq_zero_iff (hfront front a back hsplit)).mp h0).2 b ((needs_iff hd a b).mpr hab)
  · intro front p back hpm hsplit q hq hqf hneeds
    refine (ranksUpTo_iff hd hpm hq).mp ((hg front p.name back hsplit).2 q.name ?_ hqf ?_)
    · exact (nodes_perm hd).mem_iff.mpr (mem_map_of_mem hq)
    · refine (openCount_eq_zero_iff (hfront front _ back hsplit)).mpr ⟨?_, fun d hdep => ?_⟩
      · rw [dependencyGraph_deps hd hq]
        exact hrep q hq
      · exact hneeds d ((needs_iff hd q.name d).mp hdep)

lemma computeLoadOrder_cyclic (hc : ProviderCycle plugins) :
    computeLoadOrder plugins = [] := by
  unfold computeLoadOrder
  simp only
  split
  · rfl
  · obtain ⟨placed, hb, hg, heq⟩ := (dependencyGraph plugins).topologicalOrder_spec
    rw [heq, if_neg]
    intro hlen
    exact ((complete_iff hb hg).mp hlen).1 ((cyclic_iff hd).mpr hc)

/-- Without a cycle the load order is complete exactly when no plugin has a repeated provider. -/
lemma computeLoadOrder_acyclic (hc : ¬ ProviderCycle plugins) :
    (NoRepeatedProvider plugins → IsLoadOrder plugins (computeLoadOrder plugins)) ∧
      (¬ NoRepeatedProvider plugins → computeLoadOrder plugins = []) := by
  have hacyc : ¬ Cyclic (dependencyGraph plugins).deps := fun h => hc ((cyclic_iff hd).mp h)
  obtain ⟨placed, hb, hg, heq⟩ := (dependencyGraph plugins).topologicalOrder_spec
  have horder : computeLoadOrder plugins = (dependencyGraph plugins).topologicalOrder := by
    exact if_neg (by simp [hasCycleFrom_acyclic.mpr hacyc])
  have hcomp : placed.length = (dependencyGraph plugins).nodes.length ↔ NoRepeatedProvider plugins := by
    rw [complete_iff hb hg, nodes_noRepeated_iff hd]
    exact and_iff_right hacyc
  rw [horder, heq]
  constructor
  · intro hrep
    rw [if_pos (hcomp.mpr hrep)]
    exact isLoadOrder_of_chosen hd hb hg hrep (hcomp.mpr hrep)
  · intro hrep
    exact if_neg fun hlen => hrep (hcomp.mp hlen)

end

/-- **The load order.**  For plugins with distinct names, `compute_load_order` gives the empty list exactly for
no plugins or a cyclic graph of providers, and otherwise a load order, if and only if the graph is cyclic or no
plugin depends on two services of one provider. -/
theorem loadOrder_iff (hd : (plugins.map PluginInfo.name).Nodup) :
    ((computeLoadOrder plugins = [] ↔ plugins = [] ∨ ProviderCycle plugins) ∧
        (¬ (plugins = [] ∨ ProviderCycle plugins) → IsLoadOrder plugins (computeLoadOrder plugins))) ↔
      ProviderCycle plugins ∨ NoRepeatedProvider plugins := by
  by_cases hc : ProviderCycle plugins
  · simp [hc, computeLoadOrder_cyclic hd hc]
  · obtain ⟨hgood, hbad⟩ := computeLoadOrder_acyclic hd hc
    simp only [hc, or_false, false_or]
    constructor
    · rintro ⟨hempty, -⟩ p hp
      by_contra hrep
      have hnil := hempty.mp (hbad fun h => hrep (h p hp))
      exact absurd hp (by simp [hnil])
    · intro hrep
      have horder := hgood hrep
      refine ⟨?_, fun _ => horder⟩
      constructor
      · intro hnil
        have := horder.perm
        rw [hnil] at this
        simpa using this.symm.eq_nil
      · rintro rfl
        simpa using horder.perm.eq_nil

namespace Sample

/-- A game on a store, a log and a database below the store. -/
def layered : List PluginInfo :=
  [{ name := str "game", manifest := { dependencies := [str "store", str "log"] } },
    { name := str "store", manifest := { provides := [str "store"], dependencies := [str "db"] } },
    { name := str "db", manifest := { provides := [str "db"] } },
    { name := str "log", manifest := { provides := [str "log"], priority := -1 } }]

/-- A game that loads and saves through the two services of one store. -/
def twoServices : List PluginInfo :=
  [{ name := str "game", manifest := { dependencies := [str "load", str "save"] } },
    { name := str "store", manifest := { provides := [str "load", str "save"] } }]

end Sample

/-- The layered plugins have no repeated provider, and their load order is right. -/
theorem loadOrder_iff_layered :
    (computeLoadOrder Sample.layered = [] ↔ Sample.layered = [] ∨ ProviderCycle Sample.layered) ∧
      (¬ (Sample.layered = [] ∨ ProviderCycle Sample.layered) →
        IsLoadOrder Sample.layered (computeLoadOrder Sample.layered)) :=
  (loadOrder_iff (by decide +kernel)).mpr (.inr (by decide +kernel))

lemma needs_twoServices {a b : Bytes} (h : Needs Sample.twoServices a b) : a = str "game" ∧ b = str "store" := by
  obtain ⟨p, hp, rfl, hb⟩ := h
  have hall : ∀ p ∈ Sample.twoServices, ∀ b ∈ providers Sample.twoServices p,
      p.name = str "game" ∧ b = str "store" := by decide +kernel
  exact hall p hp b hb

/-- Two services of one provider: there is no cycle, but the count of the dependent never comes down to zero and
the load order is empty. -/
theorem loadOrder_twoServices :
    (Sample.twoServices.map PluginInfo.name).Nodup ∧ Sample.twoServices ≠ [] ∧
      ¬ ProviderCycle Sample.twoServices ∧ computeLoadOrder Sample.twoServices = [] := by
  refine ⟨by decide +kernel, by simp [Sample.twoServices], ?_, by decide +kernel⟩
  rintro ⟨a, ha⟩
  obtain ⟨b, hab, -⟩ := Relation.TransGen.head'_iff.mp ha
  obtain ⟨c, -, hca⟩ := Relation.TransGen.tail'_iff.mp ha
  have hgame := (needs_twoServices hab).1
  have hstore := (needs_twoServices hca).2
  exact absurd (hgame.symm.trans hstore) (by decide)

end Caf.Plugin
