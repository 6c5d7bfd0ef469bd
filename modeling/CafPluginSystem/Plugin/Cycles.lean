import CafPluginSystem.Plugin.ComputeLoadOrder
import CafPluginSystem.Plugin.Ownership

/-!
# Refused loads

A load enters its plugin into the dependency graph and is refused if the search finds a cycle.  The graph is entered
before the load is known to succeed, and neither a failed load nor an unload takes anything out: its edges and providers
may be those of plugins that are not there any more, or never were.

* `refused_cycle` — in every run, a load that is refused for a cycle has one, **if what the graph says about the others is
  still true** and the loaded plugins have no cycle of their own.
* `refused_alone` — otherwise it need not: a plugin is refused although no other one is loaded.
-/

namespace Caf.Plugin

open EntityStore Service Interaction Placing Option Machine

variable {μ : Type}

/-! ## The graph and the plugins -/

/-- The loaded plugins with their manifests. -/
def PluginManager.infos (m : PluginManager) : List PluginInfo :=
  m.plugins.toList.map fun plugin => { name := plugin.1, manifest := plugin.2.manifest.toPluginManifest }

/-- The loaded plugins and a candidate. -/
def PluginManager.infosWith (m : PluginManager) (name : Bytes) (manifest : Manifest) : List PluginInfo :=
  { name, manifest := manifest.toPluginManifest } :: m.infos

/-- What the graph says is true of the loaded plugins and the candidate: the edges of the others, and the providers of what
the candidate depends on; and the loaded plugins have no cycle of their own. -/
structure Current (m : PluginManager) (name : Bytes) (manifest : Manifest) : Prop where
  edges : ∀ entry ∈ m.depGraph.graph.toList, entry.1 ≠ name → ∀ dep ∈ entry.2,
    DependsOn (m.infosWith name manifest) entry.1 dep
  providers : ∀ service ∈ manifest.dependencies, service ∉ manifest.provides →
    ∀ provider ∈ m.depGraph.serviceProviders[service]?, provider ≠ name →
      DependsOn (m.infosWith name manifest) name provider
  acyclic : ∀ a, ¬ Relation.TransGen (DependsOn m.infos) a a

section Cycles

variable {m : PluginManager} {name : Bytes} {manifest : Manifest}

open DependencyGraph PluginManager

/-- The loop over the services of a plugin leaves the edges alone. -/
lemma registered_graph (provides : List Bytes) (g : DependencyGraph) (name : Bytes) :
    (provides.foldl (fun g service => g.registerService service name) g).graph = g.graph := by
  induction provides generalizing g with
  | nil => rfl
  | cons service provides ih =>
    rw [List.foldl_cons, ih]
    rfl

/-- Every edge of the graph with the candidate is a dependency. -/
lemma Current.real (h : Current m name manifest) {a b : Bytes} (hedge : b ∈ (enterGraph m.depGraph name manifest).deps a) :
    DependsOn (m.infosWith name manifest) a b := by
  rw [deps, Std.ExtTreeMap.getD_eq_getD_getElem?, enterGraph, addPlugin] at hedge
  simp only [StringMap.lookup_insert, registered_graph] at hedge
  by_cases ha : name = a
  · subst ha
    rw [if_pos rfl, getD_some] at hedge
    obtain ⟨service, hsvc, hprov⟩ := List.mem_filterMap.mp hedge
    rw [registered_services] at hprov
    by_cases hown : service ∈ manifest.provides
    · simp [hown] at hprov
    · rw [if_neg hown] at hprov
      cases hp : m.depGraph.serviceProviders[service]? with
      | none => simp [hp] at hprov
      | some provider =>
        obtain ⟨hne, rfl⟩ : provider ≠ name ∧ provider = b := by simpa [hp] using hprov
        exact h.providers service hsvc hown provider hp hne
  · rw [if_neg ha] at hedge
    cases hentry : m.depGraph.graph[a]? with
    | none => simp [hentry] at hedge
    | some edges =>
      refine h.edges (a, edges) (Std.ExtTreeMap.mem_toList_iff_getElem?_eq_some.mpr hentry) (Ne.symm ha) b ?_
      simpa [hentry] using hedge

/-- A dependency between others than the candidate is one of the loaded plugins. -/
lemma dependsOn_loaded {a b : Bytes} (h : DependsOn (m.infosWith name manifest) a b) (ha : a ≠ name) (hb : b ≠ name) :
    DependsOn m.infos a b := by
  obtain ⟨d, hd, rfl, p, hp, rfl, hsvc⟩ := h
  have hmem : ∀ {x}, x ∈ m.infosWith name manifest → x.name ≠ name → x ∈ m.infos := by
    intro x hx hne
    rcases List.mem_cons.mp hx with rfl | hx
    · exact absurd rfl hne
    · exact hx
  exact ⟨d, hmem hd ha, rfl, p, hmem hp hb, rfl, hsvc⟩

/-- A chain avoids a node or leads through it. -/
lemma chain_avoids {α : Type} {R : α → α → Prop} (n : α) {a b : α} (h : Relation.TransGen R a b) :
    Relation.TransGen (fun x y => R x y ∧ x ≠ n ∧ y ≠ n) a b ∧ b ≠ n ∨
      Relation.ReflTransGen R a n ∧ Relation.ReflTransGen R n b := by
  induction h with
  | @single b hab =>
    by_cases ha : a = n
    · subst ha
      exact .inr ⟨.refl, .single hab⟩
    · by_cases hb : b = n
      · subst hb
        exact .inr ⟨.single hab, .refl⟩
      · exact .inl ⟨.single ⟨hab, ha, hb⟩, hb⟩
  | @tail b c hab hbc ih =>
    by_cases hc : c = n
    · subst hc
      exact .inr ⟨(hab.tail hbc).to_reflTransGen, .refl⟩
    · rcases ih with ⟨havoid, hb⟩ | ⟨hto, hfrom⟩
      · exact .inl ⟨havoid.tail ⟨hbc, hb, hc⟩, hc⟩
      · exact .inr ⟨hto, hfrom.tail hbc⟩

/-- **A cycle that is found leads through the candidate.** -/
theorem Current.genuine (h : Current m name manifest)
    (hfound : (enterGraph m.depGraph name manifest).hasCycleFrom name = true) :
    Relation.TransGen (DependsOn (m.infosWith name manifest)) name name := by
  have hcyclic : Cyclic (enterGraph m.depGraph name manifest).deps := by
    by_contra hacyclic
    simp [hasCycleFrom_acyclic.mpr hacyclic] at hfound
  obtain ⟨a, hcycle⟩ := hcyclic
  have hreal : Relation.TransGen (DependsOn (m.infosWith name manifest)) a a :=
    Relation.TransGen.mono (fun _ _ hedge => h.real hedge) a a hcycle
  rcases chain_avoids name hreal with ⟨havoid, -⟩ | ⟨hto, hfrom⟩
  · -- a cycle of the loaded plugins alone
    refine absurd (Relation.TransGen.mono (fun x y hxy => ?_) a a havoid) (h.acyclic a)
    exact dependsOn_loaded hxy.1 hxy.2.1 hxy.2.2
  · exact Relation.TransGen.trans_right hfrom (Relation.TransGen.trans_left hreal hto)

end Cycles

/-! ## The outcome of a load -/

/-- An account in which an operation may be answered by anything: what holds by it at the end of a program holds of
everything that the program can return. -/
def anything : Account Op Op.Reply Unit where
  may := fun _ _ => True
  does := fun _ _ _ _ => True

lemma ends_anything {α : Type} (p : Program α) : Ends anything p (fun _ _ => True) () := by
  induction p with
  | ret a => trivial
  | ask e k ih => exact ⟨trivial, fun r _ _ => ih r⟩

/-- A load is refused for a cycle only if the search finds one. -/
def Found (g : DependencyGraph) (name : Bytes) (done : Outcome × PluginManager) : Prop :=
  done.1 = .error (str "Circular dependency") → g.hasCycleFrom name = true

lemma missing_ne_circular (dep : Bytes) : str "Missing dep: " ++ dep ≠ str "Circular dependency" := by
  intro h
  have hfirst := congrArg List.head? h
  exact absurd hfirst (by simp [str])

/-- What a load can come to once its library is open. -/
lemma ends_opened (m : PluginManager) {name : Bytes} (path : Bytes) (hfresh : name ∉ m.plugins) (lib : Library) :
    ∃ k, m.load name path = .ask (.openLibrary path) k ∧
      Ends anything (k (some lib)) (fun done _ => Found (PluginManager.enterGraph m.depGraph name lib.manifest) name done) () := by
  unfold PluginManager.load
  rw [if_neg hfresh]
  refine ⟨_, rfl, ?_⟩
  simp only [Program.ret_bind]
  by_cases hsymbols : lib.symbols = true
  · simp only [hsymbols, Bool.not_true, Bool.false_eq_true, if_false]
    refine ⟨trivial, fun entry _ _ => ?_⟩
    simp only [Program.ret_bind]
    split
    · rename_i hcycle
      exact ⟨trivial, fun _ _ _ _ => hcycle⟩
    · refine (ends_anything _).bind fun deps _ _ => ?_
      cases deps with
      | error dep =>
        refine ⟨trivial, fun _ _ _ hcircular => ?_⟩
        exact absurd (Except.error.inj hcircular) (missing_ne_circular dep)
      | ok deps =>
        -- once the dependencies are resolved the load succeeds
        have hok : Ends anything (PluginManager.loadResolved
            { m with depGraph := PluginManager.enterGraph m.depGraph name lib.manifest } name entry lib.manifest deps)
            (fun done _ => done.1 = .ok true) () := by
          refine (ends_anything _).bind fun state _ _ => (ends_anything _).bind fun actor _ _ =>
            (ends_anything _).bind fun _ _ _ => ?_
          split
          · exact (ends_anything _).bind fun _ _ _ => (ends_anything _).bind fun _ _ _ => rfl
          · rfl
        refine hok.mono fun done _ hdone hcircular => ?_
        simp [hdone] at hcircular
  · simp only [hsymbols, Bool.not_false, if_true]
    intro hcircular
    simp at hcircular

/-! ## Runs -/

/-- What a handler can still return. -/
def Returns (Q : Outcome × PluginManager → Prop) (s : System μ) : Prop :=
  ∃ task, s.running = some task ∧ Ends anything task.rest (fun done _ => Q done) ()

/-- It is what the handler returns in the end. -/
lemma run_returns {Q : Outcome × PluginManager → Prop} : ∀ {es : List (System.Event μ)} {s t : System μ},
    (∀ e ∈ es, e ≠ .finish) → Returns Q s → Machine.run System.step s es = some t → Returns Q t := by
  intro es s t hes hs hrun
  refine run_invariant_where (C := fun _ e => e ≠ .finish) (I := Returns Q) ?_ hs
    (Machine.RunWhere.of_forall fun e he _ => hes e he) hrun
  rintro s e s' ⟨task, htask, hends⟩ hne hstep
  cases e with
  | receive msg => simp [System.step, htask] at hstep
  | finish => exact absurd rfl hne
  | background event =>
    obtain ⟨w, -, rfl⟩ := map_eq_some_iff.mp hstep
    exact ⟨task, htask, hends⟩
  | perform choice =>
    obtain ⟨msg, since, rest⟩ := task
    cases rest with
    | ret done => simp [System.step, htask] at hstep
    | ask e k =>
      obtain ⟨done, -, rfl⟩ : ∃ done, s.world.perform e choice = some done ∧
          { s with running := some ⟨msg, since, k done.1⟩, world := done.2 } = s' := by
        simpa [System.step, htask] using hstep
      exact ⟨_, rfl, hends.2 done.1 () trivial⟩

/-- The world moves on while the manager waits. -/
lemma run_background : ∀ {events : List (World.Background μ)} {s t : System μ},
    Machine.run System.step s (events.map .background) = some t → t.running = s.running ∧ t.manager = s.manager := by
  intro events
  induction events with
  | nil =>
    intro s t hrun
    obtain rfl := some.inj hrun
    exact ⟨rfl, rfl⟩
  | cons event events ih =>
    intro s t hrun
    obtain ⟨u, hu, hrest⟩ := run_cons.mp hrun
    obtain ⟨w, -, rfl⟩ := map_eq_some_iff.mp hu
    obtain ⟨hrunning, hmanager⟩ := ih hrest
    exact ⟨hrunning, hmanager⟩

/-- The events of a load whose path holds a library, from the message to the end of the handler. -/
def loadEvents (name path : Bytes) (lib : Library) (events : List (World.Background μ)) (es : List (System.Event μ)) :
    List (System.Event μ) :=
  .receive (.load name path) :: (events.map .background ++ .perform (.library (some lib)) :: (es ++ [.finish]))

/-- **Refused loads.**  In every run: if a load is refused for a cycle, and what the graph said was true when it was taken
up, then the plugins that were loaded and the candidate have a cycle of dependencies through the candidate. -/
theorem refused_cycle {core : List (Bytes × Address)} {cross : Bool} {before es : List (System.Event μ)}
    {events : List (World.Background μ)} {name path : Bytes} {lib : Library} {t : System μ}
    (hrun : Machine.run System.step (startSystem core cross) (before ++ loadEvents name path lib events es) = some t)
    (hes : ∀ e ∈ es, e ≠ .finish)
    (hrefused : t.history.getLast?.map (·.outcome) = some (.error (str "Circular dependency"))) :
    ∃ s, Machine.run System.step (startSystem core cross) before = some s ∧
      (Current s.manager name lib.manifest →
        Relation.TransGen (DependsOn (s.manager.infosWith name lib.manifest)) name name) := by
  obtain ⟨s, hbefore, hload⟩ := run_append.mp hrun
  refine ⟨s, hbefore, fun hcur => ?_⟩
  obtain ⟨s₁, hs₁, hload⟩ := run_cons.mp hload
  obtain ⟨s₂, hs₂, hload⟩ := run_append.mp hload
  obtain ⟨s₃, hs₃, hload⟩ := run_cons.mp hload
  obtain ⟨s₄, hs₄, hfinish⟩ := run_append.mp hload
  -- the message is taken up
  have hidle : s.running = none := by
    cases hrunning : s.running with
    | none => rfl
    | some task => simp [System.step, hrunning] at hs₁
  obtain rfl : { s with running := some ⟨.load name path, s.world, s.manager.load name path⟩ } = s₁ := by
    simpa [System.step, hidle, PluginManager.handler] using hs₁
  obtain ⟨hrunning, -⟩ := run_background hs₂
  -- the library is opened
  have hfresh : name ∉ s.manager.plugins := by
    intro hmem
    have hret : s.manager.load name path = .ret (.error (str "Already loaded"), s.manager) := by
      rw [PluginManager.load, if_pos hmem]
      rfl
    simp [System.step, hrunning, hret] at hs₃
  obtain ⟨k, hk, hends⟩ := ends_opened s.manager path hfresh lib
  have hreturns : Returns (Found (PluginManager.enterGraph s.manager.depGraph name lib.manifest) name) s₃ := by
    obtain rfl : { s₂ with running := some ⟨.load name path, s.world, k (some lib)⟩ } = s₃ := by
      simpa [System.step, hrunning, hk, World.perform] using hs₃
    exact ⟨_, rfl, hends⟩
  -- and the handler comes to its end
  obtain ⟨⟨msg, since, rest⟩, htask, hleaf⟩ := run_returns hes hreturns hs₄
  have hlast := run_singleton.mp hfinish
  cases rest with
  | ask e k => simp [System.step, htask] at hlast
  | ret done =>
    obtain rfl : { s₄ with manager := done.2, running := none, history := s₄.history ++
        [{ msg, before := s₄.manager, since, outcome := done.1, after := done.2 }] } = t := by
      simpa [System.step, htask] using hlast
    exact hcur.genuine (hleaf (by simpa using hrefused))

namespace Sample

/-- A manifest with one service that depends on another one. -/
def needing (name service dependency : Bytes) : Manifest :=
  { name, provides := [service], dependencies := [dependency] }

/-- The plugin `a` is loaded, then `b`, which depends on its service, and `a` is unloaded. -/
def depending : List (System.Event Unit) :=
  loading (providing (str "a") (str "s")) ++
    [.background .registry, .receive (.load (str "b") []),
      .perform (.library (some ⟨true, needing (str "b") (str "t") (str "s")⟩)), .perform .go, .perform .go,
      .background .registry, .perform .go, .perform (.state []), .perform .go, .perform .go, .perform .go, .perform .go,
      .finish, .background .registry] ++
    unloading (str "a") ⟨0, 2⟩ ⟨0, 1⟩

def deserted : System Unit := (Machine.run System.step (startSystem [] false) depending).get (by decide +kernel)

/-- Another version of `a` depends on the service of `b`. -/
def returning : List (System.Event Unit) :=
  loadEvents (str "a") [] ⟨true, needing (str "a") (str "s") (str "t")⟩ [] [.perform .go, .perform .go]

def refused : System Unit :=
  (Machine.run System.step (startSystem [] false) (depending ++ returning)).get (by decide +kernel)

/-- The plugin `a` depends on `t`, which nobody provides. -/
def first : List (System.Event Unit) :=
  [.receive (.load (str "a") []), .perform (.library (some ⟨true, needing (str "a") (str "s") (str "t")⟩)), .perform .go,
    .perform .go, .background .registry, .perform .go, .perform .go, .finish]

/-- The plugin `b` would provide it, and depends on `s`, which nobody provides either. -/
def second : List (System.Event Unit) :=
  [.receive (.load (str "b") []), .perform (.library (some ⟨true, needing (str "b") (str "t") (str "s")⟩)), .perform .go,
    .perform .go, .background .registry, .perform .go, .perform .go, .finish]

lemma current_deserted : Current deserted.manager (str "a") (needing (str "a") (str "s") (str "t")) where
  edges := by decide +kernel
  providers := by decide +kernel
  acyclic := by
    -- the only plugin that is left does not depend on itself
    have hnone : ∀ d ∈ deserted.manager.infos, ∀ p ∈ deserted.manager.infos, ∀ service ∈ d.manifest.dependencies,
        service ∉ p.manifest.provides := by decide +kernel
    intro a hcycle
    obtain ⟨b, ⟨d, hd, -, p, hp, -, service, hs, hprov⟩, -⟩ := Relation.TransGen.head'_iff.mp hcycle
    exact hnone d hd p hp service hs hprov

end Sample

/-- `b` is loaded and depends on the service of `a`, which in its new version depends on `b`. -/
theorem refused_cycle_returning :
    Relation.TransGen (DependsOn (Sample.deserted.manager.infosWith (str "a")
      (Sample.needing (str "a") (str "s") (str "t")))) (str "a") (str "a") := by
  have href : Sample.refused.history.getLast?.map (·.outcome) = some (.error (str "Circular dependency")) := by
    decide +kernel
  obtain ⟨s, hs, hgenuine⟩ := refused_cycle (some_get _).symm (by simp) href
  obtain rfl : s = Sample.deserted := some.inj (hs.symm.trans (some_get _).symm)
  exact hgenuine Sample.current_deserted

/-- Both loads fail; then `a` is refused for a cycle although no plugin is loaded. -/
theorem refused_alone :
    ((Machine.run System.step (startSystem [] false) (Sample.first ++ Sample.second ++ Sample.returning)).map fun s =>
        (s.manager.plugins.toList.map Prod.fst, s.history.map (·.outcome)))
      = some ([], [.error (str "Missing dep: t"), .error (str "Missing dep: s"), .error (str "Circular dependency")]) ∧
    ¬ Relation.TransGen (DependsOn (({} : PluginManager).infosWith (str "a")
      (Sample.needing (str "a") (str "s") (str "t")))) (str "a") (str "a") := by
  refine ⟨by decide +kernel, fun hcycle => ?_⟩
  have hnone : ∀ d ∈ ({} : PluginManager).infosWith (str "a") (Sample.needing (str "a") (str "s") (str "t")),
      ∀ p ∈ ({} : PluginManager).infosWith (str "a") (Sample.needing (str "a") (str "s") (str "t")),
      ∀ service ∈ d.manifest.dependencies, service ∉ p.manifest.provides := by decide +kernel
  obtain ⟨b, ⟨d, hd, -, p, hp, -, service, hs, hprov⟩, -⟩ := Relation.TransGen.head'_iff.mp hcycle
  exact hnone d hd p hp service hs hprov

end Caf.Plugin
