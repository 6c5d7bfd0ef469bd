import CafPluginSystem.Plugin.LoadOrder
import CafPluginSystem.Shutdown.Barrier

/-!
# The order in which plugins are stopped

`bootstrap_system_components` of `src/core/framework_bootstrap.cpp` gives the coordinator the reversed load order, so that
dependents are stopped first.  The coordinator takes its plugins from the back of the list (`told_from_back`), which
reverses it again: plugins are stopped in the order in which they were loaded.  So a provider is told to stop after
the plugins that depend on it only if they stand in front of it in the load order (`stop_order_dependents`).
-/

namespace Caf.Shutdown

open EntityStore Machine History Plugin List

variable {c c' : Coordinator} {name : Bytes} {order : List Bytes} {loaded : Bytes → Prop}

/-- `get_stop_order`: the configured order, or else the reversed load order. -/
def getStopOrder (shutdownOrder loadOrder : List Bytes) : List Bytes :=
  if shutdownOrder ≠ [] then shutdownOrder else loadOrder.reverse

/-! ## From the back of the list -/

/-- The plugin that is told something: to drain, to return its state or to end. -/
def Act.tells : Act → Option Bytes
  | .drain name _ | .requested (.saveState name _) | .shutdown name _ => some name
  | _ => none

/-- Whoever stands behind the plugin in the list of the chain is settled. -/
def BehindSettled (log : List Act) (name : Bytes) : Prop :=
  ∃ order, .chainStarted order ∈ log ∧ name ∈ order ∧
    ∀ front back, order = front ++ name :: back → name ∉ back → ∀ other ∈ back, Settled log other

lemma BehindSettled.mono {log log' : List Act} (h : BehindSettled log name) (hlog : log ⊆ log') :
    BehindSettled log' name := by
  obtain ⟨order, hstart, hmem, hsettled⟩ := h
  exact ⟨order, hlog hstart, hmem, fun front back horder hlast other hoth =>
    (hsettled front back horder hlast other hoth).mono hlog⟩

def backGuard (act : Act) (front : List Act) : Prop := ∀ name ∈ act.tells, BehindSettled front name

/-- A request that is sent to the plugin, or that is about what it has returned, comes behind its drain. -/
structure FromBack (pending : List Request) (log : List Act) : Prop where
  guarded : Guarded backGuard log
  begun : ∀ request ∈ pending, request.actor ≠ none → BehindSettled log request.name

namespace FromBack

variable {pending pending' : List Request} {log log' : List Act}

/-- Nobody is told anything. -/
lemma silent (h : FromBack pending log) (acts : List Act) (hlog : log' = log ++ acts)
    (hacts : ∀ act ∈ acts, act.tells = none)
    (hpend : ∀ request ∈ pending', request ∈ pending ∨ request.actor = none) : FromBack pending' log' := by
  subst hlog
  refine ⟨h.guarded.free fun act hact front name hname => ?_, fun request hmem hactor => ?_⟩
  · rw [hacts act hact] at hname
    cases hname
  · have hbefore := (hpend request hmem).resolve_right hactor
    exact (h.begun request hbefore hactor).mono (subset_append_left _ _)

/-- A plugin is told something, and the requests are about it or were there before. -/
lemma tells (h : FromBack pending log) (hbehind : BehindSettled log name) (acts : List Act)
    (hlog : log' = log ++ acts) (hacts : ∀ act ∈ acts, act.tells = none ∨ act.tells = some name)
    (hpend : ∀ request ∈ pending', request ∈ pending ∨ request.name = name) : FromBack pending' log' := by
  subst hlog
  refine ⟨h.guarded.append fun front act back hsplit other hoth => ?_, fun request hmem hactor => ?_⟩
  · rcases hacts act (by rw [hsplit]; simp) with hnone | hsome
    · rw [hnone] at hoth
      cases hoth
    · obtain rfl : name = other := Option.some.inj (hsome.symm.trans hoth)
      exact hbehind.mono (subset_append_left _ _)
  · rcases hpend request hmem with hmem | hname
    · exact (h.begun request hmem hactor).mono (subset_append_left _ _)
    · rw [hname]
      exact hbehind.mono (subset_append_left _ _)

end FromBack

lemma Untouched.fromBack (hsame : Untouched c c') (h : FromBack c.pending c.log) :
    FromBack c'.pending c'.log := by
  obtain ⟨acts, hlog, hending⟩ := hsame.log
  rw [hsame.pending, hlog]
  refine h.silent acts rfl (fun act hact => ?_) fun request hmem => .inl hmem
  have hends := hending act hact
  cases act <;> first | rfl | cases hends

lemma Chain.behindSettled {phase : Phase}
    (h : Chain order phase c) (hname : phase.name = some name) : BehindSettled c.log name := by
  have hleft := h.mem_remaining hname
  rw [h.left] at hleft
  exact ⟨order, mem_chains.mp (by simp [h.started]), mem_of_mem_filter hleft,
    fun _ _ horder hlast => h.behind_settled hname horder hlast⟩

/-- **Plugins are stopped from the back of the list.** -/
lemma step_fromBack {e : Event} (h : FromBack c.pending c.log) (horder : InOrder c)
    (hstep : step c e = some c') : FromBack c'.pending c'.log := by
  have hold {request q : Request} (hq : q ∈ c.pending.erase request) : q ∈ c.pending := mem_of_mem_erase hq
  have hnew {pending : List Request} {request : Request} {P Q : Request → Prop} (hP : ∀ q ∈ pending, P q)
      (hQ : Q request) : ∀ q ∈ pending ++ [request], P q ∨ Q q := fun q hq => by
    rcases mem_append.mp hq with hq | hq
    · exact .inl (hP q hq)
    · exact .inr (mem_singleton.mp hq ▸ hQ)
  cases (step_cases hstep).2 with
  | early order hst hends | last name saved hnone hends | forced hst hends =>
    exact hends.untouched.fromBack h
  | chain order name hst hlast =>
    exact h.silent [.chainStarted order, .shutdownRegistry, .requested (.resolvePlugin name)]
      (append_assoc _ _ _) (by simp [Act.tells]) (hnew (fun _ hq => hq) rfl)
  | noPlugins hst hends =>
    refine hends.untouched.fromBack ?_
    exact h.silent [.chainStarted [], .shutdownRegistry] rfl (by simp [Act.tells]) fun q hq => .inl hq
  | next name saved following hlast =>
    exact h.silent [.requested (.resolvePlugin following)] rfl (by simp [Act.tells]) (hnew (fun _ hq => hq) rfl)
  | componentDown source hstop hmem hpass
  | clusterDown source hstop hnot hpend hmem hpass => exact hpass.untouched.fromBack h
  | pluginDown actor hstop =>
    exact h.silent [.wentDown c.stoppingPluginName actor] rfl (by simp [Act.tells]) fun q hq => .inl hq
  | unresolved name hpend =>
    exact h.silent [.unresolved name] rfl (by simp [Act.tells]) fun q hq => .inl (hold hq)
  | absent name hpend => exact h.silent [.absent name] rfl (by simp [Act.tells]) fun q hq => .inl (hold hq)
  | found name actor hpend =>
    obtain ⟨order, hchain⟩ := horder.resolving hpend
    exact h.tells (hchain.behindSettled rfl) [.drain name actor, .requested (.saveState name actor)]
      (append_assoc _ _ _) (by simp [Act.tells]) (hnew (fun _ hq => hold hq) rfl)
  | emptyState name actor hpend =>
    have hbehind : BehindSettled c.log name := h.begun _ hpend nofun
    exact h.tells hbehind [.stateSaved name actor [], .shutdown name actor] rfl (by simp [Act.tells])
      fun q hq => .inl (hold hq)
  | state name actor data hdata hpend =>
    have hbehind : BehindSettled c.log name := h.begun _ hpend nofun
    exact h.tells hbehind [.stateSaved name actor data, .requested (.saveCheckpoint name actor data)]
      (append_assoc _ _ _) (by simp [Act.tells]) (hnew (fun _ hq => hold hq) rfl)
  | saveFailed name actor hpend =>
    have hbehind : BehindSettled c.log name := h.begun _ hpend nofun
    exact h.tells hbehind [.saveFailed name actor, .shutdown name actor] rfl (by simp [Act.tells])
      fun q hq => .inl (hold hq)
  | checkpointed name actor data done hpend =>
    have hbehind : BehindSettled c.log name := h.begun _ hpend nofun
    exact h.tells hbehind [.checkpointed name actor data, .shutdown name actor] rfl (by simp [Act.tells])
      fun q hq => .inl (hold hq)
  | checkpointFailed name actor data hpend =>
    exact h.silent [] (append_nil _).symm (by simp) fun q hq => .inl (hold hq)
  | _ => exact h

/-! ## Dependents -/

/-- The plugin manager knows the actor of every plugin that is loaded. -/
def Answers (loaded : Bytes → Prop) : Event → Prop
  | .resolved name (some (some _)) => loaded name
  | .resolved name _ => ¬ loaded name
  | _ => True

/-- Nobody who is loaded is reported absent, and the list of the chain is `order`. -/
def Admits (loaded : Bytes → Prop) (order : List Bytes) : Act → Prop
  | .absent name | .unresolved name => ¬ loaded name
  | .chainStarted list => list = order
  | _ => True

lemma Untouched.admits (hsame : Untouched c c')
    (h : ∀ act ∈ c.log, Admits loaded order act) : ∀ act ∈ c'.log, Admits loaded order act := by
  obtain ⟨acts, hlog, hending⟩ := hsame.log
  rw [hlog]
  intro act hact
  rcases mem_append.mp hact with hact | hact
  · exact h act hact
  · have hends := hending act hact
    cases act <;> trivial

lemma step_admits {e : Event} (h : ∀ act ∈ c.log, Admits loaded order act) (hans : Answers loaded e)
    (hlist : ∀ list, e = .shutdown list → list = order) (hstep : step c e = some c') :
    ∀ act ∈ c'.log, Admits loaded order act := by
  have hgrow (acts : List Act) (hacts : ∀ act ∈ acts, Admits loaded order act) {log : List Act}
      (hlog : log = c.log ++ acts) : ∀ act ∈ log, Admits loaded order act := by
    intro act hact
    rw [hlog] at hact
    rcases mem_append.mp hact with hact | hact
    · exact h act hact
    · exact hacts act hact
  cases (step_cases hstep).2 with
  | early list hst hends | last name saved hnone hends | forced hst hends =>
    exact hends.untouched.admits h
  | chain list name hst hlast =>
    exact hgrow [.chainStarted list, .shutdownRegistry, .requested (.resolvePlugin name)]
      (by simp [Admits, hlist list rfl]) (append_assoc _ _ _)
  | noPlugins hst hends =>
    refine hends.untouched.admits ?_
    exact hgrow [.chainStarted [], .shutdownRegistry] (by simp [Admits, hlist [] rfl]) rfl
  | next name saved following hlast => exact hgrow [.requested (.resolvePlugin following)] (by simp [Admits]) rfl
  | componentDown source hstop hmem hpass
  | clusterDown source hstop hnot hpend hmem hpass => exact hpass.untouched.admits h
  | pluginDown actor hstop => exact hgrow [.wentDown c.stoppingPluginName actor] (by simp [Admits]) rfl
  | unresolved name hpend =>
    exact hgrow [.unresolved name] (fun act hact => mem_singleton.mp hact ▸ hans) rfl
  | absent name hpend => exact hgrow [.absent name] (fun act hact => mem_singleton.mp hact ▸ hans) rfl
  | found name actor hpend =>
    exact hgrow [.drain name actor, .requested (.saveState name actor)] (by simp [Admits])
      (append_assoc _ _ _)
  | emptyState name actor hpend =>
    exact hgrow [.stateSaved name actor [], .shutdown name actor] (by simp [Admits]) rfl
  | state name actor data hdata hpend =>
    exact hgrow [.stateSaved name actor data, .requested (.saveCheckpoint name actor data)] (by simp [Admits])
      (append_assoc _ _ _)
  | saveFailed name actor hpend =>
    exact hgrow [.saveFailed name actor, .shutdown name actor] (by simp [Admits]) rfl
  | checkpointed name actor data done hpend =>
    exact hgrow [.checkpointed name actor data, .shutdown name actor] (by simp [Admits]) rfl
  | _ => exact h

/-- The plugins in front of a plugin in a load order are behind it in the stop order. -/
lemma stopOrder_split {loadOrder : List Bytes} (hmem : name ∈ loadOrder) :
    ∃ front back, getStopOrder [] loadOrder = front ++ name :: back ∧ name ∉ back ∧
      ∀ other ∈ loadOrder.takeWhile (· ≠ name), other ∈ back := by
  obtain ⟨ahead, behind, rfl, hfirst⟩ := eq_append_cons_of_mem hmem
  refine ⟨behind.reverse, ahead.reverse, by simp [getStopOrder], by simpa using hfirst, fun other hoth => ?_⟩
  have hahead : ∀ x ∈ ahead, decide (x ≠ name) = true := fun x hx => by
    simpa using fun heq : x = name => hfirst (heq ▸ hx)
  rw [takeWhile_append_of_pos hahead, takeWhile_cons_of_neg (by simp), append_nil] at hoth
  exact mem_reverse.mpr hoth

/-- **Dependents are stopped first, if they are loaded first.**  In a graceful shutdown with the reversed load order,
in which the plugin manager knows every loaded plugin, a provider is told to drain, to return its state or to end
only after each loaded plugin that depends on it has gone down, provided that these plugins stand in front of it in
the load order. -/
theorem stop_order_dependents (plugins : List PluginInfo) (loaded : Bytes → Prop)
    (hloads : ∀ dependent provider, loaded dependent → dependent ≠ provider → DependsOn plugins dependent provider →
      dependent ∈ (computeLoadOrder plugins).takeWhile (· ≠ provider))
    (components : Components) (clusterCtls : List Address) (events : List Event) {c : Coordinator}
    (hgraceful : RunWhere step Graceful (readyState components clusterCtls) events)
    (hanswers : ∀ e ∈ events, Answers loaded e)
    (hlist : ∀ list, .shutdown list ∈ events → list = getStopOrder [] (computeLoadOrder plugins))
    (hrun : run step (readyState components clusterCtls) events = some c) :
    ∀ front act back, c.log = front ++ act :: back → ∀ provider ∈ act.tells,
      ∀ dependent, loaded dependent → dependent ≠ provider → DependsOn plugins dependent provider →
        ∃ actor, .wentDown dependent actor ∈ front := by
  intro front act back hsplit provider htells dependent hloaded hne hdepends
  have hfromBack : Orderliness c ∧ FromBack c.pending c.log :=
    run_invariant_where (I := fun c => Orderliness c ∧ FromBack c.pending c.log)
      (fun _ _ _ h hgraceful hstep => ⟨h.1.step hgraceful hstep, step_fromBack h.2 h.1.inOrder hstep⟩)
      ⟨Orderliness.ready components clusterCtls, .nil, by simp [readyState]⟩ hgraceful hrun
  have hadmits : ∀ act ∈ c.log, Admits loaded (getStopOrder [] (computeLoadOrder plugins)) act := by
    refine run_invariant_where (C := fun _ e => e ∈ events)
      (I := fun c => ∀ act ∈ c.log, Admits loaded (getStopOrder [] (computeLoadOrder plugins)) act)
      (fun c e c' h he hstep => ?_) (by simp [readyState]) (.of_forall fun e he _ => he) hrun
    exact step_admits h (hanswers e he) (fun list hshutdown => hlist list (hshutdown ▸ he)) hstep
  obtain ⟨order, hstart, hprov, hbehind⟩ := hfromBack.2.guarded front act back hsplit provider htells
  have hin {x : Act} (hx : x ∈ front) : x ∈ c.log := by rw [hsplit]; exact mem_append_left _ hx
  obtain rfl : order = _ := hadmits _ (hin hstart)
  obtain ⟨front', back', horder, hlast, hback⟩ := stopOrder_split (mem_reverse.mp hprov)
  have hsettled := hbehind front' back' horder hlast dependent
    (hback dependent (hloads dependent provider hloaded hne hdepends))
  rcases hsettled with hdown | habsent | hunresolved
  · exact hdown
  · exact absurd hloaded (hadmits _ (hin habsent))
  · exact absurd hloaded (hadmits _ (hin hunresolved))

namespace Sample

/-- Two plugins provide the same service; the first one uses it, too. -/
def shared : List PluginInfo :=
  [{ name := str "backup", manifest := { provides := [str "store"], priority := 1 } },
    { name := str "main", manifest := { provides := [str "store"], dependencies := [str "store"] } }]

/-- The plugin that is loaded first goes down, then the other one is found. -/
def stopShared : List Event :=
  [.shutdown [str "backup", str "main"], .resolved (str "main") (some (some 7)),
    .stateSaved (str "main") 7 (some []), .down 7, .pluginSaved (str "main") true,
    .resolved (str "backup") (some (some 8))]

/-- A plugin and the database it uses. -/
def client : List PluginInfo :=
  [{ name := str "game", manifest := { dependencies := [str "db"] } },
    { name := str "db", manifest := { provides := [str "db"] } }]

/-- The list is the reversed load order, and the plugin at its back is found. -/
def stopClient : List Event := [.shutdown [str "game", str "db"], .resolved (str "db") (some (some 8))]

end Sample

open Sample in
theorem stop_order_dependents_shared : ∃ c front back,
    run step (readyState components []) stopShared = some c ∧
    DependsOn shared (str "main") (str "backup") ∧ c.log = front ++ .drain (str "backup") 8 :: back ∧
    ∃ actor, .wentDown (str "main") actor ∈ front := by
  have heval : (run step (readyState components []) stopShared).map (fun c => c.log[9]?) =
      some (some (.drain (str "backup") 8)) := by
    decide +kernel
  obtain ⟨c, hrun, hdrain⟩ := Option.map_eq_some_iff.mp heval
  have hsplit : c.log = c.log.take 9 ++ .drain (str "backup") 8 :: c.log.drop 10 := by
    obtain ⟨hlt, hget⟩ := List.getElem?_eq_some_iff.mp hdrain
    conv_lhs => rw [← List.take_append_drop 9 c.log, List.drop_eq_getElem_cons hlt, hget]
  have hdepends : DependsOn shared (str "main") (str "backup") := by decide +kernel
  refine ⟨c, _, _, hrun, hdepends, hsplit, stop_order_dependents shared
    (fun name => name = str "main" ∨ name = str "backup") ?_ components [] stopShared (by decide +kernel) ?_ ?_ hrun
    _ _ _ hsplit (str "backup") rfl (str "main") (.inl rfl) (by decide +kernel) hdepends⟩
  · rintro _ _ - hne ⟨d, hd, rfl, p, hp, rfl, hsvc⟩
    simp only [shared, List.mem_cons, List.not_mem_nil, or_false] at hd hp
    rcases hd with rfl | rfl <;> rcases hp with rfl | rfl
    · exact absurd rfl hne
    · exact absurd hsvc (by decide +kernel)
    · decide +kernel
    · exact absurd rfl hne
  · simp [stopShared, Answers]
  · have horder : computeLoadOrder shared = [str "main", str "backup"] := by decide +kernel
    simp [stopShared, horder, getStopOrder]

open Sample in
/-- The database is told to drain while the plugin that uses it runs. -/
theorem stop_order_dependents_client :
    computeLoadOrder client = [str "db", str "game"] ∧ DependsOn client (str "game") (str "db") ∧
    RunWhere step Graceful (readyState components []) stopClient ∧
    (∀ e ∈ stopClient, Answers (fun name => name = str "game" ∨ name = str "db") e) ∧
    (∀ list, .shutdown list ∈ stopClient → list = getStopOrder [] (computeLoadOrder client)) ∧
    ∃ c, run step (readyState components []) stopClient = some c ∧ .drain (str "db") 8 ∈ c.log ∧
      ∀ actor, .wentDown (str "game") actor ∉ c.log := by
  have horder : computeLoadOrder client = [str "db", str "game"] := by decide +kernel
  refine ⟨horder, by decide +kernel, by decide +kernel, ?_, ?_, _, rfl, by decide +kernel, ?_⟩
  · simp [stopClient, Answers]
  · simp [stopClient, horder, getStopOrder]
  · intro actor hmem
    have hlog : ∀ act ∈ ([.chainStarted [str "game", str "db"], .shutdownRegistry,
        .requested (.resolvePlugin (str "db")), .drain (str "db") 8, .requested (.saveState (str "db") 8)] : List Act),
        act ≠ .wentDown (str "game") actor := by simp
    exact hlog _ hmem rfl

end Caf.Shutdown
