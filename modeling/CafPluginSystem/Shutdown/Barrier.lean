import CafPluginSystem.Shutdown.Chain
import CafPluginSystem.Shutdown.Progress

/-!
# The barriers of a graceful shutdown

Plugins are stopped one at a time, the components and the cluster actors are ended after the last plugin, and a
plugin with a state is told to end after the checkpoint manager has replied to the save of that state
(`graceful_barrier`).  The chain goes on, too, when the plugin manager fails to say who the plugin's actor is.
-/

namespace Caf.Shutdown

open EntityStore Machine History List

/-- **The barriers**: what has to be done before an entry of the history. -/
def barrierGuard : Act → List Act → Prop
  | .drain _ _, front => ∀ name actor, .drain name actor ∈ front → .wentDown name actor ∈ front
  | .exit _, front => ∃ order, .chainStarted order ∈ front ∧ ∀ name ∈ order, Settled front name
  | .shutdown name actor, front =>
    ∀ data, data ≠ [] → .stateSaved name actor data ∈ front → .checkpointed name actor data ∈ front
  | _, _ => True

/-! ## The states of the plugins -/

/-- The plugin that a request is about. -/
def Request.name : Request → Bytes
  | .resolvePlugin name | .saveState name _ | .saveCheckpoint name _ _ => name

/-- What the plugin of a request has returned so far. -/
def Fresh (log : List Act) : Request → Prop
  | .resolvePlugin name | .saveState name _ => ∀ actor data, .stateSaved name actor data ∉ log
  | .saveCheckpoint name _ data => ∀ actor' data', .stateSaved name actor' data' ∈ log → data' = data

variable {log : List Act} {c c' : Coordinator} {e : Event} {order : List Bytes}

lemma Fresh.append {acts request} (h : Fresh log request)
    (hacts : ∀ actor data, .stateSaved request.name actor data ∉ acts) : Fresh (log ++ acts) request := by
  have hold {name : Bytes} (hname : request.name = name) {actor : Address} {data : Bytes}
      (hmem : .stateSaved name actor data ∈ log ++ acts) : .stateSaved name actor data ∈ log :=
    (mem_append.mp hmem).resolve_right (hname ▸ hacts actor data)
  cases request with
  | resolvePlugin name => exact fun actor data hmem => h actor data (hold rfl hmem)
  | saveState name actor => exact fun actor' data hmem => h actor' data (hold rfl hmem)
  | saveCheckpoint name actor data => exact fun actor' data' hmem => h actor' data' (hold rfl hmem)

/-- Each plugin is asked for once, and at most one request is out about it. -/
structure Saves (pending : List Request) (log : List Act) : Prop where
  names : (pending.map Request.name).Nodup
  asked : ∀ request ∈ pending, Asked log request.name
  recorded : ∀ name actor data, .stateSaved name actor data ∈ log → Asked log name
  fresh : ∀ request ∈ pending, Fresh log request

namespace Saves

variable {pending : List Request} {log : List Act}

/-- A new plugin is asked for. -/
lemma ask (h : Saves pending log) {name} (hnew : ¬ Asked log name) (acts : List Act)
    (hacts : ∀ name actor data, .stateSaved name actor data ∉ acts) :
    Saves (pending ++ [.resolvePlugin name]) (log ++ acts ++ [.requested (.resolvePlugin name)]) := by
  have hgrow {other : Bytes} (hasked : Asked log other) :
      Asked (log ++ acts ++ [.requested (.resolvePlugin name)]) other :=
    mem_append_left _ (mem_append_left _ hasked)
  have hsaves {other : Bytes} {actor : Address} {data : Bytes} :
      .stateSaved other actor data ∉ acts ++ [.requested (.resolvePlugin name)] := by
    simpa using hacts other actor data
  rw [append_assoc] at hgrow ⊢
  refine ⟨?_, ?_, ?_, ?_⟩
  · rw [map_append]
    refine h.names.append (nodup_singleton _) fun other hoth hname => hnew ?_
    obtain ⟨request, hmem, rfl⟩ := mem_map.mp hoth
    obtain rfl : request.name = name := by simpa [Request.name] using hname
    exact h.asked request hmem
  · intro request hmem
    rcases mem_append.mp hmem with hmem | hmem
    · exact hgrow (h.asked request hmem)
    · rw [mem_singleton.mp hmem]
      exact mem_append_right _ (mem_append_right _ (mem_singleton_self _))
  · intro other actor data hmem
    exact hgrow (h.recorded other actor data ((mem_append.mp hmem).resolve_right hsaves))
  · intro request hmem
    rcases mem_append.mp hmem with hmem | hmem
    · exact (h.fresh request hmem).append fun actor data => hsaves
    · rw [mem_singleton.mp hmem]
      intro actor data hsaved
      exact hnew (h.recorded name actor data ((mem_append.mp hsaved).resolve_right hsaves))

/-- A request is answered.  If the plugin has returned its state, that is the state that is saved. -/
lemma reply (h : Saves pending log) {request} (hmem : request ∈ pending) {pending'}
    {log'} (new : List Request) (hpend : pending' = pending.erase request ++ new)
    (acts : List Act) (hlog : log' = log ++ acts) (hlen : new.length ≤ 1)
    (hnew : ∀ q ∈ new, q.name = request.name ∧ Fresh log' q)
    (hacts : ∀ name actor data, .stateSaved name actor data ∈ acts → name = request.name) : Saves pending' log' := by
  subst hpend hlog
  have hoth : request.name ∉ (pending.erase request).map Request.name := by
    have hperm := ((perm_cons_erase hmem).map Request.name).nodup_iff.mp h.names
    exact (nodup_cons.mp hperm).1
  have hold {q : Request} (hq : q ∈ pending.erase request) : q ∈ pending := mem_of_mem_erase hq
  refine ⟨?_, ?_, ?_, ?_⟩
  · rw [map_append]
    refine (h.names.sublist (erase_sublist.map _)).append ?_ fun name hname hnew' => hoth ?_
    · rcases new with _ | ⟨q, _ | ⟨_, _⟩⟩
      · exact nodup_nil
      · exact nodup_singleton _
      · simp at hlen
    · obtain ⟨q, hq, rfl⟩ := mem_map.mp hnew'
      rw [← (hnew q hq).1]
      exact hname
  · intro q hq
    refine mem_append_left _ ?_
    rcases mem_append.mp hq with hq | hq
    · exact h.asked q (hold hq)
    · rw [(hnew q hq).1]
      exact h.asked request hmem
  · intro name actor data hsaved
    refine mem_append_left _ ?_
    rcases mem_append.mp hsaved with hsaved | hsaved
    · exact h.recorded name actor data hsaved
    · rw [hacts name actor data hsaved]
      exact h.asked request hmem
  · intro q hq
    rcases mem_append.mp hq with hq | hq
    · refine (h.fresh q (hold hq)).append fun actor data hsaved => hoth ?_
      rw [← hacts _ actor data hsaved]
      exact mem_map_of_mem hq
    · exact (hnew q hq).2

/-- The history grows by entries that are not about states. -/
lemma grow (h : Saves pending log) (acts : List Act) (hacts : ∀ name actor data, .stateSaved name actor data ∉ acts) :
    Saves pending (log ++ acts) :=
  ⟨h.names, fun request hmem => mem_append_left _ (h.asked request hmem),
    fun name actor data hsaved => mem_append_left _
      (h.recorded name actor data ((mem_append.mp hsaved).resolve_right (hacts name actor data))),
    fun request hmem => (h.fresh request hmem).append (hacts request.name)⟩

end Saves

lemma Untouched.saves (hsame : Untouched c c') (h : Saves c.pending c.log) :
    Saves c'.pending c'.log := by
  obtain ⟨acts, hlog, hending⟩ := hsame.log
  rw [hsame.pending, hlog]
  refine h.grow acts fun name actor data hmem => ?_
  cases hending _ hmem

/-- **Each plugin is asked for its state once.** -/
lemma step_saves (h : Saves c.pending c.log) (horder : InOrder c)
    (hgrace : Graceful c e) (hstep : step c e = some c') : Saves c'.pending c'.log := by
  cases (step_cases hstep).2 with
  | early order hst hends | last name saved hnone hends | forced hst hends =>
    exact hends.untouched.saves h
  | chain order name hst hlast =>
    refine h.ask (fun hasked => ?_) [.chainStarted order, .shutdownRegistry] (by simp)
    rw [Asked, (horder.before hst).log] at hasked
    cases hasked
  | noPlugins hst hends => exact hends.untouched.saves (h.grow [.chainStarted [], .shutdownRegistry] (by simp))
  | next name saved following hlast =>
    obtain ⟨order, hchain⟩ := horder.saved hgrace.1
    have hnew : ¬ Asked c.log following := fun hasked => by
      -- the next plugin is on the list, and the chain is not at it
      obtain ⟨hleft, hne⟩ := mem_filter.mp (mem_of_getLast? hlast)
      have hname : name = following := Option.some.inj (hchain.asked following hasked hleft)
      simp [hname] at hne
    have hask := h.ask hnew [] (by simp)
    rwa [append_nil] at hask
  | componentDown source hstop hmem hpass
  | clusterDown source hstop hnot hpend hmem hpass => exact hpass.untouched.saves h
  | pluginDown actor hstop => exact h.grow [.wentDown c.stoppingPluginName actor] (by simp)
  | unresolved name hpend =>
    exact h.reply hpend [] (append_nil _).symm [.unresolved name] rfl (by simp) (by simp) (by simp)
  | absent name hpend =>
    exact h.reply hpend [] (append_nil _).symm [.absent name] rfl (by simp) (by simp) (by simp)
  | found name actor hpend =>
    have hbefore : Fresh c.log (.saveState name actor) := h.fresh (.resolvePlugin name) hpend
    refine h.reply hpend [.saveState name actor] rfl [.drain name actor, .requested (.saveState name actor)]
      (append_assoc _ _ _) le_rfl (fun q hq => ?_) (by simp)
    obtain rfl := mem_singleton.mp hq
    rw [append_assoc]
    exact ⟨rfl, hbefore.append (by simp)⟩
  | emptyState name actor hpend =>
    refine h.reply hpend [] (append_nil _).symm [.stateSaved name actor [], .shutdown name actor] rfl
      (by simp) (by simp) fun name' actor' data' hsaved => ?_
    have hsame : name' = name ∧ actor' = actor ∧ data' = [] := by simpa using hsaved
    exact hsame.1
  | state name actor data hdata hpend =>
    refine h.reply hpend [.saveCheckpoint name actor data] rfl
      [.stateSaved name actor data, .requested (.saveCheckpoint name actor data)] (append_assoc _ _ _) le_rfl
      (fun q hq => ?_) fun name' actor' data' hsaved => ?_
    · obtain rfl := mem_singleton.mp hq
      refine ⟨rfl, fun actor' data' hmem => ?_⟩
      rcases mem_append.mp hmem with hmem | hmem
      · rcases mem_append.mp hmem with hmem | hmem
        · exact absurd hmem (h.fresh _ hpend actor' data')
        · have hsame : actor' = actor ∧ data' = data := by simpa using hmem
          exact hsame.2
      · simp at hmem
    · have hsame : name' = name ∧ actor' = actor ∧ data' = data := by simpa using hsaved
      exact hsame.1
  | saveFailed name actor hpend =>
    exact h.reply hpend [] (append_nil _).symm [.saveFailed name actor, .shutdown name actor] rfl
      (by simp) (by simp) (by simp)
  | checkpointed name actor data done hpend =>
    exact h.reply hpend [] (append_nil _).symm [.checkpointed name actor data, .shutdown name actor] rfl
      (by simp) (by simp) (by simp)
  | checkpointFailed name actor data hpend =>
    exact h.reply hpend [] (append_nil _).symm [] (append_nil _).symm (by simp) (by simp) (by simp)
  | _ => exact h

/-! ## The barriers hold -/

/-- All plugins of the chain are settled. -/
def AllSettled (log : List Act) : Prop := ∃ order, .chainStarted order ∈ log ∧ ∀ name ∈ order, Settled log name

lemma AllSettled.append (h : AllSettled log) (acts : List Act) : AllSettled (log ++ acts) := by
  obtain ⟨order, hstart, hsettled⟩ := h
  exact ⟨order, mem_append_left _ hstart,
    fun name hname => (hsettled name hname).mono (subset_append_left _ _)⟩

lemma mem_chains : order ∈ chains log ↔ .chainStarted order ∈ log := by
  induction log with
  | nil => simp [chains]
  | cons act log ih => cases act <;> simp_all [chains]

lemma Chain.allSettled {phase} (h : Chain order phase c)
    (hsettled : ∀ name ∈ order, Settled c.log name) : AllSettled c.log :=
  ⟨order, mem_chains.mp (by simp [h.started]), hsettled⟩

/-- When the coordinator turns to the components, all plugins are settled. -/
lemma Chain.finishing_settled (h : Chain order .finishing c) :
    AllSettled c.log := by
  refine h.allSettled fun name hname => h.settled name hname ?_
  rw [getLast?_eq_none_iff.mp h.last]
  simp

lemma Untouched.guarded (hsame : Untouched c c') (h : Guarded barrierGuard c.log)
    (hsettled : AllSettled c.log) : Guarded barrierGuard c'.log := by
  obtain ⟨acts, hlog, hending⟩ := hsame.log
  rw [hlog]
  refine h.append fun front x back hsplit => ?_
  have hends := hending x (by rw [hsplit]; simp)
  cases x with
  | exit actor => exact hsettled.append front
  | awaited actor | quit => trivial
  | _ => cases hends

/-- A plugin is told to end when its state, if it has one, is saved. -/
lemma Guarded.shutdown (h : Guarded barrierGuard log) (act : Act) {name actor} (hact : ∀ front, barrierGuard act front)
    (hsaved : ∀ data, data ≠ [] → .stateSaved name actor data ∈ log ++ [act] →
      .checkpointed name actor data ∈ log ++ [act]) :
    Guarded barrierGuard (log ++ [act, .shutdown name actor]) := by
  have hfirst : Guarded barrierGuard (log ++ [act]) := h.snoc (hact log)
  have hsecond := hfirst.snoc (x := .shutdown name actor) hsaved
  rwa [append_assoc] at hsecond

/-- **Every step keeps the barriers.** -/
lemma step_guarded (h : Guarded barrierGuard c.log)
    (hsaves : Saves c.pending c.log) (horder : InOrder c) (hgrace : Graceful c e)
    (hstep : step c e = some c') : Guarded barrierGuard c'.log := by
  cases (step_cases hstep).2 with
  | early order hst hends =>
    rcases horder with horder | ⟨_, _, horder⟩
    · cases hst.symm.trans horder.state
    · rcases horder.state with hst' | hst' <;> cases hst.symm.trans hst'
  | chain order name hst hlast =>
    refine Guarded.free (Guarded.free h ?_) ?_ <;> simp [barrierGuard]
  | noPlugins hst hends =>
    refine hends.untouched.guarded (h.free (by simp [barrierGuard])) ⟨[], ?_, nofun⟩
    exact mem_append_right _ (by simp)
  | next name saved following hlast | pluginDown actor hstop | unresolved name hpend
  | absent name hpend => exact h.free (by simp [barrierGuard])
  | last name saved hnone hends =>
    obtain ⟨order, hchain⟩ := horder.saved hgrace.1
    refine hends.untouched.guarded h (hchain.allSettled fun other hoth => ?_)
    exact hchain.settled_without other hoth (by rw [hnone]; simp)
  | componentDown source hstop hmem hpass =>
    obtain ⟨order, hchain⟩ := horder.finishing (busy_of_component hmem)
    exact hpass.untouched.guarded h hchain.finishing_settled
  | clusterDown source hstop hnot hpend hmem hpass =>
    obtain ⟨order, hchain⟩ := horder.finishing (busy_of_cluster hpend)
    exact hpass.untouched.guarded h hchain.finishing_settled
  | forced hst hends => exact absurd rfl hgrace.2.1
  | found name actor hpend =>
    obtain ⟨order, hchain⟩ := horder.resolving hpend
    refine Guarded.snoc (h.snoc ?_) trivial
    exact fun other actor' hmem => (hchain.drained other actor' hmem).resolve_right nofun
  | emptyState name actor hpend =>
    refine Guarded.shutdown h (.stateSaved name actor []) (fun _ => trivial) fun data hdata hmem => ?_
    rcases mem_append.mp hmem with hmem | hmem
    · exact absurd hmem (hsaves.fresh _ hpend actor data)
    · have hsame : data = [] := by simpa using hmem
      exact absurd hsame hdata
  | state name actor data hdata hpend =>
    exact Guarded.free (h.free (by simp [barrierGuard])) (by simp [barrierGuard])
  | saveFailed name actor hpend =>
    refine Guarded.shutdown h (.saveFailed name actor) (fun _ => trivial) fun data hdata hmem => ?_
    have hbefore : .stateSaved name actor data ∈ c.log := by simpa using hmem
    exact absurd hbefore (hsaves.fresh _ hpend actor data)
  | checkpointed name actor data done hpend =>
    refine Guarded.shutdown h (.checkpointed name actor data) (fun _ => trivial) fun data' hdata hmem => ?_
    have hbefore : .stateSaved name actor data' ∈ c.log := by simpa using hmem
    rw [hsaves.fresh _ hpend actor data' hbefore]
    simp
  | _ => exact h

/-- What holds along a graceful shutdown. -/
structure Orderliness (c : Coordinator) : Prop where
  inOrder : InOrder c
  saves : Saves c.pending c.log
  guarded : Guarded barrierGuard c.log

lemma Orderliness.step (h : Orderliness c) (hgrace : Graceful c e) (hstep : step c e = some c') : Orderliness c' :=
  ⟨step_inOrder h.inOrder hgrace hstep, step_saves h.saves h.inOrder hgrace hstep,
    step_guarded h.guarded h.saves h.inOrder hgrace hstep⟩

lemma Orderliness.ready (components : Components) (clusterCtls : List Address) :
    Orderliness (readyState components clusterCtls) := by
  refine ⟨.inl ⟨rfl, rfl, rfl, rfl, rfl, rfl⟩, ⟨nodup_nil, ?_, ?_, ?_⟩, .nil⟩ <;> simp [readyState]

/-- **The barriers of a graceful shutdown.**  Without `force_exit_atom` and without a `ready_atom` after the start
of the shutdown, the chain is started at most once; a plugin is told to drain only when each plugin that was told
so before has gone down; nobody is sent `exit` before every plugin of the list has gone down, was reported absent or
could not be asked for; and a plugin that has returned a state is told to end only after the checkpoint manager has
replied to the save of that state. -/
theorem graceful_barrier (components : Components) (clusterCtls : List Address) (events : List Event)
    {c : Coordinator} (hgraceful : RunWhere step Graceful (readyState components clusterCtls) events)
    (hrun : run step (readyState components clusterCtls) events = some c) :
    (chains c.log).length ≤ 1 ∧ ∀ front act back, c.log = front ++ act :: back →
      (∀ name actor, act = .drain name actor →
        ∀ other actor', .drain other actor' ∈ front → .wentDown other actor' ∈ front) ∧
      (∀ actor, act = .exit actor → ∃ order, .chainStarted order ∈ front ∧ ∀ name ∈ order,
        (∃ plugin, .wentDown name plugin ∈ front) ∨ .absent name ∈ front ∨ .unresolved name ∈ front) ∧
      (∀ name actor, act = .shutdown name actor → ∀ data, data ≠ [] →
        .stateSaved name actor data ∈ front → .checkpointed name actor data ∈ front) := by
  have horderly : Orderliness c :=
    run_invariant_where (fun _ _ _ h hgraceful hstep => h.step hgraceful hstep)
      (Orderliness.ready components clusterCtls) hgraceful hrun
  refine ⟨?_, fun front act back hsplit => ?_⟩
  · rcases horderly.inOrder with hbefore | ⟨order, phase, hchain⟩
    · rw [hbefore.log]
      exact Nat.zero_le 1
    · rw [hchain.started]
      exact le_rfl
  · have hguard := horderly.guarded front act back hsplit
    refine ⟨?_, ?_, ?_⟩
    · rintro name actor rfl
      exact hguard
    · rintro actor rfl
      exact hguard
    · rintro name actor rfl
      exact hguard

namespace Sample

/-- Two plugins are stopped.  The second one returns a state. -/
def twoPlugins : List Event :=
  [.shutdown [str "db", str "game"],
    .resolved (str "game") (some (some 7)), .stateSaved (str "game") 7 (some []), .down 7,
    .pluginSaved (str "game") true,
    .resolved (str "db") (some (some 8)), .stateSaved (str "db") 8 (some (str "state")),
    .checkpointed (str "db") 8 (str "state") (some true), .down 8, .pluginSaved (str "db") true]

/-- The plugin manager does not answer. -/
def noManager : List Event := [.shutdown [str "game"], .resolved (str "game") none, .pluginSaved (str "game") false]

end Sample

open Sample in
theorem graceful_barrier_two : ∃ c front back, run step (readyState components []) twoPlugins = some c ∧
    c.log = front ++ .exit 1 :: back ∧ (∃ order, .chainStarted order ∈ front ∧ ∀ name ∈ order,
      (∃ plugin, .wentDown name plugin ∈ front) ∨ .absent name ∈ front ∨ .unresolved name ∈ front) := by
  have heval : (run step (readyState components []) twoPlugins).map (fun c => c.log[17]?) =
      some (some (.exit 1)) := by
    decide +kernel
  obtain ⟨c, hrun, hexit⟩ := Option.map_eq_some_iff.mp heval
  have hsplit : c.log = c.log.take 17 ++ .exit 1 :: c.log.drop 18 := by
    obtain ⟨hlt, hget⟩ := List.getElem?_eq_some_iff.mp hexit
    conv_lhs => rw [← List.take_append_drop 17 c.log, List.drop_eq_getElem_cons hlt, hget]
  exact ⟨c, _, _, hrun, hsplit, ((graceful_barrier components [] twoPlugins (by decide +kernel) hrun).2
    _ _ _ hsplit).2.1 1 rfl⟩

open Sample in
/-- The components are ended although the plugin has neither gone down nor was it reported absent. -/
theorem graceful_barrier_unresolved :
    RunWhere step Graceful (readyState components []) noManager ∧
    ∃ c front back, run step (readyState components []) noManager = some c ∧
      c.log = front ++ .exit 1 :: back ∧ .chainStarted [str "game"] ∈ front ∧
      ¬ ((∃ plugin, .wentDown (str "game") plugin ∈ front) ∨ .absent (str "game") ∈ front) := by
  refine ⟨by decide +kernel, _, [.chainStarted [str "game"], .shutdownRegistry,
    .requested (.resolvePlugin (str "game")), .unresolved (str "game"), .awaited 1],
    [.awaited 2, .exit 2, .awaited 3, .exit 3], rfl, by decide +kernel, by simp, by simp⟩

end Caf.Shutdown
