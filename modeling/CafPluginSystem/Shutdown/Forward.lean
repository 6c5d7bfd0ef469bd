import CafPluginSystem.Shutdown.Coordinator

/-!
# The shutdown moves forward

The state of the coordinator runs through `initializing`, `ready`, `shutting_down`, `stopped`; the chain of plugin
stops is started once, and nobody is sent `exit` or counted as awaited twice.  The handlers do not check enough for
that: `ready_atom` sets the state whatever it is, and `finish_shutdown` may run again while it waits for the actors
of its first run.  `Orderly` is the condition under which the messages arrive as the handlers expect them.
-/

namespace Caf.Shutdown

open EntityStore Machine List

/-- The actors that were sent `exit`. -/
def exits (log : List Act) : List Address :=
  log.filterMap fun | .exit actor => some actor | _ => none

/-- The actors that were counted as awaited. -/
def awaits (log : List Act) : List Address :=
  log.filterMap fun | .awaited actor => some actor | _ => none

/-- The starts of the plugin stop chain. -/
def chains (log : List Act) : List (List Bytes) :=
  log.filterMap fun | .chainStarted order => some order | _ => none

lemma exits_append (log acts : List Act) : exits (log ++ acts) = exits log ++ exits acts :=
  filterMap_append

lemma awaits_append (log acts : List Act) : awaits (log ++ acts) = awaits log ++ awaits acts :=
  filterMap_append

lemma chains_append (log acts : List Act) : chains (log ++ acts) = chains log ++ chains acts :=
  filterMap_append

lemma exits_endActs (actors : List Address) : exits (endActs actors) = actors := by
  induction actors with
  | nil => rfl
  | cons a actors ih => rw [endActs_cons]; exact congrArg (a :: ·) ih

lemma awaits_endActs (actors : List Address) : awaits (endActs actors) = actors := by
  induction actors with
  | nil => rfl
  | cons a actors ih => rw [endActs_cons]; exact congrArg (a :: ·) ih

lemma chains_endActs (actors : List Address) : chains (endActs actors) = [] := by
  induction actors with
  | nil => rfl
  | cons a actors ih => rw [endActs_cons]; exact ih

/-- `finish_shutdown` has run: somebody is awaited, or nobody is left. -/
def Coordinator.finishing (c : Coordinator) : Bool := !c.idle || c.state == .stopped

/-- **The messages arrive in order.**  `ready_atom` comes before the shutdown, whatever leads to
`finish_shutdown` comes when it has not run yet, and a cluster actor is registered once. -/
def Orderly (c : Coordinator) : Event → Prop
  | .ready => c.state = .initializing ∨ c.state = .ready
  | .shutdown order =>
    c.state = .initializing ∨ c.state = .ready ∧ order = [] → c.finishing = false
  | .pluginSaved name _ => (∀ other ∈ c.remainingPlugins, other = name) → c.finishing = false
  | .forceExit => c.state ≠ .stopped → c.finishing = false
  | .registerCluster (some ctl) => ctl ∉ c.components.all ∧ ctl ∉ c.clusterCtls
  | _ => True

instance Orderly.decidable (c : Coordinator) : ∀ e, Decidable (Orderly c e)
  | .ready => inferInstanceAs (Decidable (c.state = .initializing ∨ c.state = .ready))
  | .shutdown order =>
    inferInstanceAs (Decidable (c.state = .initializing ∨ c.state = .ready ∧ order = [] → c.finishing = false))
  | .pluginSaved name _ =>
    inferInstanceAs (Decidable ((∀ other ∈ c.remainingPlugins, other = name) → c.finishing = false))
  | .forceExit => inferInstanceAs (Decidable (c.state ≠ .stopped → c.finishing = false))
  | .registerCluster (some ctl) =>
    inferInstanceAs (Decidable (ctl ∉ c.components.all ∧ ctl ∉ c.clusterCtls))
  | .registerCluster none | .down _ | .drained _ | .resolved _ _ | .stateSaved _ _ _
  | .checkpointed _ _ _ _ => isTrue trivial

/-! ## The state -/

lemma FinishesLast.state {c c'} (h : FinishesLast c c') : c'.state = .stopped := by
  cases h <;> rfl

lemma Finishes.state {c c'} (h : Finishes c c') : c'.state = c.state ∨ c'.state = .stopped := by
  cases h with
  | await hbusy => exact .inl rfl
  | last hidle hending hlast => exact .inr hlast.state

lemma Passes.state {c c'} (h : Passes c c') : c'.state = c.state ∨ c'.state = .stopped := by
  cases h with
  | waits hbusy | done hidle hst => exact .inl rfl
  | last hidle hst hlast => exact .inr hlast.state

lemma SystemState.rank_le (s : SystemState) : s.rank ≤ SystemState.stopped.rank := by
  cases s <;> decide

lemma rank_le_of {s s' : SystemState} (h : s' = s ∨ s' = .stopped) : s.rank ≤ s'.rank := by
  rcases h with rfl | rfl
  · exact le_rfl
  · exact s.rank_le

lemma eq_stopped_of_rank {s : SystemState} (h : SystemState.stopped.rank ≤ s.rank) : s = .stopped := by
  cases s <;> first | rfl | exact absurd h (by decide)

/-- No orderly step moves the state back. -/
lemma step_rank {c c' e} (horder : Orderly c e) (hstep : step c e = some c') :
    c.state.rank ≤ c'.state.rank := by
  cases (step_cases hstep).2 with
  | ready =>
    rcases horder with h | h <;> rw [h]
    exact Nat.zero_le _
  | early order hst hends | last name saved hnone hends | forced hst hends =>
    exact rank_le_of hends.state
  | chain order name hst hlast => rw [hst]; exact Nat.le_succ 1
  | noPlugins hst hends =>
    refine le_trans ?_ (rank_le_of hends.state)
    rw [hst]; exact Nat.le_succ 1
  | componentDown source hstop hmem hpass
  | clusterDown source hstop hnot hpend hmem hpass => exact rank_le_of hpass.state
  | _ => exact le_rfl

/-! ## Everything once -/

/-- What holds of the history while the messages arrive in order. -/
structure Forward (c : Coordinator) : Prop where
  distinct : (c.components.all ++ c.clusterCtls).Nodup
  awaited : awaits c.log = exits c.log
  once : (exits c.log).Nodup
  known : ∀ a ∈ exits c.log, a ∈ c.components.all ++ c.clusterCtls
  logging : c.state ≠ .stopped → ∀ a, c.components.loggingService = some a → a ∉ exits c.log
  chain : (chains c.log).length ≤ 1
  unchained : c.state.rank ≤ SystemState.ready.rank → chains c.log = []

/-- In front of `finish_shutdown` nobody has been sent `exit`. -/
def Begun (c : Coordinator) : Prop := exits c.log ≠ [] → c.finishing = true

namespace Forward

variable {c c' : Coordinator}

/-- A change that neither ends an actor nor starts a chain. -/
lemma of_same (h : Forward c) (hcomps : c'.components = c.components) (hctls : c'.clusterCtls = c.clusterCtls)
    (hrank : c.state.rank ≤ c'.state.rank) (acts : List Act) (hlog : c'.log = c.log ++ acts)
    (hexits : exits acts = []) (hawaits : awaits acts = []) (hchains : chains acts = []) : Forward c' := by
  have hexits' : exits c'.log = exits c.log := by rw [hlog, exits_append, hexits, append_nil]
  have hawaits' : awaits c'.log = awaits c.log := by rw [hlog, awaits_append, hawaits, append_nil]
  have hchains' : chains c'.log = chains c.log := by rw [hlog, chains_append, hchains, append_nil]
  refine ⟨?_, ?_, ?_, ?_, ?_, ?_, ?_⟩
  · rw [hcomps, hctls]; exact h.distinct
  · rw [hawaits', hexits']; exact h.awaited
  · rw [hexits']; exact h.once
  · rw [hexits', hcomps, hctls]; exact h.known
  · rw [hexits', hcomps]
    exact fun hst => h.logging fun hstopped => hst (eq_stopped_of_rank (hstopped ▸ hrank))
  · rw [hchains']; exact h.chain
  · rw [hchains']
    exact fun hle => h.unchained (hrank.trans hle)

/-- Actors of the system are ended that were not ended before. -/
lemma ending (h : Forward c) (actors : List Address) (hcomps : c'.components = c.components)
    (hctls : c'.clusterCtls = c.clusterCtls) (hlog : c'.log = c.log ++ endActs actors)
    (hactors : actors.Nodup) (hfresh : ∀ a ∈ actors, a ∉ exits c.log)
    (hknown : ∀ a ∈ actors, a ∈ c.components.all ++ c.clusterCtls) (hrank : c.state.rank ≤ c'.state.rank)
    (hlogging : c'.state ≠ .stopped → ∀ a, c.components.loggingService = some a → a ∉ actors) : Forward c' := by
  have hexits : exits c'.log = exits c.log ++ actors := by rw [hlog, exits_append, exits_endActs]
  have hawaits : awaits c'.log = awaits c.log ++ actors := by rw [hlog, awaits_append, awaits_endActs]
  have hchains : chains c'.log = chains c.log := by rw [hlog, chains_append, chains_endActs, append_nil]
  refine ⟨?_, ?_, ?_, ?_, ?_, ?_, ?_⟩
  · rw [hcomps, hctls]; exact h.distinct
  · rw [hawaits, hexits, h.awaited]
  · rw [hexits]
    exact h.once.append hactors fun a ha ha' => hfresh a ha' ha
  · rw [hexits, hcomps, hctls]
    intro a ha
    rcases mem_append.mp ha with ha | ha
    · exact h.known a ha
    · exact hknown a ha
  · intro hst a ha hmem
    rw [hcomps] at ha
    rw [hexits] at hmem
    rcases mem_append.mp hmem with hmem | hmem
    · exact h.logging (fun hstopped => hst (eq_stopped_of_rank (hstopped ▸ hrank))) a ha hmem
    · exact hlogging hst a ha hmem
  · rw [hchains]; exact h.chain
  · rw [hchains]
    exact fun hle => h.unchained (hrank.trans hle)

/-- The logging service is ended when it was not stopped before. -/
lemma finishesLast (h : Forward c) (hst : c.state ≠ .stopped) (hlast : FinishesLast c c') :
    Forward c' ∧ c'.finishing = true := by
  refine ⟨?_, by simp [Coordinator.finishing, hlast.state]⟩
  cases hlast with
  | logging actor hlogging =>
    refine h.ending [actor] rfl rfl rfl (nodup_singleton actor) ?_ ?_ (SystemState.rank_le _) ?_
    · intro a ha
      rw [mem_singleton.mp ha]
      exact h.logging hst actor hlogging
    · intro a ha
      rw [mem_singleton.mp ha]
      simp [Components.all, hlogging]
    · exact fun hrun => absurd rfl hrun
  | quit hlogging => exact h.of_same rfl rfl (SystemState.rank_le _) [.quit] rfl rfl rfl rfl

/-- `finish_shutdown` runs for the first time. -/
lemma finishes (h : Forward c) (hbegun : Begun c) (hfin : c.finishing = false) (hends : Finishes c c') :
    Forward c' ∧ c'.finishing = true := by
  cases hends with
  | await hbusy =>
    refine ⟨?_, by simp [Coordinator.finishing, hbusy]⟩
    have hnone : exits c.log = [] := by
      by_contra hne
      rw [hbegun hne] at hfin
      cases hfin
    have hparts := nodup_append'.mp h.distinct
    have hall := nodup_append'.mp hparts.1
    refine h.ending c.ending rfl rfl rfl ?_ ?_ ?_ le_rfl ?_
    · exact hparts.2.1.append hall.1 fun a ha ha' => hparts.2.2 (mem_append_left _ ha') ha
    · simp [hnone]
    · intro a ha
      rcases mem_append.mp ha with ha | ha
      · exact mem_append_right _ ha
      · exact mem_append_left _ (mem_append_left _ ha)
    · intro _ a hlogging ha
      have hmem : a ∈ c.components.loggingService.toList := by simp [hlogging]
      rcases mem_append.mp ha with ha | ha
      · exact hparts.2.2 (mem_append_right _ hmem) ha
      · exact hall.2.2 ha hmem
  | last hidle hending hlast =>
    refine h.finishesLast (fun hst => ?_) hlast
    simp [Coordinator.finishing, hst] at hfin

/-- An awaited actor has gone down, and the shutdown goes on. -/
lemma passes (h : Forward c) (hpass : Passes c c') : Forward c' ∧ c'.finishing = true := by
  cases hpass with
  | waits hwaits => exact ⟨h, by simp [Coordinator.finishing, hwaits]⟩
  | last hidle hrun hlast => exact h.finishesLast hrun hlast
  | done hidle hstopped =>
    exact ⟨h.of_same rfl rfl le_rfl [.quit] rfl rfl rfl rfl,
      by simp [Coordinator.finishing, finishQuit, note, hstopped]⟩

lemma startChain_finishing (hst : c.state = .ready) (order : List Bytes) :
    (startChain c order).finishing = c.finishing := by
  rw [Coordinator.finishing, Coordinator.finishing, hst]
  rfl

/-- The chain is started. -/
lemma chained (h : Forward c) (hbegun : Begun c) (hst : c.state = .ready) (order : List Bytes) :
    Forward (startChain c order) ∧ Begun (startChain c order) := by
  have hnone : chains c.log = [] := h.unchained (by rw [hst])
  have hchains : chains (startChain c order).log = [order] := by
    show chains (c.log ++ _) = _
    rw [chains_append, hnone]
    rfl
  have hexits : exits (startChain c order).log = exits c.log := by
    show exits (c.log ++ _) = _
    rw [exits_append]
    exact append_nil _
  have hawaits : awaits (startChain c order).log = awaits c.log := by
    show awaits (c.log ++ _) = _
    rw [awaits_append]
    exact append_nil _
  refine ⟨⟨h.distinct, ?_, ?_, ?_, ?_, ?_, ?_⟩, fun hne => ?_⟩
  · rw [hawaits, hexits]; exact h.awaited
  · rw [hexits]; exact h.once
  · rw [hexits]; exact h.known
  · rw [hexits]
    exact fun _ => h.logging (by rw [hst]; decide)
  · rw [hchains]; exact le_rfl
  · exact fun hle => absurd hle (Nat.not_succ_le_self 1)
  · rw [startChain_finishing hst]
    exact hbegun (hexits ▸ hne)

/-- A step that does not change whether `finish_shutdown` has run. -/
lemma kept (h : Forward c) (hbegun : Begun c) (hcomps : c'.components = c.components)
    (hctls : c'.clusterCtls = c.clusterCtls) (hrank : c.state.rank ≤ c'.state.rank) {acts}
    (hlog : c'.log = c.log ++ acts) (hexits : exits acts = []) (hawaits : awaits acts = [])
    (hchains : chains acts = []) (hfin : c.finishing = true → c'.finishing = true) :
    Forward c' ∧ Begun c' := by
  refine ⟨h.of_same hcomps hctls hrank acts hlog hexits hawaits hchains, fun hne => hfin (hbegun ?_)⟩
  rwa [hlog, exits_append, hexits, append_nil] at hne

/-- Only fields that the books do not read have changed. -/
lemma unread (h : Forward c) (hcomps : c'.components = c.components)
    (hctls : c'.clusterCtls = c.clusterCtls) (hst : c'.state = c.state) (hlog : c'.log = c.log) : Forward c' :=
  h.of_same hcomps hctls (by rw [hst]) [] (by rw [hlog, append_nil]) rfl rfl rfl

end Forward

/-- **Orderly steps keep the books.** -/
lemma step_forward {c c' e} (h : Forward c) (hbegun : Begun c) (horder : Orderly c e)
    (hstep : step c e = some c') : Forward c' ∧ Begun c' := by
  have hrank := step_rank horder hstep
  -- whatever ran `finish_shutdown` or passed the barrier leaves the coordinator finishing
  have hthen {c' : Coordinator} (hends : Forward c' ∧ c'.finishing = true) : Forward c' ∧ Begun c' :=
    ⟨hends.1, fun _ => hends.2⟩
  cases (step_cases hstep).2 with
  | ready =>
    refine h.kept hbegun rfl rfl hrank (append_nil _).symm rfl rfl rfl fun hfin => ?_
    rcases horder with hst | hst <;>
      simpa [Coordinator.finishing, Coordinator.idle, hst] using hfin
  | ignored order hst | drained _ | registerNull => exact ⟨h, hbegun⟩
  | early order hst hends => exact hthen (h.finishes hbegun (horder (.inl hst)) hends)
  | chain order name hst hlast =>
    obtain ⟨hchained, hbegun'⟩ := h.chained hbegun hst order
    exact hchained.kept hbegun' rfl rfl le_rfl rfl rfl rfl rfl id
  | noPlugins hst hends =>
    obtain ⟨hchained, hbegun'⟩ := h.chained hbegun hst []
    refine hthen (hchained.finishes hbegun' ?_ hends)
    rw [Forward.startChain_finishing hst]
    exact horder (.inr ⟨hst, rfl⟩)
  | next name saved following hlast => exact h.kept hbegun rfl rfl le_rfl rfl rfl rfl rfl id
  | last name saved hnone hends =>
    have hfin : c.finishing = false := horder fun other hoth => by
      by_contra hne
      have hmem : other ∈ c.remainingPlugins.filter (· ≠ name) := by simp [hoth, hne]
      rw [hnone] at hmem
      cases hmem
    have hbefore : Forward { c with mail := c.mail.erase (name, saved), remainingPlugins := [] } :=
      h.unread rfl rfl rfl rfl
    exact hthen (hbefore.finishes hbegun hfin hends)
  | componentDown source hstop hmem hpass
  | clusterDown source hstop hnot hpend hmem hpass =>
    refine hthen (Forward.passes ?_ hpass)
    exact h.unread rfl rfl rfl rfl
  | forced hst hends =>
    have hbefore : Forward { c with timers := c.timers - 1 } := h.unread rfl rfl rfl rfl
    exact hthen (hbefore.finishes hbegun (horder hst) hends)
  | register ctl =>
    refine ⟨⟨?_, h.awaited, h.once, ?_, h.logging, h.chain, h.unchained⟩, hbegun⟩
    · rw [← append_assoc]
      refine h.distinct.append (nodup_singleton ctl) fun a ha hctl => ?_
      rw [mem_singleton.mp hctl] at ha
      rcases mem_append.mp ha with ha | ha
      · exact horder.1 ha
      · exact horder.2 ha
    · intro a ha
      rw [← append_assoc]
      exact mem_append_left _ (h.known a ha)
  | lost _ _ _ _ | strangerDown _ _ _ _ | late _ | checkpointFailed _ _ _ _ =>
    exact ⟨h.unread rfl rfl rfl rfl, hbegun⟩
  | pluginDown _ _ | unresolved _ _ | absent _ _ | emptyState _ _ _ | saveFailed _ _ _
  | checkpointed _ _ _ _ _ => exact h.kept hbegun rfl rfl le_rfl rfl rfl rfl rfl id
  | found _ _ _ | state _ _ _ _ _ =>
    exact h.kept hbegun rfl rfl le_rfl (append_assoc _ _ _) rfl rfl rfl id

/-- The books before the first message. -/
lemma start_forward {components} (hdist : components.all.Nodup) :
    Forward (start components) ∧ Begun (start components) := by
  refine ⟨⟨?_, rfl, nodup_nil, ?_, ?_, Nat.zero_le 1, fun _ => rfl⟩, fun hne => absurd rfl hne⟩
  · simpa [start] using hdist
  · simp [start, exits]
  · simp [start, exits]

/-- **The shutdown moves forward.**  While the messages arrive in order, the state of the coordinator never moves
back, the chain of plugin stops is started at most once, and each component and each cluster actor is sent `exit`
and counted as awaited at most once. -/
theorem shutdown_forward (components : Components) (hdistinct : components.all.Nodup)
    (before after : List Event) {c c' : Coordinator}
    (horder : RunWhere step Orderly (start components) (before ++ after))
    (hbefore : run step (start components) before = some c) (hafter : run step c after = some c') :
    c.state.rank ≤ c'.state.rank ∧ (chains c'.log).length ≤ 1 ∧
      ∀ actor, (exits c'.log).count actor ≤ 1 ∧ (awaits c'.log).count actor ≤ 1 := by
  obtain ⟨horder₁, horder₂⟩ := horder.append hbefore
  have hrank : c.state.rank ≤ c'.state.rank :=
    run_relation_where (R := fun c c' => c.state.rank ≤ c'.state.rank) (fun _ => le_rfl)
      (fun _ _ _ => le_trans) (fun _ _ _ => step_rank) horder₂ hafter
  have hfwd : Forward c' ∧ Begun c' :=
    run_invariant_where (I := fun c => Forward c ∧ Begun c) (fun _ _ _ h => step_forward h.1 h.2)
      (start_forward hdistinct) horder (run_append.mpr ⟨c, hbefore, hafter⟩)
  refine ⟨hrank, hfwd.1.chain, fun actor => ?_⟩
  have honce := nodup_iff_count_le_one.mp hfwd.1.once actor
  exact ⟨honce, hfwd.1.awaited ▸ honce⟩

namespace Sample

/-- A system with all its components. -/
def components : Components :=
  { pluginMgr := some 1, registry := some 2, checkpointMgr := some 3, loggingService := some 4 }

/-- One plugin without a state is stopped, then the cluster actor and the components go down. -/
def wholeShutdown : List Event :=
  [.registerCluster (some 5), .ready, .shutdown [str "game"], .resolved (str "game") (some (some 7)),
    .stateSaved (str "game") 7 (some []), .down 7, .pluginSaved (str "game") true,
    .down 5, .down 1, .down 2, .down 3, .down 4]

/-- The second stage of the start-up reports that it is done after the shutdown has begun, and a second
`shutdown_atom` arrives; no plugin is stopped before the time is up. -/
def lateReady : List Event := [.ready, .shutdown [str "game"], .forceExit, .forceExit]

end Sample

open Sample in
/-- A whole shutdown is orderly. -/
theorem shutdown_forward_whole : ∃ c, run step (start components) wholeShutdown = some c ∧
    c.state = .stopped ∧ c.terminated = true ∧ exits c.log = [5, 1, 2, 3, 4] ∧
    ∀ actor, (exits c.log).count actor ≤ 1 ∧ (awaits c.log).count actor ≤ 1 := by
  have heval : (run step (start components) wholeShutdown).map
      (fun c => (c.state, c.terminated, exits c.log)) = some (.stopped, true, [5, 1, 2, 3, 4]) := by
    decide +kernel
  obtain ⟨c, hrun, hfacts⟩ := Option.map_eq_some_iff.mp heval
  simp only [Prod.mk.injEq] at hfacts
  obtain ⟨hst, hterm, hexits⟩ := hfacts
  have hfwd := shutdown_forward components (by decide) [] wholeShutdown (by decide +kernel) rfl hrun
  exact ⟨c, hrun, hst, hterm, hexits, hfwd.2.2⟩

open Sample in
/-- A late `ready_atom` moves the state back, the next `shutdown_atom` starts the chain again, and the two timers
end everybody twice. -/
theorem shutdown_forward_late :
    RunWhere step Possible (start components) ([.ready, .shutdown [str "game"]] ++ lateReady) ∧
    ∃ c c', run step (start components) [.ready, .shutdown [str "game"]] = some c ∧
      run step c lateReady = some c' ∧ (∃ t, step c .ready = some t ∧ ¬ c.state.rank ≤ t.state.rank) ∧
      (chains c'.log).length = 2 ∧ (exits c'.log).count 1 = 2 ∧ (awaits c'.log).count 1 = 2 := by
  refine ⟨by decide +kernel, _, _, rfl, rfl, ⟨_, rfl, by decide⟩, ?_⟩
  decide +kernel

end Caf.Shutdown
