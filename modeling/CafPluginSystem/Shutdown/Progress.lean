import CafPluginSystem.Shutdown.Forward

/-!
# The shutdown comes to its end

Whatever the coordinator waits for, it has a monitor on it (`Accounted`), so a `down_msg` is still to come for each
awaited actor.  There is one way to lose one: while a plugin is being stopped, the `down_msg` of any other actor is
dropped.  And there is one request without an error continuation, the one to the checkpoint manager.  `Timely`
excludes the two; under it a forced exit completes (`forced_exit_completes`) and the chain of plugin stops is never
stuck (`chain_not_stuck`).
-/

namespace Caf.Shutdown

open EntityStore Machine List

/-- While a plugin is being stopped nobody else goes down, and the checkpoint manager does not fail. -/
def Timely (c : Coordinator) : Event → Prop
  | .down source => ∀ actor ∈ c.stoppingPlugin, actor = source
  | .checkpointed _ _ _ none => False
  | _ => True

instance Timely.decidable (c : Coordinator) : ∀ e, Decidable (Timely c e)
  | .down source => inferInstanceAs (Decidable (∀ actor ∈ c.stoppingPlugin, actor = source))
  | .checkpointed _ _ _ none => isFalse id
  | .checkpointed _ _ _ (some _) | .ready | .shutdown _ | .pluginSaved _ _ | .drained _ | .forceExit
  | .registerCluster _ | .resolved _ _ | .stateSaved _ _ _ => isTrue trivial

/-! ## What is awaited is monitored -/

/-- The cluster actors that are awaited are `waiting`; each awaited actor has a monitor of its own, and was sent
`exit` if it is not the plugin that is being stopped. -/
structure Accounted (c : Coordinator) (waiting : List Address) : Prop where
  pending : waiting.length = c.clusterCtlsPending
  cluster : ∀ a ∈ waiting, a ∈ c.clusterCtls
  monitored : (c.stoppingPlugin.toList ++ (c.stoppingComponents ++ waiting)).Subperm c.monitored
  exited : ∀ a ∈ c.stoppingComponents ++ waiting, a ∈ exits c.log

namespace Accounted

variable {c c' : Coordinator} {waiting : List Address}

/-- Nothing that is awaited has changed. -/
lemma of_same (h : Accounted c waiting) (hpend : c'.clusterCtlsPending = c.clusterCtlsPending)
    (hctls : c.clusterCtls ⊆ c'.clusterCtls) (hstop : c'.stoppingPlugin = c.stoppingPlugin)
    (hcomps : c'.stoppingComponents = c.stoppingComponents) (hmon : c'.monitored = c.monitored)
    (hexits : exits c.log ⊆ exits c'.log) : Accounted c' waiting := by
  refine ⟨?_, fun a ha => hctls (h.cluster a ha), ?_, fun a ha => hexits (h.exited a ?_)⟩
  · rw [hpend]; exact h.pending
  · rw [hstop, hcomps, hmon]; exact h.monitored
  · rwa [hcomps] at ha

lemma exits_subset (log acts : List Act) : exits log ⊆ exits (log ++ acts) := by
  rw [exits_append]
  exact subset_append_left _ _

section

variable (h : Accounted c waiting)
include h

/-- Everybody is awaited. -/
lemma awaitAll : Accounted (awaitAll c) (waiting ++ c.clusterCtls) := by
  refine ⟨?_, fun a ha => ?_, ?_, fun a ha => ?_⟩
  · rw [length_append, h.pending]
    rfl
  · rcases mem_append.mp ha with ha | ha
    · exact h.cluster a ha
    · exact ha
  · have hsum := h.monitored.append (List.Subperm.refl c.ending)
    refine List.Perm.subperm ?_ |>.trans hsum
    simp only [Shutdown.awaitAll, Coordinator.ending, perm_iff_count, count_append]
    intro a
    omega
  · show a ∈ exits (c.log ++ endActs c.ending)
    rw [exits_append, exits_endActs, Coordinator.ending]
    have hbefore := h.exited a
    simp only [Shutdown.awaitAll, mem_append] at ha hbefore ⊢
    tauto

/-- The logging service is awaited, or nobody is. -/
lemma finishesLast (hlast : FinishesLast c c') : Accounted c' waiting := by
  cases hlast with
  | logging actor hlogging =>
    refine ⟨h.pending, h.cluster, ?_, fun a ha => ?_⟩
    · have hsum := h.monitored.append (List.Subperm.refl [actor])
      refine List.Perm.subperm ?_ |>.trans hsum
      simp only [stopComponent, perm_iff_count, count_append]
      intro a
      omega
    · show a ∈ exits (c.log ++ endActs [actor])
      rw [exits_append, exits_endActs]
      have hbefore := h.exited a
      simp only [stopComponent, mem_append] at ha hbefore ⊢
      tauto
  | quit hlogging => exact h.of_same rfl (List.Subset.refl _) rfl rfl rfl (exits_subset _ _)

lemma finishes (hends : Finishes c c') : ∃ waiting', Accounted c' waiting' := by
  cases hends with
  | await hbusy => exact ⟨_, h.awaitAll⟩
  | last hidle hending hlast => exact ⟨_, h.finishesLast hlast⟩

lemma passes (hpass : Passes c c') : Accounted c' waiting := by
  cases hpass with
  | waits hbusy => exact h
  | last hidle hst hlast => exact h.finishesLast hlast
  | done hidle hst => exact h.of_same rfl (List.Subset.refl _) rfl rfl rfl (exits_subset _ _)

end

variable {source : Address}

variable (h : Accounted c waiting)
include h

/-- Somebody who is not awaited goes down. -/
lemma stranger (hstop : source ∉ c.stoppingPlugin.toList)
    (hcomponent : source ∉ c.stoppingComponents) (hwait : source ∉ waiting) :
    Accounted { c with monitored := c.monitored.erase source } waiting := by
  refine ⟨h.pending, h.cluster, ?_, h.exited⟩
  have hrest := h.monitored.erase source
  rwa [erase_of_not_mem (by simp [hcomponent, hwait] at *; exact hstop)] at hrest

/-- The plugin that is being stopped goes down. -/
lemma pluginDown {actor : Address} (hstop : c.stoppingPlugin = some actor) :
    Accounted (pluginDown { c with monitored := c.monitored.erase actor } actor) waiting := by
  refine ⟨h.pending, h.cluster, ?_, fun a ha => exits_subset _ _ (h.exited a ha)⟩
  have hrest := h.monitored.erase actor
  rwa [hstop, Option.toList_some, singleton_append, erase_cons_head] at hrest

lemma componentDown (hstop : c.stoppingPlugin = none) (hmem : source ∈ c.stoppingComponents) :
    Accounted { c with
      monitored := c.monitored.erase source
      stoppingComponents := c.stoppingComponents.erase source } waiting := by
  refine ⟨h.pending, h.cluster, ?_, fun a ha => h.exited a ?_⟩
  · have hrest := h.monitored.erase source
    rw [hstop, Option.toList_none, nil_append, erase_append_left _ hmem] at hrest
    simpa [hstop] using hrest
  · rcases mem_append.mp ha with ha | ha
    · exact mem_append_left _ (mem_of_mem_erase ha)
    · exact mem_append_right _ ha

/-- A cluster actor goes down.  If it was not awaited, another one is counted for it. -/
lemma clusterDown (hstop : c.stoppingPlugin = none) (hnot : source ∉ c.stoppingComponents) :
    ∃ waiting', Accounted { c with
      monitored := c.monitored.erase source
      clusterCtlsPending := c.clusterCtlsPending - 1 } waiting' := by
  have hrest := h.monitored.erase source
  rw [hstop, Option.toList_none, nil_append, erase_append_right _ hnot] at hrest
  -- one entry of `waiting` goes, the actor's own if it has one
  obtain ⟨waiting', hsub, hlen, hmon⟩ : ∃ waiting' : List Address, waiting'.Sublist waiting ∧
      waiting'.length = waiting.length - 1 ∧
        (c.stoppingComponents ++ waiting').Subperm (c.monitored.erase source) := by
    by_cases hmem : source ∈ waiting
    · exact ⟨_, erase_sublist, length_erase_of_mem hmem, hrest⟩
    · rw [erase_of_not_mem hmem] at hrest
      exact ⟨_, tail_sublist waiting, length_tail,
        ((tail_sublist waiting).append_left _).subperm.trans hrest⟩
  refine ⟨waiting', by rw [hlen, h.pending], fun a ha => h.cluster a (hsub.subset ha), ?_, fun a ha => ?_⟩
  · simpa [hstop] using hmon
  · refine h.exited a ?_
    rcases mem_append.mp ha with ha | ha
    · exact mem_append_left _ ha
    · exact mem_append_right _ (hsub.subset ha)

/-- A plugin is found; a plugin that was being stopped before is forgotten. -/
lemma found {actor : Address} (hstop : c'.stoppingPlugin = some actor)
    (hpend : c'.clusterCtlsPending = c.clusterCtlsPending) (hctls : c'.clusterCtls = c.clusterCtls)
    (hcomps : c'.stoppingComponents = c.stoppingComponents)
    (hmon : c'.monitored = c.monitored ++ [actor]) (hexits : exits c.log ⊆ exits c'.log) :
    Accounted c' waiting := by
  refine ⟨by rw [hpend]; exact h.pending, by rw [hctls]; exact h.cluster, ?_, fun a ha => ?_⟩
  · have hawait : (c.stoppingComponents ++ waiting).Subperm c.monitored :=
      (sublist_append_right _ _).subperm.trans h.monitored
    rw [hstop, hcomps, hmon, Option.toList_some]
    exact perm_append_comm.subperm.trans (hawait.append (List.Subperm.refl [actor]))
  · rw [hcomps] at ha
    exact hexits (h.exited a ha)

end Accounted

variable {c c' : Coordinator} {e : Event}

/-- **Every awaited actor keeps its monitor.** -/
lemma step_accounted (h : ∃ waiting, Accounted c waiting)
    (htimely : Timely c e) (hstep : step c e = some c') : ∃ waiting, Accounted c' waiting := by
  obtain ⟨waiting, h⟩ := h
  cases (step_cases hstep).2 with
  | early order hst hends => exact h.finishes hends
  | noPlugins hst hends =>
    have hbefore : Accounted (startChain c []) waiting :=
      h.of_same rfl (List.Subset.refl _) rfl rfl rfl (Accounted.exits_subset _ _)
    exact hbefore.finishes hends
  | last name saved hnone hends =>
    have hbefore : Accounted { c with mail := c.mail.erase (name, saved), remainingPlugins := [] } waiting :=
      h.of_same rfl (List.Subset.refl _) rfl rfl rfl (List.Subset.refl _)
    exact hbefore.finishes hends
  | forced hst hends =>
    have hbefore : Accounted { c with timers := c.timers - 1 } waiting :=
      h.of_same rfl (List.Subset.refl _) rfl rfl rfl (List.Subset.refl _)
    exact hbefore.finishes hends
  | pluginDown actor hstop => exact ⟨waiting, h.pluginDown hstop⟩
  | lost source actor hstop hoth => exact absurd (htimely actor hstop) hoth
  | componentDown source hstop hmem hpass => exact ⟨waiting, (h.componentDown hstop hmem).passes hpass⟩
  | clusterDown source hstop hnot hpend hmem hpass =>
    obtain ⟨waiting', h'⟩ := h.clusterDown hstop hnot
    exact ⟨waiting', h'.passes hpass⟩
  | strangerDown source hstop hnot hclus =>
    refine ⟨waiting, h.stranger (by simp [hstop]) hnot fun hmem => hclus ⟨?_, h.cluster source hmem⟩⟩
    rw [← h.pending]
    exact length_pos_of_mem hmem
  | found name actor hpend =>
    refine ⟨waiting, h.found rfl rfl rfl rfl rfl ?_⟩
    rw [append_assoc]
    exact Accounted.exits_subset _ _
  | register ctl =>
    exact ⟨waiting, h.of_same rfl (subset_append_left _ _) rfl rfl rfl (List.Subset.refl _)⟩
  | state _ _ _ _ _ | chain _ _ _ _ =>
    refine ⟨waiting, h.of_same rfl (List.Subset.refl _) rfl rfl rfl ?_⟩
    exact List.Subset.trans (Accounted.exits_subset _ _) (Accounted.exits_subset _ _)
  | ready | ignored _ _ | drained _ | late _ | registerNull | checkpointFailed _ _ _ _ =>
    exact ⟨waiting, h.of_same rfl (List.Subset.refl _) rfl rfl rfl (List.Subset.refl _)⟩
  | next _ _ _ _ | unresolved _ _ | absent _ _ | emptyState _ _ _ | saveFailed _ _ _ | checkpointed _ _ _ _ _ =>
    exact ⟨waiting, h.of_same rfl (List.Subset.refl _) rfl rfl rfl (Accounted.exits_subset _ _)⟩

/-! ## The coordinator ends when it has stopped -/

lemma FinishesLast.ended (h : FinishesLast c c') : c'.idle = false ∨ c'.terminated = true := by
  cases h with
  | logging actor hlogging => exact .inl (by simp [Coordinator.idle, stopComponent])
  | quit hlogging => exact .inr rfl

/-- When `finish_shutdown` has run, somebody is awaited or all is over. -/
lemma Finishes.ended (h : Finishes c c') : c'.idle = false ∨ c'.terminated = true := by
  cases h with
  | await hbusy => exact .inl hbusy
  | last hidle hending hlast => exact hlast.ended

lemma Passes.ended (h : Passes c c') : c'.idle = false ∨ c'.terminated = true := by
  cases h with
  | waits hbusy => exact .inl hbusy
  | last hidle hst hlast => exact hlast.ended
  | done hidle hst => exact .inr rfl

lemma Finishes.terminated (h : Finishes c c') :
    c'.terminated = c.terminated ∨ c'.state = .stopped := by
  cases h with
  | await hbusy => exact .inl rfl
  | last hidle hending hlast => exact .inr hlast.state

lemma Passes.terminated (h : Passes c c') :
    c'.terminated = c.terminated ∨ c'.state = .stopped := by
  cases h with
  | waits hbusy => exact .inl rfl
  | last hidle hst hlast => exact .inr hlast.state
  | done hidle hst => exact .inr hst

/-- The coordinator does not end early. -/
lemma step_terminated (htimely : Timely c e) (hstep : step c e = some c')
    (hterm : c'.terminated = true) : c'.state = .stopped := by
  obtain ⟨hlive, hsteps⟩ := step_cases hstep
  have hthen {t : Bool} (ht : t = false) (h : c'.terminated = t ∨ c'.state = .stopped) : c'.state = .stopped := by
    rcases h with h | h
    · rw [h, ht] at hterm
      cases hterm
    · exact h
  cases hsteps with
  | early order hst hends | noPlugins hst hends | last name saved hnone hends
  | forced hst hends => exact hthen hlive hends.terminated
  | componentDown source hstop hmem hpass
  | clusterDown source hstop hnot hpend hmem hpass => exact hthen hlive hpass.terminated
  | checkpointFailed name actor data hpend => exact htimely.elim
  | _ => exact hthen hlive (.inl rfl)

/-- Once somebody is awaited, somebody is until all is over. -/
lemma step_awaiting (h : c.idle = false ∨ c.terminated = true)
    (hstep : step c e = some c') : c'.idle = false ∨ c'.terminated = true := by
  obtain ⟨hlive, hsteps⟩ := step_cases hstep
  have hbusy : c.idle = false := h.resolve_right (by simp [hlive])
  cases hsteps with
  | early order hst hends | noPlugins hst hends | last name saved hnone hends
  | forced hst hends => exact hends.ended
  | componentDown source hstop hmem hpass
  | clusterDown source hstop hnot hpend hmem hpass => exact hpass.ended
  | _ => exact .inl hbusy

/-- Who is awaited was sent `exit`, and its `down_msg` is to come. -/
lemma Accounted.busy {waiting : List Address} (h : Accounted c waiting) (hbusy : c.idle = false) :
    ∃ a ∈ c.monitored, a ∈ exits c.log := by
  obtain ⟨a, ha⟩ : ∃ a, a ∈ c.stoppingComponents ++ waiting := by
    refine exists_mem_of_ne_nil _ fun hnil => ?_
    obtain ⟨hcomps, hwait⟩ := append_eq_nil_iff.mp hnil
    have hidle : c.idle = true := idle_iff.mpr ⟨hcomps, by rw [← h.pending, hwait]; rfl⟩
    rw [hidle] at hbusy
    cases hbusy
  exact ⟨a, h.monitored.subset (mem_append_right _ ha), h.exited a ha⟩

/-- Nobody is awaited. -/
lemma Accounted.nobody (hstop : c.stoppingPlugin = none)
    (hcomps : c.stoppingComponents = []) (hpend : c.clusterCtlsPending = 0) : Accounted c [] := by
  refine ⟨hpend.symm, by simp, ?_, by simp [hcomps]⟩
  rw [hstop, hcomps]
  exact nil_subperm

/-- **A forced exit completes.**  When `force_exit_atom` has been handled while the coordinator shuts down, and the
`down_msg` of everybody who was sent `exit` has been delivered, the state is `stopped`, provided that nobody else
went down while a plugin was being stopped and the checkpoint manager did not fail. -/
theorem forced_exit_completes (components : Components) (before after : List Event) {c forced c' : Coordinator}
    (htimely : RunWhere step Timely (start components) (before ++ .forceExit :: after))
    (hbefore : run step (start components) before = some c) (hstate : c.state = .shuttingDown)
    (hforced : step c .forceExit = some forced) (hafter : run step forced after = some c') :
    (c'.terminated = true → c'.state = .stopped) ∧
      ((∀ actor ∈ exits c'.log, actor ∉ c'.monitored) → c'.state = .stopped) := by
  have hrun : run step (start components) (before ++ .forceExit :: after) = some c' :=
    run_append.mpr ⟨c, hbefore, run_cons.mpr ⟨forced, hforced, hafter⟩⟩
  have hterm : c'.terminated = true → c'.state = .stopped :=
    run_invariant_where (I := fun c => c.terminated = true → c.state = .stopped)
      (fun _ _ _ _ htimely hstep => step_terminated htimely hstep) (fun h => (by cases h)) htimely hrun
  obtain ⟨waiting, hacct⟩ : ∃ waiting, Accounted c' waiting :=
    run_invariant_where (I := fun c => ∃ waiting, Accounted c waiting)
      (fun _ _ _ h htimely hstep => step_accounted h htimely hstep) ⟨[], .nobody rfl rfl rfl⟩ htimely hrun
  have hends : forced.idle = false ∨ forced.terminated = true := by
    cases (step_cases hforced).2 with
    | late hstopped => rw [hstate] at hstopped; cases hstopped
    | forced _ hends => exact hends.ended
  have hlast : c'.idle = false ∨ c'.terminated = true :=
    run_invariant (I := fun c => c.idle = false ∨ c.terminated = true) (fun _ _ _ h => step_awaiting h) hends hafter
  refine ⟨hterm, fun hdeliv => ?_⟩
  rcases hlast with hbusy | hover
  · obtain ⟨a, hmon, hexited⟩ := hacct.busy hbusy
    exact absurd hmon (hdeliv a hexited)
  · exact hterm hover

namespace Sample

/-- The shutdown has begun, and the plugin's actor is asked for. -/
def resolving : List Event := [.ready, .shutdown [str "game"]]

/-- The plugin is being stopped and does not answer. -/
def hung : List Event := resolving ++ [.resolved (str "game") (some (some 7))]

end Sample

open Sample in
/-- The plugin manager does not answer, and the time is up. -/
theorem forced_exit_completes_resolving : ∃ c forced c',
    run step (start components) resolving = some c ∧ c.state = .shuttingDown ∧
    step c .forceExit = some forced ∧ run step forced [.down 1, .down 2, .down 3, .down 4] = some c' ∧
    exits c'.log = [1, 2, 3, 4] ∧ c'.monitored = [] ∧ c'.state = .stopped := by
  refine ⟨_, _, _, rfl, rfl, rfl, rfl, by decide +kernel, by decide +kernel, ?_⟩
  exact (forced_exit_completes components resolving [.down 1, .down 2, .down 3, .down 4] (by decide +kernel)
    rfl rfl rfl rfl).2 (by decide +kernel)

open Sample in
/-- A plugin hangs when the time is up: the components go down, but the coordinator waits for the plugin. -/
theorem forced_exit_completes_hung :
    RunWhere step Possible (start components) (hung ++ .forceExit :: [.down 1, .down 2, .down 3]) ∧
    ∃ c forced c', run step (start components) hung = some c ∧ c.state = .shuttingDown ∧
      step c .forceExit = some forced ∧ run step forced [.down 1, .down 2, .down 3] = some c' ∧
      exits c'.log = [1, 2, 3] ∧ (∀ actor ∈ exits c'.log, actor ∉ c'.monitored) ∧ c'.state = .shuttingDown := by
  refine ⟨by decide +kernel, _, _, _, rfl, rfl, rfl, rfl, ?_⟩
  decide +kernel

/-! ## The chain is never stuck -/

/-- The coordinator in the state `ready`, with the cluster actors that are registered. -/
def readyState (components : Components) (clusterCtls : List Address) : Coordinator :=
  { components, clusterCtls, state := .ready }

/-- Something else than the timer is on its way: a message of its own, the reply to a request, or the `down_msg`
of an actor that was told to end. -/
def Coordinator.Deliverable (c : Coordinator) : Prop :=
  c.mail ≠ [] ∨ c.pending ≠ [] ∨
    ∃ actor ∈ c.monitored, (∃ name, .shutdown name actor ∈ c.log) ∨ actor ∈ exits c.log

/-- What carries the chain on. -/
def Coordinator.Carried (c : Coordinator) : Prop :=
  c.mail ≠ [] ∨ (∃ name, .resolvePlugin name ∈ c.pending) ∨ c.stoppingPlugin ≠ none ∨ c.idle = false

/-- The plugin's actor that a request is about. -/
def Request.actor : Request → Option Address
  | .resolvePlugin _ => none
  | .saveState _ actor => some actor
  | .saveCheckpoint _ actor _ => some actor

/-- The plugin's actor was told to end, or the coordinator waits for a reply before it does so. -/
def Told (pending : List Request) (log : List Act) (actor : Address) : Prop :=
  (∃ name, .shutdown name actor ∈ log) ∨ ∃ request ∈ pending, request.actor = some actor

section Told

variable {pending pending' : List Request} {log log' : List Act} {actor : Address}

/-- A request is answered, and what follows for its actor is done. -/
lemma Told.replied (h : Told pending log actor) (request : Request) (hlog : log ⊆ log')
    (hpend : ∀ q ∈ pending, q ≠ request → q ∈ pending')
    (hnext : request.actor = some actor → Told pending' log' actor) : Told pending' log' actor := by
  rcases h with ⟨name, hname⟩ | ⟨q, hmem, hactor⟩
  · exact .inl ⟨name, hlog hname⟩
  · by_cases hsame : q = request
    · exact hnext (hsame ▸ hactor)
    · exact .inr ⟨q, hpend q hmem hsame, hactor⟩

lemma Told.mono (h : Told pending log actor) (hlog : log ⊆ log') (hpend : pending ⊆ pending') :
    Told pending' log' actor := by
  rcases h with ⟨name, hname⟩ | ⟨q, hmem, hactor⟩
  · exact .inl ⟨name, hlog hname⟩
  · exact .inr ⟨q, hpend hmem, hactor⟩

end Told

lemma Told.untouched (h : ∀ actor ∈ c.stoppingPlugin, Told c.pending c.log actor)
    (hsame : Untouched c c') : ∀ actor ∈ c'.stoppingPlugin, Told c'.pending c'.log actor := by
  obtain ⟨acts, hlog, -⟩ := hsame.log
  rw [hsame.stopping, hsame.pending, hlog]
  exact fun actor ha => (h actor ha).mono (subset_append_left _ _) (List.Subset.refl _)

/-- **The plugin that is being stopped is told to end.** -/
lemma step_told (htimely : Timely c e)
    (h : ∀ actor ∈ c.stoppingPlugin, Told c.pending c.log actor) (hstep : step c e = some c') :
    ∀ actor ∈ c'.stoppingPlugin, Told c'.pending c'.log actor := by
  have hoth (request : Request) : ∀ q ∈ c.pending, q ≠ request → q ∈ c.pending.erase request :=
    fun q hq hne => (mem_erase_of_ne hne).mpr hq
  cases (step_cases hstep).2 with
  | early order hst hends => exact Told.untouched h hends.untouched
  | noPlugins hst hends =>
    refine Told.untouched (fun a ha => ?_) hends.untouched
    exact (h a ha).mono (subset_append_left _ _) (List.Subset.refl _)
  | last name saved hnone hends | forced hst hends =>
    refine Told.untouched ?_ hends.untouched
    exact h
  | componentDown source hstop hmem hpass
  | clusterDown source hstop hnot hpend hmem hpass =>
    refine Told.untouched ?_ hpass.untouched
    exact h
  | chain order name hst hlast =>
    intro a ha
    refine (h a ha).mono ?_ (subset_append_left _ _)
    exact List.Subset.trans (subset_append_left _ _) (subset_append_left _ _)
  | next name saved following hlast =>
    exact fun a ha => (h a ha).mono (subset_append_left _ _) (subset_append_left _ _)
  | pluginDown actor hstop => exact fun _ ha => nomatch ha
  | unresolved name hpend | absent name hpend =>
    exact fun a ha => (h a ha).replied (.resolvePlugin name) (subset_append_left _ _) (hoth _) nofun
  | found name actor hpend =>
    intro a ha
    obtain rfl : actor = a := Option.some.inj ha
    exact .inr ⟨.saveState name actor, mem_append_right _ (by simp), rfl⟩
  | emptyState name actor hpend | saveFailed name actor hpend =>
    refine fun a ha => (h a ha).replied (.saveState name actor) (subset_append_left _ _) (hoth _) ?_
    rintro ⟨rfl⟩
    exact .inl ⟨name, mem_append_right _ (by simp)⟩
  | state name actor data hdata hpend =>
    refine fun a ha => (h a ha).replied (.saveState name actor) ?_
      (fun q hq hne => mem_append_left _ (hoth _ q hq hne)) ?_
    · exact List.Subset.trans (subset_append_left _ _) (subset_append_left _ _)
    · rintro ⟨rfl⟩
      exact .inr ⟨.saveCheckpoint name actor data, mem_append_right _ (by simp), rfl⟩
  | checkpointed name actor data done hpend =>
    refine fun a ha => (h a ha).replied (.saveCheckpoint name actor data) (subset_append_left _ _)
      (hoth _) ?_
    rintro ⟨rfl⟩
    exact .inl ⟨name, mem_append_right _ (by simp)⟩
  | checkpointFailed name actor data hpend => exact htimely.elim
  | _ => exact h

/-- Until it ends, something carries the chain on. -/
def Coordinator.OnItsWay (c : Coordinator) : Prop := c.Carried ∨ c.terminated = true

lemma OnItsWay.of_ended (h : c.idle = false ∨ c.terminated = true) : c.OnItsWay := by
  rcases h with h | h
  · exact .inl (.inr (.inr (.inr h)))
  · exact .inr h

/-- The reply to another request does not matter to what carries the chain on. -/
lemma Coordinator.Carried.replied (h : c.Carried) (request : Request) (hmail : c'.mail = c.mail)
    (hoth : ∀ name, request ≠ .resolvePlugin name) (hstop : c'.stoppingPlugin = c.stoppingPlugin)
    (hpend : c.pending.erase request ⊆ c'.pending) (hidle : c'.idle = c.idle) : c'.Carried := by
  rcases h with h | ⟨name, h⟩ | h | h
  · exact .inl (hmail ▸ h)
  · exact .inr (.inl ⟨name, hpend ((mem_erase_of_ne (hoth name).symm).mpr h)⟩)
  · exact .inr (.inr (.inl (hstop ▸ h)))
  · exact .inr (.inr (.inr (hidle ▸ h)))

/-- **The chain, once started, is carried on.** -/
lemma step_carried (h : chains c.log ≠ [] → c.OnItsWay)
    (hstep : step c e = some c') : chains c'.log ≠ [] → c'.OnItsWay := by
  obtain ⟨hlive, hsteps⟩ := step_cases hstep
  -- the entries of a step that is not about the chain do not start one
  have hcarried (acts : List Act) (hacts : chains acts = []) (hchains : chains (c.log ++ acts) ≠ []) :
      c.Carried := by
    rw [chains_append, hacts, append_nil] at hchains
    exact (h hchains).resolve_right (by simp [hlive])
  cases hsteps with
  | early order hst hends | noPlugins hst hends | last name saved hnone hends
  | forced hst hends => exact fun _ => OnItsWay.of_ended hends.ended
  | componentDown source hstop hmem hpass
  | clusterDown source hstop hnot hpend hmem hpass =>
    exact fun _ => OnItsWay.of_ended hpass.ended
  | chain order name hst hlast =>
    exact fun _ => .inl (.inr (.inl ⟨name, mem_append_right _ (by simp)⟩))
  | next name saved following hlast =>
    exact fun _ => .inl (.inr (.inl ⟨following, mem_append_right _ (by simp)⟩))
  | pluginDown actor hstop => exact fun _ => .inl (.inl (by simp [pluginDown, sendSaved]))
  | unresolved name hpend | absent name hpend =>
    exact fun _ => .inl (.inl (by simp [sendSaved]))
  | found name actor hpend => exact fun _ => .inl (.inr (.inr (.inl (by simp))))
  | emptyState name actor hpend | saveFailed name actor hpend =>
    intro hchains
    exact .inl ((hcarried _ rfl hchains).replied (.saveState name actor) rfl (by simp) rfl (List.Subset.refl _) rfl)
  | state name actor data hdata hpend =>
    intro hchains
    have hbefore : c.Carried :=
      hcarried [.stateSaved name actor data, .requested (.saveCheckpoint name actor data)] rfl
        (by simpa [sendRequest, note] using hchains)
    exact .inl (hbefore.replied (.saveState name actor) rfl (by simp) rfl (subset_append_left _ _) rfl)
  | checkpointed name actor data done hpend =>
    intro hchains
    exact .inl ((hcarried _ rfl hchains).replied (.saveCheckpoint name actor data) rfl (by simp) rfl
      (List.Subset.refl _) rfl)
  | checkpointFailed name actor data hpend => exact fun _ => .inr rfl
  | _ => exact h

/-- **The chain is never stuck.**  From the state `ready`, provided that nobody else goes down while a plugin is
being stopped and the checkpoint manager does not fail, the coordinator does not end before it has stopped; and
once the chain of plugin stops is started, there is something on its way to it until it has stopped. -/
theorem chain_not_stuck (components : Components) (clusterCtls : List Address) (events : List Event)
    {c : Coordinator} (htimely : RunWhere step Timely (readyState components clusterCtls) events)
    (hrun : run step (readyState components clusterCtls) events = some c) :
    (c.terminated = true → c.state = .stopped) ∧
      (chains c.log ≠ [] → c.state ≠ .stopped → c.Deliverable) := by
  have hterm : c.terminated = true → c.state = .stopped :=
    run_invariant_where (I := fun c => c.terminated = true → c.state = .stopped)
      (fun _ _ _ _ htimely hstep => step_terminated htimely hstep) (fun h => (by cases h)) htimely hrun
  obtain ⟨waiting, hacct⟩ : ∃ waiting, Accounted c waiting :=
    run_invariant_where (I := fun c => ∃ waiting, Accounted c waiting)
      (fun _ _ _ h htimely hstep => step_accounted h htimely hstep)
      ⟨[], .nobody rfl rfl rfl⟩ htimely hrun
  have htold : ∀ actor ∈ c.stoppingPlugin, Told c.pending c.log actor :=
    run_invariant_where (I := fun c => ∀ actor ∈ c.stoppingPlugin, Told c.pending c.log actor)
      (fun _ _ _ h htimely hstep => step_told htimely h hstep) (by simp [readyState]) htimely hrun
  have hcarried : chains c.log ≠ [] → c.OnItsWay :=
    run_invariant (I := fun c => chains c.log ≠ [] → c.OnItsWay) (fun _ _ _ h => step_carried h)
      (fun hne => absurd rfl hne) hrun
  refine ⟨hterm, fun hstart hst => ?_⟩
  have hlive : ¬ c.terminated = true := fun h => hst (hterm h)
  rcases (hcarried hstart).resolve_right hlive with hmail | ⟨name, hpend⟩ | hstop | hbusy
  · exact .inl hmail
  · exact .inr (.inl (ne_nil_of_mem hpend))
  · obtain ⟨actor, hactor⟩ := Option.ne_none_iff_exists'.mp hstop
    rcases htold actor hactor with hshutdown | ⟨request, hpend, -⟩
    · refine .inr (.inr ⟨actor, hacct.monitored.subset ?_, .inl hshutdown⟩)
      simp [hactor]
    · exact .inr (.inl (ne_nil_of_mem hpend))
  · obtain ⟨actor, hmon, hexited⟩ := hacct.busy hbusy
    exact .inr (.inr ⟨actor, hmon, .inr hexited⟩)

namespace Sample

/-- The plugin has a state, and the checkpoint manager is asked to save it. -/
def saving : List Event :=
  [.shutdown [str "game"], .resolved (str "game") (some (some 7)), .stateSaved (str "game") 7 (some (str "state"))]

end Sample

open Sample in
theorem chain_not_stuck_saving : ∃ c, run step (readyState components [5]) saving = some c ∧
    c.state = .shuttingDown ∧ c.Deliverable := by
  refine ⟨_, rfl, rfl, ?_⟩
  exact (chain_not_stuck components [5] saving (by decide +kernel) rfl).2 (by decide +kernel)
    (by decide +kernel)

open Sample in
/-- The checkpoint manager fails: the coordinator ends with the plugin and all components alive. -/
theorem chain_not_stuck_failed :
    RunWhere step Possible (readyState components [5])
      (saving ++ [.checkpointed (str "game") 7 (str "state") none]) ∧
    ∃ c, run step (readyState components [5])
        (saving ++ [.checkpointed (str "game") 7 (str "state") none]) = some c ∧
      c.terminated = true ∧ c.state = .shuttingDown := by
  refine ⟨by decide +kernel, _, rfl, ?_⟩
  decide +kernel

end Caf.Shutdown
