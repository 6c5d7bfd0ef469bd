import CafPluginSystem.Shutdown.Forward

/-!
# The chain of plugin stops

A graceful shutdown, without `force_exit_atom` and without a `ready_atom` after its start, goes through the plugins
of its list from the back.  `Phase` says who carries the chain on: the request for a plugin's actor, the actor that
is being stopped, the coordinator's own message that it is done, or nobody any more.  `Chain` ties the phase to the
state of the coordinator and to its history, and `Saves` follows the states of the plugins from the reply of the
plugin to the reply of the checkpoint manager.  Late replies of a plugin that has gone down may arrive in any phase.
-/

namespace Caf.Shutdown

open EntityStore Machine List

variable {pending : List Request} {actor : Address} {e : Event}

/-- No `force_exit_atom`, and no `ready_atom` after the chain has been started. -/
def Graceful (c : Coordinator) (e : Event) : Prop :=
  Possible c e ∧ e ≠ .forceExit ∧ (e = .ready → chains c.log = [])

instance Graceful.decidable (c : Coordinator) (e : Event) : Decidable (Graceful c e) :=
  inferInstanceAs (Decidable (_ ∧ _ ∧ (_ → _)))

/-! ## Phases -/

inductive Phase where
  | resolving (name : Bytes)
  | stopping (name : Bytes) (actor : Address)
  | saved (name : Bytes)
  | finishing

/-- The plugin that the chain is at. -/
def Phase.name : Phase → Option Bytes
  | .resolving name | .stopping name _ | .saved name => some name
  | .finishing => none

/-- The plugins whose actor is asked for. -/
def resolves (pending : List Request) : List Bytes :=
  pending.filterMap fun | .resolvePlugin name => some name | _ => none

/-- What the coordinator holds in a phase. -/
def At (c : Coordinator) : Phase → Prop
  | .resolving name => resolves c.pending = [name] ∧ c.stoppingPlugin = none ∧ c.mail = []
  | .stopping name actor =>
    resolves c.pending = [] ∧ c.stoppingPlugin = some actor ∧ c.stoppingPluginName = name ∧ c.mail = []
  | .saved name => resolves c.pending = [] ∧ c.stoppingPlugin = none ∧ ∃ saved, c.mail = [(name, saved)]
  | .finishing => resolves c.pending = [] ∧ c.stoppingPlugin = none ∧ c.mail = []

/-- The chain is done with the plugin: it has gone down, was reported absent, or could not be asked for. -/
def Settled (log : List Act) (name : Bytes) : Prop :=
  (∃ actor, .wentDown name actor ∈ log) ∨ .absent name ∈ log ∨ .unresolved name ∈ log

lemma Settled.mono {log log' name} (h : Settled log name) (hlog : log ⊆ log') :
    Settled log' name := by
  rcases h with ⟨actor, h⟩ | h | h
  · exact .inl ⟨actor, hlog h⟩
  · exact .inr (.inl (hlog h))
  · exact .inr (.inr (hlog h))

/-- The plugin's actor was asked for. -/
def Asked (log : List Act) (name : Bytes) : Prop := .requested (.resolvePlugin name) ∈ log

/-- **The chain** over the plugins of `order`. -/
structure Chain (order : List Bytes) (phase : Phase) (c : Coordinator) : Prop where
  inPhase : At c phase
  state : c.state = .shuttingDown ∨ c.state = .stopped
  started : chains c.log = [order]
  last : c.remainingPlugins.getLast? = phase.name
  left : c.remainingPlugins = order.filter (· ∈ c.remainingPlugins)
  settled : ∀ name ∈ order, name ∉ c.remainingPlugins → Settled c.log name
  saved : ∀ name, phase = .saved name → Settled c.log name
  drained : ∀ name actor, .drain name actor ∈ c.log →
    .wentDown name actor ∈ c.log ∨ phase = .stopping name actor
  asked : ∀ name, Asked c.log name → name ∈ c.remainingPlugins → phase.name = some name
  idle : phase ≠ .finishing → c.idle = true

/-- Before the shutdown. -/
structure Before (c : Coordinator) : Prop where
  state : c.state = .ready
  stopping : c.stoppingPlugin = none
  pending : c.pending = []
  mail : c.mail = []
  log : c.log = []
  idle : c.idle = true

/-! ## What replies do to the requests -/

lemma resolves_append (pending new : List Request) : resolves (pending ++ new) = resolves pending ++ resolves new :=
  filterMap_append

/-- The reply to another request leaves the requests for actors alone. -/
lemma resolves_erase {request} (hoth : ∀ name, request ≠ .resolvePlugin name) :
    resolves (pending.erase request) = resolves pending := by
  induction pending with
  | nil => rfl
  | cons q pending ih =>
    by_cases hq : q = request
    · subst hq
      rw [erase_cons_head]
      cases q with
      | resolvePlugin name => exact absurd rfl (hoth name)
      | saveState name actor | saveCheckpoint name actor data => rfl
    · rw [erase_cons_tail (by simpa using hq)]
      cases q with
      | resolvePlugin name => exact congrArg (name :: ·) ih
      | saveState name actor | saveCheckpoint name actor data => exact ih

lemma mem_resolves {name} :
    name ∈ resolves pending ↔ .resolvePlugin name ∈ pending := by
  induction pending with
  | nil => simp [resolves]
  | cons q pending ih => cases q <;> simp_all [resolves]

/-- The only request for an actor is answered. -/
lemma resolves_answered {name} (h : resolves pending = [name]) :
    resolves (pending.erase (.resolvePlugin name)) = [] := by
  induction pending with
  | nil => rfl
  | cons q pending ih =>
    by_cases hq : q = .resolvePlugin name
    · subst hq
      rw [erase_cons_head]
      exact (List.cons.inj h).2
    · cases q with
      | resolvePlugin other =>
        exact absurd (congrArg Request.resolvePlugin (List.cons.inj h).1) hq
      | saveState other actor | saveCheckpoint other actor data => exact ih h

/-! ## The phases of a run -/

namespace Chain

variable {order : List Bytes} {phase : Phase} {c c' : Coordinator}

section

variable (h : Chain order phase c)
include h

/-- The chain stays at its plugin, or at its end. -/
lemma moves (phase' : Phase) (hname : phase'.name = phase.name) (hat : At c' phase')
    (hst : c'.state = .shuttingDown ∨ c'.state = .stopped) (hrem : c'.remainingPlugins = c.remainingPlugins)
    (hidle : phase' ≠ .finishing → c'.idle = true) (acts : List Act) (hlog : c'.log = c.log ++ acts)
    (hchains : chains acts = []) (hasked : ∀ name, .requested (.resolvePlugin name) ∉ acts)
    (hsaved : ∀ name, phase' = .saved name → Settled c'.log name)
    (hdrain : ∀ name actor, .drain name actor ∈ c'.log →
      .wentDown name actor ∈ c'.log ∨ phase' = .stopping name actor) : Chain order phase' c' := by
  have hgrow : c.log ⊆ c'.log := by rw [hlog]; exact subset_append_left _ _
  refine ⟨hat, hst, ?_, ?_, ?_, ?_, hsaved, hdrain, ?_, hidle⟩
  · rw [hlog, chains_append, hchains, append_nil]; exact h.started
  · rw [hrem, hname]; exact h.last
  · rw [hrem]; exact h.left
  · rw [hrem]; exact fun name hname hleft => (h.settled name hname hleft).mono hgrow
  · intro name hmem
    rw [Asked, hlog] at hmem
    rw [hrem, hname]
    exact h.asked name ((mem_append.mp hmem).resolve_right (hasked name))

/-- The phase does not change, and the history grows by entries that are not about the chain. -/
lemma stays (hat : At c' phase)
    (hst : c'.state = .shuttingDown ∨ c'.state = .stopped) (hrem : c'.remainingPlugins = c.remainingPlugins)
    (hidle : phase ≠ .finishing → c'.idle = true) (acts : List Act) (hlog : c'.log = c.log ++ acts)
    (hchains : chains acts = []) (hasked : ∀ name, .requested (.resolvePlugin name) ∉ acts)
    (hdrain : ∀ name actor, .drain name actor ∉ acts) : Chain order phase c' := by
  have hgrow : c.log ⊆ c'.log := by rw [hlog]; exact subset_append_left _ _
  refine h.moves phase rfl hat hst hrem hidle acts hlog hchains hasked
    (fun name hphase => (h.saved name hphase).mono hgrow) fun name actor hmem => ?_
  rw [hlog] at hmem
  rcases h.drained name actor ((mem_append.mp hmem).resolve_right (hdrain name actor)) with hdown | hphase
  · exact .inl (hgrow hdown)
  · exact .inr hphase

/-- The plugin of the phase is still on the list. -/
lemma mem_remaining {name} (hname : phase.name = some name) :
    name ∈ c.remainingPlugins := mem_of_getLast? (h.last.trans hname)

/-- Only in the last phase is there anybody to wait for. -/
lemma finishing_of_busy (hbusy : c.idle = false) : phase = .finishing := by
  by_contra hne
  rw [h.idle hne] at hbusy
  cases hbusy

/-- Whoever stands behind the plugin of the phase in the list is settled. -/
lemma behind_settled {name} (hname : phase.name = some name)
    {front back} (horder : order = front ++ name :: back) (hlast : name ∉ back) :
    ∀ other ∈ back, Settled c.log other := by
  intro other hoth
  refine h.settled other (by rw [horder]; simp [hoth]) fun hleft => ?_
  -- `other` would be left behind `name`, which is the last one left
  have hlastLeft := h.last.trans hname
  rw [h.left, horder, filter_append, filter_cons_of_pos (by simpa using h.mem_remaining hname)]
    at hlastLeft
  have hback : back.filter (· ∈ c.remainingPlugins) ≠ [] := by
    refine ne_nil_of_mem (a := other) ?_
    simpa [hoth] using hleft
  rw [getLast?_append_of_ne_nil _ (by simp), getLast?_cons_of_ne_nil hback] at hlastLeft
  exact hlast (mem_of_mem_filter (mem_of_getLast? hlastLeft))

end

/-- The actor is asked for: the chain gets to its next plugin. -/
lemma begins {base name} (hpend : resolves base.pending = [])
    (hstop : base.stoppingPlugin = none) (hmail : base.mail = [])
    (hst : base.state = .shuttingDown ∨ base.state = .stopped)
    (hstart : chains base.log = [order]) (hlast : base.remainingPlugins.getLast? = some name)
    (hleft : base.remainingPlugins = order.filter (· ∈ base.remainingPlugins))
    (hsettled : ∀ other ∈ order, other ∉ base.remainingPlugins → Settled base.log other)
    (hdrain : ∀ other actor, .drain other actor ∈ base.log → .wentDown other actor ∈ base.log)
    (hasked : ∀ other, Asked base.log other → other ∉ base.remainingPlugins) (hidle : base.idle = true) :
    Chain order (.resolving name) (stopNext base name) := by
  have hgrow : base.log ⊆ (stopNext base name).log := subset_append_left _ _
  refine ⟨⟨?_, hstop, hmail⟩, hst, ?_, hlast, hleft, ?_, nofun, ?_, ?_, fun _ => hidle⟩
  · show resolves (base.pending ++ [_]) = _
    rw [resolves_append, hpend]
    rfl
  · show chains (base.log ++ [_]) = _
    rw [chains_append, hstart]
    rfl
  · exact fun other hoth hout => (hsettled other hoth hout).mono hgrow
  · intro other actor hmem
    refine .inl (hgrow (hdrain other actor ?_))
    simpa [stopNext, sendRequest, note] using hmem
  · intro other hmem hin
    rcases mem_append.mp hmem with hmem | hmem
    · exact absurd hin (hasked other hmem)
    · simp only [mem_singleton, Act.requested.injEq, Request.resolvePlugin.injEq] at hmem
      rw [hmem]
      rfl

/-- The plugin is absent, or it could not be asked for. -/
lemma notFound {name} (h : Chain order (.resolving name) c) (act : Act)
    (hact : act = .absent name ∨ act = .unresolved name) :
    Chain order (.saved name)
      (sendSaved (note { c with pending := c.pending.erase (.resolvePlugin name) } [act]) name false) := by
  obtain ⟨hpend, hstop, hmail⟩ := h.inPhase
  refine h.moves (.saved name) rfl ⟨resolves_answered hpend, hstop, false, ?_⟩ h.state rfl
    (fun _ => h.idle (by simp)) [act] rfl ?_ ?_ ?_ ?_
  · rw [hmail]
    rfl
  · rcases hact with rfl | rfl <;> rfl
  · rcases hact with rfl | rfl <;> simp
  · rintro _ ⟨rfl⟩
    rcases hact with rfl | rfl
    · exact .inr (.inl (mem_append_right _ (by simp)))
    · exact .inr (.inr (mem_append_right _ (by simp)))
  · intro other actor hmem
    have hbefore : .drain other actor ∈ c.log := by
      rcases hact with rfl | rfl <;> simpa [sendSaved, note] using hmem
    exact .inl (mem_append_left _ ((h.drained other actor hbefore).resolve_right (by simp)))

/-- The plugin's actor is found and told to drain. -/
lemma found {name} (h : Chain order (.resolving name) c) :
    Chain order (.stopping name actor)
      { c with
        pending := c.pending.erase (.resolvePlugin name) ++ [.saveState name actor]
        stoppingPlugin := some actor
        stoppingPluginName := name
        stoppingPluginSaved := false
        monitored := c.monitored ++ [actor]
        log := c.log ++ [.drain name actor] ++ [.requested (.saveState name actor)] } := by
  obtain ⟨hpend, hstop, hmail⟩ := h.inPhase
  refine h.moves (.stopping name actor) rfl ⟨?_, rfl, rfl, hmail⟩ h.state rfl (fun _ => h.idle nofun)
    [.drain name actor, .requested (.saveState name actor)] (append_assoc _ _ _) rfl (by simp) nofun ?_
  · rw [resolves_append, resolves_answered hpend]
    rfl
  · intro other actor' hmem
    simp only [append_assoc, mem_append, mem_cons, not_mem_nil, or_false,
      reduceCtorEq, Act.drain.injEq] at hmem ⊢
    rcases hmem with hmem | ⟨rfl, rfl⟩
    · exact .inl ((h.drained other actor' hmem).resolve_right nofun)
    · exact .inr rfl

/-- The plugin has gone down. -/
lemma wentDown {name} (h : Chain order (.stopping name actor) c) :
    Chain order (.saved name) (pluginDown { c with monitored := c.monitored.erase actor } actor) := by
  obtain ⟨hpend, hstop, hname, hmail⟩ := h.inPhase
  refine h.moves (.saved name) rfl ⟨hpend, rfl, c.stoppingPluginSaved, ?_⟩ h.state rfl
    (fun _ => h.idle nofun) [.wentDown name actor] ?_ rfl (by simp) ?_ ?_
  · rw [hmail, hname]
    rfl
  · show c.log ++ [.wentDown c.stoppingPluginName actor] = _
    rw [hname]
  · rintro _ ⟨rfl⟩
    refine .inl ⟨actor, mem_append_right _ ?_⟩
    rw [← hname]
    exact mem_singleton_self _
  · intro other actor' hmem
    have hbefore : .drain other actor' ∈ c.log := by simpa [pluginDown, sendSaved, note] using hmem
    rcases h.drained other actor' hbefore with hdown | hphase
    · exact .inl (mem_append_left _ hdown)
    · cases hphase
      refine .inl (mem_append_right _ ?_)
      rw [← hname]
      exact mem_singleton_self _

/-- The plugin that the chain is done with is settled, too. -/
lemma settled_without {name} (h : Chain order (.saved name) c) :
    ∀ other ∈ order, other ∉ c.remainingPlugins.filter (· ≠ name) → Settled c.log other := by
  intro other hoth hout
  by_cases hleft : other ∈ c.remainingPlugins
  · have hsame : other = name := by
      by_contra hne
      exact hout (by simp [hleft, hne])
    exact hsame ▸ h.saved name rfl
  · exact h.settled other hoth hleft

/-- The plugin is taken off the list. -/
lemma left_filter {name} (h : Chain order phase c) :
    c.remainingPlugins.filter (· ≠ name) = order.filter (· ∈ c.remainingPlugins.filter (· ≠ name)) := by
  conv_lhs => rw [h.left, filter_filter]
  refine filter_congr fun other _ => ?_
  simp [and_comm]

/-- The chain gets to the next plugin. -/
lemma next {name following saved} (h : Chain order (.saved name) c) (hmail : (name, saved) ∈ c.mail)
    (hlast : (c.remainingPlugins.filter (· ≠ name)).getLast? = some following) :
    Chain order (.resolving following) (stopNext { c with
        mail := c.mail.erase (name, saved)
        remainingPlugins := c.remainingPlugins.filter (· ≠ name) } following) := by
  obtain ⟨hpend, hstop, flag, hflag⟩ := h.inPhase
  refine begins hpend hstop ?_ h.state h.started hlast h.left_filter h.settled_without ?_ ?_ (h.idle nofun)
  · rw [hflag] at hmail ⊢
    obtain rfl : saved = flag := by simpa using hmail
    simp
  · exact fun other actor hmem => (h.drained other actor hmem).resolve_right nofun
  · intro other hasked hin
    obtain ⟨hleft, hne⟩ := mem_filter.mp hin
    have hname : name = other := Option.some.inj (h.asked other hasked hleft)
    simp [hname] at hne

/-- The coordinator goes on with the components and the cluster actors. -/
lemma untouched (h : Chain order .finishing c) (hsame : Untouched c c')
    (hst : c'.state = c.state ∨ c'.state = .stopped) : Chain order .finishing c' := by
  obtain ⟨hpend, hstop, hmail⟩ := h.inPhase
  obtain ⟨acts, hlog, hending⟩ := hsame.log
  have hnot (act : Act) (hact : act.ending = false) : act ∉ acts := fun hmem => by
    rw [hending act hmem] at hact
    cases hact
  refine h.stays ⟨?_, ?_, ?_⟩ ?_ hsame.remaining (fun hne => absurd rfl hne) acts hlog ?_
    (fun name => hnot _ rfl) fun name actor => hnot _ rfl
  · rw [hsame.pending]; exact hpend
  · rw [hsame.stopping]; exact hstop
  · rw [hsame.mail]; exact hmail
  · rcases hst with hst | hst
    · rw [hst]; exact h.state
    · exact .inr hst
  · refine filterMap_eq_nil_iff.mpr fun act hact => ?_
    have hends := hending act hact
    cases act <;> first | rfl | cases hends

/-- The list is empty, and the coordinator turns to the components and the cluster actors. -/
lemma finishes {name saved} (h : Chain order (.saved name) c) (hmail : (name, saved) ∈ c.mail)
    (hnone : c.remainingPlugins.filter (· ≠ name) = [])
    (hends : Finishes { c with mail := c.mail.erase (name, saved), remainingPlugins := [] } c') :
    Chain order .finishing c' := by
  obtain ⟨hpend, hstop, flag, hflag⟩ := h.inPhase
  have hbase : Chain order .finishing
      { c with mail := c.mail.erase (name, saved), remainingPlugins := [] } := by
    refine ⟨⟨hpend, hstop, ?_⟩, h.state, h.started, rfl, by simp, ?_, nofun, ?_, nofun,
      fun hne => absurd rfl hne⟩
    · rw [hflag] at hmail ⊢
      obtain rfl : saved = flag := by simpa using hmail
      simp
    · exact fun other hoth _ => h.settled_without other hoth (by rw [hnone]; simp)
    · exact fun other actor hmem => .inl ((h.drained other actor hmem).resolve_right nofun)
  exact hbase.untouched hends.untouched hends.state

end Chain

namespace Before

variable {c c' : Coordinator}

variable (h : Before c)
include h

lemma remains (hst : c'.state = .ready) (hstop : c'.stoppingPlugin = c.stoppingPlugin)
    (hpend : c'.pending = c.pending) (hmail : c'.mail = c.mail) (hlog : c'.log = c.log)
    (hidle : c'.idle = c.idle) : Before c' :=
  ⟨hst, hstop.trans h.stopping, hpend.trans h.pending, hmail.trans h.mail, hlog.trans h.log,
    hidle.trans h.idle⟩

lemma chains_startChain (order : List Bytes) : chains (startChain c order).log = [order] := by
  show chains (c.log ++ _) = _
  rw [h.log]
  rfl

lemma log_startChain (order : List Bytes) :
    (startChain c order).log = [.chainStarted order, .shutdownRegistry] := by
  show c.log ++ _ = _
  rw [h.log]
  rfl

/-- The shutdown begins with the last plugin of its list. -/
lemma chain {order name} (hlast : order.getLast? = some name) :
    Chain order (.resolving name) (stopNext (startChain c order) name) := by
  refine Chain.begins ?_ h.stopping h.mail (.inl rfl) (h.chains_startChain order) hlast ?_ ?_ ?_ ?_ h.idle
  · show resolves c.pending = []
    rw [h.pending]
    rfl
  · exact (filter_eq_self.mpr fun name hname => by simpa using hname).symm
  · exact fun other hoth hout => absurd hoth hout
  · rw [h.log_startChain]
    simp
  · intro other hasked
    rw [Asked, h.log_startChain] at hasked
    simp at hasked

/-- There is no plugin to stop. -/
lemma noPlugins (hends : Finishes (startChain c []) c') : Chain [] .finishing c' := by
  have hbase : Chain [] .finishing (startChain c []) := by
    refine ⟨⟨?_, h.stopping, h.mail⟩, .inl rfl, h.chains_startChain [], rfl, rfl, nofun, nofun, ?_, nofun,
      fun hne => absurd rfl hne⟩
    · show resolves c.pending = []
      rw [h.pending]
      rfl
    · rw [h.log_startChain]
      simp
  exact hbase.untouched hends.untouched hends.state

end Before

namespace At

variable {c c' : Coordinator} {phase : Phase}

variable (h : At c phase)
include h

lemma congr (hpend : resolves c'.pending = resolves c.pending)
    (hstop : c'.stoppingPlugin = c.stoppingPlugin) (hname : c'.stoppingPluginName = c.stoppingPluginName)
    (hmail : c'.mail = c.mail) : At c' phase := by
  cases phase <;> simpa [At, hpend, hstop, hname, hmail] using h

lemma saved_of_mail {name saved} (hmail : (name, saved) ∈ c.mail) :
    phase = .saved name := by
  cases phase with
  | saved other =>
    obtain ⟨-, -, flag, hflag⟩ := h
    rw [hflag, mem_singleton, Prod.mk.injEq] at hmail
    rw [hmail.1]
  | resolving other | finishing => rw [h.2.2] at hmail; cases hmail
  | stopping other actor => rw [h.2.2.2] at hmail; cases hmail

lemma stopping_of (hstop : c.stoppingPlugin = some actor) :
    ∃ name, phase = .stopping name actor := by
  cases phase with
  | stopping name other =>
    obtain rfl : other = actor := Option.some.inj (h.2.1.symm.trans hstop)
    exact ⟨name, rfl⟩
  | resolving other | saved other | finishing => cases h.2.1.symm.trans hstop

lemma resolving_of {name} (hpend : .resolvePlugin name ∈ c.pending) :
    phase = .resolving name := by
  have hmem := mem_resolves.mpr hpend
  cases phase with
  | resolving other =>
    rw [h.1, mem_singleton] at hmem
    rw [hmem]
  | stopping other actor | saved other | finishing => rw [h.1] at hmem; cases hmem

end At

/-- Before the shutdown, or in one of its phases. -/
def InOrder (c : Coordinator) : Prop := Before c ∨ ∃ order phase, Chain order phase c

lemma step_before {c c'} (h : Before c) (hgrace : Graceful c e) (hstep : step c e = some c') : InOrder c' := by
  obtain ⟨hposs, hforce, -⟩ := hgrace
  obtain ⟨hcomps, hclus⟩ := idle_iff.mp h.idle
  have hnothing {request : Request} (hpend : request ∈ c.pending) : False := by
    rw [h.pending] at hpend
    cases hpend
  have hnomail {name : Bytes} {saved : Bool} (hmail : (name, saved) ∈ c.mail) : False := by
    rw [h.mail] at hmail
    cases hmail
  cases (step_cases hstep).2 with
  | ready => exact .inl (h.remains rfl rfl rfl rfl rfl rfl)
  | ignored order hst => rw [h.state] at hst; rcases hst with hst | hst <;> cases hst
  | early order hst hends => rw [h.state] at hst; cases hst
  | chain order name hst hlast =>
    exact .inr ⟨order, .resolving name, (h.chain hlast).stays (h.chain hlast).inPhase (h.chain hlast).state rfl
      (h.chain hlast).idle [] (append_nil _).symm rfl (by simp) (by simp)⟩
  | noPlugins hst hends => exact .inr ⟨[], .finishing, h.noPlugins hends⟩
  | next name saved following hlast | last name saved hnone hends => exact (hnomail hposs).elim
  | pluginDown actor hstop | lost source actor hstop hoth =>
    rw [h.stopping] at hstop; cases hstop
  | componentDown source hstop hmem hpass => rw [hcomps] at hmem; cases hmem
  | clusterDown source hstop hnot hpend hmem hpass => rw [hclus] at hpend; cases hpend
  | strangerDown source hstop hnot hclus | register ctl =>
    exact .inl (h.remains h.state rfl rfl rfl rfl rfl)
  | drained source | registerNull => exact .inl h
  | late hst | forced hst hends => exact absurd rfl hforce
  | unresolved name hpend | absent name hpend | found name actor hpend
  | emptyState name actor hpend | state name actor data hdata hpend
  | saveFailed name actor hpend | checkpointed name actor data done hpend
  | checkpointFailed name actor data hpend => exact (hnothing hpend).elim

lemma step_chain {c c' order phase} (h : Chain order phase c)
    (hgrace : Graceful c e) (hstep : step c e = some c') : ∃ phase', Chain order phase' c' := by
  obtain ⟨hposs, hforce, hready⟩ := hgrace
  -- a step that leaves the chain where it is
  have hstays (acts : List Act) (hat : At c' phase) (hst : c'.state = c.state)
      (hrem : c'.remainingPlugins = c.remainingPlugins) (hidle : c'.idle = c.idle)
      (hlog : c'.log = c.log ++ acts) (hchains : chains acts = [])
      (hasked : ∀ name, .requested (.resolvePlugin name) ∉ acts)
      (hdrain : ∀ name actor, .drain name actor ∉ acts) : ∃ phase', Chain order phase' c' :=
    ⟨phase, h.stays hat (hst ▸ h.state) hrem (fun hne => hidle.trans (h.idle hne)) acts hlog hchains
      hasked hdrain⟩
  have hst (s : SystemState) (hs : c.state = s) (hshut : s ≠ .shuttingDown) (hstop : s ≠ .stopped) : False := by
    rcases h.state with hst | hst
    · exact hshut (hs.symm.trans hst)
    · exact hstop (hs.symm.trans hst)
  cases (step_cases hstep).2 with
  | ready =>
    have hnone := hready rfl
    rw [h.started] at hnone
    cases hnone
  | ignored order' _ | drained source | registerNull => exact ⟨phase, h⟩
  | early order' hearly hends | chain order' name hearly hlast | noPlugins hearly hends =>
    exact (hst _ hearly nofun nofun).elim
  | next name saved following hlast =>
    obtain rfl := h.inPhase.saved_of_mail hposs
    exact ⟨_, h.next hposs hlast⟩
  | last name saved hnone hends =>
    obtain rfl := h.inPhase.saved_of_mail hposs
    exact ⟨_, h.finishes hposs hnone hends⟩
  | pluginDown actor hstopping =>
    obtain ⟨name, rfl⟩ := h.inPhase.stopping_of hstopping
    exact ⟨_, h.wentDown⟩
  | lost source actor hstopping hoth | strangerDown source hstopping hnot hclus
  | register ctl =>
    exact hstays [] (h.inPhase.congr rfl rfl rfl rfl) rfl rfl rfl (append_nil _).symm rfl (by simp) (by simp)
  | componentDown source hstopping hmem hpass =>
    obtain rfl := h.finishing_of_busy (busy_of_component hmem)
    refine ⟨.finishing, Chain.untouched (c := { c with
      monitored := c.monitored.erase source
      stoppingComponents := c.stoppingComponents.erase source }) ?_ hpass.untouched hpass.state⟩
    exact h.stays (h.inPhase.congr rfl rfl rfl rfl) h.state rfl (fun hne => absurd rfl hne) []
      (append_nil _).symm rfl (by simp) (by simp)
  | clusterDown source hstopping hnot hpend hmem hpass =>
    obtain rfl := h.finishing_of_busy (busy_of_cluster hpend)
    refine ⟨.finishing, Chain.untouched (c := { c with
      monitored := c.monitored.erase source
      clusterCtlsPending := c.clusterCtlsPending - 1 }) ?_ hpass.untouched hpass.state⟩
    exact h.stays (h.inPhase.congr rfl rfl rfl rfl) h.state rfl (fun hne => absurd rfl hne) []
      (append_nil _).symm rfl (by simp) (by simp)
  | late _ | forced _ hends => exact absurd rfl hforce
  | unresolved name hpend =>
    obtain rfl := h.inPhase.resolving_of hpend
    exact ⟨_, h.notFound (.unresolved name) (.inr rfl)⟩
  | absent name hpend =>
    obtain rfl := h.inPhase.resolving_of hpend
    exact ⟨_, h.notFound (.absent name) (.inl rfl)⟩
  | found name actor hpend =>
    obtain rfl := h.inPhase.resolving_of hpend
    exact ⟨_, h.found⟩
  | emptyState name actor hpend | saveFailed name actor hpend
  | checkpointed name actor data done hpend =>
    exact hstays _ (h.inPhase.congr (resolves_erase nofun) rfl rfl rfl) rfl rfl rfl rfl rfl (by simp) (by simp)
  | state name actor data hdata hpend =>
    refine hstays [.stateSaved name actor data, .requested (.saveCheckpoint name actor data)]
      (h.inPhase.congr ?_ rfl rfl rfl) rfl rfl rfl (append_assoc _ _ _) rfl (by simp) (by simp)
    have herase : resolves (c.pending.erase (.saveState name actor)) = resolves c.pending := resolves_erase nofun
    show resolves (c.pending.erase _ ++ [_]) = _
    rw [resolves_append, herase]
    exact append_nil _
  | checkpointFailed name actor data hpend =>
    exact hstays [] (h.inPhase.congr (resolves_erase nofun) rfl rfl rfl) rfl rfl rfl (append_nil _).symm rfl
      (by simp) (by simp)

lemma step_inOrder {c c'} (h : InOrder c) (hgrace : Graceful c e) (hstep : step c e = some c') : InOrder c' := by
  rcases h with h | ⟨order, phase, h⟩
  · exact step_before h hgrace hstep
  · exact .inr ⟨order, step_chain h hgrace hstep⟩

namespace InOrder

variable {c : Coordinator}

variable (h : InOrder c)
include h

lemma before (hst : c.state = .ready) : Before c := by
  rcases h with h | ⟨order, phase, h⟩
  · exact h
  · rcases h.state with hst' | hst' <;> cases hst.symm.trans hst'

lemma saved {name saved} (hmail : (name, saved) ∈ c.mail) :
    ∃ order, Chain order (.saved name) c := by
  rcases h with h | ⟨order, phase, h⟩
  · rw [h.mail] at hmail
    cases hmail
  · obtain rfl := h.inPhase.saved_of_mail hmail
    exact ⟨order, h⟩

lemma resolving {name} (hpend : .resolvePlugin name ∈ c.pending) :
    ∃ order, Chain order (.resolving name) c := by
  rcases h with h | ⟨order, phase, h⟩
  · rw [h.pending] at hpend
    cases hpend
  · obtain rfl := h.inPhase.resolving_of hpend
    exact ⟨order, h⟩

lemma finishing (hbusy : c.idle = false) : ∃ order, Chain order .finishing c := by
  rcases h with h | ⟨order, phase, h⟩
  · rw [h.idle] at hbusy
    cases hbusy
  · exact ⟨order, h.finishing_of_busy hbusy ▸ h⟩

end InOrder

end Caf.Shutdown
