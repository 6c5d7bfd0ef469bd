import CafPluginSystem.Sql.Drain

/-!
# The start-up barrier of the SQL entity store

Nothing is sent for a request before the metadata of all the entities that wait for it was applied.  When the
discovery fails, it leaves its error behind, with which everything that was deferred and everything that is
admitted later is answered.

* `Discovered` — the metadata of every target was applied, to the catalog that the actor was given.
* `Barrier` — how far the discovery is, and what may have happened to requests by then.
* `schema_barrier` — the barrier, in every run.
-/

namespace Caf.EntityStore.Sql

open Database Journal List

namespace Actor

/-- The catalog after metadata was applied. -/
def replaySchema (dialect : DialectKind) (catalog : SchemaCatalog)
    (applied : List (SchemaCatalog.Target × DbResult)) : Except Bytes SchemaCatalog :=
  applied.foldlM (fun catalog entry => catalog.discover dialect entry.1 entry.2) catalog

/-- The metadata of every target was applied, and the catalog is what came out. -/
structure Discovered (catalog : SchemaCatalog) (a : Actor) : Prop where
  targets : a.applied.map Prod.fst = catalog.discoveryTargets
  catalog : replaySchema a.config.dialect catalog a.applied = .ok a.store.settings.catalog

/-- The error of the discovery, or of the configuration. -/
def configError (a : Actor) : Bytes := a.store.settings.configError

/-- The answer says that the configuration is wrong. -/
def Refuses (error : Bytes) (answer : Answer) : Prop := answer.code = .invalidRequest ∧ answer.error = error

lemma refuses_refusal (error : Bytes) (w : Waiter) : Refuses error (w.refusal .invalidRequest error) := by
  cases w with
  | load i request | save i request => exact ⟨rfl, rfl⟩

/-- How far the discovery is. -/
structure Barrier (catalog : SchemaCatalog) (a : Actor) : Prop where
  targets : a.discoveryTargets = catalog.discoveryTargets
  applied : a.applied.map Prod.fst = a.discoveryTargets.take a.discoveryIndex
  replay : replaySchema a.config.dialect catalog a.applied = .ok a.store.settings.catalog
  pristine : a.schemaLoading = true → a.configError = [] ∧ a.readied = []
  complete : a.schemaLoading = false → a.configError = [] → a.discoveryTargets.length ≤ a.discoveryIndex
  started : ∀ r, Started a.loads a.store.contexts r → a.discoveryTargets.length ≤ a.discoveryIndex
  failed : a.exited = false → a.configError ≠ [] → (∀ r, ¬Started a.loads a.store.contexts r) ∧
    ∀ r ∈ a.readied, ∃ answer, .answered r answer ∈ a.journal ∧ Refuses a.configError answer

namespace Barrier

variable {catalog : SchemaCatalog} {a b : Actor} {env : Env}

lemma discovered (h : a.Barrier catalog) (hindex : a.discoveryTargets.length ≤ a.discoveryIndex) :
    a.Discovered catalog := by
  refine ⟨?_, h.replay⟩
  rw [h.applied, take_of_length_le hindex, h.targets]

/-- Requests are handled after a discovery that succeeded. -/
lemma of_setup (h : a.Barrier catalog) (hended : a.schemaLoading = false) (herr : a.configError = [])
    (hsetup : SameSetup a b) : b.Barrier catalog := by
  have hsame : b.configError = a.configError := congrArg ServiceConfig.configError hsetup.settings
  have hindex := h.complete hended herr
  refine ⟨?_, ?_, ?_, ?_, ?_, ?_, ?_⟩
  · rw [hsetup.discoveryTargets]
    exact h.targets
  · rw [hsetup.applied, hsetup.discoveryTargets, hsetup.discoveryIndex]
    exact h.applied
  · rw [hsetup.config, hsetup.applied, hsetup.settings]
    exact h.replay
  · intro hloading
    rw [hsetup.schemaLoading, hended] at hloading
    cases hloading
  · intro _ _
    rw [hsetup.discoveryTargets, hsetup.discoveryIndex]
    exact hindex
  · intro _ _
    rw [hsetup.discoveryTargets, hsetup.discoveryIndex]
    exact hindex
  · intro _ hfail
    exact absurd (hsame.trans herr) hfail

/-- The discovery ends well. -/
lemma finishSchema_ok (h : a.Barrier catalog) (herr : a.configError = [])
    (hindex : a.discoveryTargets.length ≤ a.discoveryIndex) : (a.finishSchema env []).Barrier catalog := by
  have hended : ({ a with schemaLoading := false, discovery := .idle, schemaWaiters := [] } : Actor).Barrier
      catalog :=
    ⟨h.targets, h.applied, h.replay, fun hloading => (by cases hloading), fun _ _ => hindex, fun _ _ => hindex,
      fun _ hfail => absurd herr hfail⟩
  exact hended.of_setup rfl herr ((SameSetup.runWaiters a.schemaWaiters).trans SameSetup.notifyDrained)

/-- What the journal and the requests are after a discovery that failed. -/
lemma finishSchema_error {error} (herr : error ≠ []) : a.finishSchema env error =
    { a.setConfigError error with
      schemaLoading := false
      discovery := .idle
      schemaWaiters := []
      readied := a.readied ++ a.schemaWaiters.map Waiter.request
      journal := a.journal ++ a.schemaWaiters.map fun w : Waiter =>
        Entry.answered w.request (w.refusal .invalidRequest error) }.notifyDrained := by
  unfold finishSchema
  dsimp only
  rw [if_neg herr]
  have hrun := runWaiters_configError env a.schemaWaiters
    (a := { a with schemaLoading := false, discovery := .idle, schemaWaiters := [] }.setConfigError error) herr
  rw [hrun]
  rfl

lemma note (h : a.Barrier catalog) (entries : List LogEntry) : (a.note entries).Barrier catalog := by
  refine ⟨h.targets, h.applied, h.replay, h.pristine, h.complete, h.started, fun hexited hfail => ?_⟩
  obtain ⟨hnone, href⟩ := h.failed hexited hfail
  refine ⟨hnone, fun r hr => ?_⟩
  obtain ⟨answer, hmem, hrefuses⟩ := href r hr
  exact ⟨answer, mem_append_left _ hmem, hrefuses⟩

lemma notifyDrained (h : a.Barrier catalog) : a.notifyDrained.Barrier catalog := by
  unfold Actor.notifyDrained
  split
  · exact h
  · have hnoted := h.note (a.drainWaiters.map .acknowledged)
    exact ⟨hnoted.targets, hnoted.applied, hnoted.replay, hnoted.pristine, hnoted.complete, hnoted.started,
      hnoted.failed⟩

/-- The discovery fails. -/
lemma finishSchema_failed (h : a.Barrier catalog) (hready : a.readied = [])
    (huntouched : ∀ r, ¬Started a.loads a.store.contexts r) {error} (herr : error ≠ []) :
    (a.finishSchema env error).Barrier catalog := by
  rw [finishSchema_error herr]
  refine notifyDrained ⟨h.targets, h.applied, h.replay, fun hloading => (by cases hloading),
    fun _ hok => absurd hok herr, h.started, fun _ _ => ⟨huntouched, fun r hr => ?_⟩⟩
  rw [hready, nil_append] at hr
  obtain ⟨w, hw, rfl⟩ := mem_map.mp hr
  exact ⟨_, mem_append_right _ (mem_map.mpr ⟨w, hw, rfl⟩), refuses_refusal error w⟩

lemma str_append_ne {s} (hs : str s ≠ []) (rest : Bytes) : str s ++ rest ≠ [] := by
  intro h
  exact hs (append_eq_nil_iff.mp h).1

section Discovering

variable (h : a.Barrier catalog) (hloading : a.schemaLoading = true)
  (huntouched : ∀ r, ¬Started a.loads a.store.contexts r)

include h hloading huntouched

lemma discoverNextSchema : (a.discoverNextSchema env).Barrier catalog := by
  obtain ⟨herr, hready⟩ := h.pristine hloading
  have hwait : ∀ discovery : Discovery, ({ a with discovery } : Actor).Barrier catalog := fun discovery =>
    ⟨h.targets, h.applied, h.replay, h.pristine, h.complete, h.started, h.failed⟩
  unfold Actor.discoverNextSchema
  split
  · next hindex => exact h.finishSchema_ok herr (le_of_eq hindex.symm)
  · split
    · exact h.finishSchema_failed hready huntouched (by decide)
    · split
      · exact hwait _
      · exact hwait _

/-- The metadata of one more target is applied. -/
lemma applySchema {target} (htgt : a.discoveryTargets[a.discoveryIndex]? = some target) (result : DbResult) :
    (a.applySchema env target result).Barrier catalog := by
  obtain ⟨herr, hready⟩ := h.pristine hloading
  unfold Actor.applySchema
  split
  · refine h.finishSchema_failed hready huntouched ?_
    simp only [append_assoc]
    exact str_append_ne (by decide) _
  · next published hdiscover =>
    refine discoverNextSchema ⟨h.targets, ?_, ?_, fun _ => ⟨herr, hready⟩,
      fun hended => ?_, fun r hr => absurd hr (huntouched r), fun _ hfail => absurd herr hfail⟩
      hloading huntouched
    · rw [map_append, h.applied]
      show _ = a.discoveryTargets.take (a.discoveryIndex + 1)
      rw [take_add_one, htgt]
      rfl
    · show replaySchema a.config.dialect catalog (a.applied ++ [(target, result)]) = .ok published
      have hreplay := h.replay
      unfold replaySchema at hreplay ⊢
      rw [foldlM_append, hreplay, Fallible.ok_bind, foldlM_cons, hdiscover, Fallible.ok_bind]
      rfl
    · rw [show a.schemaLoading = false from hended] at hloading
      cases hloading

lemma schemaReply (reply : Except Bytes DbResult) : (a.schemaReply env reply).Barrier catalog := by
  obtain ⟨herr, hready⟩ := h.pristine hloading
  cases reply with
  | error error => exact h.finishSchema_failed hready huntouched (str_append_ne (by decide) _)
  | ok result =>
    unfold Actor.schemaReply
    dsimp only
    split
    · split
      · exact h.finishSchema_failed hready huntouched (by decide)
      · exact ⟨h.targets, h.applied, h.replay, h.pristine, h.complete, h.started, h.failed⟩
    · split
      · exact h
      · next target htgt => exact h.applySchema hloading huntouched htgt result

end Discovering

section

variable (h : a.Barrier catalog) (hexited : a.exited = false)
include h hexited

/-- A request that has started shows that the discovery has succeeded. -/
lemma succeeded {r} (hr : Started a.loads a.store.contexts r) : a.configError = [] := by
  by_contra hfail
  exact (h.failed hexited hfail).1 r hr

/-- A request is looked at, after the discovery. -/
lemma runWaiter (hended : a.schemaLoading = false) (w : Waiter) : (a.runWaiter env w).Barrier catalog := by
  by_cases herr : a.configError = []
  · exact h.of_setup hended herr (SameSetup.runWaiter w)
  · obtain ⟨hnone, href⟩ := h.failed hexited herr
    rw [runWaiter_configError env w herr]
    refine ⟨h.targets, h.applied, h.replay, fun hloading => ?_, fun _ hok => absurd hok herr, h.started,
      fun _ _ => ⟨hnone, fun r hr => ?_⟩⟩
    · rw [show a.schemaLoading = true from hloading] at hended
      cases hended
    · rcases mem_append.mp hr with hold | hnew
      · obtain ⟨answer, hmem, hrefuses⟩ := href r hold
        exact ⟨answer, mem_append_left _ hmem, hrefuses⟩
      · obtain rfl := mem_singleton.mp hnew
        exact ⟨_, mem_append_right _ (mem_singleton_self _), refuses_refusal _ w⟩

lemma receive (w : Waiter) :
    (a.receive env w).Barrier catalog := by
  have hopen := h.note [.opened w.request]
  unfold Actor.receive
  dsimp only
  split
  · exact hopen.note _
  · split
    · exact ⟨hopen.targets, hopen.applied, hopen.replay, hopen.pristine, hopen.complete,
        hopen.started, hopen.failed⟩
    · next hloading => exact hopen.runWaiter hexited (by simpa using hloading) w

end

lemma drain (h : a.Barrier catalog) (coordinator : ℕ) : (a.drain coordinator).Barrier catalog := by
  unfold Actor.drain
  split
  · have hnoted := h.note [.acknowledged coordinator]
    exact ⟨hnoted.targets, hnoted.applied, hnoted.replay, hnoted.pristine, hnoted.complete, hnoted.started,
      hnoted.failed⟩
  · exact ⟨h.targets, h.applied, h.replay, h.pristine, h.complete, h.started, h.failed⟩

/-- `on_exit` starts nothing, and leaves the catalog alone. -/
lemma onExit_frame (a : Actor) (env : Env) : ∃ s : Store,
    a.onExit env = { a with
      store := s
      draining := true
      schemaLoading := false
      discovery := .idle
      schemaWaiters := []
      drainWaiters := []
      readied := (a.onExit env).readied
      journal := (a.onExit env).journal
      exited := true } ∧
    s.settings.catalog = a.store.settings.catalog ∧ s.settings.configError ≠ [] ∧
    ∀ i, a.store.contexts i = none → s.contexts i = none := by
  have herr : str "entity store exited before request completed" ≠ [] := by decide
  refine ⟨(a.onExit env).store, ?_, ?_⟩
  · unfold Actor.onExit
    dsimp only
    rw [runWaiters_configError _ _ herr]
    rfl
  · unfold Actor.onExit
    dsimp only
    rw [runWaiters_configError _ _ herr]
    simp only [setConfigError, Store.step]
    by_cases hexited : a.store.exited = true
    · simp only [hexited, if_true, Option.getD_none]
      exact ⟨trivial, herr, fun i hnone => hnone⟩
    · simp only [hexited, Bool.false_eq_true, if_false, Option.getD_some]
      exact ⟨trivial, herr, fun i hnone => by simp [hnone]⟩

lemma onExit (h : a.Barrier catalog) : (a.onExit env).Barrier catalog := by
  obtain ⟨s, hexit, hcatalog, herr, hctxs⟩ := onExit_frame a env
  rw [hexit]
  refine ⟨h.targets, h.applied, ?_, fun hloading => (by cases hloading), fun _ hok => absurd hok herr,
    fun r hr => h.started r ?_, fun hnot => (by cases hnot)⟩
  · show replaySchema a.config.dialect catalog a.applied = .ok s.settings.catalog
    rw [hcatalog]
    exact h.replay
  · cases r with
    | load i => exact hr
    | save i => exact fun hnone => hr (hctxs i hnone)

lemma start (config : ActorConfig) (address : Bytes) {settings} (herr : settings.configError = []) (env : Env) :
    (Actor.start config address settings env).Barrier settings.catalog := by
  have huntouched : ∀ r, ¬Started (fun _ => none) (Store.initial address settings).contexts r := by
    intro r hr
    cases r <;> exact hr rfl
  unfold Actor.start initializeSchema
  dsimp only
  split
  · next hfail => exact absurd herr hfail
  · split
    · next hnone =>
      refine ⟨rfl, rfl, rfl, fun hloading => (by cases hloading), fun _ _ => ?_,
        fun r hr => absurd hr (huntouched r), fun _ hfail => absurd herr hfail⟩
      show (Store.initial address settings).settings.catalog.discoveryTargets.length ≤ 0
      rw [hnone]
      rfl
    · exact discoverNextSchema ⟨rfl, rfl, rfl, fun _ => ⟨herr, rfl⟩, fun hended => (by cases hended),
        fun r hr => absurd hr (huntouched r), fun _ hfail => absurd herr hfail⟩ rfl huntouched

end Barrier

/-- **One event keeps the barrier.** -/
theorem step_barrier {catalog : SchemaCatalog} {a b : Actor} {e : Event} (hsound : a.Sound)
    (h : a.Barrier catalog) (hstep : a.step e = some b) : b.Barrier catalog := by
  obtain ⟨hexited, hsteps⟩ := step_cases hstep
  cases hsteps with
  | received _ => exact h.receive hexited _
  | @load i e c next hc _ _ _ =>
    have hr : Started a.loads a.store.contexts (.load i) := by simp [Started, hc]
    exact h.of_setup (hsound.ended hr) (h.succeeded hexited hr) (SameSetup.settleLoad _)
  | @saveReplied i reply env c hc _ _ | @saveRetried i backend env c hc _ _ =>
    have hr : Started a.loads a.store.contexts (.save i) := by simp [Started, hc]
    refine h.of_setup (hsound.ended hr) (h.succeeded hexited hr) (SameSetup.trans ?_ (SameSetup.settleSave _))
    exact ⟨rfl, rfl, rfl, rfl, rfl, rfl, rfl, rfl, rfl, rfl⟩
  | schemaReplied hquerying =>
    have hloading := hsound.loading (by simp [hquerying])
    exact h.schemaReply hloading (hsound.untouched hloading) _
  | schemaRetried hdelay =>
    have hloading := hsound.loading (by simp [hdelay])
    exact h.discoverNextSchema hloading (hsound.untouched hloading)
  | drained => exact h.drain _
  | exited => exact h.onExit

/-- The discovery has failed, and nothing has started. -/
structure Closed (a : Actor) : Prop where
  ended : a.schemaLoading = false
  idle : a.discovery = .idle
  error : a.configError ≠ []
  untouched : ∀ r, ¬Started a.loads a.store.contexts r

/-- **A discovery that has failed stays failed.** -/
lemma step_closed {a b : Actor} {e} (h : a.Closed) (hstep : a.step e = some b) : b.Closed := by
  cases (step_cases hstep).2 with
  | @received w env hnew =>
    unfold receive
    dsimp only
    split
    · exact ⟨h.ended, h.idle, h.error, h.untouched⟩
    · split
      · next hloading =>
        rw [show (a.note [.opened w.request]).schemaLoading = a.schemaLoading from rfl, h.ended] at hloading
        cases hloading
      · rw [runWaiter_configError (a := a.note [.opened w.request]) env w h.error]
        exact ⟨h.ended, h.idle, h.error, h.untouched⟩
  | @load i e c next hc _ _ _ => exact absurd (by simp [Started, hc]) (h.untouched (.load i))
  | @saveReplied i reply env c hc _ _ | @saveRetried i backend env c hc _ _ =>
    exact absurd (by simp [Started, hc]) (h.untouched (.save i))
  | schemaReplied hquerying => cases h.idle.symm.trans hquerying
  | schemaRetried hdelay => cases h.idle.symm.trans hdelay
  | drained =>
    unfold drain
    split <;> exact ⟨h.ended, h.idle, h.error, h.untouched⟩
  | @exited env =>
    obtain ⟨s, hexit, -, herr, hctxs⟩ := Barrier.onExit_frame a env
    rw [hexit]
    refine ⟨rfl, rfl, herr, fun r hr => h.untouched r ?_⟩
    cases r with
    | load i => exact hr
    | save i => exact fun hnone => hr (hctxs i hnone)

/-- What the step in which the discovery fails writes into the journal. -/
def AnswersDeferred (a b : Actor) : Prop :=
  ∃ waiters : List ℕ, b.journal = a.journal ++ (a.schemaWaiters.map fun w : Waiter =>
    Entry.answered w.request (w.refusal .invalidRequest b.configError)) ++ waiters.map .acknowledged

lemma finishSchema_answers {a : Actor} {env error} (herr : error ≠ []) :
    a.AnswersDeferred (a.finishSchema env error) := by
  unfold AnswersDeferred
  rw [Barrier.finishSchema_error herr]
  unfold notifyDrained
  split
  · exact ⟨[], by simp [setConfigError, configError]⟩
  · exact ⟨a.drainWaiters, by simp [setConfigError, configError, note]⟩

/-- The discovery goes on, or its failure is told to all that were deferred. -/
lemma discoverNextSchema_answers {a : Actor} {env} (hok : a.configError = []) :
    (a.discoverNextSchema env).configError = [] ∨ a.AnswersDeferred (a.discoverNextSchema env) := by
  unfold discoverNextSchema
  split
  · refine .inl ?_
    have hsetup : SameSetup { a with schemaLoading := false, discovery := .idle, schemaWaiters := [] }
        (a.finishSchema env []) := (SameSetup.runWaiters a.schemaWaiters).trans SameSetup.notifyDrained
    exact (congrArg ServiceConfig.configError hsetup.settings).trans hok
  · split
    · exact .inr (finishSchema_answers (by decide))
    · split
      · exact .inl hok
      · exact .inl hok

lemma schemaReply_answers {a : Actor} {env : Env} (hok : a.configError = []) (reply : Except Bytes DbResult) :
    (a.schemaReply env reply).configError = [] ∨ a.AnswersDeferred (a.schemaReply env reply) := by
  cases reply with
  | error error => exact .inr (finishSchema_answers (Barrier.str_append_ne (by decide) _))
  | ok result =>
    unfold schemaReply
    dsimp only
    split
    · split
      · exact .inr (finishSchema_answers (by decide))
      · exact .inl hok
    · split
      · exact .inl hok
      · next target _ =>
        unfold applySchema
        split
        · refine .inr (finishSchema_answers ?_)
          simp only [append_assoc]
          exact Barrier.str_append_ne (by decide) _
        · next published _ =>
          exact discoverNextSchema_answers (a := { a.setCatalog published with
            applied := a.applied ++ [(target, result)], discoveryIndex := a.discoveryIndex + 1 }) hok

/-- Requests and drains leave the configuration alone. -/
lemma receive_settings (a : Actor) (env : Env) (w : Waiter) :
    (a.receive env w).store.settings = a.store.settings := by
  unfold receive
  dsimp only
  split
  · rfl
  · split
    · rfl
    · exact (SameSetup.runWaiter w).settings

/-- **When the discovery fails, all that was deferred is answered with its error**, in the order in which it
arrived. -/
theorem step_answers {a b : Actor} {e} (hstep : a.step e = some b) (hexit : b.exited = false)
    (hok : a.configError = []) (hfail : b.configError ≠ []) : a.AnswersDeferred b := by
  have hsame : ∀ {c}, c.store.settings = a.store.settings → c.configError ≠ [] →
      a.AnswersDeferred c := by
    intro c hsettings hc
    exact absurd ((congrArg ServiceConfig.configError hsettings).trans hok) hc
  cases (step_cases hstep).2 with
  | received => exact hsame (receive_settings a _ _) hfail
  | load => exact hsame (SameSetup.settleLoad _).settings hfail
  | saveReplied | saveRetried => exact hsame (SameSetup.settleSave _).settings hfail
  | schemaReplied => exact (schemaReply_answers hok _).resolve_left hfail
  | schemaRetried => exact (discoverNextSchema_answers hok).resolve_left hfail
  | drained => exact hsame (by unfold drain; split <;> rfl) hfail
  | exited => cases hexit

end Actor

/-- **The start-up barrier**, in every run of an actor whose configuration is right:

* a statement of a load or of a save has been sent only if the metadata of every target was applied, and if
  the discovery has ended without an error it was;
* when the discovery fails, every deferred request is answered with its error;
* after that nothing is ever sent, everything that was looked at has been answered with the error, and so is
  every request that is admitted later;
* requests are looked at in the order in which they arrive. -/
theorem schema_barrier (config : ActorConfig) (address : Bytes) {settings : ServiceConfig} (env : Env)
    (hconfig : settings.configError = []) {events : List Actor.Event} {a : Actor}
    (hrun : Machine.run Actor.step (.start config address settings env) events = some a) :
    (∀ i c, a.loads i = some c → 0 < c.queries → a.Discovered settings.catalog) ∧
    (∀ i c, a.store.contexts i = some c → c.sent ≠ [] → a.Discovered settings.catalog) ∧
    (a.schemaLoading = false → a.configError = [] → a.Discovered settings.catalog) ∧
    (∀ e b, a.step e = some b → b.exited = false → a.configError = [] → b.configError ≠ [] →
      ∃ waiters : List ℕ, b.journal = a.journal ++ (a.schemaWaiters.map fun w : Waiter =>
        Entry.answered w.request (w.refusal .invalidRequest b.configError)) ++ waiters.map .acknowledged) ∧
    (a.exited = false → a.configError ≠ [] →
      (∀ later b, Machine.run Actor.step a later = some b → ∀ i, b.loads i = none ∧ b.store.contexts i = none) ∧
      (∀ r ∈ a.readied, ∃ answer, .answered r answer ∈ a.journal ∧ answer.code = .invalidRequest ∧
        answer.error = a.configError) ∧
      ∀ w env b, a.admissionError = none → a.step (.receive w env) = some b →
        b.journal = a.journal ++ [.opened w.request, .answered w.request
          (w.refusal .invalidRequest a.configError)]) ∧
    (a.exited = false → (a.readied ++ a.schemaWaiters.map Waiter.request).Sublist (opened a.journal)) := by
  have hinv : (a.exited = false → a.Sound) ∧ a.Barrier settings.catalog := by
    refine Machine.run_invariant (I := fun a => (a.exited = false → a.Sound) ∧ a.Barrier settings.catalog) ?_ ?_
      hrun
    · rintro a e b ⟨hsound, hbar⟩ hstep
      have ha := hsound (Actor.step_cases hstep).1
      exact ⟨Actor.step_sound ha hstep, Actor.step_barrier ha hbar hstep⟩
    · exact ⟨fun _ => Actor.Sound.start config address settings env, Actor.Barrier.start config address hconfig env⟩
  obtain ⟨hsound, hbar⟩ := hinv
  refine ⟨fun i c hc _ => ?_, fun i c hc _ => ?_, fun hended hok => ?_,
    fun e b hstep hexit hok hfail => Actor.step_answers hstep hexit hok hfail,
    fun hexit hfail => ?_, fun hexit => (hsound hexit).invariant.readied⟩
  · exact hbar.discovered (hbar.started (.load i) (by simp [Started, hc]))
  · exact hbar.discovered (hbar.started (.save i) (by simp [Started, hc]))
  · exact hbar.discovered (hbar.complete hended hok)
  · obtain ⟨huntouched, href⟩ := hbar.failed hexit hfail
    have hended : a.schemaLoading = false := by
      by_contra hloading
      exact hfail (hbar.pristine (by simpa using hloading)).1
    have hidle : a.discovery = .idle := by
      by_contra hdisc
      rw [(hsound hexit).loading hdisc] at hended
      cases hended
    refine ⟨fun later b hlater i => ?_, href, fun w env b hadm hstep => ?_⟩
    · have hclosed : b.Closed := Machine.run_invariant (I := Actor.Closed)
        (fun _ _ _ h hstep => Actor.step_closed h hstep) ⟨hended, hidle, hfail, huntouched⟩ hlater
      exact ⟨not_not.mp (hclosed.untouched (.load i)), not_not.mp (hclosed.untouched (.save i))⟩
    · cases (Actor.step_cases hstep).2 with
      | load _ _ _ hwait => rcases hwait with ⟨_, _, hevent⟩ | ⟨_, hevent⟩ <;> cases hevent
      | received _ =>
        unfold Actor.receive
        dsimp only
        rw [show (a.note [.opened w.request]).admissionError = a.admissionError from rfl, hadm]
        dsimp only
        rw [show (a.note [.opened w.request]).schemaLoading = a.schemaLoading from rfl, hended,
          Actor.runWaiter_configError (a := a.note [.opened w.request]) env w hfail]
        simp [Actor.note, Actor.ready, Actor.configError]

namespace Sample

/-- A load arrives, and the metadata query fails. -/
def failedDiscovery : List Actor.Event := [
  .receive (.load 0 loadRequest) {},
  .schemaReply (.error (str "request_timeout")) {}]

/-- The code and the error of the last answer. -/
def lastAnswer (a : Actor) : Option (ResultCode × Bytes) :=
  a.journal.getLast?.bind fun
    | .answered _ answer => some (answer.code, answer.error)
    | _ => none

end Sample

open Sample in
/-- The deferred load is answered with the error of the discovery. -/
theorem schema_barrier_failed : ∃ a,
    Machine.run Actor.step (.start {} (str "node:1:") discovered {}) failedDiscovery = some a ∧
    a.configError = str "schema discovery failed: request_timeout" ∧
    ∃ answer, .answered (.load 0) answer ∈ a.journal ∧ answer.code = .invalidRequest ∧
      answer.error = a.configError := by
  have heval : (Machine.run Actor.step (.start {} (str "node:1:") discovered {}) failedDiscovery).map
      (fun a => (a.exited, a.configError, a.readied)) =
        some (false, str "schema discovery failed: request_timeout", [.load 0]) := by
    decide +kernel
  obtain ⟨a, hrun, hfacts⟩ := Option.map_eq_some_iff.mp heval
  simp only [Prod.mk.injEq] at hfacts
  obtain ⟨hexited, herr, hreadied⟩ := hfacts
  obtain ⟨-, -, -, -, hfail, -⟩ := schema_barrier {} (str "node:1:") {} (show discovered.configError = [] from rfl)
    hrun
  obtain ⟨-, hanswered, -⟩ := hfail hexited (by rw [herr]; decide)
  exact ⟨a, hrun, herr, hanswered (.load 0) (by rw [hreadied]; simp)⟩

open Sample in
/-- After a discovery that failed, a drain, and then a load: it is not answered with the error of the
discovery, since a store that drains admits nothing. -/
theorem schema_barrier_draining :
    (Machine.run Actor.step (.start {} (str "node:1:") discovered {}) (failedDiscovery ++ [
      .drain 9, .receive (.load 1 loadRequest) {}])).map (fun a => (a.configError, lastAnswer a)) =
        some (str "schema discovery failed: request_timeout",
          some (.unavailable, str "entity store is draining")) := by
  decide +kernel

end Caf.EntityStore.Sql
