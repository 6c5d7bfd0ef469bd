import CafPluginSystem.Sql.Books

/-!
# The queues and the counter of the SQL entity store

What holds of the actor in every state that it can reach before it exits.

* `Sound`, `step_sound`, `run_sound` — the books are kept by every event.
* `partition_queues` — the counter, the order of the answers, what the first save of a queue waits for, and
  the limit.
-/

namespace Caf.EntityStore.Sql

open Database Journal

namespace Actor

/-! ## Every state -/

/-- What holds before the actor exits. -/
structure Sound (a : Actor) : Prop where
  invariant : a.Invariant a.schemaWaiters
  idle : a.schemaLoading = false → a.schemaWaiters = []
  loading : a.discovery ≠ .idle → a.schemaLoading = true
  untouched : a.schemaLoading = true → ∀ r, ¬Started a.loads a.store.contexts r

/-- A request that is admitted keeps to the limit. -/
lemma admissionError_limit {a : Actor} (h : a.admissionError = none) :
    a.inFlight + a.schemaWaiters.length < a.config.maxPendingRequests := by
  unfold admissionError at h
  split at h
  · cases h
  · split at h
    · cases h
    · next hlimit => exact not_le.mp hlimit

namespace Sound

variable {a : Actor} {env : Env}

/-- A request that has started shows that the discovery has ended. -/
lemma ended (h : a.Sound) {r} (hr : Started a.loads a.store.contexts r) : a.schemaLoading = false := by
  by_contra hload
  exact h.untouched (by simpa using hload) r hr

/-- A step that concerns requests only, after the discovery. -/
lemma of_setup {b} (h : a.Sound) (hended : a.schemaLoading = false) (hsetup : SameSetup a b)
    (hinv : b.Invariant a.schemaWaiters) : b.Sound := by
  have hended' : b.schemaLoading = false := hsetup.schemaLoading.trans hended
  refine ⟨?_, fun _ => ?_, fun hdisc => ?_, fun hload => ?_⟩
  · rw [hsetup.schemaWaiters]
    exact hinv
  · rw [hsetup.schemaWaiters]
    exact h.idle hended
  · rw [hsetup.schemaLoading]
    exact h.loading (hsetup.discovery ▸ hdisc)
  · rw [hended'] at hload
    cases hload

lemma finishSchema (h : a.Invariant a.schemaWaiters) (error : Bytes) : (a.finishSchema env error).Sound := by
  set b : Actor := if error = [] then
      { a with schemaLoading := false, discovery := .idle, schemaWaiters := [] }
    else { a with schemaLoading := false, discovery := .idle, schemaWaiters := [] }.setConfigError error with hb
  have hbooks : b.Invariant a.schemaWaiters ∧ b.schemaWaiters = [] ∧ b.discovery = .idle ∧
      b.schemaLoading = false := by
    rw [hb]
    split
    · exact ⟨h.of_same rfl rfl rfl rfl rfl rfl rfl rfl, rfl, rfl, rfl⟩
    · exact ⟨h.of_same rfl rfl rfl rfl rfl rfl rfl rfl, rfl, rfl, rfl⟩
  have hsetup : SameSetup b (a.finishSchema env error) :=
    (SameSetup.runWaiters a.schemaWaiters).trans SameSetup.notifyDrained
  have hwait : (a.finishSchema env error).schemaWaiters = [] := hsetup.schemaWaiters.trans hbooks.2.1
  refine ⟨?_, fun _ => hwait, fun hdisc => ?_, fun hload => ?_⟩
  · rw [hwait]
    exact (hbooks.1.runWaiters).notifyDrained
  · exact absurd (hsetup.discovery.trans hbooks.2.2.1) hdisc
  · rw [hsetup.schemaLoading, hbooks.2.2.2] at hload
    cases hload

lemma discoverNextSchema (h : a.Invariant a.schemaWaiters) (hload : a.schemaLoading = true)
    (huntouched : ∀ r, ¬Started a.loads a.store.contexts r) : (a.discoverNextSchema env).Sound := by
  have hwait : ∀ discovery : Discovery, ({ a with discovery } : Actor).Sound := fun discovery =>
    ⟨h.of_same rfl rfl rfl rfl rfl rfl rfl rfl, fun hnot => by simp [hload] at hnot, fun _ => hload,
      fun _ => huntouched⟩
  unfold Actor.discoverNextSchema
  split
  · exact finishSchema h _
  · split
    · exact finishSchema h _
    · split
      · exact hwait _
      · exact hwait _

lemma schemaReply (h : a.Sound) (hload : a.schemaLoading = true) (reply : Except Bytes DbResult) :
    (a.schemaReply env reply).Sound := by
  have hinv := h.invariant
  cases reply with
  | error error => exact finishSchema hinv _
  | ok result =>
    unfold Actor.schemaReply
    dsimp only
    split
    · split
      · exact finishSchema hinv _
      · exact ⟨hinv.of_same rfl rfl rfl rfl rfl rfl rfl rfl, h.idle, fun _ => hload, h.untouched⟩
    · split
      · exact h
      · unfold applySchema
        split
        · exact finishSchema hinv _
        · exact discoverNextSchema (hinv.of_same rfl rfl rfl rfl rfl rfl rfl rfl) hload
            (h.untouched hload)

/-- **A request arrives.** -/
lemma receive (h : a.Sound) {w : Waiter} (hnew : w.request ∉ opened a.journal) : (a.receive env w).Sound := by
  have hinv := h.invariant
  unfold Actor.receive
  dsimp only
  cases hadmission : (a.note [.opened w.request]).admissionError with
  | some error => exact ⟨hinv.turnedAway hnew _, h.idle, h.loading, h.untouched⟩
  | none =>
    have hadm := hinv.admitted hnew (admissionError_limit hadmission)
    dsimp only
    split
    · next hload =>
      exact ⟨hadm.of_same rfl rfl rfl rfl rfl rfl rfl rfl,
        fun hnot => absurd hload (by rw [hnot]; simp), fun _ => hload, h.untouched⟩
    · next hload =>
      have hended : a.schemaLoading = false := by simpa [note] using hload
      have hempty : a.schemaWaiters = [] := h.idle hended
      rw [hempty, List.nil_append] at hadm
      refine h.of_setup hended (SameSetup.trans (b := a.note [.opened w.request]) ?_ (SameSetup.runWaiter w)) ?_
      · exact ⟨rfl, rfl, rfl, rfl, rfl, rfl, rfl, rfl, rfl, rfl⟩
      · rw [hempty]
        exact hadm.runWaiter.1

lemma drain (h : a.Sound) (coordinator : ℕ) : (a.drain coordinator).Sound := by
  have hinv := h.invariant
  unfold Actor.drain
  split
  · exact ⟨(hinv.acknowledged [coordinator]).of_same rfl rfl rfl rfl rfl rfl rfl rfl, h.idle, h.loading,
      h.untouched⟩
  · exact ⟨hinv.of_same rfl rfl rfl rfl rfl rfl rfl rfl, h.idle, h.loading,
      h.untouched⟩

lemma start (config : ActorConfig) (address : Bytes) (settings : ServiceConfig) (env : Env) :
    (Actor.start config address settings env).Sound := by
  have hinv : ({ config, store := .initial address settings } : Actor).Invariant [] := by
    refine ⟨⟨List.nodup_nil, List.nodup_nil, fun r hr => ?_, fun r => by simp⟩, List.Sublist.slnil, fun r hr => ?_,
      Store.initial_queued address settings, fun partition => ?_, ?_, Nat.zero_le _, fun _ _ => rfl, ?_⟩
    · rcases hr with hwaits | hmem
      · cases r <;> obtain ⟨c, hc, -⟩ := hwaits <;> cases hc
      · cases hmem
    · cases r <;> exact absurd rfl hr
    · simp [Store.initial, Store.queueOf]
    · simp [Store.initial]
    · intro i c hc
      cases hc
  have huntouched : ∀ r, ¬Started (fun _ => none) (Store.initial address settings).contexts r := by
    intro r hr
    cases r <;> exact hr rfl
  unfold Actor.start initializeSchema
  dsimp only
  split
  · exact ⟨hinv, fun _ => rfl, fun hdisc => absurd rfl hdisc, fun _ => huntouched⟩
  · split
    · exact ⟨hinv.of_same rfl rfl rfl rfl rfl rfl rfl rfl, fun _ => rfl, fun hdisc => absurd rfl hdisc,
        fun _ => huntouched⟩
    · exact discoverNextSchema (hinv.of_same rfl rfl rfl rfl rfl rfl rfl rfl) rfl huntouched

end Sound

/-- **One event keeps the actor sound**, unless the actor exits. -/
theorem step_sound {a b : Actor} {e} (h : a.Sound) (hstep : a.step e = some b)
    (hexit : b.exited = false) : b.Sound := by
  have hinv := h.invariant
  cases (step_cases hstep).2 with
  | received hnew => exact h.receive hnew
  | @load i e c next hc hans hnext _ =>
    exact h.of_setup (h.ended (r := .load i) (by simp [Started, hc])) (SameSetup.settleLoad _)
      (hinv.settleLoad hc hans hnext).1
  | @saveReplied i reply env c hc hans hawaits =>
    refine h.of_setup (h.ended (r := .save i) (by simp [Started, hc]))
      (SameSetup.trans ?_ (SameSetup.settleSave _)) (hinv.saveReplied env hc hans hawaits reply rfl).1
    exact ⟨rfl, rfl, rfl, rfl, rfl, rfl, rfl, rfl, rfl, rfl⟩
  | @saveRetried i backend env c hc hans hdelay =>
    refine h.of_setup (h.ended (r := .save i) (by simp [Started, hc]))
      (SameSetup.trans ?_ (SameSetup.settleSave _)) (hinv.saveRetried env hc hans hdelay backend rfl).1
    exact ⟨rfl, rfl, rfl, rfl, rfl, rfl, rfl, rfl, rfl, rfl⟩
  | schemaReplied hquerying => exact h.schemaReply (h.loading (by simp [hquerying])) _
  | schemaRetried hdelay => 
      have hload := h.loading (by simp [hdelay])
      exact Sound.discoverNextSchema hinv hload (h.untouched hload)
  | drained => exact h.drain _
  | exited => cases hexit

lemma step_config {a b : Actor} {e} (hstep : a.step e = some b) : b.config = a.config := by
  have hfinish : ∀ (a : Actor) (env : Env) (error : Bytes), (a.finishSchema env error).config = a.config := by
    intro a env error
    unfold finishSchema
    rw [SameSetup.notifyDrained.config, (SameSetup.runWaiters _).config]
    split <;> rfl
  have hdiscover : ∀ (a : Actor) (env : Env), (a.discoverNextSchema env).config = a.config := by
    intro a env
    unfold discoverNextSchema
    split
    · exact hfinish a env _
    · split
      · exact hfinish a env _
      · split <;> rfl
  cases (step_cases hstep).2 with
  | received hnew =>
    unfold receive
    dsimp only
    split
    · rfl
    · split
      · rfl
      · exact (SameSetup.runWaiter _).config
  | load => exact (SameSetup.settleLoad _).config
  | saveReplied | saveRetried => exact (SameSetup.settleSave _).config
  | @schemaReplied reply env =>
    cases reply with
    | error error => exact hfinish a env _
    | ok result =>
      unfold schemaReply
      dsimp only
      split
      · split
        · exact hfinish a env _
        · rfl
      · split
        · rfl
        · unfold applySchema
          split
          · exact hfinish a env _
          · exact hdiscover _ env
  | schemaRetried => exact hdiscover a _
  | drained =>
    unfold drain
    split <;> rfl
  | exited => exact (SameSetup.runWaiters _).config

/-- **Every state before the exit is sound.** -/
theorem run_sound {config address settings env}
    {events a}
    (hrun : Machine.run step (.start config address settings env) events = some a) :
    (a.exited = false → a.Sound) ∧ a.config = config := by
  refine Machine.run_invariant (I := fun a => (a.exited = false → a.Sound) ∧ a.config = config) ?_ ?_ hrun
  · rintro a e b ⟨hsound, hcfg⟩ hstep
    refine ⟨fun hexit => ?_, (step_config hstep).trans hcfg⟩
    exact step_sound (hsound (step_cases hstep).1) hstep hexit
  · refine ⟨fun _ => Sound.start config address settings env, ?_⟩
    unfold start initializeSchema discoverNextSchema
    dsimp only
    repeat' split
    all_goals rfl

/-- The request waits for its turn or for its result. -/
def Unfinished (a : Actor) (r : Request) : Prop :=
  r ∈ a.schemaWaiters.map Waiter.request ∨ running a.loads r = true ∨
    ∃ i partition, r = .save i ∧ i ∈ a.store.queueOf partition

variable {a : Actor} (h : a.Sound)
include h

lemma Sound.unfinished_iff (r : Request) : a.Unfinished r ↔
    Waits a.loads a.store.contexts r ∨ r ∈ a.schemaWaiters.map Waiter.request := by
  unfold Unfinished
  rw [or_comm]
  refine or_congr_left ?_
  cases r with
  | load i =>
    cases hc : a.loads i with
    | none | some c => simp [running, Waits, hc]
  | save i =>
    constructor
    · rintro (hrun | ⟨j, partition, heq, hmem⟩)
      · cases hrun
      · cases heq
        obtain ⟨c, hc, -, hans⟩ := (h.invariant.queued partition).entries i hmem
        exact ⟨c, hc, hans⟩
    · rintro ⟨c, hc, hans⟩
      exact Or.inr ⟨i, c.partitionKey, rfl, (h.invariant.queued _).members i c hc rfl hans⟩

/-- **Each request is answered when it is finished, and once.** -/
lemma Sound.answered_once {r : Request} (hr : r ∈ opened a.journal) :
    (a.Unfinished r → (answered a.journal).count r = 0) ∧
      (¬a.Unfinished r → (answered a.journal).count r = 1) := by
  have honce := h.invariant.once
  have hiff := honce.answered_iff r
  rw [← h.unfinished_iff r] at hiff
  refine ⟨fun hwaits => ?_, fun hdone => ?_⟩
  · exact List.count_eq_zero.mpr fun hmem => (hiff.mp hmem).2 hwaits
  · exact List.count_eq_one_of_mem honce.answered_nodup (hiff.mpr ⟨hr, hdone⟩)

/-- **The saves of a partition are answered in the order in which they were received.** -/
lemma Sound.fifo (partition : Bytes) :
    Fifo (inPartition a.store.contexts partition) a.journal ((a.store.queueOf partition).map .save) := by
  have hinv := h.invariant
  have hreadied : a.readied.Sublist (opened a.journal) :=
    (List.sublist_append_left _ _).trans hinv.readied
  unfold Fifo
  rw [hinv.order partition]
  refine filter_eq_of_sublist hreadied hinv.once.opened_nodup fun r _ hp => hinv.started r ?_
  by_contra hstart
  rw [inPartition_of_not_started hstart] at hp
  cases hp

/-- A save that waits for a reply or for its timer is the first of its queue. -/
lemma Sound.head {i : ℕ} {c : SaveContext} (hc : a.store.contexts i = some c)
    (hbusy : a.replied i < c.sent.length ∨ (c.answer = none ∧ c.stage = .delayed)) :
    (a.store.queueOf c.partitionKey).head? = some i := by
  have hwaits : c.answer = none ∧ c.stage ≠ .queued := by
    rcases hbusy with hsent | ⟨hans, hdelay⟩
    · have hsends := h.invariant.sends i c hc
      by_cases hawaits : c.answer = none ∧ c.stage.awaitsReply
      · refine ⟨hawaits.1, fun hqueued => ?_⟩
        rw [hqueued] at hawaits
        cases hawaits.2
      · rw [SaveContext.outstanding, if_neg hawaits] at hsends
        omega
    · exact ⟨hans, by simp [hdelay]⟩
  obtain ⟨rest, hq⟩ := h.invariant.queued.head hc hwaits.1 hwaits.2
  rw [hq]
  rfl

end Actor

open Actor in
/-- **The queues of the SQL entity store**, in every state before it exits:

* the counter is the number of loads that run and of saves that are in a queue;
* the saves of a store and partition are answered in the order in which they were received, and the queue
  holds those that are left;
* a save that waits for the backend or for its timer is the first of its queue, and it waits for one of the
  two, and for one reply;
* a request that was received is not answered before it is finished, and then it is answered once;
* the counter and the deferred requests keep to the limit. -/
theorem partition_queues (config : ActorConfig) (address : Bytes) (settings : ServiceConfig) (env : Env)
    {events : List Actor.Event} {a : Actor}
    (hrun : Machine.run Actor.step (.start config address settings env) events = some a)
    (hexit : a.exited = false) :
    a.inFlight = a.unfinishedLoads + Queues.total a.store.queues ∧
    (∀ partition, (answered a.journal).filter (inPartition a.store.contexts partition) ++
      (a.store.queueOf partition).map .save = (opened a.journal).filter (inPartition a.store.contexts partition)) ∧
    (∀ i c, a.store.contexts i = some c →
      (a.replied i < c.sent.length ∨ (c.answer = none ∧ c.stage = .delayed) →
        (a.store.queueOf c.partitionKey).head? = some i) ∧
      c.sent.length - a.replied i + (if c.answer = none ∧ c.stage = .delayed then 1 else 0) ≤ 1) ∧
    (∀ r ∈ opened a.journal, (a.Unfinished r → (answered a.journal).count r = 0) ∧
      (¬a.Unfinished r → (answered a.journal).count r = 1)) ∧
    a.inFlight + a.schemaWaiters.length ≤ config.maxPendingRequests := by
  obtain ⟨hsound, hcfg⟩ := Actor.run_sound hrun
  have h := hsound hexit
  refine ⟨h.invariant.counted, h.fifo, fun i c hc => ⟨h.head hc, ?_⟩, fun r hr => h.answered_once hr,
    hcfg ▸ h.invariant.limit⟩
  have hsends := h.invariant.sends i c hc
  by_cases hdelay : c.answer = none ∧ c.stage = .delayed
  · rw [SaveContext.outstanding_idle (by rw [hdelay.2]; rfl)] at hsends
    rw [if_pos hdelay]
    omega
  · have hle : c.outstanding ≤ 1 := by
      unfold SaveContext.outstanding
      split <;> omega
    rw [if_neg hdelay]
    omega

namespace Sample

def loadRequest : LoadRequest where
  target := { entity := str "player", key := [⟨str "id", .unsignedInteger 7⟩] }

def backend : ActorConfig where
  maxPendingRequests := 3

/-- Two saves of one partition and a load of a player that is not there. -/
def busy : List Actor.Event := [
  .receive (.save 0 request) {},
  .receive (.save 1 request) {},
  .receive (.load 2 loadRequest) {},
  .loadReply 2 (.ok { ok := true }) {}]

end Sample

open Sample in
/-- The load is answered, and the saves are in their queue. -/
theorem partition_queues_busy : ∃ a,
    Machine.run Actor.step (.start backend (str "node:1:") settings {}) busy = some a ∧ a.exited = false ∧
      a.inFlight = 2 ∧ a.store.queueOf (str "default\n") = [0, 1] ∧
      a.inFlight = a.unfinishedLoads + Queues.total a.store.queues := by
  have heval : (Machine.run Actor.step (.start backend (str "node:1:") settings {}) busy).map (fun a =>
      (a.exited, a.inFlight, a.store.queueOf (str "default\n"))) = some (false, 2, [0, 1]) := by
    decide +kernel
  obtain ⟨a, hrun, hfacts⟩ := Option.map_eq_some_iff.mp heval
  simp only [Prod.mk.injEq] at hfacts
  obtain ⟨hexited, hinFlight, hq⟩ := hfacts
  obtain ⟨hcount, -⟩ := partition_queues backend (str "node:1:") settings {} hrun hexited
  exact ⟨a, hrun, hexited, hinFlight, hq, hcount⟩

end Caf.EntityStore.Sql
