import CafPluginSystem.Sql.Queue

/-!
# The drain of the SQL entity store

A coordinator is told that the store is drained when the counter `in_flight_` is zero and no schema is being
discovered.  Deferred requests are not in the counter.  When the discovery ends they are looked at one after
another, and one that is answered while it starts (its deadline passes, or the service goes, between its check
and its start) brings the counter back to zero: the drain is acknowledged although the deferred requests
behind it have no answer.

* `Safe` — acknowledgements so far are right, and the next one will be.
* `Waiter.Prompt` — the request does not find the deadline passed, or its service gone, when it starts.
* `drain_acknowledged` — the drain is right in every run in which, when the discovery goes on while a drain
  waits, all deferred requests but the last are prompt.
* `drain_acknowledged_early` — a run in which it is not.
-/

namespace Caf.EntityStore.Sql

open Database Journal

/-- The request does not find the deadline passed, or its service gone, when it starts. -/
def Waiter.Prompt (env : Env) : Waiter → Prop
  | .load i _ => (env.load i).backend = true ∧ (env.load i).expired = false
  | .save i _ => (env.clocks i).expired = false

namespace Actor

/-- With nothing deferred and the counter at zero, every request is answered. -/
lemma Invariant.quiet {a : Actor} (h : a.Invariant []) (hzero : a.inFlight = 0) : Quiet a.journal := by
  have hcount := h.counted
  rw [hzero] at hcount
  have hloads : (opened a.journal).countP (running a.loads) = 0 := by omega
  have hqueues : Queues.total a.store.queues = 0 := by omega
  intro r hr
  refine (h.once.answered_iff r).mpr ⟨hr, ?_⟩
  rintro (hwaits | hmem)
  · cases r with
    | load i =>
      obtain ⟨c, hc, hans⟩ := hwaits
      exact List.countP_eq_zero.mp hloads (.load i) hr (by simp [running, hc, hans])
    | save i =>
      obtain ⟨c, hc, hans⟩ := hwaits
      have hin := (h.queued c.partitionKey).members i c hc rfl hans
      rw [show a.store.queueOf c.partitionKey = [] from Queues.queue_eq_nil_of_total hqueues _] at hin
      cases hin
  · cases hmem

/-- The acknowledgements are right, and nobody waits for one while a request is deferred. -/
structure Safe (deferred : List Waiter) (a : Actor) : Prop where
  acknowledged : AckSafe a.journal
  calm : deferred = [] ∨ a.drainWaiters = []

namespace Safe

variable {deferred : List Waiter} {a : Actor} {env : Env} {i : ℕ}

lemma notifyDrained (hinv : a.Invariant deferred) (h : a.Safe deferred) : a.notifyDrained.Safe deferred := by
  unfold Actor.notifyDrained
  split
  · exact h
  · next hdrain =>
    rw [not_or, not_or, not_not] at hdrain
    refine ⟨?_, .inr rfl⟩
    rcases h.calm with rfl | hnone
    · exact h.acknowledged.acknowledged (hinv.quiet hdrain.2.1) a.drainWaiters
    · show AckSafe (a.journal ++ a.drainWaiters.map .acknowledged)
      rw [hnone, List.map_nil, List.append_nil]
      exact h.acknowledged

/-- **The handlers of requests acknowledge rightly**, while nobody waits for a drain or nothing is deferred. -/
lemma of_writes {b} (hwrites : Invariant.Writes deferred a b) (h : a.Safe deferred) : b.Safe deferred := by
  induction hwrites with
  | refl => exact h
  | silent _ hjournal hwait ih => exact ⟨hjournal ▸ ih.acknowledged, hwait ▸ ih.calm⟩
  | answered _ hjournal hwait ih =>
    exact ⟨hjournal ▸ ih.acknowledged.append (by simp), hwait ▸ ih.calm⟩
  | drained _ hinv ih => exact notifyDrained hinv ih

end Safe

/-- A prompt request acknowledges nothing. -/
lemma runWaiter_prompt {a : Actor} {env : Env} {w : Waiter} (h : AckSafe a.journal) (hprompt : w.Prompt env) :
    AckSafe (a.runWaiter env w).journal := by
  cases w with
  | load i request =>
    obtain ⟨hbackend, hexpired⟩ := hprompt
    unfold runWaiter loadReady
    dsimp only
    split
    · exact h.append (by simp)
    · unfold LoadContext.startLoad
      rw [hbackend, hexpired]
      exact h
  | save i request =>
    have hexpired : (env.clocks i).expired = false := hprompt
    unfold runWaiter saveReady
    dsimp only
    split
    · exact h.append (by simp)
    · unfold enqueue
      dsimp only
      split
      · rw [startQueue]
        split
        · exact h
        · unfold SaveContext.startSave
          dsimp only
          rw [hexpired]
          exact h
      · exact h

/-- Deferred requests are looked at. -/
lemma runWaiters_safe {env : Env} {waiters : List Waiter} {a : Actor} (hinv : a.Invariant waiters)
    (h : AckSafe a.journal) (hcalm : a.drainWaiters = [] ∨ ∀ w ∈ waiters.dropLast, w.Prompt env) :
    AckSafe (waiters.foldl (runWaiter env) a).journal := by
  induction waiters generalizing a with
  | nil => exact h
  | cons w rest ih =>
    rw [List.foldl_cons]
    by_cases hlast : rest = []
    · subst hlast
      exact (Safe.of_writes hinv.runWaiter.2 ⟨h, .inl rfl⟩).acknowledged
    · rcases hcalm with hnone | hprompt
      · have hsafe := Safe.of_writes (b := a.runWaiter env w) hinv.runWaiter.2 ⟨h, .inr hnone⟩
        exact ih hinv.runWaiter.1 hsafe.acknowledged (.inl (hsafe.calm.resolve_left hlast))
      · rw [List.dropLast_cons_of_ne_nil hlast] at hprompt
        refine ih hinv.runWaiter.1 (runWaiter_prompt h (hprompt w (by simp))) (.inr fun w' hw' => ?_)
        exact hprompt w' (by simp [hw'])

/-- When the discovery goes on while a drain waits, all deferred requests but the last are prompt. -/
def DrainsPromptly (a : Actor) (e : Event) : Prop :=
  ∀ env, (e = .schemaTimer env ∨ ∃ reply, e = .schemaReply reply env) →
    a.drainWaiters = [] ∨ ∀ w ∈ a.schemaWaiters.dropLast, w.Prompt env

section Discovery

variable {a : Actor} {env : Env} (hinv : a.Invariant a.schemaWaiters) (h : AckSafe a.journal)
  (hcalm : a.drainWaiters = [] ∨ ∀ w ∈ a.schemaWaiters.dropLast, w.Prompt env)

include hinv h hcalm

lemma finishSchema_safe (error : Bytes) : AckSafe (a.finishSchema env error).journal := by
  unfold finishSchema
  dsimp only
  split
  · have hbooks : ({ a with schemaLoading := false, discovery := .idle, schemaWaiters := [] } : Actor).Invariant
        a.schemaWaiters := hinv.of_same rfl rfl rfl rfl rfl rfl rfl rfl
    exact (Safe.notifyDrained hbooks.runWaiters ⟨runWaiters_safe hbooks h hcalm, .inl rfl⟩).acknowledged
  · have hbooks : ({ a with schemaLoading := false, discovery := .idle, schemaWaiters := [] }.setConfigError
        error).Invariant a.schemaWaiters := hinv.of_same rfl rfl rfl rfl rfl rfl rfl rfl
    exact (Safe.notifyDrained hbooks.runWaiters ⟨runWaiters_safe hbooks h hcalm, .inl rfl⟩).acknowledged

lemma discoverNextSchema_safe : AckSafe (a.discoverNextSchema env).journal := by
  unfold discoverNextSchema
  split
  · exact finishSchema_safe hinv h hcalm _
  · split
    · exact finishSchema_safe hinv h hcalm _
    · split <;> exact h

lemma schemaReply_safe (reply : Except Bytes DbResult) : AckSafe (a.schemaReply env reply).journal := by
  cases reply with
  | error error => exact finishSchema_safe hinv h hcalm _
  | ok result =>
    unfold schemaReply
    dsimp only
    split
    · split
      · exact finishSchema_safe hinv h hcalm _
      · exact h
    · split
      · exact h
      · unfold applySchema
        split
        · exact finishSchema_safe hinv h hcalm _
        · exact discoverNextSchema_safe (hinv.of_same rfl rfl rfl rfl rfl rfl rfl rfl) h hcalm

end Discovery

/-- `on_exit` acknowledges nothing. -/
lemma onExit_safe {a : Actor} {env} (h : AckSafe a.journal) : AckSafe (a.onExit env).journal := by
  have herr : str "entity store exited before request completed" ≠ [] := by decide
  unfold onExit
  dsimp only
  rw [runWaiters_configError _ _ herr]
  refine (h.append ?_).append ?_
  · intro waiter hmem
    obtain ⟨w, -, heq⟩ := List.mem_map.mp hmem
    cases heq
  · intro waiter hmem
    obtain ⟨entry, -, hmem⟩ := List.mem_flatMap.mp hmem
    obtain ⟨i, -, hmem⟩ := List.mem_flatMap.mp hmem
    unfold exitSave at hmem
    split at hmem
    · cases hmem
    · split at hmem
      · cases List.mem_singleton.mp hmem
      · cases hmem

/-- **One event keeps the acknowledgements right**, if deferred requests are prompt while a drain waits. -/
theorem step_safe {a b : Actor} {e : Event} (hsound : a.Sound) (h : AckSafe a.journal)
    (hprompt : a.DrainsPromptly e) (hstep : a.step e = some b) : AckSafe b.journal := by
  have hinv := hsound.invariant
  cases (step_cases hstep).2 with
  | @received w env hnew =>
    have hopen : AckSafe (a.journal ++ [.opened w.request]) := h.append (by simp)
    unfold receive
    dsimp only
    cases hadmission : (a.note [.opened w.request]).admissionError with
    | some error => exact hopen.append (by simp)
    | none =>
      dsimp only
      split
      · exact hopen
      · next hload =>
        have hempty : a.schemaWaiters = [] := hsound.idle (by simpa [note] using hload)
        have hadm := hinv.admitted hnew (admissionError_limit hadmission)
        rw [hempty, List.nil_append] at hadm
        exact (Safe.of_writes hadm.runWaiter.2 ⟨hopen, .inl rfl⟩).acknowledged
  | @load i e c next hc hans hnext _ =>
    have hempty := hsound.idle (hsound.ended (r := .load i) (by simp [Started, hc]))
    rw [hempty] at hinv
    exact (Safe.of_writes (hinv.settleLoad hc hans hnext).2 ⟨h, .inl rfl⟩).acknowledged
  | @saveReplied i reply env c hc hans hawaits =>
    have hempty := hsound.idle (hsound.ended (r := .save i) (by simp [Started, hc]))
    rw [hempty] at hinv
    have hwrites := (hinv.saveReplied env hc hans hawaits reply rfl).2
    exact (Safe.of_writes hwrites ⟨h, .inl rfl⟩).acknowledged
  | @saveRetried i backend env c hc hans hdelay =>
    have hempty := hsound.idle (hsound.ended (r := .save i) (by simp [Started, hc]))
    rw [hempty] at hinv
    have hwrites := (hinv.saveRetried env hc hans hdelay backend rfl).2
    exact (Safe.of_writes hwrites ⟨h, .inl rfl⟩).acknowledged
  | schemaReplied _ => exact schemaReply_safe hinv h (hprompt _ (.inr ⟨_, rfl⟩)) _
  | schemaRetried _ => exact discoverNextSchema_safe hinv h (hprompt _ (.inl rfl))
  | @drained coordinator =>
    unfold drain
    split
    · next hidle =>
      have hempty := hsound.idle (by simpa using hidle.2)
      rw [hempty] at hinv
      exact h.acknowledged (hinv.quiet hidle.1) [coordinator]
    · exact h
  | exited => exact onExit_safe h

end Actor

/-- **A drain is acknowledged only after every request received before it was answered**, in every run in which,
whenever the discovery of schemas goes on while a drain waits, the deferred requests but the last do not find
their deadline passed or their service gone when they start. -/
theorem drain_acknowledged (config : ActorConfig) (address : Bytes) (settings : ServiceConfig) (env : Env)
    {events : List Actor.Event} {a : Actor}
    (hrun : Machine.run Actor.step (.start config address settings env) events = some a)
    (hprompt : Machine.RunWhere Actor.step Actor.DrainsPromptly (.start config address settings env) events)
    {front back : List LogEntry} {coordinator : ℕ}
    (hack : a.journal = front ++ .acknowledged coordinator :: back) :
    ∀ r ∈ opened front, r ∈ answered front := by
  have hsafe : (a.exited = false → a.Sound) ∧ AckSafe a.journal := by
    refine Machine.run_invariant_where (C := Actor.DrainsPromptly)
      (I := fun a => (a.exited = false → a.Sound) ∧ AckSafe a.journal) ?_ ⟨?_, ?_⟩ hprompt hrun
    · rintro a e b ⟨hsound, hsafe⟩ hwhere hstep
      have ha := hsound (Actor.step_cases hstep).1
      exact ⟨Actor.step_sound ha hstep, Actor.step_safe ha hsafe hwhere hstep⟩
    · exact fun _ => Actor.Sound.start config address settings env
    · have hempty : (Actor.start config address settings env).journal = [] := by
        unfold Actor.start Actor.initializeSchema Actor.discoverNextSchema
        dsimp only
        repeat' split
        all_goals rfl
      rw [hempty]
      exact AckSafe.nil
  exact hsafe.2 front coordinator back hack

namespace Sample

/-- Players whose columns are read from the database. -/
def discovered : ServiceConfig where
  catalog := .single false {
    name := str "default"
    readService := str "sql"
    writeService := str "sql"
    entities := (∅ : StringMap EntitySchema).insert (str "player")
      { player with discoverFromDatabase := true } } (by decide +kernel)

/-- What SQLite says about the columns of the players. -/
def columns : DbResult where
  ok := true
  columns := SchemaProvider.metadataNames
  rows := [
    [str "id", str "INTEGER", [], str "0", str "1", str "0", str "0"],
    [str "score", str "INTEGER", [], str "1", str "0", str "0", str "0"],
    [str "version", str "INTEGER", [], str "0", str "0", str "0", str "0"]]

/-- Two loads and a drain arrive before the schema is known. -/
def drainDuringDiscovery : List Actor.Event := [
  .receive (.load 0 loadRequest) {},
  .receive (.load 1 loadRequest) {},
  .drain 9]

/-- The deadline of the first load passes between its check and its start. -/
def lateStart : Env where
  load := fun i => if i = 0 then { expired := true, late := true } else {}

/-- Where the drain is acknowledged in the journal: what was received and answered before. -/
def beforeAcknowledgement (n : ℕ) (a : Actor) : Option (List Request × List Request) :=
  match a.journal[n]? with
  | some (.acknowledged 9) => some (opened (a.journal.take n), Journal.answered (a.journal.take n))
  | _ => none

lemma split_of_beforeAcknowledgement {n a received done} (h : beforeAcknowledgement n a = some (received, done)) :
    a.journal = a.journal.take n ++ .acknowledged 9 :: a.journal.drop (n + 1) ∧
      opened (a.journal.take n) = received ∧ Journal.answered (a.journal.take n) = done := by
  unfold beforeAcknowledgement at h
  split at h
  · next hentry =>
    obtain ⟨hlt, hget⟩ := List.getElem?_eq_some_iff.mp hentry
    cases h
    refine ⟨?_, rfl, rfl⟩
    rw [← hget, ← List.drop_eq_getElem_cons hlt, List.take_append_drop]
  · cases h

end Sample

open Sample in
/-- The two loads are answered, and then the drain is acknowledged. -/
theorem drain_acknowledged_last : ∃ a front back,
    Machine.run Actor.step (.start {} (str "node:1:") discovered {}) (drainDuringDiscovery ++ [
      .schemaReply (.ok columns) {}, .loadReply 0 (.ok { ok := true }) {},
      .loadReply 1 (.ok { ok := true }) {}]) = some a ∧
    a.journal = front ++ .acknowledged 9 :: back ∧ opened front = [.load 0, .load 1] ∧
    ∀ r ∈ opened front, r ∈ Journal.answered front := by
  have heval : ((Machine.run Actor.step (.start {} (str "node:1:") discovered {}) (drainDuringDiscovery ++ [
      .schemaReply (.ok columns) {}, .loadReply 0 (.ok { ok := true }) {},
      .loadReply 1 (.ok { ok := true }) {}]))).map (beforeAcknowledgement 4) =
      some (some ([.load 0, .load 1], [.load 0, .load 1])) := by
    decide +kernel
  obtain ⟨a, hrun, hfacts⟩ := Option.map_eq_some_iff.mp heval
  obtain ⟨hsplit, hopen, -⟩ := split_of_beforeAcknowledgement hfacts
  refine ⟨a, _, _, hrun, hsplit, hopen, drain_acknowledged {} (str "node:1:") discovered {} hrun
    (.of_forall fun e he s env hgoes => .inr fun w _ => ?_) hsplit⟩
  have henv : env = {} := by
    rcases hgoes with rfl | ⟨reply, rfl⟩
    · simp [drainDuringDiscovery] at he
    · have hevent : reply = .ok columns ∧ env = {} := by simpa [drainDuringDiscovery] using he
      exact hevent.2
  subst henv
  cases w with
  | load i request => exact ⟨rfl, rfl⟩
  | save i request => rfl

open Sample in
/-- The run that the condition excludes: the first load is answered while it starts, and the drain is
acknowledged although the second load has no answer. -/
theorem drain_acknowledged_early : ∃ a front back,
    Machine.run Actor.step (.start {} (str "node:1:") discovered {})
      (drainDuringDiscovery ++ [.schemaReply (.ok columns) lateStart]) = some a ∧
    a.journal = front ++ .acknowledged 9 :: back ∧ .load 1 ∈ opened front ∧ .load 1 ∉ Journal.answered front := by
  have heval : ((Machine.run Actor.step (.start {} (str "node:1:") discovered {})
      (drainDuringDiscovery ++ [.schemaReply (.ok columns) lateStart]))).map (beforeAcknowledgement 3) =
      some (some ([.load 0, .load 1], [.load 0])) := by
    decide +kernel
  obtain ⟨a, hrun, hfacts⟩ := Option.map_eq_some_iff.mp heval
  obtain ⟨hsplit, hopen, hanswered⟩ := split_of_beforeAcknowledgement hfacts
  refine ⟨a, _, _, hrun, hsplit, ?_, ?_⟩
  · rw [hopen]
    simp
  · rw [hanswered]
    simp

end Caf.EntityStore.Sql
