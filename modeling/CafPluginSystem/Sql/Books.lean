import CafPluginSystem.Sql.Actor

/-!
# The books of the SQL entity store

What the actor knows about the requests that it has received.

* `SaveContext.Sends` — a handler of a save sends at most one message, and then waits for its reply.
* `Invariant` — each request that was received is answered once, and waits until then: deferred, as a load
  that runs, or in the queue of its partition.  It is stated with the requests that are still deferred, since
  `finish_schema` looks at them one after another.  There is one lemma for each thing that can happen to a
  request (`admitted`, `turnedAway`, `refused`, `beginLoad`, `answerLoad`, `beginSave`, `answerSave`, …).
* `Writes` — what the handlers of requests write: answers, and that the store has drained.
-/

namespace Caf.EntityStore.Sql

open Database Journal List Function Queues

variable {partition : Bytes}

/-! ## What a save has sent -/

namespace SaveContext

variable {attempts : ℕ} {clock : Clock} {c : SaveContext} {n : Next}

/-- The requests of the save that have no reply yet. -/
def outstanding (c : SaveContext) : ℕ := if c.answer = none ∧ c.stage.awaitsReply then 1 else 0

/-- A handler sends at most one message, and then waits for its reply. -/
def Sends (c : SaveContext) (n : Next) : Prop :=
  n.context.sent.length = c.sent.length + n.context.outstanding

lemma outstanding_answered {result} (h : c.answer = some result) : c.outstanding = 0 := by
  simp [outstanding, h]

lemma outstanding_idle (h : c.stage.awaitsReply = false) : c.outstanding = 0 := by
  simp [outstanding, h]

lemma outstanding_awaits (hans : c.answer = none) (h : c.stage.awaitsReply = true) :
    c.outstanding = 1 := by
  simp [outstanding, h, hans]

lemma Abandoned.sends (h : Abandoned c n) (hans : c.answer = none) : Sends c n := by
  have hout := h.outcome
  unfold Sends
  cases n with
  | waiting c' =>
    obtain ⟨hans', ⟨hstage, hsent⟩ | ⟨failed, -, hstage, -, hsent⟩⟩ := hout
    · show c'.sent.length = c.sent.length + c'.outstanding
      rw [hsent, outstanding_idle (by rw [hstage]; rfl)]
      rfl
    · show c'.sent.length = c.sent.length + c'.outstanding
      rw [hsent, outstanding_awaits (hans'.trans hans) (by rw [hstage]; rfl)]
      simp
  | finished c' result =>
    obtain ⟨hsent, -, -⟩ := hout
    rw [outstanding_answered (c := (Next.finished c' result).context) rfl]
    exact congrArg List.length hsent

lemma Proceeds.sends {c₀ stage message}
    (h : Proceeds c₀ n stage message) (hsent : c₀.sent = c.sent) (hans : c₀.answer = none)
    (hawaits : stage.awaitsReply = true) : Sends c n := by
  unfold Sends
  rw [h.sent, hsent, outstanding_awaits (h.answer.trans hans) (by rw [h.stage]; exact hawaits)]
  simp

lemma Outcome.sends (h : Outcome c n) (hans : c.answer = none) : Sends c n := by
  cases h with
  | abandoned h _ => exact Abandoned.sends h hans
  | proceeds h _ honward hfwd =>
    exact Proceeds.sends h honward.sent (honward.answer.trans hans) hfwd.awaits
  | @answered result _ =>
    unfold Sends
    rw [outstanding_answered (c := (Next.finished c result).context) rfl]
    rfl

lemma retryOrFinish_sends (result : SaveResult) : Sends c (c.retryOrFinish attempts clock result) := by
  unfold Sends retryOrFinish
  dsimp only
  split
  · rw [outstanding_answered rfl]
    rfl
  · rw [outstanding_idle rfl]
    rfl

lemma respond_sends (hans : c.answer = none) (hawaits : c.stage.awaitsReply = true)
    (reply : Except Bytes DbResult) : Sends c (c.respond attempts clock reply) := by
  by_cases hfail : ∃ failed, c.stage = .rollingBack failed
  · obtain ⟨failed, hstage⟩ := hfail
    unfold respond
    rw [hstage]
    exact retryOrFinish_sends failed
  · exact (respond_outcome hawaits (fun failed h => absurd ⟨failed, h⟩ hfail) reply).sends hans

lemma startSave_sends (attempts : ℕ) (clock : Clock) (hans : c.answer = none) (key : Bytes) :
    Sends c (c.startSave attempts clock key) := by
  rcases c.startSave_cases attempts clock key with h | h
  · have hsends := Abandoned.sends h hans
    exact hsends
  · exact Proceeds.sends h rfl hans rfl

lemma retry_sends (hans : c.answer = none) (backend : Bool) (key : Bytes) :
    Sends c (c.retry attempts clock backend key) := by
  rcases c.retry_cases attempts clock backend key with h | ⟨-, h⟩
  · exact Abandoned.sends h hans
  · rw [h]
    exact startSave_sends _ _ hans key

end SaveContext

/-! ## The invariant -/

section Requests

variable (loads : ℕ → Option LoadContext) (contexts : ℕ → Option SaveContext)

/-- The request was accepted by its `..._ready` function. -/
def Started : Request → Prop
  | .load i => loads i ≠ none
  | .save i => contexts i ≠ none

/-- The request was accepted and is not answered. -/
def Waits : Request → Prop
  | .load i => ∃ c, loads i = some c ∧ c.answer = none
  | .save i => ∃ c, contexts i = some c ∧ c.answer = none

/-- A load that runs. -/
def running : Request → Bool
  | .load i => (loads i).any fun c => c.answer.isNone
  | .save _ => false

/-- A save that entered the queue of a partition. -/
def inPartition (partition : Bytes) : Request → Bool
  | .load _ => false
  | .save i => (contexts i).any fun c => c.partitionKey = partition

end Requests

section Requests

variable {loads : ℕ → Option LoadContext} {contexts : ℕ → Option SaveContext} {r : Request} {i : ℕ}

lemma Waits.started (h : Waits loads contexts r) : Started loads contexts r := by
  cases r with
  | load i | save i =>
    obtain ⟨c, hc, -⟩ := h
    simp [Started, hc]

lemma running_of_not_started (h : ¬Started loads contexts r) : running loads r = false := by
  cases r with
  | load i =>
    have hnone : loads i = none := by simpa [Started] using h
    simp [running, hnone]
  | save i => rfl

lemma inPartition_of_not_started (h : ¬Started loads contexts r) (partition : Bytes) :
    inPartition contexts partition r = false := by
  cases r with
  | load i => rfl
  | save i =>
    have hnone : contexts i = none := by simpa [Started] using h
    simp [inPartition, hnone]

/-! What a change of one load or one save does to the others. -/

lemma started_update_load (c : LoadContext) :
    Started (update loads i (some c)) contexts r ↔ Started loads contexts r ∨ r = .load i := by
  cases r with
  | load j =>
    by_cases heq : j = i
    · subst heq
      simp [Started]
    · simp [Started, heq]
  | save j => simp [Started]

lemma started_update_save (c : SaveContext) :
    Started loads (update contexts i (some c)) r ↔ Started loads contexts r ∨ r = .save i := by
  cases r with
  | load j => simp [Started]
  | save j =>
    by_cases heq : j = i
    · subst heq
      simp [Started]
    · simp [Started, heq]

lemma waits_update_load (c : LoadContext) : Waits (update loads i (some c)) contexts r ↔
    if r = .load i then c.answer = none else Waits loads contexts r := by
  cases r with
  | load j =>
    by_cases heq : j = i
    · subst heq
      simp [Waits]
    · simp [Waits, heq]
  | save j => simp [Waits]

lemma waits_update_save (c : SaveContext) : Waits loads (update contexts i (some c)) r ↔
    if r = .save i then c.answer = none else Waits loads contexts r := by
  cases r with
  | load j => simp [Waits]
  | save j =>
    by_cases heq : j = i
    · subst heq
      simp [Waits]
    · simp [Waits, heq]

lemma running_update (c : LoadContext) (h : r ≠ .load i) :
    running (update loads i (some c)) r = running loads r := by
  cases r with
  | load j =>
    have hne : j ≠ i := by
      rintro rfl
      exact h rfl
    simp [running, hne]
  | save j => rfl

lemma inPartition_update (c : SaveContext) (h : r ≠ .save i) :
    inPartition (update contexts i (some c)) partition r = inPartition contexts partition r := by
  cases r with
  | load j => rfl
  | save j =>
    have hne : j ≠ i := by
      rintro rfl
      exact h rfl
    simp [inPartition, hne]

/-- A save that stays in its partition. -/
lemma inPartition_update_same {c} (hc : contexts i = some c) (c' : SaveContext)
    (hsame : c'.partitionKey = c.partitionKey) (partition : Bytes) :
    inPartition (update contexts i (some c')) partition = inPartition contexts partition := by
  funext r
  by_cases h : r = .save i
  · subst h
    simp [inPartition, hc, hsame]
  · exact inPartition_update c' h

end Requests

namespace Actor

variable {queues : StringMap (List ℕ)}

/-- The number of loads that run. -/
def unfinishedLoads (a : Actor) : ℕ := (opened a.journal).countP (running a.loads)

/-- The invariant, while `deferred` are still to be looked at. -/
structure Invariant (a : Actor) (deferred : List Waiter) : Prop where
  once : Once (fun r => Waits a.loads a.store.contexts r ∨ r ∈ deferred.map Waiter.request) a.journal
  readied : (a.readied ++ deferred.map Waiter.request).Sublist (opened a.journal)
  started : ∀ r, Started a.loads a.store.contexts r → r ∈ a.readied
  queued : a.store.Queued
  order : ∀ partition, (answered a.journal).filter (inPartition a.store.contexts partition) ++
    (a.store.queueOf partition).map .save = a.readied.filter (inPartition a.store.contexts partition)
  counted : a.inFlight = (opened a.journal).countP (running a.loads) + Queues.total a.store.queues
  limit : a.inFlight + deferred.length ≤ a.config.maxPendingRequests
  unsent : ∀ i, a.store.contexts i = none → a.replied i = 0
  sends : ∀ i c, a.store.contexts i = some c → c.sent.length = a.replied i + c.outstanding

/-- The queue of the first save, without it. -/
lemma popFront_queue {i rest} (h : Queues.queue queues partition = i :: rest) (other : Bytes) :
    Queues.queue (popFront queues partition i) other =
      if partition = other then rest else Queues.queue queues other := by
  have hlook : queues[partition]? = some (i :: rest) := by
    unfold Queues.queue at h
    cases hget : queues[partition]? with
    | none => simp [hget] at h
    | some queue => simpa [hget] using h
  unfold popFront
  rw [hlook]
  simp only [head?_cons, tail_cons, if_true]
  split
  · next hempty => rw [queue_erase, hempty]
  · exact queue_insert ..

@[simp] lemma notifyDrained_store (a : Actor) : a.notifyDrained.store = a.store := by
  unfold notifyDrained
  split <;> rfl

lemma finishSave_queueOf (a : Actor) (i : ℕ) (c : SaveContext) (result : SaveResult) (partition : Bytes) :
    (a.finishSave i c result).store.queueOf partition =
      Queues.queue (popFront a.store.queues c.partitionKey i) partition := by
  simp only [finishSave, operationFinished, notifyDrained_store]
  rfl

lemma finishSave_contexts (a : Actor) (i : ℕ) (c : SaveContext) (result : SaveResult) :
    (a.finishSave i c result).store.contexts =
      update a.store.contexts i (some { c with answer := some result }) := by
  simp only [finishSave, operationFinished, notifyDrained_store]
  rfl

namespace Invariant

variable {b : Actor} {request : SaveRequest} {env : Env}

section Arrivals

variable {a : Actor} {deferred : List Waiter}
variable {r : Request}

variable (h : a.Invariant deferred)
include h

/-- Nothing else of the actor matters. -/
lemma of_same (hjournal : b.journal = a.journal) (hreadied : b.readied = a.readied) (hloads : b.loads = a.loads)
    (hctxs : b.store.contexts = a.store.contexts) (hqueues : b.store.queues = a.store.queues)
    (hinFlight : b.inFlight = a.inFlight) (hcfg : b.config = a.config) (hreplied : b.replied = a.replied) :
    b.Invariant deferred := by
  have hqueueOf : ∀ partition, b.store.queueOf partition = a.store.queueOf partition := fun partition => by
    rw [Store.queueOf, hqueues]
    rfl
  refine ⟨?_, ?_, ?_, fun partition => ?_, fun partition => ?_, ?_, ?_, ?_, ?_⟩
  · rw [hloads, hctxs, hjournal]
    exact h.once
  · rw [hreadied, hjournal]
    exact h.readied
  · rw [hloads, hctxs, hreadied]
    exact h.started
  · rw [hctxs, hqueueOf]
    exact h.queued partition
  · rw [hjournal, hctxs, hqueueOf, hreadied]
    exact h.order partition
  · rw [hinFlight, hjournal, hloads, hqueues]
    exact h.counted
  · rw [hinFlight, hcfg]
    exact h.limit
  · rw [hctxs, hreplied]
    exact h.unsent
  · rw [hctxs, hreplied]
    exact h.sends

/-- A started request has been received. -/
lemma started_opened (hr : Started a.loads a.store.contexts r) :
    r ∈ opened a.journal :=
  h.readied.subset (mem_append_left _ (h.started r hr))

/-- A started request is not deferred. -/
lemma not_deferred (hr : Started a.loads a.store.contexts r) :
    r ∉ deferred.map Waiter.request := by
  intro hmem
  have hnodup := h.readied.nodup h.once.opened_nodup
  exact (nodup_append.mp hnodup).2.2 _ (h.started r hr) _ hmem rfl

/-- A save had `n` replies, and the other saves are as they were. -/
lemma sends_update {i n c} (hsends : c.sent.length = n + c.outstanding) :
    (∀ j, update a.store.contexts i (some c) j = none → update a.replied i n j = 0) ∧
    ∀ j cj, update a.store.contexts i (some c) j = some cj →
      cj.sent.length = update a.replied i n j + cj.outstanding := by
  refine ⟨fun j hj => ?_, fun j cj hcj => ?_⟩
  · have hne : j ≠ i := by
      rintro rfl
      simp at hj
    rw [update_of_ne hne] at hj ⊢
    exact h.unsent j hj
  · by_cases heq : j = i
    · subst heq
      rw [update_self, Option.some.injEq] at hcj
      rw [update_self, ← hcj]
      exact hsends
    · rw [update_of_ne heq] at hcj ⊢
      exact h.sends j cj hcj

lemma acknowledged (waiters : List ℕ) :
    (a.note (waiters.map .acknowledged)).Invariant deferred := by
  refine ⟨h.once.append_other (by simp) (by simp), ?_, h.started, h.queued, fun partition => ?_, ?_, h.limit,
    h.unsent, h.sends⟩
  · simpa [note] using h.readied
  · simpa [note] using h.order partition
  · simpa [note] using h.counted

lemma notifyDrained : a.notifyDrained.Invariant deferred := by
  unfold Actor.notifyDrained
  split
  · exact h
  · exact (h.acknowledged a.drainWaiters).of_same rfl rfl rfl rfl rfl rfl rfl rfl

/-- A request arrives and is admitted. -/
lemma admitted {w} (hnew : w.request ∉ opened a.journal)
    (hlimit : a.inFlight + deferred.length < a.config.maxPendingRequests) :
    (a.note [.opened w.request]).Invariant (deferred ++ [w]) := by
  have hrun : running a.loads w.request = false :=
    running_of_not_started fun hs => hnew (h.started_opened hs)
  refine ⟨h.once.opened hnew fun r => ?_, ?_, h.started, h.queued, fun partition => ?_, ?_, ?_, h.unsent,
    h.sends⟩
  · simp only [map_append, map_cons, map_nil, mem_append, mem_singleton]
    rw [or_assoc]
    exact Iff.rfl
  · have hsub : ((a.readied ++ deferred.map Waiter.request) ++ [w.request]).Sublist
        (opened a.journal ++ [w.request]) := h.readied.append_right [w.request]
    simpa [note] using hsub
  · simpa [note] using h.order partition
  · simpa [note, countP_append, hrun] using h.counted
  · show a.inFlight + (deferred ++ [w]).length ≤ a.config.maxPendingRequests
    rw [length_append, length_singleton]
    omega

/-- A request is turned away when it arrives. -/
lemma turnedAway (hnew : r ∉ opened a.journal) (answer : Answer) :
    ((a.note [.opened r]).note [.answered r answer]).Invariant deferred := by
  have hstart : ¬Started a.loads a.store.contexts r := fun hs => hnew (h.started_opened hs)
  have hdeferred : r ∉ deferred.map Waiter.request := fun hmem =>
    hnew (h.readied.subset (mem_append_right _ hmem))
  have hopen := h.once.opened hnew fun _ => Iff.rfl
  refine ⟨hopen.answered (.inr rfl) fun r' => ?_, ?_, h.started, h.queued, fun partition => ?_, ?_,
    h.limit, h.unsent, h.sends⟩
  · constructor
    · intro hwaits
      refine ⟨.inl hwaits, ?_⟩
      rintro rfl
      rcases hwaits with hwaits | hmem
      · exact hstart hwaits.started
      · exact hdeferred hmem
    · rintro ⟨hwaits | heq, hne⟩
      · exact hwaits
      · exact absurd heq hne
  · have hsub := h.readied.trans (sublist_append_left _ [r])
    simpa [note] using hsub
  · simpa [note, inPartition_of_not_started hstart] using h.order partition
  · simpa [note, countP_append, running_of_not_started hstart] using h.counted

end Arrivals

section Looking

variable {a : Actor} {w : Waiter} {rest : List Waiter}

/-- A request that is still deferred has not been looked at, and is deferred once. -/
lemma fresh (h : a.Invariant (w :: rest)) : ¬Started a.loads a.store.contexts w.request ∧
    w.request ∉ rest.map Waiter.request ∧ w.request ∈ opened a.journal := by
  have hnodup := h.readied.nodup h.once.opened_nodup
  rw [map_cons, nodup_append] at hnodup
  obtain ⟨-, hrest, hdisj⟩ := hnodup
  refine ⟨fun hstart => ?_, (nodup_cons.mp hrest).1, ?_⟩
  · exact hdisj _ (h.started _ hstart) _ (by simp) rfl
  · exact h.readied.subset (by simp)

/-- The request is looked at and refused. -/
lemma refused (h : a.Invariant (w :: rest)) (answer : Answer) :
    ((a.ready w.request).note [.answered w.request answer]).Invariant rest := by
  obtain ⟨hstart, hrest, -⟩ := h.fresh
  refine ⟨h.once.answered (.inr (by simp)) fun r => ?_, ?_, fun r hr => ?_, h.queued, fun partition => ?_, ?_,
    ?_, h.unsent, h.sends⟩
  · constructor
    · rintro (hwaits | hmem)
      · refine ⟨.inl hwaits, ?_⟩
        rintro rfl
        exact hstart hwaits.started
      · refine ⟨.inr (by simp [hmem]), ?_⟩
        rintro rfl
        exact hrest hmem
    · rintro ⟨hwaits | hmem, hne⟩
      · exact .inl hwaits
      · exact .inr ((mem_cons.mp hmem).resolve_left hne)
  · simpa [note, ready] using h.readied
  · exact mem_append_left _ (h.started r hr)
  · simpa [note, ready, inPartition_of_not_started hstart] using h.order partition
  · simpa [note, ready] using h.counted
  · have hlimit := h.limit
    rw [length_cons] at hlimit
    show a.inFlight + rest.length ≤ a.config.maxPendingRequests
    omega

/-- The load is looked at and accepted. -/
lemma beginLoad {i request} (h : a.Invariant (.load i request :: rest)) {c} (hans : c.answer = none) :
    { (a.ready (.load i)).setLoad i c with inFlight := a.inFlight + 1 }.Invariant rest := by
  obtain ⟨hstart, hrest, hopen⟩ := h.fresh
  refine ⟨h.once.congr fun r => ?_, ?_, fun r hr => ?_, h.queued, fun partition => ?_, ?_, ?_, h.unsent, h.sends⟩
  · simp only [ready, setLoad, waits_update_load, map_cons, mem_cons, Waiter.request]
    by_cases hr : r = .load i
    · simp [hr, hans]
    · simp [hr]
  · simpa [ready, setLoad, Waiter.request] using h.readied
  · rcases (started_update_load c).mp hr with hold | rfl
    · exact mem_append_left _ (h.started r hold)
    · exact mem_append_right _ (mem_singleton_self _)
  · simpa [ready, setLoad, inPartition] using h.order partition
  · have hcount := countP_update (p := running a.loads)
      (q := running (update a.loads i (some c))) h.once.opened_nodup hopen
      fun r hr => running_update c hr
    rw [running_of_not_started hstart] at hcount
    have hnew : running (update a.loads i (some c)) (.load i) = true := by
      simp [running, hans]
    have hcounted := h.counted
    show a.inFlight + 1 = (opened a.journal).countP (running (update a.loads i (some c))) +
      Queues.total a.store.queues
    simp only [Waiter.request, hnew, Bool.toNat_false, Bool.toNat_true] at hcount
    omega
  · have hlimit := h.limit
    rw [length_cons] at hlimit
    show a.inFlight + 1 + rest.length ≤ a.config.maxPendingRequests
    omega

/-- The save is looked at, accepted, and put at the end of its queue. -/
lemma beginSave {i} (h : a.Invariant (.save i request :: rest)) {c}
    (hfresh : c.Fresh) (hq : ∀ partition, Queues.queue queues partition =
      if c.partitionKey = partition then a.store.queueOf c.partitionKey ++ [i]
      else a.store.queueOf partition) :
    { ((a.ready (.save i)).setSave i c).setQueues queues with inFlight := a.inFlight + 1 }.Invariant rest := by
  obtain ⟨hstart, hrest, hopen⟩ := h.fresh
  have hnone : a.store.contexts i = none := by simpa [Started, Waiter.request] using hstart
  have hsends := h.sends_update (i := i) (n := a.replied i) (c := c) (by
    rw [h.unsent i hnone, hfresh.sent, SaveContext.outstanding_idle (by rw [hfresh.stage]; rfl)]
    rfl)
  rw [update_eq_self] at hsends
  refine ⟨h.once.congr fun r => ?_, ?_, fun r hr => ?_, fun partition => ?_, fun partition => ?_, ?_, ?_,
    hsends.1, hsends.2⟩
  · simp only [ready, setSave, setQueues, Store.setContext, waits_update_save, map_cons, mem_cons,
      Waiter.request]
    by_cases hr : r = .save i
    · simp [hr, hfresh.answer]
    · simp [hr]
  · simpa [ready, setSave, setQueues, Waiter.request] using h.readied
  · rcases (started_update_save c).mp hr with hold | rfl
    · exact mem_append_left _ (h.started r hold)
    · exact mem_append_right _ (mem_singleton_self _)
  · show QueueOf (update a.store.contexts i (some c)) partition (Queues.queue queues partition)
    rw [hq]
    by_cases hp : c.partitionKey = partition
    · rw [if_pos hp]
      exact hp ▸ (h.queued c.partitionKey).push hnone rfl hfresh
    · rw [if_neg hp]
      exact (h.queued partition).update_other hp fun c₀ hc₀ => by simp [hnone] at hc₀
  · show (answered a.journal).filter (inPartition (update a.store.contexts i (some c)) partition) ++
      (Queues.queue queues partition).map Request.save =
      (a.readied ++ [Request.save i]).filter (inPartition (update a.store.contexts i (some c)) partition)
    -- the save itself is in none of the two lists yet
    have hnodup := h.readied.nodup h.once.opened_nodup
    have hready : .save i ∉ a.readied := fun hmem =>
      (nodup_append.mp hnodup).2.2 _ hmem (.save i) (by simp [Waiter.request]) rfl
    have hanswered : .save i ∉ answered a.journal := fun hmem =>
      ((h.once.answered_iff _).mp hmem).2 (.inr (by simp [Waiter.request]))
    have hsame : ∀ l : List Request, .save i ∉ l →
        l.filter (inPartition (update a.store.contexts i (some c)) partition) =
          l.filter (inPartition a.store.contexts partition) := fun l hl =>
      filter_congr fun r hr => inPartition_update c fun heq => hl (heq ▸ hr)
    rw [filter_append, hsame _ hanswered, hsame _ hready, hq, ← h.order partition]
    by_cases hp : c.partitionKey = partition
    · subst hp
      simp [inPartition]
    · simp [inPartition, hp]
  · have htotal := total_update (m := a.store.queues) (n := queues) (k := c.partitionKey)
      fun partition hp => by rw [hq, if_neg (Ne.symm hp)]; rfl
    rw [hq, if_pos rfl, length_append, length_singleton] at htotal
    have hcount := h.counted
    have hlen : (Queues.queue a.store.queues c.partitionKey).length =
      (a.store.queueOf c.partitionKey).length := rfl
    show a.inFlight + 1 = (opened a.journal).countP (running a.loads) + Queues.total queues
    omega
  · have hlimit := h.limit
    rw [length_cons] at hlimit
    show a.inFlight + 1 + rest.length ≤ a.config.maxPendingRequests
    omega

end Looking

/-- **What the handlers of requests write**: the answer to a request, or, with the books in order, that the store
has drained. -/
inductive Writes (deferred : List Waiter) (a : Actor) : Actor → Prop
  | refl : Writes deferred a a
  | silent {b c : Actor} (h : Writes deferred a b) (hjournal : c.journal = b.journal)
      (hwaiters : c.drainWaiters = b.drainWaiters) : Writes deferred a c
  | answered {b c : Actor} {r : Request} {answer : Answer} (h : Writes deferred a b)
      (hjournal : c.journal = b.journal ++ [.answered r answer])
      (hwaiters : c.drainWaiters = b.drainWaiters) : Writes deferred a c
  | drained {b : Actor} (h : Writes deferred a b) (hinv : b.Invariant deferred) :
      Writes deferred a b.notifyDrained

lemma Writes.trans {deferred a c} (h : Writes deferred a b) (h' : Writes deferred b c) : Writes deferred a c := by
  induction h' with
  | refl => exact h
  | silent _ hjournal hwait ih => exact ih.silent hjournal hwait
  | answered _ hjournal hwait ih => exact ih.answered hjournal hwait
  | drained _ hinv ih => exact ih.drained hinv

lemma Writes.after {deferred a c} (h : Writes deferred b c)
    (hjournal : b.journal = a.journal) (hwait : b.drainWaiters = a.drainWaiters) : Writes deferred a c :=
  (Writes.refl.silent hjournal hwait).trans h

section Running

variable {a : Actor} {deferred : List Waiter} {i : ℕ}

variable {c : LoadContext} {c' : SaveContext} {rest : List ℕ} {n : ℕ}

variable (h : a.Invariant deferred)
include h

/-- A load that runs goes on. -/
lemma loadGoesOn {c'} (hc : a.loads i = some c)
    (hans : c.answer = none) (hans' : c'.answer = none) : (a.setLoad i c').Invariant deferred := by
  have hrun : running (update a.loads i (some c')) = running a.loads := by
    funext r
    by_cases hr : r = .load i
    · subst hr
      simp [running, hc, hans, hans']
    · exact running_update c' hr
  refine ⟨h.once.congr fun r => ?_, h.readied, fun r hr => ?_, h.queued, h.order, ?_, h.limit, h.unsent,
    h.sends⟩
  · simp only [setLoad, waits_update_load]
    by_cases hr : r = .load i
    · simp [hr, hans', Waits, hc, hans]
    · simp [hr]
  · rcases (started_update_load c').mp hr with hold | rfl
    · exact h.started r hold
    · exact h.started _ (by simp [Started, hc])
  · show a.inFlight = (opened a.journal).countP (running (update a.loads i (some c'))) + _
    rw [hrun]
    exact h.counted

/-- A load that runs is answered. -/
lemma answerLoad (hc : a.loads i = some c) (hans : c.answer = none) (c' : LoadContext) (result : LoadResult) :
    { (a.setLoad i { c' with answer := some result }).note [.answered (.load i) (.load result)] with
      inFlight := a.inFlight - 1 }.Invariant deferred := by
  have hwaits : Waits a.loads a.store.contexts (.load i) := ⟨c, hc, hans⟩
  have hdeferred := h.not_deferred hwaits.started
  have hcount := countP_update (p := running a.loads)
    (q := running (update a.loads i (some { c' with answer := some result })))
    h.once.opened_nodup (h.started_opened hwaits.started) fun r hr => running_update _ hr
  simp only [running, hc, hans, update_self, Option.any_some, Option.isNone_none, Option.isNone_some,
    Bool.toNat_true, Bool.toNat_false] at hcount
  have hcounted := h.counted
  refine ⟨h.once.answered (.inl hwaits) fun r => ?_, ?_, fun r hr => ?_, h.queued, fun partition => ?_, ?_, ?_,
    h.unsent, h.sends⟩
  · simp only [setLoad, note, waits_update_load]
    by_cases hr : r = .load i
    · subst hr
      simpa using hdeferred
    · simp [hr]
  · simpa [setLoad, note] using h.readied
  · rcases (started_update_load _).mp hr with hold | rfl
    · exact h.started r hold
    · exact h.started _ hwaits.started
  · simpa [setLoad, note, inPartition] using h.order partition
  · show a.inFlight - 1 = (opened (a.journal ++ [.answered (.load i) (.load result)])).countP
      (running (update a.loads i (some { c' with answer := some result }))) + Queues.total a.store.queues
    simp only [opened_append, opened_answered, opened_nil, append_nil]
    omega
  · have hlimit := h.limit
    show a.inFlight - 1 + deferred.length ≤ a.config.maxPendingRequests
    omega

lemma finishLoad (hc : a.loads i = some c) (hans : c.answer = none) (c' : LoadContext) (result : LoadResult) :
    (a.finishLoad i c' result).Invariant deferred ∧ Writes deferred a (a.finishLoad i c' result) := by
  have hanswered := h.answerLoad hc hans c' result
  exact ⟨hanswered.notifyDrained, .drained (.answered .refl rfl rfl) hanswered⟩

/-- The first save of a queue goes on. -/
lemma saveGoesOn {c} (hc : a.store.contexts i = some c) (hq : a.store.queueOf c.partitionKey = i :: rest)
    (hans : c.answer = none) (hans' : c'.answer = none) (hsame : c'.partitionKey = c.partitionKey)
    (hsends : c'.sent.length = n + c'.outstanding) :
    ({ a with replied := update a.replied i n }.setSave i c').Invariant deferred := by
  refine ⟨h.once.congr fun r => ?_, h.readied, fun r hr => ?_, fun partition => ?_, fun partition => ?_,
    h.counted, h.limit, (h.sends_update hsends).1, (h.sends_update hsends).2⟩
  · simp only [setSave, Store.setContext, waits_update_save]
    by_cases hr : r = .save i
    · simp [hr, hans', Waits, hc, hans]
    · simp [hr]
  · rcases (started_update_save c').mp hr with hold | rfl
    · exact h.started r hold
    · exact h.started _ (by simp [Started, hc])
  · show QueueOf (update a.store.contexts i (some c')) partition (a.store.queueOf partition)
    by_cases hp : partition = c.partitionKey
    · have hwas := h.queued partition
      subst hp
      rw [hq] at hwas ⊢
      exact hwas.update_head hsame hans'
    · refine (h.queued partition).update_other (hsame ▸ Ne.symm hp) fun c₀ hc₀ => ?_
      obtain rfl : c = c₀ := Option.some.inj (hc.symm.trans hc₀)
      exact Ne.symm hp
  · have hpart := inPartition_update_same hc c' hsame partition
    show (answered a.journal).filter (inPartition (update a.store.contexts i (some c')) partition) ++ _ =
      a.readied.filter (inPartition (update a.store.contexts i (some c')) partition)
    rw [hpart]
    exact h.order partition

/-- The first save of a queue is answered and leaves it. -/
lemma answerSave {c} (hc : a.store.contexts i = some c) (hq : a.store.queueOf c.partitionKey = i :: rest)
    (hans : c.answer = none) (hsame : c'.partitionKey = c.partitionKey) (result : SaveResult)
    (hsends : c'.sent.length = n) :
    { ((({ a with replied := update a.replied i n } : Actor).setSave i
        { c' with answer := some result }).note [.answered (.save i) (.save result)]).setQueues
          (popFront a.store.queues c'.partitionKey i) with
      inFlight := a.inFlight - 1 }.Invariant deferred := by
  have hwaits : Waits a.loads a.store.contexts (.save i) := ⟨c, hc, hans⟩
  have hdeferred := h.not_deferred hwaits.started
  have hpop := popFront_queue hq
  have hcount := h.counted
  have htotal := total_update (m := a.store.queues)
    (n := popFront a.store.queues c.partitionKey i) (k := c.partitionKey)
    fun partition hp => by rw [hpop, if_neg (Ne.symm hp)]
  rw [hpop, if_pos rfl, show Queues.queue a.store.queues c.partitionKey = i :: rest from hq,
    length_cons] at htotal
  set answeredContext : SaveContext := { c' with answer := some result } with hctx
  have hpart := inPartition_update_same hc answeredContext hsame
  have hreplied := h.sends_update (i := i) (n := n) (c := answeredContext) (by
    rw [SaveContext.outstanding_answered rfl]
    exact hsends)
  refine ⟨h.once.answered (.inl hwaits) fun r => ?_, ?_, fun r hr => ?_, fun partition => ?_,
    fun partition => ?_, ?_, ?_, hreplied.1, hreplied.2⟩
  · simp only [setQueues, note, setSave, Store.setContext, waits_update_save]
    by_cases hr : r = .save i
    · subst hr
      simpa using hdeferred
    · simp [hr]
  · simpa [setQueues, note, setSave] using h.readied
  · rcases (started_update_save _).mp hr with hold | rfl
    · exact h.started r hold
    · exact h.started _ hwaits.started
  · show QueueOf (update a.store.contexts i (some answeredContext)) partition
      (Queues.queue (popFront a.store.queues c'.partitionKey i) partition)
    rw [hsame, hpop]
    by_cases hp : c.partitionKey = partition
    · have hwas := h.queued partition
      subst hp
      rw [hq] at hwas
      rw [if_pos rfl]
      exact (hwas.pop (by simp [hctx])).1
    · rw [if_neg hp]
      refine (h.queued partition).update_other (hsame ▸ hp) fun c₀ hc₀ => ?_
      obtain rfl : c = c₀ := Option.some.inj (hc.symm.trans hc₀)
      exact hp
  · show (answered (a.journal ++ [.answered (.save i) (.save result)])).filter
        (inPartition (update a.store.contexts i (some answeredContext)) partition) ++
        (Queues.queue (popFront a.store.queues c'.partitionKey i) partition).map Request.save =
      a.readied.filter (inPartition (update a.store.contexts i (some answeredContext)) partition)
    rw [hpart, hsame, hpop, ← h.order partition]
    simp only [answered_append, answered_answered, answered_nil, filter_append]
    by_cases hp : c.partitionKey = partition
    · subst hp
      simp [inPartition, hc, hq]
    · simp [inPartition, hc, hp]
      rfl
  · show a.inFlight - 1 = (opened (a.journal ++ [.answered (.save i) (.save result)])).countP
      (running a.loads) + Queues.total (popFront a.store.queues c'.partitionKey i)
    simp only [opened_append, opened_answered, opened_nil, append_nil, hsame]
    omega
  · have hlimit := h.limit
    show a.inFlight - 1 + deferred.length ≤ a.config.maxPendingRequests
    omega

lemma finishSave {c} (hc : a.store.contexts i = some c) (hq : a.store.queueOf c.partitionKey = i :: rest)
    (hans : c.answer = none) (hsame : c'.partitionKey = c.partitionKey) (result : SaveResult)
    (hsends : c'.sent.length = n) :
    ({ a with replied := update a.replied i n }.finishSave i c' result).Invariant deferred ∧
      Writes deferred a ({ a with replied := update a.replied i n }.finishSave i c' result) := by
  have hanswered := h.answerSave hc hq hans hsame result hsends
  exact ⟨hanswered.notifyDrained, .drained (.answered .refl rfl rfl) hanswered⟩

end Running

variable {deferred : List Waiter} {a : Actor} {i : ℕ} {c : SaveContext}

section

variable (h : a.Invariant deferred)
include h

/-- **The books after a queue of saves that have not started**, when `start_save` is called for its first one.
The induction follows the queue: a save that is answered at once leaves it, and the next one is the first. -/
lemma startQueue {queue} (hq : a.store.queueOf partition = queue)
    (hfresh : ∀ i ∈ queue, ∀ c, a.store.contexts i = some c → c.Fresh) :
    (a.startQueue env queue).Invariant deferred ∧ Writes deferred a (a.startQueue env queue) := by
  induction queue generalizing a with
  | nil => exact ⟨h, .refl⟩
  | cons i rest ih =>
    have hpart := h.queued partition
    rw [hq] at hpart
    obtain ⟨c, hc, hkeyed, hans⟩ := hpart.entries i (by simp)
    have hkeeps := c.startSave_keeps a.store.settings.saveRetryAttempts (env.clocks i) a.store.nextKey
    have hsends := SaveContext.startSave_sends a.store.settings.saveRetryAttempts (env.clocks i) hans
      a.store.nextKey
    have hreplied : c.sent.length = a.replied i := by
      have hwas := h.sends i c hc
      rw [SaveContext.outstanding_idle (by rw [(hfresh i (by simp) c hc).stage]; rfl)] at hwas
      exact hwas
    -- the counter of the transaction keys does not matter
    set b : Actor := { a with store := { a.store with
      nextTransactionKey := a.store.nextTransactionKey + 1 } } with hb
    have hbooks : b.Invariant deferred := h.of_same rfl rfl rfl rfl rfl rfl rfl rfl
    have hsame : ({ b with replied := update b.replied i (a.replied i) } : Actor) = b := by
      simp [hb]
    have hhead : b.store.queueOf c.partitionKey = i :: rest := by rw [hkeyed]; exact hq
    rw [Actor.startQueue, hc]
    dsimp only
    unfold SaveContext.Sends at hsends
    cases hnext : c.startSave a.store.settings.saveRetryAttempts (env.clocks i) a.store.nextKey with
    | waiting c' =>
      rw [hnext] at hkeeps hsends
      have hgoes := hbooks.saveGoesOn (n := a.replied i) hc hhead hans
        ((hkeeps.waiting c' rfl).trans hans) hkeeps.same.partitionKey (hreplied ▸ hsends)
      rw [hsame] at hgoes
      exact ⟨hgoes, .silent .refl rfl rfl⟩
    | finished c' result =>
      rw [hnext] at hkeeps hsends
      rw [SaveContext.outstanding_answered (c := (Next.finished c' result).context) rfl, Nat.add_zero,
        hreplied] at hsends
      have hsamePartition : c'.partitionKey = c.partitionKey := hkeeps.same.partitionKey
      obtain ⟨hanswered, hwrites⟩ := hbooks.finishSave (n := a.replied i) hc hhead hans hsamePartition
        result hsends
      rw [hsame] at hanswered hwrites
      have hrest := ih hanswered ?_ (fun j hj cj hcj => ?_)
      · exact ⟨hrest.1, (hwrites.trans hrest.2).after rfl rfl⟩
      · rw [finishSave_queueOf, hsamePartition, popFront_queue hhead, if_pos hkeyed]
      · rw [finishSave_contexts] at hcj
        have hne : j ≠ i := by
          rintro rfl
          exact (nodup_cons.mp hpart.nodup).1 hj
        rw [update_of_ne hne] at hcj
        exact hfresh j (by simp [hj]) cj hcj

/-- The saves behind the first one have not started when that one is answered. -/
lemma rest_fresh {replied}
    {c' rest} (hhead : a.store.queueOf c.partitionKey = i :: rest)
    (hsame : c'.partitionKey = c.partitionKey) (result : SaveResult) :
    ∀ j ∈ ({ a with replied }.finishSave i c' result).store.queueOf c'.partitionKey, ∀ cj,
      ({ a with replied }.finishSave i c' result).store.contexts j = some cj → cj.Fresh := by
  intro j hj cj hcj
  have hpart := h.queued c.partitionKey
  rw [hhead] at hpart
  rw [finishSave_queueOf, hsame, popFront_queue hhead, if_pos rfl] at hj
  rw [finishSave_contexts] at hcj
  have hne : j ≠ i := by
    rintro rfl
    exact (nodup_cons.mp hpart.nodup).1 hj
  rw [update_of_ne hne] at hcj
  exact hpart.fresh j hj cj hcj

/-- The rest of a handler of the first save of a queue, which had `n` replies. -/
lemma settleSave {n} (env : Env) (hc : a.store.contexts i = some c) (hans : c.answer = none)
    (hstarted : c.stage ≠ .queued) {next} (hkeeps : Keeps c next) (hsends : SaveContext.Sends c next)
    (hn : c.sent.length = n) :
    ({ a with replied := update a.replied i n }.settleSave env i next).Invariant deferred ∧
      Writes deferred a ({ a with replied := update a.replied i n }.settleSave env i next) := by
  obtain ⟨rest, hhead⟩ := h.queued.head hc hans hstarted
  unfold SaveContext.Sends at hsends
  rw [hn] at hsends
  cases next with
  | waiting c' =>
    exact ⟨h.saveGoesOn hc hhead hans ((hkeeps.waiting c' rfl).trans hans) hkeeps.same.partitionKey
      hsends, .silent .refl rfl rfl⟩
  | finished c' result =>
    have hsame : c'.partitionKey = c.partitionKey := hkeeps.same.partitionKey
    rw [SaveContext.outstanding_answered (c := (Next.finished c' result).context) rfl, Nat.add_zero] at hsends
    obtain ⟨hfinish, hwrites⟩ := h.finishSave (n := n) hc hhead hans hsame result hsends
    obtain ⟨hrest, hstart⟩ := hfinish.startQueue rfl (h.rest_fresh hhead hsame result)
    exact ⟨hrest, hwrites.trans hstart⟩

/-- A reply comes to a save. -/
lemma saveReplied (env : Env) (hc : a.store.contexts i = some c)
    (hans : c.answer = none) (hawaits : c.stage.awaitsReply = true) (reply : Except Bytes DbResult)
    (hb : b = { a with replied := update a.replied i (a.replied i + 1) }.settleSave env i
      (c.respond a.store.settings.saveRetryAttempts (env.clocks i) reply)) :
    b.Invariant deferred ∧ Writes deferred a b := by
  subst hb
  refine h.settleSave env hc hans (fun hstage => ?_) (c.respond_keeps _ _ reply)
    (SaveContext.respond_sends hans hawaits reply) ?_
  · simp [hstage, Stage.awaitsReply] at hawaits
  · rw [h.sends i c hc, SaveContext.outstanding_awaits hans hawaits]

/-- The timer of a save that is tried again. -/
lemma saveRetried (env : Env) (hc : a.store.contexts i = some c)
    (hans : c.answer = none) (hdelay : c.stage = .delayed) (backend : Bool)
    (hb : b = { a with store := { a.store with
        nextTransactionKey := a.store.nextTransactionKey + if backend then 1 else 0 } }.settleSave env i
      (c.retry a.store.settings.saveRetryAttempts (env.clocks i) backend a.store.nextKey)) :
    b.Invariant deferred ∧ Writes deferred a b := by
  set k := a.store.nextTransactionKey + if backend then 1 else 0
  have hkeyed : ({ a with store := { a.store with nextTransactionKey := k } } : Actor).Invariant deferred :=
    h.of_same rfl rfl rfl rfl rfl rfl rfl rfl
  have hsent : c.sent.length = a.replied i := by
    rw [h.sends i c hc, SaveContext.outstanding_idle (by rw [hdelay]; rfl)]
    rfl
  obtain ⟨hbooks, hwrites⟩ := hkeyed.settleSave (i := i) (n := a.replied i) env hc hans (by simp [hdelay])
    (c.retry_keeps a.store.settings.saveRetryAttempts (env.clocks i) backend a.store.nextKey)
    (SaveContext.retry_sends hans backend a.store.nextKey) hsent
  rw [update_eq_self, ← hb] at hbooks hwrites
  exact ⟨hbooks, hwrites.after rfl rfl⟩

lemma settleLoad
    {c} (hc : a.loads i = some c) (hans : c.answer = none) {next}
    (hnext : LoadContext.Unanswered next) :
    (a.settleLoad i next).Invariant deferred ∧ Writes deferred a (a.settleLoad i next) := by
  cases next with
  | waiting c' => exact ⟨h.loadGoesOn hc hans hnext, .silent .refl rfl rfl⟩
  | finished c' result => exact h.finishLoad hc hans c' result

end

/-- The save is looked at and accepted, and its queue was empty. -/
lemma beginSave_empty {rest} (h : a.Invariant (.save i request :: rest)) (hfresh : c.Fresh)
    (hempty : a.store.queueOf c.partitionKey = [])
    (hb : b = { ((a.ready (.save i)).setSave i c).setQueues (a.store.queues.insert c.partitionKey
      (a.store.queueOf c.partitionKey ++ [i])) with inFlight := a.inFlight + 1 }) :
    b.Invariant rest ∧ b.store.queueOf c.partitionKey = [i] ∧
      ∀ j ∈ [i], ∀ cj, b.store.contexts j = some cj → cj.Fresh := by
  subst hb
  refine ⟨h.beginSave hfresh fun partition => queue_insert .., ?_, fun j hj cj hcj => ?_⟩
  · show Queues.queue (a.store.queues.insert c.partitionKey _) c.partitionKey = _
    rw [queue_insert, if_pos rfl, hempty]
    rfl
  · obtain rfl := mem_singleton.mp hj
    have heq : c = cj := by simpa [setQueues, setSave, Store.setContext] using hcj
    exact heq ▸ hfresh

/-- **A deferred request is looked at.** -/
lemma runWaiter {w rest} (h : a.Invariant (w :: rest)) :
    (a.runWaiter env w).Invariant rest ∧ Writes rest a (a.runWaiter env w) := by
  cases w with
  | load i request =>
    unfold Actor.runWaiter loadReady
    dsimp only
    cases haccept : acceptLoad (a.ready (.load i)).store.settings (env.arrival (.load i)) request with
    | error result => exact ⟨h.refused (.load result), .answered .refl rfl rfl⟩
    | ok c =>
      have hans := acceptLoad_unanswered haccept
      obtain ⟨hsettles, hwrites⟩ := (h.beginLoad hans).settleLoad (i := i) (c := c) (by simp [setLoad])
        hans (LoadContext.startLoad_unanswered hans)
      exact ⟨hsettles, hwrites.after rfl rfl⟩
  | save i request =>
    unfold Actor.runWaiter saveReady
    dsimp only
    cases haccept : accept (a.ready (.save i)).store.settings (env.arrival (.save i)) request with
    | error result => exact ⟨h.refused (.save result), .answered .refl rfl rfl⟩
    | ok c =>
      have hfresh := (accept_accepted haccept).fresh
      unfold Actor.enqueue
      dsimp only
      split
      · next hempty =>
        obtain ⟨hbegin, hq, hfirst⟩ := h.beginSave_empty hfresh hempty rfl
        obtain ⟨hstart, hwrites⟩ := hbegin.startQueue hq hfirst
        exact ⟨hstart, hwrites.after rfl rfl⟩
      · exact ⟨h.beginSave hfresh fun partition => queue_insert .., .silent .refl rfl rfl⟩

/-- **All deferred requests are looked at**, one after another. -/
lemma runWaiters {waiters} (h : a.Invariant waiters) :
    (waiters.foldl (Actor.runWaiter env) a).Invariant [] := by
  induction waiters generalizing a with
  | nil => exact h
  | cons w waiters ih => exact ih h.runWaiter.1

end Invariant

end Actor

end Caf.EntityStore.Sql
