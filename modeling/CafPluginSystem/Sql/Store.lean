import CafPluginSystem.Library.Journal
import CafPluginSystem.Library.Machine
import CafPluginSystem.Sql.Save

/-!
# The SQL entity store

The actor around the saves (`entity_store_actor` of `include/templates/sql_entity_store_actor.hpp`):
it checks a save and puts it into the queue of its partition, of which only the first save runs; when
that one is answered, the next one starts; and when the actor exits, it answers every save that is
still in a queue.

The events are what the actor reacts to.  Each carries what the clock says to every save, and whatever
the backend answers.

* `Queued`, `step_queued` — the queues hold exactly the saves that are not answered, and behind the
  first one only saves that have not started.
* `Preserves`, `step_forall` — what holds of every save and is kept by each handler holds of every
  save after an event.
* `commit_never_denied` — a save that has sent `COMMIT` is answered ok or commit-unknown, in every run
  in which the actor does not exit while such a save is between its attempts' `start_save` and `BEGIN`.
-/

namespace Caf.EntityStore.Sql

open DecimalText Database List Function Option
open Journal (update_eq_some)

variable {c₀ : SaveContext} {message : Message} {stage : Stage}

/-! ## The actor -/

/-- The members of `service_config` that saves depend on; `realText` prints a `double`. -/
structure ServiceConfig where
  catalog : SchemaCatalog
  saveRetryAttempts : ℕ := 3
  configError : Bytes := []
  realText : Double → Bytes := fun _ => []

/-- A result that a save is refused with. -/
def refuse {α : Type} (request : SaveRequest) (code : ResultCode) (error : Bytes) :
    Except SaveResult α :=
  .error (saveError request code error)

/-- A statement that the builder refuses makes the request invalid. -/
def orRefuse (request : SaveRequest) : Except Bytes Statement → Except SaveResult Unit
  | .error error => refuse request .invalidRequest error
  | .ok _ => .ok ()

/-- One iteration of the change loop of `save_ready`. -/
def checkChange (settings : ServiceConfig) (request : SaveRequest) (change : EntityPatch) :
    Except SaveResult EntitySchema :=
  match settings.catalog.findEntity change.target.store change.target.entity with
  | none => refuse request .invalidRequest (str "unknown entity: " ++ change.target.entity)
  | some schema => do
      orRefuse request (match change.operation with
        | .insert => StatementBuilder.insert schema change
        | .deleteEntity => StatementBuilder.deleteEntity schema change
        | _ => StatementBuilder.update schema change)
      if change.createIfMissing then orRefuse request (StatementBuilder.insert schema change)
      .ok schema

/-- The store that a request names in its first change. -/
def storeName (request : SaveRequest) : Bytes :=
  (request.changes.head?.map fun change => change.target.store).getD []

/-- What the registry and the clock say to `save_ready`: whether the write service is registered, and
whether the deadline has passed.  The clock is read again when the save starts. -/
structure Arrival where
  backend : Bool := true
  expired : Bool := false

/-- `save_ready` up to the queue. -/
def accept (settings : ServiceConfig) (arrival : Arrival) (request : SaveRequest) :
    Except SaveResult SaveContext :=
  if settings.configError ≠ [] then refuse request .invalidRequest settings.configError
  else if arrival.expired then
    refuse request .unavailable (str "save deadline expired while awaiting schema")
  else match validateSave request with
    | .error error => refuse request .invalidRequest error
    | .ok () =>
      if request.requestId.length > 255 then
        refuse request .invalidRequest (str "request_id exceeds 255 bytes")
      else match settings.catalog.findStore (storeName request) with
        | none => refuse request .invalidRequest (str "unknown entity store")
        | some store => do
            let schemas ← request.changes.mapM (checkChange settings request)
            if !arrival.backend then
              refuse request .unavailable (str "write service unavailable: " ++ store.writeService)
            else .ok {
              request
              store
              schemas
              partitionKey := store.name ++ 10 ::
                (request.changes.head?.map fun change => change.target.partition).getD []
              signature := requestSignature settings.realText request }

/-- The state of the actor.  Saves are numbered by the caller; `contexts` keeps the answered ones.
`address` is the part of the transaction keys that names the actor. -/
structure Store where
  address : Bytes
  settings : ServiceConfig
  nextTransactionKey : ℕ := 0
  queues : StringMap (List ℕ) := ∅
  contexts : ℕ → Option SaveContext := fun _ => none
  exited : Bool := false

/-- What the actor reacts to. -/
inductive Event where
  | save (i : ℕ) (request : SaveRequest) (arrival : Arrival) (clocks : ℕ → Clock)
  /-- The reply to the request that save `i` waits for, or the error of that request. -/
  | reply (i : ℕ) (reply : Except Bytes DbResult) (clocks : ℕ → Clock)
  | timer (i : ℕ) (backend : Bool) (clocks : ℕ → Clock)
  | exit

/-- The save waits for the backend. -/
def Stage.awaitsReply : Stage → Bool
  | .queued | .delayed => false
  | _ => true

namespace Store

/-- `transaction_key` of the next attempt. -/
def nextKey (s : Store) : Bytes := s.address ++ natText (s.nextTransactionKey + 1)

def setContext (s : Store) (i : ℕ) (c : SaveContext) : Store :=
  { s with contexts := Function.update s.contexts i (some c) }

/-- `start_save` for the first save of a queue.  One that is answered at once leaves the queue, and
the next one starts. -/
def startQueue (clocks : ℕ → Clock) (partition : Bytes) : List ℕ → Store → Store
  | [], s => { s with queues := s.queues.erase partition }
  | i :: rest, s =>
    match s.contexts i with
    | none => { s with queues := s.queues.insert partition (i :: rest) }
    | some c =>
      let next := c.startSave s.settings.saveRetryAttempts (clocks i) s.nextKey
      let s := { s.setContext i next.context with nextTransactionKey := s.nextTransactionKey + 1 }
      match next with
      | .waiting _ => { s with queues := s.queues.insert partition (i :: rest) }
      | .finished _ _ => startQueue clocks partition rest s

/-- The rest of a handler: the save waits, or `finish_save` answers it and goes on with its queue. -/
def settle (clocks : ℕ → Clock) (s : Store) (i : ℕ) (next : Next) : Store :=
  let s := s.setContext i next.context
  match next with
  | .waiting _ => s
  | .finished c _ =>
    match s.queues[c.partitionKey]? with
    | none => s
    | some queue =>
      s.startQueue clocks c.partitionKey (if queue.head? = some i then queue.tail else queue)

/-- `save_queues_[partition_key].push_back`, and `start_save` when the queue was empty. -/
def enqueue (clocks : ℕ → Clock) (s : Store) (i : ℕ) (c : SaveContext) : Store :=
  let s := s.setContext i c
  let queue := (s.queues[c.partitionKey]?).getD []
  if queue = [] then s.startQueue clocks c.partitionKey [i]
  else { s with queues := s.queues.insert c.partitionKey (queue ++ [i]) }

/-- The save is in its queue. -/
def inQueue (s : Store) (i : ℕ) (c : SaveContext) : Bool :=
  ((s.queues[c.partitionKey]?).getD []).contains i

/-- One event.  A save that is refused leaves nothing behind. -/
def step (s : Store) : Event → Option Store
  | .save i request arrival clocks =>
    if s.exited ∨ (s.contexts i).isSome then none
    else match accept s.settings arrival request with
      | .error _ => some s
      | .ok c => some (s.enqueue clocks i c)
  | .reply i reply clocks =>
    match s.contexts i with
    | none => none
    | some c =>
      if s.exited ∨ c.answer.isSome ∨ !c.stage.awaitsReply then none
      else some (s.settle clocks i (c.respond s.settings.saveRetryAttempts (clocks i) reply))
  | .timer i backend clocks =>
    match s.contexts i with
    | none => none
    | some c =>
      if s.exited ∨ c.answer.isSome ∨ c.stage ≠ .delayed then none
      else some ({ s with
          nextTransactionKey := s.nextTransactionKey + if backend then 1 else 0 }.settle clocks i
        (c.retry s.settings.saveRetryAttempts (clocks i) backend s.nextKey))
  | .exit =>
    if s.exited then none
    else some { s with
      exited := true
      queues := ∅
      contexts := fun i => (s.contexts i).map fun c =>
        if c.answer.isNone ∧ s.inQueue i c then c.exit else c }

end Store

/-! ## What a handler does to a save -/

/-- What every handler keeps, whatever it does: the save stays the save it is, and waits unanswered
or is answered. -/
structure Keeps (c : SaveContext) (n : Next) : Prop where
  same : SameSave c n.context
  waiting : ∀ c', n = .waiting c' → c'.answer = c.answer

variable {c : SaveContext}

lemma Abandoned.keeps {n} (h : Abandoned c n) : Keeps c n := by
  refine ⟨h.same, ?_⟩
  rintro c' rfl
  exact h.outcome.1

lemma Proceeds.keeps {n} (h : Proceeds c₀ n stage message) (hsame : SameSave c c₀) (hans : c₀.answer = c.answer) :
    Keeps c n := by
  refine ⟨hsame.trans h.same, ?_⟩
  rintro c' rfl
  exact h.answer.trans hans

namespace SaveContext

variable {attempts : ℕ} {clock : Clock} {c : SaveContext}

variable {n : Next}

lemma GoesOn.proceeds (h : GoesOn c n) : ∃ stage statement,
    (stage = .recording ∨ stage = .inserting ∨ stage = .changing) ∧
      Proceeds c n stage (.execute c.transaction statement) := by
  unfold GoesOn at h
  split at h
  · exact ⟨_, _, .inl rfl, h⟩
  · next change schema _ =>
    refine ⟨_, _, .inr ?_, h⟩
    unfold firstStage
    split
    · exact .inl rfl
    · exact .inr rfl

/-- The context from which a handler sends its next message: the save itself, further on in its
attempt. -/
structure Onward (c c₀ : SaveContext) : Prop where
  same : SameSave c c₀
  answer : c₀.answer = c.answer
  uncertain : c₀.commitUncertain = c.commitUncertain
  sent : c₀.sent = c.sent

lemma Onward.refl (c : SaveContext) : Onward c c := ⟨SameSave.refl c, rfl, rfl, rfl⟩

lemma onward_advance (version : UInt64) : Onward c (c.advance version) :=
  ⟨⟨rfl, rfl, rfl, rfl, rfl⟩, rfl, rfl, rfl⟩

/-- What a save waits for, after the message it sent last in an attempt that it has not given up. -/
structure Forward (stage : Stage) (message : Message) : Prop where
  awaits : stage.awaitsReply = true
  commit : ∀ t, message = .commit t → stage = .committing
  rolling : ∀ failed, stage ≠ .rollingBack failed
  replay : ∀ result, stage = .rollingBackReplay result → result.code = .ok

/-- **What a reply can lead to**: the attempt is given up, the save sends its next message, or it is
answered ok. -/
inductive Outcome (c : SaveContext) : Next → Prop
  | abandoned {n : Next} (h : Abandoned c n)
      (huncertain : c.stage = .committing → n.context.commitUncertain = true) : Outcome c n
  | proceeds {n : Next} {c₀ : SaveContext} {stage : Stage} {message : Message}
      (h : Proceeds c₀ n stage message) (hstage : c.stage ≠ .committing) (honward : Onward c c₀)
      (hforward : Forward stage message) : Outcome c n
  | answered {result : SaveResult}
      (hresult : result.code = .ok ∨ c.stage = .rollingBackReplay result) :
      Outcome c (.finished c result)

lemma Outcome.keeps (h : Outcome c n) : Keeps c n := by
  cases h with
  | abandoned h => exact h.keeps
  | proceeds h _ honward => exact h.keeps honward.same honward.answer
  | answered _ => exact ⟨⟨rfl, rfl, rfl, rfl, rfl⟩, fun c' h => by cases h⟩

/-- A statement inside the transaction is sent. -/
lemma Outcome.of_statement {statement}
    (h : Proceeds c₀ n stage (.execute c₀.transaction statement)) (hstage : c.stage ≠ .committing)
    (honward : Onward c c₀) (hawaits : stage.awaitsReply = true)
    (hrolling : ∀ failed, stage ≠ .rollingBack failed)
    (hreplay : ∀ result, stage ≠ .rollingBackReplay result) : Outcome c n :=
  .proceeds h hstage honward
    ⟨hawaits, by simp, hrolling, fun result hres => absurd hres (hreplay result)⟩

lemma Outcome.of_goesOn (h : GoesOn c₀ n) (hstage : c.stage ≠ .committing) (honward : Onward c c₀) : Outcome c n := by
  obtain ⟨stage, statement, hnext, h⟩ := h.proceeds
  refine .of_statement h hstage honward ?_ ?_ ?_
  · rcases hnext with rfl | rfl | rfl <;> rfl
  · rintro failed rfl
    rcases hnext with h | h | h <;> cases h
  · rintro result rfl
    rcases hnext with h | h | h <;> cases h

lemma Outcome.of_abandoned (hstage : c.stage ≠ .committing) (h : Abandoned c n) :
    Outcome c n :=
  .abandoned h fun hcommit => absurd hcommit hstage

/-- A request that fails gives up the attempt. -/
lemma respond_error (attempts : ℕ) (clock : Clock) (error : Bytes) (hawaits : c.stage.awaitsReply = true)
    (hfail : ∀ failed, c.stage = .rollingBack failed → failed.code ≠ .ok)
    (hreplay : ∀ result, c.stage ≠ .rollingBackReplay result) :
    Abandoned c (c.respond attempts clock (.error error)) := by
  unfold respond
  cases hstage : c.stage with
  | queued | delayed => simp [hstage, Stage.awaitsReply] at hawaits
  | rollingBack failed => exact retryOrFinish_abandoned (hfail failed hstage)
  | rollingBackReplay result => exact absurd hstage (hreplay result)
  | _ => exact failTransport_abandoned (by simp)

/-- **Every reply has such an outcome.** -/
lemma respond_outcome (hawaits : c.stage.awaitsReply = true)
    (hfail : ∀ failed, c.stage = .rollingBack failed → failed.code ≠ .ok)
    (reply : Except Bytes DbResult) : Outcome c (c.respond attempts clock reply) := by
  by_cases hcommit : c.stage = .committing
  · cases reply with
    | error error =>
      simp only [respond, hcommit]
      exact .abandoned (failTransport_abandoned (by simp)) fun _ => failTransport_uncertain
    | ok result =>
      simp only [respond, hcommit]
      rcases c.afterCommit_cases attempts clock result with ⟨h, hunc⟩ | ⟨-, h⟩
      · exact .abandoned h fun _ => hunc
      · rw [h]
        exact .answered (.inl rfl)
  by_cases hreplay : ∃ result, c.stage = .rollingBackReplay result
  · obtain ⟨result, hstage⟩ := hreplay
    simp only [respond, hstage]
    exact .answered (.inr hstage)
  cases reply with
  | error error =>
    exact .of_abandoned hcommit (respond_error attempts clock error hawaits hfail
      fun result hstage => hreplay ⟨result, hstage⟩)
  | ok result =>
    unfold respond
    cases hstage : c.stage with
    | queued | delayed => simp [hstage, Stage.awaitsReply] at hawaits
    | rollingBack failed =>
      exact .of_abandoned hcommit (retryOrFinish_abandoned (hfail failed hstage))
    | rollingBackReplay result => exact absurd ⟨result, hstage⟩ hreplay
    | committing => exact absurd hstage hcommit
    | creatingTable =>
      rcases c.afterTable_cases attempts clock result with h | h
      · exact .of_abandoned hcommit h
      · exact .proceeds h hcommit ⟨⟨rfl, rfl, rfl, rfl, rfl⟩, rfl, rfl, rfl⟩
          ⟨rfl, by simp, by simp, by simp⟩
    | beginning =>
      rcases c.afterBegin_cases attempts clock result with h | ⟨transaction, -, -, h⟩
      · exact .of_abandoned hcommit h
      · exact .of_statement h hcommit ⟨⟨rfl, rfl, rfl, rfl, rfl⟩, rfl, rfl, rfl⟩ rfl (by simp)
          (by simp)
    | reserving =>
      rcases c.afterReserve_cases attempts clock result with h | ⟨-, ⟨-, h⟩ | ⟨-, h⟩⟩
      · exact .of_abandoned hcommit h
      · exact .of_statement h hcommit (.refl c) rfl (by simp) (by simp)
      · exact .of_goesOn h hcommit (.refl c)
    | replaying =>
      rcases c.afterReplay_cases attempts clock result with h | ⟨data, versions, -, -, -, h⟩
      · exact .of_abandoned hcommit h
      · refine .proceeds h hcommit (.refl c) ⟨rfl, by simp, by simp, ?_⟩
        rintro result hres
        cases hres
        rfl
    | changing =>
      dsimp only
      cases hchg : c.change? with
      | none =>
        unfold afterChange
        split
        · exact .of_abandoned hcommit (failDatabase_abandoned (by simp) _)
        · rw [hchg]
          exact .of_statement (send_proceeds _ _) hcommit (.refl c) rfl (by simp) (by simp)
      | some pair =>
        rcases c.afterChange_cases attempts clock result hchg with
          h | ⟨-, ⟨-, -, h⟩ | ⟨-, -, h⟩ | ⟨-, -, h⟩ | ⟨-, -, h⟩⟩
        · exact .of_abandoned hcommit h
        · exact .of_goesOn h hcommit (onward_advance 0)
        · exact .of_statement h hcommit (.refl c) rfl (by simp) (by simp)
        · exact .of_statement h hcommit (.refl c) rfl (by simp) (by simp)
        · exact .of_statement h hcommit (.refl c) rfl (by simp) (by simp)
    | checking => exact .of_abandoned hcommit (c.afterCheck_abandoned attempts clock result)
    | inserting =>
      dsimp only
      cases hchg : c.change? with
      | none =>
        unfold afterInsert loadChangeVersion
        split
        · exact .of_abandoned hcommit (failDatabase_abandoned (by simp) _)
        · rw [hchg]
          exact .of_statement (send_proceeds _ _) hcommit (.refl c) rfl (by simp) (by simp)
      | some pair =>
        rcases c.afterInsert_cases attempts clock result hchg with h | ⟨-, -, h⟩
        · exact .of_abandoned hcommit h
        · exact .of_statement h hcommit (.refl c) rfl (by simp) (by simp)
    | readingVersion =>
      rcases c.afterVersion_cases attempts clock result with h | ⟨version, -, -, h⟩
      · exact .of_abandoned hcommit h
      · exact .of_goesOn h hcommit (onward_advance version)
    | recording =>
      rcases c.afterRecord_cases attempts clock result with h | ⟨-, -, h⟩
      · exact .of_abandoned hcommit h
      · exact .proceeds h hcommit (.refl c) ⟨rfl, fun _ _ => rfl, by simp, by simp⟩

lemma respond_keeps (c : SaveContext) (attempts : ℕ) (clock : Clock) (reply : Except Bytes DbResult) :
    Keeps c (c.respond attempts clock reply) := by
  by_cases hawaits : c.stage.awaitsReply = true
  · by_cases hfail : ∃ failed, c.stage = .rollingBack failed
    · obtain ⟨failed, hstage⟩ := hfail
      unfold respond
      rw [hstage]
      dsimp only
      unfold retryOrFinish
      by_cases hfinish : !c.retryRequested ∨ c.attempt ≥ attempts ∨ clock.late
      · simp only [if_pos hfinish]
        exact ⟨⟨rfl, rfl, rfl, rfl, rfl⟩, fun c' h => by cases h⟩
      · simp only [if_neg hfinish]
        exact ⟨⟨rfl, rfl, rfl, rfl, rfl⟩, fun c' h => by cases h; rfl⟩
    · exact (respond_outcome hawaits (fun failed h => absurd ⟨failed, h⟩ hfail) reply).keeps
  · have hwaits : c.respond attempts clock reply = .waiting c := by
      unfold respond
      cases hstage : c.stage with
      | queued | delayed => rfl
      | _ => simp [hstage, Stage.awaitsReply] at hawaits
    rw [hwaits]
    exact ⟨SameSave.refl c, fun c' h => by cases h; rfl⟩

lemma startSave_keeps (c : SaveContext) (attempts : ℕ) (clock : Clock) (key : Bytes) :
    Keeps c (c.startSave attempts clock key) := by
  rcases c.startSave_cases attempts clock key with h | h
  · exact ⟨⟨h.same.request, h.same.store, h.same.schemas, h.same.partitionKey, h.same.signature⟩,
      h.keeps.waiting⟩
  · exact h.keeps ⟨rfl, rfl, rfl, rfl, rfl⟩ rfl

lemma retry_cases (c : SaveContext) (attempts : ℕ) (clock : Clock) (backend : Bool) (key : Bytes) :
    Abandoned c (c.retry attempts clock backend key) ∨
      backend = true ∧ c.retry attempts clock backend key = c.startSave attempts clock key := by
  unfold retry
  cases backend with
  | true => exact .inr ⟨rfl, rfl⟩
  | false => exact .inl (Abandoned.of_progress (retryOrFinish_abandoned (by simp [saveError])))

lemma retry_keeps (c : SaveContext) (attempts : ℕ) (clock : Clock) (backend : Bool) (key : Bytes) :
    Keeps c (c.retry attempts clock backend key) := by
  rcases c.retry_cases attempts clock backend key with h | ⟨-, h⟩
  · exact h.keeps
  · rw [h]
    exact c.startSave_keeps attempts clock key

end SaveContext

/-! ## The queues -/

/-- A save that has not started. -/
structure SaveContext.Fresh (c : SaveContext) : Prop where
  stage : c.stage = .queued
  sent : c.sent = []
  answer : c.answer = none
  uncertain : c.commitUncertain = false

/-- What is known of a save when it enters its queue. -/
structure Accepted (settings : ServiceConfig) (request : SaveRequest) (c : SaveContext) : Prop where
  signature : c.signature = requestSignature settings.realText request
  fresh : c.Fresh
  valid : validateSave request = .ok ()
  store : settings.catalog.findStore (storeName request) = some c.store
  schemas : request.changes.mapM (checkChange settings request) = .ok c.schemas
  request : c.request = request

lemma accept_accepted {settings arrival request} (h : accept settings arrival request = .ok c) :
    Accepted settings request c := by
  unfold accept refuse at h
  split at h
  · cases h
  split at h
  · cases h
  split at h
  · cases h
  next hval =>
    split at h
    · cases h
    split at h
    · cases h
    next store hstore =>
      rw [Fallible.bind_eq_ok] at h
      obtain ⟨schemas, hschemas, h⟩ := h
      split at h
      · cases h
      cases h
      exact ⟨rfl, ⟨rfl, rfl, rfl, rfl⟩, hval, hstore, hschemas, rfl⟩

/-- A queue holds the saves of its partition that are not answered, each once; those behind the first
have not started. -/
structure QueueOf (contexts : ℕ → Option SaveContext) (partition : Bytes) (queue : List ℕ) : Prop where
  nodup : queue.Nodup
  entries : ∀ i ∈ queue, ∃ c, contexts i = some c ∧ c.partitionKey = partition ∧ c.answer = none
  members : ∀ i c, contexts i = some c → c.partitionKey = partition → c.answer = none → i ∈ queue
  fresh : ∀ i ∈ queue.tail, ∀ c, contexts i = some c → c.Fresh

/-- The queue of a partition; there is none when it would be empty. -/
def Store.queueOf (s : Store) (partition : Bytes) : List ℕ := (s.queues[partition]?).getD []

/-- The invariant of the queues. -/
def Store.Queued (s : Store) : Prop := ∀ partition, QueueOf s.contexts partition (s.queueOf partition)

namespace QueueOf

variable {contexts : ℕ → Option SaveContext} {partition : Bytes} {queue : List ℕ}

variable {i : ℕ} {c : SaveContext}
variable {rest : List ℕ}

/-- A save of another partition does not matter. -/
lemma update_other (h : QueueOf contexts partition queue) (hnew : c.partitionKey ≠ partition)
    (hold : ∀ c₀, contexts i = some c₀ → c₀.partitionKey ≠ partition) :
    QueueOf (update contexts i (some c)) partition queue := by
  have hne : ∀ j ∈ queue, j ≠ i := by
    rintro j hj rfl
    obtain ⟨c₀, hc₀, hpart, -⟩ := h.entries j hj
    exact hold c₀ hc₀ hpart
  refine ⟨h.nodup, fun j hj => ?_, fun j c' hc' hpart hans => ?_, fun j hj c' hc' => ?_⟩
  · rw [update_of_ne (hne j hj)]
    exact h.entries j hj
  · rcases update_eq_some.mp hc' with ⟨-, rfl⟩ | ⟨-, hc'⟩
    · exact absurd hpart hnew
    · exact h.members j c' hc' hpart hans
  · rw [update_of_ne (hne j (mem_of_mem_tail hj))] at hc'
    exact h.fresh j hj c' hc'

/-- The first save of the queue goes on waiting. -/
lemma update_head (h : QueueOf contexts partition (i :: rest))
    (hpart : c.partitionKey = partition) (hans : c.answer = none) :
    QueueOf (update contexts i (some c)) partition (i :: rest) := by
  obtain ⟨hi, -⟩ := nodup_cons.mp h.nodup
  refine ⟨h.nodup, fun j hj => ?_, fun j c' hc' hp ha => ?_, fun j hj c' hc' => ?_⟩
  · by_cases heq : j = i
    · subst heq
      exact ⟨c, by simp, hpart, hans⟩
    · rw [update_of_ne heq]
      exact h.entries j hj
  · rcases update_eq_some.mp hc' with ⟨rfl, -⟩ | ⟨-, hc'⟩
    · simp
    · exact h.members j c' hc' hp ha
  · rcases update_eq_some.mp hc' with ⟨rfl, -⟩ | ⟨-, hc'⟩
    · exact absurd hj hi
    · exact h.fresh j hj c' hc'

/-- The first save of the queue is answered and leaves it. -/
lemma pop (h : QueueOf contexts partition (i :: rest)) (hans : c.answer ≠ none) :
    QueueOf (update contexts i (some c)) partition rest ∧
      ∀ j ∈ rest, ∀ c', update contexts i (some c) j = some c' → c'.Fresh := by
  obtain ⟨hi, hnodup⟩ := nodup_cons.mp h.nodup
  have hne : ∀ j ∈ rest, j ≠ i := by
    rintro j hj rfl
    exact hi hj
  have hfresh : ∀ j ∈ rest, ∀ c', update contexts i (some c) j = some c' → c'.Fresh := by
    intro j hj c' hc'
    rcases update_eq_some.mp hc' with ⟨rfl, -⟩ | ⟨-, hc'⟩
    · exact absurd hj hi
    · exact h.fresh j hj c' hc'
  refine ⟨⟨hnodup, fun j hj => ?_, fun j c' hc' hp ha => ?_,
    fun j hj => hfresh j (mem_of_mem_tail hj)⟩, hfresh⟩
  · rw [update_of_ne (hne j hj)]
    exact h.entries j (by simp [hj])
  · rcases update_eq_some.mp hc' with ⟨-, rfl⟩ | ⟨hne, hc'⟩
    · exact absurd ha hans
    · exact (mem_cons.mp (h.members j c' hc' hp ha)).resolve_left hne

/-- A new save goes to the end of the queue. -/
lemma push (h : QueueOf contexts partition queue)
    (hnone : contexts i = none) (hpart : c.partitionKey = partition) (hfresh : c.Fresh) :
    QueueOf (update contexts i (some c)) partition (queue ++ [i]) := by
  have hne : ∀ j ∈ queue, j ≠ i := by
    rintro j hj rfl
    obtain ⟨c₀, hc₀, -⟩ := h.entries j hj
    simp [hnone] at hc₀
  refine ⟨?_, fun j hj => ?_, fun j c' hc' hp ha => ?_, fun j hj c' hc' => ?_⟩
  · rw [nodup_append]
    exact ⟨h.nodup, by simp, fun a ha b hb => by simpa [mem_singleton.mp hb] using hne a ha⟩
  · rcases mem_append.mp hj with hj | hj
    · rw [update_of_ne (hne j hj)]
      exact h.entries j hj
    · obtain rfl := mem_singleton.mp hj
      exact ⟨c, by simp, hpart, hfresh.answer⟩
  · rcases update_eq_some.mp hc' with ⟨rfl, -⟩ | ⟨-, hc'⟩
    · simp
    · exact mem_append_left _ (h.members j c' hc' hp ha)
  · rcases update_eq_some.mp hc' with ⟨-, rfl⟩ | ⟨heq, hc'⟩
    · exact hfresh
    · have hmem : j ∈ queue.tail := by
        cases queue with
        | nil => simp at hj
        | cons first rest =>
          rcases mem_append.mp (show j ∈ rest ++ [i] from hj) with hj | hj
          · exact hj
          · exact absurd (mem_singleton.mp hj) heq
      exact h.fresh j hmem c' hc'

end QueueOf

namespace Store

variable {s : Store} {clocks : ℕ → Clock} {partition : Bytes} {queue : List ℕ} {i : ℕ}

lemma queueOf_insert {t : Store} (p : Bytes) (h : t.queues = s.queues.insert partition queue) :
    t.queueOf p = if partition = p then queue else s.queueOf p := by
  rw [queueOf, queueOf, h, Std.ExtTreeMap.getElem?_insert]
  by_cases h : partition = p
  · simp [h]
  · simp [h]

lemma queueOf_erase {t : Store} (p : Bytes) (h : t.queues = s.queues.erase partition) :
    t.queueOf p = if partition = p then [] else s.queueOf p := by
  rw [queueOf, queueOf, h, Std.ExtTreeMap.getElem?_erase]
  by_cases h : partition = p
  · simp [h]
  · simp [h]

/-- `start_save` for the first of a queue of saves that have not started.  The induction follows the
queue: a save that is answered at once leaves it. -/
lemma startQueue_queued (hq : QueueOf s.contexts partition queue)
    (hfresh : ∀ j ∈ queue, ∀ c, s.contexts j = some c → c.Fresh)
    (hoth : ∀ p, p ≠ partition → QueueOf s.contexts p (s.queueOf p)) :
    (s.startQueue clocks partition queue).Queued := by
  induction queue generalizing s with
  | nil =>
    intro p
    rw [startQueue, queueOf_erase p rfl]
    by_cases h : partition = p
    · rw [if_pos h]
      exact h ▸ hq
    · rw [if_neg h]
      exact hoth p (Ne.symm h)
  | cons i rest ih =>
    obtain ⟨c, hc, hpart, hans⟩ := hq.entries i (by simp)
    have hkeeps := c.startSave_keeps s.settings.saveRetryAttempts (clocks i) s.nextKey
    have hsame := hkeeps.same.partitionKey.trans hpart
    -- the context of this save changes, and no queue of another partition
    have hoth' : ∀ p, p ≠ partition → ∀ c', c'.partitionKey = partition →
        QueueOf (update s.contexts i (some c')) p (s.queueOf p) := by
      intro p hp c' hc'
      refine (hoth p hp).update_other (hc' ▸ Ne.symm hp) fun c₀ hc₀ => ?_
      rw [hc, some.injEq] at hc₀
      exact hc₀ ▸ hpart ▸ Ne.symm hp
    rw [startQueue, hc]
    dsimp only
    cases hnext : c.startSave s.settings.saveRetryAttempts (clocks i) s.nextKey with
    | waiting c' =>
      rw [hnext] at hkeeps hsame
      intro p
      rw [queueOf_insert (s := s) p rfl]
      by_cases h : partition = p
      · rw [if_pos h]
        exact h ▸ hq.update_head hsame ((hkeeps.waiting c' rfl).trans hans)
      · rw [if_neg h]
        exact hoth' p (Ne.symm h) c' hsame
    | finished c' result =>
      rw [hnext] at hsame
      obtain ⟨hrest, hfresh'⟩ := hq.pop (c := (Next.finished c' result).context) (by
        simp [Next.context])
      exact ih hrest hfresh' fun p hp => hoth' p hp _ hsame

variable {c : SaveContext} {n : Next} {e : Event} {s' : Store} {P : ℕ → SaveContext → Prop}

section

variable (h : s.Queued) (hc : s.contexts i = some c) (hans : c.answer = none)
  (hstart : c.stage ≠ .queued)
include h hc hans hstart

/-- A save that has started and is not answered is the first of its queue. -/
lemma Queued.head :
    ∃ rest, s.queueOf c.partitionKey = i :: rest := by
  have hmem := (h c.partitionKey).members i c hc rfl hans
  cases hq : s.queueOf c.partitionKey with
  | nil => simp [hq] at hmem
  | cons first rest =>
    rw [hq] at hmem
    rcases mem_cons.mp hmem with heq | hrest
    · exact ⟨rest, heq ▸ rfl⟩
    · have hfresh := (h c.partitionKey).fresh i (by simpa [hq] using hrest) c hc
      exact absurd hfresh.stage hstart

lemma settle_queued (hkeeps : Keeps c n) :
    (s.settle clocks i n).Queued := by
  obtain ⟨rest, hq⟩ := h.head hc hans hstart
  have hpart := h c.partitionKey
  rw [hq] at hpart
  have hsame := hkeeps.same.partitionKey
  have hoth : ∀ p, p ≠ c.partitionKey →
      QueueOf (s.setContext i n.context).contexts p (s.queueOf p) := by
    intro p hp
    refine (h p).update_other (hsame ▸ Ne.symm hp) fun c₀ hc₀ => ?_
    rw [hc, some.injEq] at hc₀
    exact hc₀ ▸ Ne.symm hp
  cases n with
  | waiting c' =>
    intro p
    by_cases hp : p = c.partitionKey
    · have hhead := hpart.update_head hsame ((hkeeps.waiting c' rfl).trans hans)
      rw [← hq, ← hp] at hhead
      exact hhead
    · exact hoth p hp
  | finished c' result =>
    have hqueues : (s.setContext i (Next.finished c' result).context).queues[c'.partitionKey]? =
        some (i :: rest) := by
      rw [show c'.partitionKey = c.partitionKey from hsame]
      unfold queueOf at hq
      cases hget : s.queues[c.partitionKey]? with
      | none => simp [hget] at hq
      | some queue => simpa [hget, setContext] using hq
    obtain ⟨hrest, hfresh⟩ := hpart.pop (c := (Next.finished c' result).context) (by
      simp [Next.context])
    unfold settle
    dsimp only
    rw [hqueues]
    dsimp only
    rw [if_pos head?_cons, tail_cons, show c'.partitionKey = c.partitionKey from hsame]
    exact startQueue_queued hrest hfresh hoth

end

lemma enqueue_queued (h : s.Queued) (hnone : s.contexts i = none)
    (hfresh : c.Fresh) : (s.enqueue clocks i c).Queued := by
  have hpush := (h c.partitionKey).push hnone rfl hfresh
  have hoth : ∀ p, p ≠ c.partitionKey →
      QueueOf (s.setContext i c).contexts p (s.queueOf p) := fun p hp =>
    (h p).update_other (Ne.symm hp) fun c₀ hc₀ => by simp [hnone] at hc₀
  unfold enqueue
  dsimp only
  change (if s.queueOf c.partitionKey = [] then _ else _ : Store).Queued
  split
  · next hempty =>
    rw [hempty, nil_append] at hpush
    refine startQueue_queued hpush (fun j hj c' hc' => ?_) hoth
    obtain rfl := mem_singleton.mp hj
    have heq : c = c' := by simpa [setContext] using hc'
    exact heq ▸ hfresh
  · intro p
    rw [queueOf_insert (s := s) p rfl]
    by_cases hp : c.partitionKey = p
    · rw [if_pos hp]
      exact hp ▸ hpush
    · rw [if_neg hp]
      exact hoth p (Ne.symm hp)

/-- Exiting answers every save that is not answered. -/
lemma exit_answered (h : s.Queued) {contexts} (hctxs : contexts = fun i => (s.contexts i).map fun c =>
      if c.answer.isNone ∧ s.inQueue i c then c.exit else c)
    (hc : contexts i = some c) : c.answer ≠ none := by
  subst hctxs
  obtain ⟨c₀, hc₀, rfl⟩ := map_eq_some_iff.mp hc
  split
  · simp [SaveContext.exit]
  · next hkept =>
    intro hans
    refine hkept ⟨by simp [hans], ?_⟩
    have hmem := (h c₀.partitionKey).members i c₀ hc₀ rfl hans
    simpa [inQueue, queueOf] using hmem

/-- What one event can do. -/
inductive Steps (s : Store) : Event → Store → Prop
  | refused {i : ℕ} {request : SaveRequest} {arrival : Arrival} {clocks : ℕ → Clock} :
      Steps s (.save i request arrival clocks) s
  | accepted {i : ℕ} {request : SaveRequest} {arrival : Arrival} {clocks : ℕ → Clock} {c : SaveContext}
      (hnone : s.contexts i = none) (haccepted : Accepted s.settings request c) :
      Steps s (.save i request arrival clocks) (s.enqueue clocks i c)
  | replied {i : ℕ} {reply : Except Bytes DbResult} {clocks : ℕ → Clock} {c : SaveContext}
      (hc : s.contexts i = some c) (hanswer : c.answer = none) (hawaits : c.stage.awaitsReply = true) :
      Steps s (.reply i reply clocks)
        (s.settle clocks i (c.respond s.settings.saveRetryAttempts (clocks i) reply))
  | retried {i : ℕ} {backend : Bool} {clocks : ℕ → Clock} {c : SaveContext}
      (hc : s.contexts i = some c) (hanswer : c.answer = none) (hdelayed : c.stage = .delayed) :
      Steps s (.timer i backend clocks)
        ({ s with nextTransactionKey := s.nextTransactionKey + if backend then 1 else 0 }.settle clocks i
          (c.retry s.settings.saveRetryAttempts (clocks i) backend s.nextKey))
  | exited : Steps s .exit { s with
      exited := true
      queues := ∅
      contexts := fun i => (s.contexts i).map fun c =>
        if c.answer.isNone ∧ s.inQueue i c then c.exit else c }

lemma step_cases (h : s.step e = some s') : Steps s e s' := by
  cases e with
  | save i request arrival clocks =>
    simp only [step] at h
    split at h
    · cases h
    · next hnew =>
      rw [not_or] at hnew
      split at h
      · cases h
        exact .refused
      · next c haccept =>
        cases h
        exact .accepted (by simpa using hnew.2) (accept_accepted haccept)
  | reply i reply clocks =>
    simp only [step] at h
    split at h
    · cases h
    · next c hc =>
      split at h
      · cases h
      · next hwaits =>
        cases h
        rw [not_or, not_or] at hwaits
        exact .replied hc (by simpa using hwaits.2.1) (by simpa using hwaits.2.2)
  | timer i backend clocks =>
    simp only [step] at h
    split at h
    · cases h
    · next c hc =>
      split at h
      · cases h
      · next hwaits =>
        cases h
        rw [not_or, not_or, not_not] at hwaits
        exact .retried hc (by simpa using hwaits.2.1) hwaits.2.2
  | exit =>
    simp only [step] at h
    split at h
    · cases h
    · cases h
      exact .exited

/-- **One event keeps the queues.** -/
theorem step_queued (h : s.Queued) (hstep : s.step e = some s') :
    s'.Queued := by
  cases step_cases hstep with
  | refused => exact h
  | accepted hnone hacc => exact enqueue_queued h hnone hacc.fresh
  | @replied i reply clocks c hc hans hawaits =>
    refine settle_queued h hc hans (fun hstage => ?_) (c.respond_keeps _ _ reply)
    simp [hstage, Stage.awaitsReply] at hawaits
  | @retried i backend clocks c hc hans hdelay =>
    refine settle_queued (s := { s with
      nextTransactionKey := s.nextTransactionKey + if backend then 1 else 0 }) h hc hans ?_
      (c.retry_keeps _ _ backend _)
    simp [hdelay]
  | exited =>
    intro p
    refine ⟨?_, ?_, fun i c hc _ hans => absurd hans (exit_answered h rfl hc), ?_⟩
    · simp [queueOf]
    · simp [queueOf]
    · simp [queueOf]

/-- Each handler keeps `P`, in this event. -/
structure Preserves (s : Store) (e : Event) (P : ℕ → SaveContext → Prop) : Prop where
  accepted : ∀ i request arrival clocks c, e = .save i request arrival clocks →
    s.contexts i = none → Accepted s.settings request c → P i c
  started : ∀ i c clock key, c.Fresh → P i c →
    P i (c.startSave s.settings.saveRetryAttempts clock key).context
  replied : ∀ i reply clocks c, e = .reply i reply clocks → s.contexts i = some c → c.answer = none →
    c.stage.awaitsReply = true → P i c →
    P i (c.respond s.settings.saveRetryAttempts (clocks i) reply).context
  retried : ∀ i backend clocks c, e = .timer i backend clocks → s.contexts i = some c →
    c.answer = none → c.stage = .delayed → P i c →
    P i (c.retry s.settings.saveRetryAttempts (clocks i) backend s.nextKey).context
  exited : ∀ i c, e = .exit → s.contexts i = some c → c.answer = none → P i c → P i c.exit

/-- Every save has `P`. -/
def Forall (s : Store) (P : ℕ → SaveContext → Prop) : Prop := ∀ i c, s.contexts i = some c → P i c

lemma Forall.setContext (h : s.Forall P) (hc : P i c) :
    (s.setContext i c).Forall P := by
  intro j c' hc'
  rcases update_eq_some.mp hc' with ⟨rfl, rfl⟩ | ⟨-, hc'⟩
  · exact hc
  · exact h j c' hc'

/-- A list of distinct saves that have not started. -/
def AllFresh (s : Store) (queue : List ℕ) : Prop :=
  queue.Nodup ∧ ∀ j ∈ queue, ∀ c, s.contexts j = some c → c.Fresh

lemma AllFresh.setContext (h : s.AllFresh queue) (hi : i ∉ queue) (c : SaveContext) :
    (s.setContext i c).AllFresh queue := by
  refine ⟨h.1, fun j hj c' hc' => ?_⟩
  rcases update_eq_some.mp hc' with ⟨rfl, -⟩ | ⟨-, hc'⟩
  · exact absurd hj hi
  · exact h.2 j hj c' hc'

lemma startQueue_forall (h : s.Forall P) (hfresh : s.AllFresh queue) (hstart : ∀ i c clock key, c.Fresh → P i c →
      P i (c.startSave s.settings.saveRetryAttempts clock key).context) :
    (s.startQueue clocks partition queue).Forall P := by
  induction queue generalizing s with
  | nil => exact h
  | cons i rest ih =>
    rw [startQueue]
    cases hc : s.contexts i with
    | none => exact h
    | some c =>
      dsimp only
      have hset := h.setContext (hstart i c (clocks i) s.nextKey (hfresh.2 i (by simp) c hc)
        (h i c hc))
      cases hnext : c.startSave s.settings.saveRetryAttempts (clocks i) s.nextKey with
      | waiting c' =>
        rw [hnext] at hset
        exact hset
      | finished c' result =>
        rw [hnext] at hset
        refine ih (s := { s.setContext i (Next.finished c' result).context with
          nextTransactionKey := s.nextTransactionKey + 1 }) hset ?_ hstart
        obtain ⟨hi, hnodup⟩ := nodup_cons.mp hfresh.1
        have hrest : s.AllFresh rest := ⟨hnodup, fun j hj => hfresh.2 j (by simp [hj])⟩
        exact hrest.setContext hi _

lemma settle_forall (hqueued : s.Queued) (h : s.Forall P) (hc : s.contexts i = some c) (hans : c.answer = none)
    (hstarted : c.stage ≠ .queued) (hsame : SameSave c n.context) (hn : P i n.context)
    (hstart : ∀ i c clock key, c.Fresh → P i c →
      P i (c.startSave s.settings.saveRetryAttempts clock key).context) :
    (s.settle clocks i n).Forall P := by
  have hset := h.setContext hn
  cases n with
  | waiting c' => exact hset
  | finished c' result =>
    unfold settle
    dsimp only
    split
    · exact hset
    · next queue hq =>
      obtain ⟨rest, hhead⟩ := hqueued.head hc hans hstarted
      have hq : queue = i :: rest := by
        rw [show c'.partitionKey = c.partitionKey from hsame.partitionKey] at hq
        rw [← hhead, queueOf, show s.queues[c.partitionKey]? = some queue from hq]
        rfl
      subst hq
      have hpart := hqueued c.partitionKey
      rw [hhead] at hpart
      obtain ⟨hi, hnodup⟩ := nodup_cons.mp hpart.nodup
      have hrest : s.AllFresh rest := ⟨hnodup, hpart.fresh⟩
      rw [if_pos head?_cons]
      exact startQueue_forall hset (hrest.setContext hi _) hstart

lemma enqueue_forall (h : s.Forall P) (hfresh : c.Fresh) (hc : P i c) (hstart : ∀ i c clock key, c.Fresh → P i c →
      P i (c.startSave s.settings.saveRetryAttempts clock key).context) :
    (s.enqueue clocks i c).Forall P := by
  have hset := h.setContext hc
  unfold enqueue
  dsimp only
  split
  · refine startQueue_forall hset ⟨nodup_singleton i, fun j hj c' hc' => ?_⟩ hstart
    obtain rfl := mem_singleton.mp hj
    have heq : c = c' := by simpa [setContext] using hc'
    exact heq ▸ hfresh
  · exact hset

/-- **What each handler keeps, an event keeps for every save.** -/
theorem step_forall (hqueued : s.Queued)
    (hstep : s.step e = some s') (h : s.Forall P) (hkeeps : Preserves s e P) : s'.Forall P := by
  cases step_cases hstep with
  | refused => exact h
  | accepted hnone hacc =>
    exact enqueue_forall h hacc.fresh (hkeeps.accepted _ _ _ _ _ rfl hnone hacc)
      hkeeps.started
  | @replied i reply clocks c hc hans hawaits =>
    refine settle_forall hqueued h hc hans (fun hstage => ?_) (c.respond_keeps _ _ reply).same
      (hkeeps.replied i reply clocks c rfl hc hans hawaits (h i c hc)) hkeeps.started
    simp [hstage, Stage.awaitsReply] at hawaits
  | @retried i backend clocks c hc hans hdelay =>
    refine settle_forall (s := { s with
      nextTransactionKey := s.nextTransactionKey + if backend then 1 else 0 }) hqueued h hc hans
      (by simp [hdelay]) (c.retry_keeps _ _ backend _).same
      (hkeeps.retried i backend clocks c rfl hc hans hdelay (h i c hc)) hkeeps.started
  | exited =>
    intro i c hc
    obtain ⟨c₀, hc₀, rfl⟩ := map_eq_some_iff.mp hc
    split
    · next hexits => exact hkeeps.exited i c₀ rfl hc₀ (by simpa using hexits.1) (h i c₀ hc₀)
    · exact h i c₀ hc₀

/-- Every save of `s` is there in `s'`, as the save it was. -/
def Persists (s s' : Store) : Prop :=
  ∀ i c, s.contexts i = some c → ∃ c', s'.contexts i = some c' ∧ SameSave c c'

lemma Persists.refl (s : Store) : s.Persists s := fun _ c hc => ⟨c, hc, .refl c⟩

lemma Persists.trans {s''} (h : s.Persists s') (h' : s'.Persists s'') : s.Persists s'' := by
  intro i c hc
  obtain ⟨c', hc', hsame⟩ := h i c hc
  obtain ⟨c'', hc'', hsame'⟩ := h' i c' hc'
  exact ⟨c'', hc'', hsame.trans hsame'⟩

lemma setContext_persists {c'} (h : ∀ c, s.contexts i = some c → SameSave c c') :
    s.Persists (s.setContext i c') := by
  intro j c hc
  by_cases heq : j = i
  · subst heq
    exact ⟨c', by simp [setContext], h c hc⟩
  · exact ⟨c, by simpa [setContext, heq] using hc, .refl c⟩

lemma startQueue_persists : s.Persists (s.startQueue clocks partition queue) := by
  induction queue generalizing s with
  | nil => exact fun _ c hc => ⟨c, hc, .refl c⟩
  | cons i rest ih =>
    rw [startQueue]
    cases hc : s.contexts i with
    | none => exact fun _ c hc => ⟨c, hc, .refl c⟩
    | some c =>
      dsimp only
      have hset : s.Persists (s.setContext i
          (c.startSave s.settings.saveRetryAttempts (clocks i) s.nextKey).context) := by
        refine setContext_persists fun c₀ hc₀ => ?_
        obtain rfl : c = c₀ := some.inj (hc.symm.trans hc₀)
        exact (c.startSave_keeps _ _ _).same
      cases hnext : c.startSave s.settings.saveRetryAttempts (clocks i) s.nextKey with
      | waiting c' =>
        rw [hnext] at hset
        exact hset
      | finished c' result =>
        rw [hnext] at hset
        exact hset.trans (ih (s := { s.setContext i (Next.finished c' result).context with
          nextTransactionKey := s.nextTransactionKey + 1 }))

lemma settle_persists (hc : s.contexts i = some c)
    (hsame : SameSave c n.context) : s.Persists (s.settle clocks i n) := by
  have hset : s.Persists (s.setContext i n.context) := by
    refine setContext_persists fun c₀ hc₀ => ?_
    obtain rfl : c = c₀ := some.inj (hc.symm.trans hc₀)
    exact hsame
  cases n with
  | waiting c' => exact hset
  | finished c' result =>
    unfold settle
    dsimp only
    split
    · exact hset
    · exact hset.trans startQueue_persists

/-- **A save stays what it is**, whatever happens. -/
theorem step_persists (hstep : s.step e = some s') : s.Persists s' := by
  cases step_cases hstep with
  | refused => exact .refl s
  | @accepted i request arrival clocks c hnone hacc =>
    have hset : s.Persists (s.setContext i c) :=
      setContext_persists fun c₀ hc₀ => by simp [hnone] at hc₀
    unfold enqueue
    dsimp only
    split
    · exact hset.trans startQueue_persists
    · exact hset
  | @replied i reply clocks c hc hans hawaits =>
    exact settle_persists hc (c.respond_keeps _ _ reply).same
  | @retried i backend clocks c hc hans hdelay =>
    exact settle_persists (s := { s with
      nextTransactionKey := s.nextTransactionKey + if backend then 1 else 0 }) hc
      (c.retry_keeps _ _ backend _).same
  | exited =>
    intro i c hc
    refine ⟨if c.answer.isNone ∧ s.inQueue i c then c.exit else c, ?_, ?_⟩
    · simp [hc]
    · split
      · exact ⟨rfl, rfl, rfl, rfl, rfl⟩
      · exact .refl c

end Store

/-! ## Commits are never denied -/

namespace SaveContext

/-- `COMMIT` was sent in some attempt. -/
def CommitSent (c : SaveContext) : Prop := ∃ transaction, .commit transaction ∈ c.sent

/-- What an unanswered save knows about its commits: where one was sent, it waits for the reply or is
uncertain. -/
structure Pending (c : SaveContext) : Prop where
  failed : ∀ failed, c.stage = .rollingBack failed → failed.code ≠ .ok
  replayed : ∀ result, c.stage = .rollingBackReplay result → result.code = .ok
  commit : c.CommitSent → c.stage = .committing ∨ c.commitUncertain = true

/-- The save does not deny a commit. -/
def Honest (c : SaveContext) : Prop :=
  match c.answer with
  | none => c.Pending
  | some result => c.CommitSent → result.code = .ok ∨ result.code = .commitUnknown

variable {c : SaveContext}

lemma Honest.pending (h : c.Honest) (hans : c.answer = none) : c.Pending := by
  unfold Honest at h
  rwa [hans] at h

lemma honest_of_pending (hans : c.answer = none) (h : c.Pending) : c.Honest := by
  unfold Honest
  rwa [hans]

lemma CommitSent.of_append {messages} (hsent : c.sent = messages ++ [message]) (h : c.CommitSent)
    (hmsg : ∀ t, message ≠ .commit t) : ∃ t, .commit t ∈ messages := by
  obtain ⟨t, ht⟩ := h
  rw [hsent] at ht
  rcases mem_append.mp ht with ht | ht
  · exact ⟨t, ht⟩
  · exact absurd (mem_singleton.mp ht).symm (hmsg t)

variable {n : Next}

/-- Giving up an attempt is honest if the save is uncertain once `COMMIT` was sent. -/
lemma Abandoned.honest (h : Abandoned c n) (hans : c.answer = none)
    (hunc : c.CommitSent → n.context.commitUncertain = true) : n.context.Honest := by
  have hout := h.outcome
  cases n with
  | waiting c' =>
    obtain ⟨hans', ⟨hstage, hsent⟩ | ⟨failed, hcode, hstage, -, hsent⟩⟩ := hout
    · refine honest_of_pending (hans'.trans hans) ⟨?_, ?_, fun hcommit => .inr ?_⟩
      · intro failed hrolling
        cases hstage.symm.trans hrolling
      · intro result hreplay
        cases hstage.symm.trans hreplay
      · obtain ⟨t, ht⟩ := hcommit
        exact hunc ⟨t, hsent ▸ ht⟩
    · refine honest_of_pending (hans'.trans hans) ⟨?_, ?_, fun hcommit => .inr ?_⟩
      · intro failed' hrolling
        cases hstage.symm.trans hrolling
        exact hcode
      · intro result hreplay
        cases hstage.symm.trans hreplay
      · exact hunc (hcommit.of_append hsent (by simp))
  | finished c' result =>
    obtain ⟨hsent, -, hcode⟩ := hout
    intro hcommit
    obtain ⟨t, ht⟩ := hcommit
    exact .inr (hcode (hunc ⟨t, hsent ▸ ht⟩))

lemma Proceeds.honest (h : Proceeds c₀ n stage message) (hfwd : Forward stage message) (hans : c₀.answer = none)
    (hunc : c₀.CommitSent → c₀.commitUncertain = true) : n.context.Honest := by
  refine honest_of_pending (h.answer.trans hans) ⟨?_, ?_, fun hsent => ?_⟩
  · intro failed hstage
    exact absurd (h.stage.symm.trans hstage) (hfwd.rolling failed)
  · intro result hstage
    exact hfwd.replay result (h.stage.symm.trans hstage)
  · by_cases hmsg : ∃ t, message = .commit t
    · obtain ⟨t, ht⟩ := hmsg
      exact .inl (h.stage.trans (hfwd.commit t ht))
    · rw [h.uncertain]
      exact .inr (hunc (hsent.of_append h.sent fun t ht => hmsg ⟨t, ht⟩))

/-- **A reply keeps a save honest.** -/
lemma Outcome.honest (h : Outcome c n) (hans : c.answer = none) (hpend : c.Pending) :
    n.context.Honest := by
  cases h with
  | abandoned h hunc =>
    refine Abandoned.honest h hans fun hsent => ?_
    rcases hpend.commit hsent with hstage | hflag
    · exact hunc hstage
    · exact h.uncertain hflag
  | @proceeds n c₀ stage message h hstage honward hfwd =>
    refine Proceeds.honest h hfwd (honward.answer.trans hans) fun hsent => ?_
    rw [honward.uncertain]
    obtain ⟨t, ht⟩ := hsent
    exact (hpend.commit ⟨t, honward.sent ▸ ht⟩).resolve_left hstage
  | answered hres =>
    intro _
    rcases hres with hok | hstage
    · exact .inl hok
    · exact .inl (hpend.replayed _ hstage)

/-- A save that starts an attempt, for the first time or again, stays honest. -/
lemma startSave_honest (attempts : ℕ) (clock : Clock) (key : Bytes) (hans : c.answer = none)
    (hpend : c.Pending) (hstage : c.stage ≠ .committing) :
    (c.startSave attempts clock key).context.Honest := by
  have hunc : c.CommitSent → c.commitUncertain = true := fun hsent =>
    (hpend.commit hsent).resolve_left hstage
  rcases c.startSave_cases attempts clock key with h | h
  · exact Abandoned.honest h hans fun hsent => h.uncertain (hunc hsent)
  · exact Proceeds.honest h ⟨rfl, by simp, by simp, by simp⟩ hans hunc

lemma retry_honest (attempts : ℕ) (clock : Clock) (backend : Bool) (key : Bytes)
    (hans : c.answer = none) (hpend : c.Pending) (hstage : c.stage ≠ .committing) :
    (c.retry attempts clock backend key).context.Honest := by
  rcases c.retry_cases attempts clock backend key with h | ⟨-, h⟩
  · exact Abandoned.honest h hans fun hsent =>
      h.uncertain ((hpend.commit hsent).resolve_left hstage)
  · rw [h]
    exact startSave_honest attempts clock key hans hpend hstage

lemma Fresh.honest (h : c.Fresh) : c.Honest := by
  refine honest_of_pending h.answer ⟨?_, ?_, ?_⟩
  · simp [h.stage]
  · simp [h.stage]
  · rintro ⟨t, ht⟩
    simp [h.sent] at ht

end SaveContext

namespace Store

/-- The actor as it is spawned. -/
def initial (address : Bytes) (settings : ServiceConfig) : Store := { address, settings }

/-- The actor does not exit while a save that has sent `COMMIT` in an earlier attempt has
`begin_sent` unset, that is, from the `start_save` of a later attempt to the `BEGIN` of it. -/
def ExitsOutsideRestart (s : Store) (e : Event) : Prop :=
  e = .exit → ∀ i c, s.contexts i = some c → c.answer = none → c.CommitSent → c.beginSent = true

lemma initial_queued (address : Bytes) (settings : ServiceConfig) :
    (initial address settings).Queued := by
  intro p
  refine ⟨?_, ?_, ?_, ?_⟩ <;> simp [initial, queueOf]

lemma step_honest {s s' : Store} {e : Event} (hqueued : s.Queued)
    (h : s.Forall fun _ c => c.Honest) (hexit : s.ExitsOutsideRestart e)
    (hstep : s.step e = some s') : s'.Forall fun _ c => c.Honest := by
  refine step_forall hqueued hstep h ⟨?_, ?_, ?_, ?_, ?_⟩
  · intro i request arrival clocks c _ _ hacc
    exact hacc.fresh.honest
  · intro i c clock key hfresh hhonest
    exact SaveContext.startSave_honest _ clock key hfresh.answer (hhonest.pending hfresh.answer)
      (by simp [hfresh.stage])
  · intro i reply clocks c _ hc hans hawaits hhonest
    have hpend := hhonest.pending hans
    exact (SaveContext.respond_outcome hawaits hpend.failed reply).honest hans hpend
  · intro i backend clocks c _ hc hans hdelay hhonest
    exact SaveContext.retry_honest _ _ backend _ hans (hhonest.pending hans) (by simp [hdelay])
  · intro i c he hc hans _
    exact fun hsent => .inr (by simp [saveError, hexit he i c hc hans hsent])

end Store

namespace Sample

/-- Players with an id and a score, on the default connection. -/
def player : EntitySchema where
  name := str "player"
  table := str "players"
  keys := [{ name := str "id", column := str "id", kind := .unsignedInteger }]
  fields := [{ name := str "score", column := str "score", kind := .signedInteger }]

def settings : ServiceConfig where
  catalog := .single false {
    name := str "default"
    readService := str "sql"
    writeService := str "sql"
    entities := (∅ : StringMap EntitySchema).insert (str "player") player } (by decide +kernel)

/-- Insert player 7. -/
def request : SaveRequest where
  requestId := str "a"
  changes := [{
    target := { entity := str "player", key := [⟨str "id", .unsignedInteger 7⟩] }
    fields := [{ name := str "score", data := .signedInteger 1 }]
    operation := .insert }]

def clocks : ℕ → Clock := fun _ => {}

def answered (result : DbResult) : Event := .reply 0 (.ok result) clocks

def timedOut : Event := .reply 0 (.error (str "request_timeout")) clocks

/-- The save up to its `COMMIT`. -/
def toCommit : List Event := [
  .save 0 request {} clocks,
  answered { ok := true },
  answered { ok := true, insertId := str "7" },
  answered { ok := true, affected := 1 },
  answered { ok := true, affected := 1 },
  answered { ok := true, rows := [[str "1"]] },
  answered { ok := true, affected := 1 }]

/-- Save 0 after these events. -/
def afterEvents (events : List Event) : Option SaveContext :=
  (Machine.run Store.step (.initial (str "node:1:") settings) events).bind fun s => s.contexts 0

end Sample

/-- **A commit that may have happened is never denied**, in every run in which the actor does not exit
during the restart of a save that has sent `COMMIT`: whatever the backend, the transport and the
clock do, such a save is answered ok or commit-unknown. -/
theorem commit_never_denied (address : Bytes) (settings : ServiceConfig) {events : List Event}
    {s : Store} (hrun : Machine.run Store.step (.initial address settings) events = some s)
    (hexit : Machine.RunWhere Store.step Store.ExitsOutsideRestart (.initial address settings) events)
    {i : ℕ} {c : SaveContext} {transaction : UInt64} {result : SaveResult}
    (hc : s.contexts i = some c) (hsent : .commit transaction ∈ c.sent)
    (hanswer : c.answer = some result) : result.code = .ok ∨ result.code = .commitUnknown := by
  have hinv : s.Queued ∧ s.Forall fun _ c => c.Honest := by
    refine Machine.run_invariant_where (C := Store.ExitsOutsideRestart)
      (I := fun s => s.Queued ∧ s.Forall fun _ c => c.Honest) ?_ ⟨Store.initial_queued _ _, ?_⟩
      hexit hrun
    · rintro s e s' ⟨hqueued, hhonest⟩ hwhere hstep
      exact ⟨Store.step_queued hqueued hstep, Store.step_honest hqueued hhonest hwhere hstep⟩
    · intro i c hc
      cases hc
  have hhonest : c.Honest := hinv.2 i c hc
  unfold SaveContext.Honest at hhonest
  rw [hanswer] at hhonest
  exact hhonest ⟨transaction, hsent⟩

open Sample in
/-- `COMMIT` times out, and so does the rollback. -/
theorem commit_never_denied_timeout : ∃ s c result,
    Machine.run Store.step (.initial (str "node:1:") { settings with saveRetryAttempts := 1 })
      (toCommit ++ [timedOut, timedOut]) = some s ∧
    s.contexts 0 = some c ∧ .commit 7 ∈ c.sent ∧ c.answer = some result ∧
    (result.code = .ok ∨ result.code = .commitUnknown) := by
  have heval : ((Machine.run Store.step
      (.initial (str "node:1:") { settings with saveRetryAttempts := 1 })
      (toCommit ++ [timedOut, timedOut])).bind fun s => s.contexts 0).map
        (fun c => (decide (.commit 7 ∈ c.sent), c.answer.isSome)) = some (true, true) := by
    decide +kernel
  obtain ⟨c, hc, hfacts⟩ := map_eq_some_iff.mp heval
  obtain ⟨s, hrun, hctx⟩ := bind_eq_some_iff.mp hc
  obtain ⟨hsent, hans⟩ := Prod.mk.inj hfacts
  obtain ⟨result, hres⟩ := isSome_iff_exists.mp hans
  refine ⟨s, c, result, hrun, hctx, of_decide_eq_true hsent, hres,
    commit_never_denied _ _ hrun (.of_forall ?_) hctx (of_decide_eq_true hsent) hres⟩
  intro e he s hexit
  subst hexit
  simp [toCommit, answered, timedOut] at he

open Sample in
/-- The run that the condition excludes: `COMMIT` is sent, it and the rollback time out, the second
attempt starts, and the actor exits before anything else arrives.  The save is answered
unavailable. -/
theorem commit_denied_by_exit :
    (afterEvents toCommit).map (fun c => (c.sent.getLast?, c.answer)) =
      some (some (.commit 7), none) ∧
    (afterEvents (toCommit ++ [timedOut, timedOut, .timer 0 true clocks, .exit])).map
        (fun c => (decide (.commit 7 ∈ c.sent), c.answer.map SaveResult.code)) =
      some (true, some .unavailable) := by
  decide +kernel

end Caf.EntityStore.Sql
