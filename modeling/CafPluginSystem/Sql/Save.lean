import CafPluginSystem.Library.Fallible
import CafPluginSystem.Sql.Statements

/-!
# One save of the SQL entity store

The save state machine of `entity_store_actor` (`start_save` to `finish_save` of
`include/templates/sql_entity_store_actor.hpp`, and `fail_database`, `fail_transport` and
`retry_or_finish` of `include/templates/sql_entity_store_recovery.hpp`).

A save waits for one reply at a time, or for a timer, or for its turn.  Each handler is a function
from the context, the reply and what the clock says to the context that waits for the next thing,
or to the result that the save is answered with.  The clock is read where the source reads it and
may say anything.
-/

namespace Caf.EntityStore.Sql

open DecimalText Database

/-- A request to the backend.  `execute` is `sql_exec_atom` or `sql_query_atom` inside a
transaction. -/
inductive Message where
  | exec (connection : Bytes) (statement : Statement)
  | begin (connection key : Bytes)
  | execute (transaction : UInt64) (statement : Statement)
  | commit (transaction : UInt64)
  | rollback (key : Bytes)
  deriving DecidableEq, Repr

/-- What a save waits for. -/
inductive Stage where
  /-- Its turn in the queue of its partition. -/
  | queued
  | creatingTable
  | beginning
  | reserving
  | replaying
  /-- The `UPDATE` or `DELETE` of the current change. -/
  | changing
  /-- Whether the row is there at all, after the change affected none. -/
  | checking
  | inserting
  | readingVersion
  | recording
  | committing
  | rollingBack (failed : SaveResult)
  | rollingBackReplay (result : SaveResult)
  /-- The timer of `run_delayed_weak`, before the next attempt. -/
  | delayed
  deriving DecidableEq, Repr

/-- `save_context`.  `answer` is the promise; the source's `completed` says that it is fulfilled.
`sent` lists the requests to the backend in the order in which they were made. -/
structure SaveContext where
  request : SaveRequest
  store : StoreSchema
  schemas : List EntitySchema
  partitionKey : Bytes
  signature : Bytes
  versions : List UInt64 := []
  transaction : UInt64 := 0
  transactionKey : Bytes := []
  beginSent : Bool := false
  changeIndex : ℕ := 0
  attempt : ℕ := 0
  retryRequested : Bool := false
  commitUncertain : Bool := false
  stage : Stage := .queued
  sent : List Message := []
  answer : Option SaveResult := none

/-- What the clock says to a handler: the deadline has passed (`expired`), or it will have passed
when the next attempt starts. -/
structure Clock where
  expired : Bool := false
  late : Bool := false

/-- What a handler does with a context: it waits for something, or it is answered. -/
inductive Next where
  | waiting (context : SaveContext)
  | finished (context : SaveContext) (result : SaveResult)

/-- `save_error`. -/
def saveError (request : SaveRequest) (code : ResultCode) (error : Bytes) : SaveResult where
  code := code
  error := error
  requestId := request.requestId

/-- The result of a save whose changes got these versions. -/
def savedResult (request : SaveRequest) (versions : List UInt64) : SaveResult where
  code := .ok
  requestId := request.requestId
  committed := true
  entities := (request.changes.zip versions).map fun (change, version) =>
    { target := change.target, version, operation := change.operation }

namespace SaveContext

/-- `request(backend, …)`: the message is sent and the save waits for its reply. -/
def send (c : SaveContext) (stage : Stage) (message : Message) : Next :=
  .waiting { c with stage, sent := c.sent ++ [message] }

/-- A statement inside the transaction. -/
def execute (c : SaveContext) (stage : Stage) (statement : Statement) : Next :=
  c.send stage (.execute c.transaction statement)

variable (attempts : ℕ) (clock : Clock)

/-! ## Failing -/

def retryOrFinish (c : SaveContext) (result : SaveResult) : Next :=
  let result := if c.commitUncertain then { result with code := .commitUnknown } else result
  if !c.retryRequested ∨ c.attempt ≥ attempts ∨ clock.late then .finished c result
  else .waiting { c with stage := .delayed }

def rollback (c : SaveContext) (code : ResultCode) (error : Bytes) : Next :=
  let failed := saveError c.request code error
  if !c.beginSent then c.retryOrFinish attempts clock failed
  else c.send (.rollingBack failed) (.rollback c.transactionKey)

def rollbackReplay (c : SaveContext) (result : SaveResult) : Next :=
  c.send (.rollingBackReplay result) (.rollback c.transactionKey)

/-- `fail_database`, with the text that the source passes or the one of the result. -/
def failDatabase (c : SaveContext) (result : DbResult) (fallback : ResultCode) (error : Bytes) :
    Next :=
  let c := { c with
    retryRequested := result.code.isConnectionError
    commitUncertain := c.commitUncertain || fallback == ResultCode.commitUnknown }
  c.rollback attempts clock (if c.retryRequested then .unavailable else fallback)
    (if error = [] then result.error else error)

def failTransport (c : SaveContext) (error : Bytes) (fallback : ResultCode) : Next :=
  let c := { c with
    retryRequested := true
    commitUncertain := c.commitUncertain || fallback == ResultCode.commitUnknown }
  c.rollback attempts clock fallback error

/-- `result.error.empty() ? text : result.error`. -/
def errorOr (result : DbResult) (text : Bytes) : Bytes :=
  if result.error = [] then text else result.error

/-- `if (!command) rollback(…)`: a statement that the builder refuses fails the save. -/
def build (c : SaveContext) (command : Except Bytes Statement) (stage : Stage) : Next :=
  match command with
  | .error error => c.rollback attempts clock .invalidRequest error
  | .ok statement => c.execute stage statement

/-! ## The change loop -/

/-- The current change, with its schema.  There is one wherever the handlers below look for it. -/
def change? (c : SaveContext) : Option (EntityPatch × EntitySchema) :=
  (c.request.changes.zip c.schemas)[c.changeIndex]?

def finishRequestRecord (c : SaveContext) : Next :=
  c.execute .recording
    (.finishRequestRecord c.store.idempotencyTable c.request.requestId (encodeVersions c.versions))

def applyNextChange (c : SaveContext) : Next :=
  if clock.expired then
    c.rollback attempts clock .unavailable (str "save deadline expired before applying changes")
  else match c.change? with
    | none => c.finishRequestRecord
    | some (change, schema) =>
      match change.operation with
      | .insert => c.build attempts clock (StatementBuilder.insert schema change) .inserting
      | .deleteEntity =>
        c.build attempts clock (StatementBuilder.deleteEntity schema change) .changing
      | _ => c.build attempts clock (StatementBuilder.update schema change) .changing

/-- `load_change_version`. -/
def loadChangeVersion (c : SaveContext) : Next :=
  match c.change? with
  | none => c.finishRequestRecord
  | some (change, schema) =>
    c.build attempts clock (StatementBuilder.currentVersion schema change.target) .readingVersion

/-- The version of the current change is known. -/
def nextChange (c : SaveContext) (version : UInt64) : Next :=
  { c with versions := c.versions ++ [version], changeIndex := c.changeIndex + 1 }.applyNextChange
    attempts clock

/-- The reply to the `UPDATE` or `DELETE` of a change. -/
def afterChange (c : SaveContext) (result : DbResult) : Next :=
  if !result.ok then c.failDatabase attempts clock result .internalError result.error
  else match c.change? with
    | none => c.finishRequestRecord
    | some (change, schema) =>
      if result.affected > 0 then
        if change.operation = .deleteEntity then c.nextChange attempts clock 0
        else c.loadChangeVersion attempts clock
      else if change.createIfMissing ∧ (!change.checkVersion ∨ change.expectedVersion = 0) then
        c.build attempts clock (StatementBuilder.insert schema change) .inserting
      else c.build attempts clock (StatementBuilder.currentVersion schema change.target) .checking

/-- The reply to the query that tells a missing row from one that was not to be changed. -/
def afterCheck (c : SaveContext) (current : DbResult) : Next :=
  if !current.ok then c.failDatabase attempts clock current .internalError current.error
  else if current.rows = [] then c.rollback attempts clock .notFound (str "entity not found")
  else c.rollback attempts clock .conflict
    (if (c.change?.map fun change => change.1.checkVersion).getD false then
      str "entity version conflict" else str "entity was not updated")

def afterInsert (c : SaveContext) (result : DbResult) : Next :=
  if !result.ok ∨ result.affected = 0 then
    c.failDatabase attempts clock result .conflict
      (errorOr result (str "entity insert did not create a row"))
  else c.loadChangeVersion attempts clock

/-- `rows.front().front()` as a number, if there is one. -/
def versionCell (result : DbResult) : Option UInt64 :=
  match result.rows with
  | (cell :: _) :: _ => uint64OfText? cell
  | _ => none

def afterVersion (c : SaveContext) (result : DbResult) : Next :=
  match if result.ok then versionCell result else none with
  | none =>
    c.failDatabase attempts clock result .internalError
      (errorOr result (str "cannot read committed entity version"))
  | some version => c.nextChange attempts clock version

/-! ## The attempt -/

/-- `start_save`: a new attempt with a new transaction key. -/
def startSave (c : SaveContext) (key : Bytes) : Next :=
  let c := { c with
    attempt := c.attempt + 1
    transaction := 0
    beginSent := false
    retryRequested := false
    changeIndex := 0
    versions := []
    transactionKey := key }
  if clock.expired then
    c.rollback attempts clock .unavailable (str "save deadline expired while queued")
  else c.send .creatingTable
    (.exec c.store.writeConnection (.createIdempotencyTable c.store.idempotencyTable))

def beginTransaction (c : SaveContext) : Next :=
  if clock.expired then
    c.rollback attempts clock .unavailable (str "save deadline expired before BEGIN")
  else { c with beginSent := true }.send .beginning
    (.begin c.store.writeConnection c.transactionKey)

def afterTable (c : SaveContext) (result : DbResult) : Next :=
  if !result.ok then
    c.failDatabase attempts clock result .unavailable
      (str "cannot initialize idempotency table: " ++ result.error)
  else c.beginTransaction attempts clock

def reserveRequest (c : SaveContext) : Next :=
  if clock.expired then
    c.rollback attempts clock .unavailable (str "save deadline expired after BEGIN")
  else c.execute .reserving
    (.reserveRequest c.store.idempotencyTable c.request.requestId c.signature)

def afterBegin (c : SaveContext) (result : DbResult) : Next :=
  match if result.ok then uint64OfText? result.insertId else none with
  | none =>
    c.failDatabase attempts clock result .unavailable
      (errorOr result (str "database did not return a transaction handle"))
  | some transaction => { c with transaction }.reserveRequest attempts clock

def afterReserve (c : SaveContext) (result : DbResult) : Next :=
  if !result.ok then
    c.failDatabase attempts clock result .internalError
      (str "cannot reserve request id: " ++ result.error)
  else if result.affected = 0 then
    c.execute .replaying (.loadRequestRecord c.store.idempotencyTable c.request.requestId)
  else c.applyNextChange attempts clock

/-- The row of the idempotency table: a signature and a result. -/
def recordRow (result : DbResult) : Option (Bytes × Bytes) :=
  match result.rows with
  | [signature, data] :: _ => some (signature, data)
  | _ => none

def afterReplay (c : SaveContext) (result : DbResult) : Next :=
  match if result.ok then recordRow result else none with
  | none =>
    c.failDatabase attempts clock result .commitUnknown
      (errorOr result (str "idempotent request result is unavailable"))
  | some (signature, data) =>
    if signature ≠ c.signature then
      c.rollback attempts clock .conflict (str "request_id was already used by another request")
    else match decodeVersions c.request.changes.length data with
      | none =>
        c.rollback attempts clock .commitUnknown (str "stored idempotent result is incomplete")
      | some versions => c.rollbackReplay (savedResult c.request versions)

def commit (c : SaveContext) : Next :=
  if clock.expired then
    c.rollback attempts clock .unavailable (str "save deadline expired before COMMIT")
  else c.send .committing (.commit c.transaction)

def afterRecord (c : SaveContext) (result : DbResult) : Next :=
  if !result.ok ∨ result.affected ≠ 1 then
    c.failDatabase attempts clock result .internalError
      (errorOr result (str "cannot persist idempotent request result"))
  else c.commit attempts clock

def afterCommit (c : SaveContext) (result : DbResult) : Next :=
  if !result.ok then c.failDatabase attempts clock result .commitUnknown result.error
  else .finished c (savedResult c.request c.versions)

/-! ## The handlers -/

/-- The handlers of `request(…).then(…)`, by what the save waits for: the reply of the backend, or
the error of a request that timed out or could not be delivered. -/
def respond (c : SaveContext) (reply : Except Bytes DbResult) : Next :=
  match c.stage, reply with
  | .creatingTable, .ok result => c.afterTable attempts clock result
  | .beginning, .ok result => c.afterBegin attempts clock result
  | .reserving, .ok result => c.afterReserve attempts clock result
  | .replaying, .ok result => c.afterReplay attempts clock result
  | .changing, .ok result => c.afterChange attempts clock result
  | .checking, .ok result => c.afterCheck attempts clock result
  | .inserting, .ok result => c.afterInsert attempts clock result
  | .readingVersion, .ok result => c.afterVersion attempts clock result
  | .recording, .ok result => c.afterRecord attempts clock result
  | .committing, .ok result => c.afterCommit attempts clock result
  | .committing, .error error => c.failTransport attempts clock error .commitUnknown
  | .rollingBack failed, _ => c.retryOrFinish attempts clock failed
  | .rollingBackReplay result, _ => .finished c result
  | .queued, _ => .waiting c
  | .delayed, _ => .waiting c
  | _, .error error => c.failTransport attempts clock error .unavailable

/-- The timer of a delayed attempt; `backend` says whether the write service is registered. -/
def retry (c : SaveContext) (backend : Bool) (key : Bytes) : Next :=
  if backend then c.startSave attempts clock key
  else { c with attempt := c.attempt + 1 }.retryOrFinish attempts clock
    (saveError c.request .unavailable (str "write service unavailable during retry"))

/-- What `on_exit` does with a save that is not answered. -/
def exit (c : SaveContext) : SaveContext :=
  { c with answer := some (saveError c.request
      (if c.beginSent then .commitUnknown else .unavailable)
      (str "entity store exited; retry with the same request_id")) }

end SaveContext

/-- The context after a handler: `finish_save` answers it. -/
def Next.context : Next → SaveContext
  | .waiting c => c
  | .finished c result => { c with answer := some result }

/-! ## What the handlers can do -/

/-- The members that are set when the save is accepted and never again. -/
structure SameSave (c c' : SaveContext) : Prop where
  request : c'.request = c.request
  store : c'.store = c.store
  schemas : c'.schemas = c.schemas
  partitionKey : c'.partitionKey = c.partitionKey
  signature : c'.signature = c.signature

lemma SameSave.refl (c : SaveContext) : SameSave c c := ⟨rfl, rfl, rfl, rfl, rfl⟩

lemma SameSave.trans {c c' c''} (h : SameSave c c') (h' : SameSave c' c'') :
    SameSave c c'' where
  request := h'.request.trans h.request
  store := h'.store.trans h.store
  schemas := h'.schemas.trans h.schemas
  partitionKey := h'.partitionKey.trans h.partitionKey
  signature := h'.signature.trans h.signature

/-- The end of an attempt, for a save that has sent these messages: it is answered with a failure,
waits for its next attempt, or first has the transaction with the key rolled back. -/
def Next.GivesUp (answer : Option SaveResult) (sent : List Message) (key : Bytes)
    (beginSent : Bool) : Next → Prop
  | .waiting c' => c'.answer = answer ∧ ((c'.stage = .delayed ∧ c'.sent = sent) ∨
      ∃ failed, failed.code ≠ .ok ∧ c'.stage = .rollingBack failed ∧ beginSent = true ∧
        c'.sent = sent ++ [.rollback key])
  | .finished c' result => c'.sent = sent ∧ result.code ≠ .ok ∧
      (c'.commitUncertain = true → result.code = .commitUnknown)

/-- An attempt is given up.  Where an earlier `COMMIT` is uncertain, it stays so. -/
structure Abandoned (c : SaveContext) (n : Next) : Prop where
  same : SameSave c n.context
  beginSent : n.context.beginSent = c.beginSent
  uncertain : c.commitUncertain = true → n.context.commitUncertain = true
  outcome : n.GivesUp c.answer c.sent c.transactionKey c.beginSent

/-- The save goes on in the same attempt: it sends a message and waits for the reply. -/
structure Proceeds (c : SaveContext) (n : Next) (stage : Stage) (message : Message) : Prop where
  same : SameSave c n.context
  beginSent : n.context.beginSent = c.beginSent
  uncertain : n.context.commitUncertain = c.commitUncertain
  answer : n.context.answer = c.answer
  stage : n.context.stage = stage
  sent : n.context.sent = c.sent ++ [message]
  transaction : n.context.transaction = c.transaction
  transactionKey : n.context.transactionKey = c.transactionKey
  versions : n.context.versions = c.versions
  changeIndex : n.context.changeIndex = c.changeIndex
  waiting : n = .waiting n.context

namespace SaveContext

variable {attempts : ℕ} {clock : Clock} {c : SaveContext}
variable {schema : EntitySchema} {change patch : EntityPatch} {error : Bytes}
  {fallback : ResultCode} {result : DbResult}

lemma send_proceeds (stage : Stage) (message : Message) :
    Proceeds c (c.send stage message) stage message where
  same := ⟨rfl, rfl, rfl, rfl, rfl⟩
  beginSent := rfl
  uncertain := rfl
  answer := rfl
  stage := rfl
  sent := rfl
  transaction := rfl
  transactionKey := rfl
  versions := rfl
  changeIndex := rfl
  waiting := rfl

lemma retryOrFinish_abandoned {result} (hres : result.code ≠ .ok) :
    Abandoned c (c.retryOrFinish attempts clock result) := by
  unfold retryOrFinish
  by_cases hfinish : !c.retryRequested ∨ c.attempt ≥ attempts ∨ clock.late
  · simp only [if_pos hfinish]
    refine ⟨⟨rfl, rfl, rfl, rfl, rfl⟩, rfl, id, rfl, ?_, ?_⟩
    · split
      · simp
      · exact hres
    · intro hunc
      simp [hunc]
  · simp only [if_neg hfinish]
    exact ⟨⟨rfl, rfl, rfl, rfl, rfl⟩, rfl, id, rfl, .inl ⟨rfl, rfl⟩⟩

lemma rollback_abandoned {code} (hcode : code ≠ .ok) (error : Bytes) :
    Abandoned c (c.rollback attempts clock code error) := by
  unfold rollback
  by_cases hbegin : c.beginSent = true
  · rw [if_neg (by simp [hbegin])]
    exact ⟨⟨rfl, rfl, rfl, rfl, rfl⟩, rfl, id, rfl, .inr ⟨_, hcode, rfl, hbegin, rfl⟩⟩
  · rw [if_pos (by simpa using hbegin)]
    exact retryOrFinish_abandoned hcode

/-- Setting the flags of a failure before giving up is giving up. -/
lemma Abandoned.of_flags {retry uncertain n} (h : Abandoned { c with
      retryRequested := retry
      commitUncertain := c.commitUncertain || uncertain } n) :
    Abandoned c n := by
  exact ⟨⟨h.same.request, h.same.store, h.same.schemas, h.same.partitionKey, h.same.signature⟩,
    h.beginSent, fun hunc => h.uncertain (by simp [hunc]), h.outcome⟩

lemma failDatabase_abandoned (hcode : fallback ≠ .ok)
    (error : Bytes) : Abandoned c (c.failDatabase attempts clock result fallback error) := by
  refine Abandoned.of_flags (rollback_abandoned ?_ _)
  dsimp only
  split
  · simp
  · exact hcode

lemma failTransport_abandoned (hcode : fallback ≠ .ok) :
    Abandoned c (c.failTransport attempts clock error fallback) :=
  Abandoned.of_flags (rollback_abandoned hcode _)

/-- After a failure whose fallback is commit-unknown, the save is uncertain. -/
lemma failDatabase_uncertain :
    (c.failDatabase attempts clock result .commitUnknown error).context.commitUncertain = true :=
  (rollback_abandoned (c := { c with
      retryRequested := result.code.isConnectionError
      commitUncertain := c.commitUncertain || ResultCode.commitUnknown == ResultCode.commitUnknown })
    (by dsimp only; split <;> simp) _).uncertain (by simp)

lemma failTransport_uncertain :
    (c.failTransport attempts clock error .commitUnknown).context.commitUncertain = true :=
  (rollback_abandoned (c := { c with
      retryRequested := true
      commitUncertain := c.commitUncertain || ResultCode.commitUnknown == ResultCode.commitUnknown })
    (by simp) _).uncertain (by simp)

/-- Giving up does not depend on how far the attempt had come. -/
lemma Abandoned.of_progress {transaction versions changeIndex attempt}
    {retryRequested n} (h : Abandoned
      { c with transaction, versions, changeIndex, attempt, retryRequested } n) : Abandoned c n :=
  ⟨⟨h.same.request, h.same.store, h.same.schemas, h.same.partitionKey, h.same.signature⟩,
    h.beginSent, h.uncertain, h.outcome⟩

/-- The first statement of a change. -/
def firstStatement (schema : EntitySchema) (change : EntityPatch) : Statement :=
  match change.operation with
  | .insert => .insert schema change
  | .deleteEntity => .deleteEntity schema change
  | _ => .update schema change

/-- What the save waits for after the first statement of a change. -/
def firstStage (operation : EntityOperation) : Stage :=
  if operation = .insert then .inserting else .changing

/-- The change loop goes on: with the first statement of the next change, or with the record of
the request. -/
def GoesOn (c : SaveContext) (n : Next) : Prop :=
  match c.change? with
  | none => Proceeds c n .recording (.execute c.transaction (.finishRequestRecord
      c.store.idempotencyTable c.request.requestId (encodeVersions c.versions)))
  | some (change, schema) => Proceeds c n (firstStage change.operation)
      (.execute c.transaction (firstStatement schema change))

variable (c attempts clock)

/-- A statement that the builder accepts is sent. -/
lemma build_cases {command expected}
    (hexp : ∀ statement, command = .ok statement → statement = expected) (stage : Stage) :
    Abandoned c (c.build attempts clock command stage) ∨
      Proceeds c (c.build attempts clock command stage) stage
        (.execute c.transaction expected) := by
  cases command with
  | error error => exact .inl (rollback_abandoned (by simp) _)
  | ok statement =>
    rw [← hexp statement rfl]
    exact .inr (send_proceeds _ _)

lemma update_eq_ok (statement : Statement)
    (h : StatementBuilder.update schema patch = .ok statement) : statement = .update schema patch := by
  simp only [StatementBuilder.update, Fallible.bind_eq_ok] at h
  obtain ⟨_, -, _, -, h⟩ := h
  cases h
  rfl

lemma insert_eq_ok (statement : Statement)
    (h : StatementBuilder.insert schema patch = .ok statement) : statement = .insert schema patch := by
  simp only [StatementBuilder.insert, Fallible.bind_eq_ok] at h
  obtain ⟨_, -, _, -, h⟩ := h
  cases h
  rfl

lemma deleteEntity_eq_ok (statement : Statement)
    (h : StatementBuilder.deleteEntity schema patch = .ok statement) :
    statement = .deleteEntity schema patch := by
  simp only [StatementBuilder.deleteEntity, Fallible.bind_eq_ok] at h
  obtain ⟨_, -, h⟩ := h
  cases h
  rfl

lemma currentVersion_eq_ok {target} (statement : Statement)
    (h : StatementBuilder.currentVersion schema target = .ok statement) :
    statement = .currentVersion schema target := by
  simp only [StatementBuilder.currentVersion, Fallible.bind_eq_ok] at h
  obtain ⟨_, -, h⟩ := h
  cases h
  rfl

lemma applyNextChange_cases :
    Abandoned c (c.applyNextChange attempts clock) ∨ GoesOn c (c.applyNextChange attempts clock) := by
  unfold applyNextChange GoesOn
  split
  · exact .inl (rollback_abandoned (by simp) _)
  · cases hchg : c.change? with
    | none => exact .inr (send_proceeds _ _)
    | some pair =>
      obtain ⟨change, schema⟩ := pair
      dsimp only
      rw [firstStage, firstStatement]
      cases hop : change.operation with
      | insert => exact c.build_cases attempts clock insert_eq_ok .inserting
      | deleteEntity => exact c.build_cases attempts clock deleteEntity_eq_ok .changing
      | legacyPatch | update => exact c.build_cases attempts clock update_eq_ok .changing

/-- The context after the version of the current change is known. -/
def advance (c : SaveContext) (version : UInt64) : SaveContext :=
  { c with versions := c.versions ++ [version], changeIndex := c.changeIndex + 1 }

lemma nextChange_cases (version : UInt64) :
    Abandoned c (c.nextChange attempts clock version) ∨
      GoesOn (c.advance version) (c.nextChange attempts clock version) := by
  rcases (c.advance version).applyNextChange_cases attempts clock
    with h | h
  · exact .inl (Abandoned.of_progress h)
  · exact .inr h

lemma loadChangeVersion_cases (hchg : c.change? = some (change, schema)) :
    Abandoned c (c.loadChangeVersion attempts clock) ∨
      Proceeds c (c.loadChangeVersion attempts clock) .readingVersion
        (.execute c.transaction (.currentVersion schema change.target)) := by
  unfold loadChangeVersion
  rw [hchg]
  exact c.build_cases attempts clock currentVersion_eq_ok .readingVersion

/-! ### One lemma for each handler -/

lemma afterTable_cases (result : DbResult) : Abandoned c (c.afterTable attempts clock result) ∨
    Proceeds { c with beginSent := true } (c.afterTable attempts clock result) .beginning
      (.begin c.store.writeConnection c.transactionKey) := by
  unfold afterTable beginTransaction
  split
  · exact .inl (failDatabase_abandoned (by simp) _)
  · split
    · exact .inl (rollback_abandoned (by simp) _)
    · exact .inr (send_proceeds _ _)

lemma afterBegin_cases (result : DbResult) : Abandoned c (c.afterBegin attempts clock result) ∨
    ∃ transaction, result.ok = true ∧ uint64OfText? result.insertId = some transaction ∧
      Proceeds { c with transaction } (c.afterBegin attempts clock result) .reserving
        (.execute transaction
          (.reserveRequest c.store.idempotencyTable c.request.requestId c.signature)) := by
  unfold afterBegin
  split
  · exact .inl (failDatabase_abandoned (by simp) _)
  · next transaction htx =>
    obtain ⟨hok, hparse⟩ := Option.ite_none_right_eq_some.mp htx
    unfold reserveRequest
    split
    · exact .inl (Abandoned.of_progress (rollback_abandoned (by simp) _))
    · exact .inr ⟨transaction, hok, hparse, send_proceeds _ _⟩

lemma afterReserve_cases (result : DbResult) : Abandoned c (c.afterReserve attempts clock result) ∨
    result.ok = true ∧
      (result.affected = 0 ∧ Proceeds c (c.afterReserve attempts clock result) .replaying
          (.execute c.transaction
            (.loadRequestRecord c.store.idempotencyTable c.request.requestId)) ∨
        result.affected ≠ 0 ∧ GoesOn c (c.afterReserve attempts clock result)) := by
  unfold afterReserve
  by_cases hok : result.ok = true
  · rw [if_neg (by simp [hok])]
    split
    · next haff => exact .inr ⟨hok, .inl ⟨haff, send_proceeds _ _⟩⟩
    · next haff =>
      rcases c.applyNextChange_cases attempts clock with h | h
      · exact .inl h
      · exact .inr ⟨hok, .inr ⟨haff, h⟩⟩
  · rw [if_pos (by simpa using hok)]
    exact .inl (failDatabase_abandoned (by simp) _)

lemma afterReplay_cases (result : DbResult) : Abandoned c (c.afterReplay attempts clock result) ∨
    ∃ data versions, result.ok = true ∧ recordRow result = some (c.signature, data) ∧
      decodeVersions c.request.changes.length data = some versions ∧
      Proceeds c (c.afterReplay attempts clock result)
        (.rollingBackReplay (savedResult c.request versions)) (.rollback c.transactionKey) := by
  unfold afterReplay
  split
  · exact .inl (failDatabase_abandoned (by simp) _)
  · next signature data hrow =>
    obtain ⟨hok, hrow⟩ := Option.ite_none_right_eq_some.mp hrow
    split
    · exact .inl (rollback_abandoned (by simp) _)
    · next hsig =>
      rw [not_not.mp hsig] at hrow
      split
      · exact .inl (rollback_abandoned (by simp) _)
      · next versions hvers =>
        exact .inr ⟨data, versions, hok, hrow, hvers, send_proceeds _ _⟩

/-- The change creates the row where there is none. -/
def createsMissing (change : EntityPatch) : Prop :=
  change.createIfMissing = true ∧ (change.checkVersion = false ∨ change.expectedVersion = 0)

lemma afterChange_cases (result : DbResult) (hchg : c.change? = some (change, schema)) :
    Abandoned c (c.afterChange attempts clock result) ∨ result.ok = true ∧
      (0 < result.affected ∧ change.operation = .deleteEntity ∧
          GoesOn (c.advance 0) (c.afterChange attempts clock result) ∨
        0 < result.affected ∧ change.operation ≠ .deleteEntity ∧
          Proceeds c (c.afterChange attempts clock result) .readingVersion
            (.execute c.transaction (.currentVersion schema change.target)) ∨
        ¬0 < result.affected ∧ createsMissing change ∧
          Proceeds c (c.afterChange attempts clock result) .inserting
            (.execute c.transaction (.insert schema change)) ∨
        ¬0 < result.affected ∧ ¬createsMissing change ∧
          Proceeds c (c.afterChange attempts clock result) .checking
            (.execute c.transaction (.currentVersion schema change.target))) := by
  unfold afterChange
  by_cases hok : result.ok = true
  · rw [if_neg (by simp [hok]), hchg]
    dsimp only
    split
    · next haff =>
      split
      · next hdel =>
        rcases c.nextChange_cases attempts clock 0 with h | h
        · exact .inl h
        · exact .inr ⟨hok, .inl ⟨haff, hdel, h⟩⟩
      · next hkeep =>
        rcases c.loadChangeVersion_cases attempts clock hchg with h | h
        · exact .inl h
        · exact .inr ⟨hok, .inr (.inl ⟨haff, hkeep, h⟩)⟩
    · next haff =>
      split
      · next hcreate =>
        rcases c.build_cases attempts clock
          (@insert_eq_ok schema change) .inserting with h | h
        · exact .inl h
        · refine .inr ⟨hok, .inr (.inr (.inl ⟨haff, ?_, h⟩))⟩
          simpa [createsMissing] using hcreate
      · next hcreate =>
        rcases c.build_cases attempts clock
          (@currentVersion_eq_ok schema change.target) .checking with h | h
        · exact .inl h
        · refine .inr ⟨hok, .inr (.inr (.inr ⟨haff, ?_, h⟩))⟩
          simpa [createsMissing] using hcreate
  · rw [if_pos (by simpa using hok)]
    exact .inl (failDatabase_abandoned (by simp) _)

lemma afterCheck_abandoned (current : DbResult) :
    Abandoned c (c.afterCheck attempts clock current) := by
  unfold afterCheck
  split
  · exact failDatabase_abandoned (by simp) _
  · split
    · exact rollback_abandoned (by simp) _
    · exact rollback_abandoned (by simp) _

lemma afterInsert_cases (result : DbResult) (hchg : c.change? = some (change, schema)) :
    Abandoned c (c.afterInsert attempts clock result) ∨
      result.ok = true ∧ result.affected ≠ 0 ∧
        Proceeds c (c.afterInsert attempts clock result) .readingVersion
          (.execute c.transaction (.currentVersion schema change.target)) := by
  unfold afterInsert
  split
  · exact .inl (failDatabase_abandoned (by simp) _)
  · next hinserted =>
    rcases c.loadChangeVersion_cases attempts clock hchg with h | h
    · exact .inl h
    · rw [not_or] at hinserted
      exact .inr ⟨by simpa using hinserted.1, hinserted.2, h⟩

lemma afterVersion_cases (result : DbResult) : Abandoned c (c.afterVersion attempts clock result) ∨
    ∃ version, result.ok = true ∧ versionCell result = some version ∧
      GoesOn (c.advance version) (c.afterVersion attempts clock result) := by
  unfold afterVersion
  split
  · exact .inl (failDatabase_abandoned (by simp) _)
  · next version hver =>
    obtain ⟨hok, hver⟩ := Option.ite_none_right_eq_some.mp hver
    rcases c.nextChange_cases attempts clock version with h | h
    · exact .inl h
    · exact .inr ⟨version, hok, hver, h⟩

lemma afterRecord_cases (result : DbResult) : Abandoned c (c.afterRecord attempts clock result) ∨
    result.ok = true ∧ result.affected = 1 ∧
      Proceeds c (c.afterRecord attempts clock result) .committing (.commit c.transaction) := by
  unfold afterRecord commit
  split
  · exact .inl (failDatabase_abandoned (by simp) _)
  · next hrec =>
    rw [not_or, not_not] at hrec
    split
    · exact .inl (rollback_abandoned (by simp) _)
    · exact .inr ⟨by simpa using hrec.1, hrec.2, send_proceeds _ _⟩

lemma afterCommit_cases (result : DbResult) :
    Abandoned c (c.afterCommit attempts clock result) ∧
        (c.afterCommit attempts clock result).context.commitUncertain = true ∨
      result.ok = true ∧
        c.afterCommit attempts clock result = .finished c (savedResult c.request c.versions) := by
  unfold afterCommit
  split
  · exact .inl ⟨failDatabase_abandoned (by simp) _, failDatabase_uncertain⟩
  · next hok => exact .inr ⟨by simpa using hok, rfl⟩

lemma startSave_cases (key : Bytes) : Abandoned { c with beginSent := false, transactionKey := key }
      (c.startSave attempts clock key) ∨
    Proceeds { c with
        attempt := c.attempt + 1
        transaction := 0
        beginSent := false
        retryRequested := false
        changeIndex := 0
        versions := []
        transactionKey := key }
      (c.startSave attempts clock key) .creatingTable
      (.exec c.store.writeConnection (.createIdempotencyTable c.store.idempotencyTable)) := by
  unfold startSave
  split
  · exact .inl (Abandoned.of_progress (c := { c with beginSent := false, transactionKey := key })
      (rollback_abandoned (by simp) _))
  · exact .inr (send_proceeds _ _)

end SaveContext

end Caf.EntityStore.Sql
