import CafPluginSystem.Sql.Store

/-!
# One load of the SQL entity store

The load state machine of `entity_store_actor` (`load_ready` and `finish_load` of
`include/templates/sql_entity_store_actor.hpp`, `start_load` and `retry_load` of
`include/templates/sql_entity_store_recovery.hpp`), with the `SELECT` that the statement builder makes and
the decoding of its row.

As for a save, a handler is a function from the context, the reply and what the clock says to the context
that waits for the next thing, or to the result that the load is answered with.
-/

namespace Caf.EntityStore.Sql

open DecimalText Database

/-! ## The statement and its row -/

/-- Select fields and the version of the row with a key. -/
structure LoadStatement where
  schema : EntitySchema
  target : EntityRef
  resultFields : List FieldSchema

/-- The field of a name in the mask. -/
def selectField (schema : EntitySchema) (name : Bytes) : Except Bytes FieldSchema :=
  match schema.findField name with
  | none => .error (str "unknown entity field: " ++ name)
  | some field => .ok field

/-- `statement_builder::load`. -/
def StatementBuilder.load (schema : EntitySchema) (request : LoadRequest) :
    Except Bytes LoadStatement := do
  validateKeys schema request.target
  let selected ← if request.fields.allFields then .ok schema.fields
    else request.fields.names.mapM (selectField schema)
  .ok { schema, target := request.target, resultFields := selected }

/-- `to_string(value_kind)`. -/
def kindText : ValueKind → Bytes
  | .nullValue => str "null"
  | .boolean => str "boolean"
  | .signedInteger => str "signed_integer"
  | .unsignedInteger => str "unsigned_integer"
  | .real => str "real"
  | .decimal => str "decimal"
  | .text => str "text"
  | .json => str "json"
  | .bytes => str "bytes"

/-- The value that a cell holds, by the kind of its field.  `realOfText` reads a `double`. -/
def cellValue (realOfText : Bytes → Option Double) (kind : ValueKind) (cell : Bytes) : Option Value :=
  match kind with
  | .nullValue => some .null
  | .boolean =>
    if cell = str "1" ∨ cell = str "true" ∨ cell = str "t" then some (.boolean true)
    else if cell = str "0" ∨ cell = str "false" ∨ cell = str "f" then some (.boolean false)
    else none
  | .signedInteger => (int64OfText? cell).map Value.signedInteger
  | .unsignedInteger => (uint64OfText? cell).map Value.unsignedInteger
  | .real => ((realOfText cell).filter Double.isFinite).map Value.real
  | .decimal => some (.decimal cell)
  | .text => some (.text cell)
  | .json => some (.json cell)
  | .bytes => none

/-- `statement_builder::decode`. -/
def decodeCell (realOfText : Bytes → Option Double) (isNull : Bool) (field : FieldSchema) (cell : Bytes) :
    Except Bytes Value :=
  if isNull then .ok .null
  else match cellValue realOfText field.kind cell with
    | some value => .ok value
    | none => .error (str "cannot decode field '" ++ field.name ++ str "' as " ++ kindText field.kind)

/-- `load_error`. -/
def loadError (target : EntityRef) (code : ResultCode) (error : Bytes) : LoadResult :=
  { code, error, target }

/-- The loop of `finish_load` over the selected fields. -/
def decodeFields (realOfText : Bytes → Option Double) (result : DbResult) (row : List Bytes)
    (fields : List FieldSchema) : Except Bytes (List NamedValue) :=
  (fields.zip row).zipIdx.mapM fun ((field, cell), i) => do
    let data ← decodeCell realOfText (result.isNull 0 i) field cell
    .ok ⟨field.name, data⟩

/-- `finish_load`: the answer to a load whose query succeeded. -/
def loadAnswer (realOfText : Bytes → Option Double) (request : LoadRequest) (statement : LoadStatement)
    (result : DbResult) : LoadResult :=
  match result.rows with
  | [] => loadError request.target .notFound []
  | row :: _ =>
    if row.length ≠ statement.resultFields.length + 1 then
      loadError request.target .internalError
        (str "entity query returned an unexpected column count")
    else match decodeFields realOfText result row statement.resultFields with
      | .error error => loadError request.target .internalError error
      | .ok fields =>
        match row.getLast?.bind uint64OfText? with
        | none => loadError request.target .internalError
            (str "entity version is not an unsigned integer")
        | some version => { code := .ok, target := request.target, fields, version }

/-! ## The state machine -/

/-- What a load waits for. -/
inductive LoadStage where
  | starting | querying | delayed
  deriving DecidableEq, Repr

/-- `load_context`.  `queries` counts how often the statement was sent. -/
structure LoadContext where
  request : LoadRequest
  store : StoreSchema
  statement : LoadStatement
  attempt : ℕ := 0
  stage : LoadStage := .starting
  queries : ℕ := 0
  answer : Option LoadResult := none

/-- What the clock and the registry say to a handler of a load: the deadline has passed when it starts, or
will have passed when the next attempt starts; the read service is registered. -/
structure LoadView where
  expired : Bool := false
  late : Bool := false
  backend : Bool := true

inductive LoadNext where
  | waiting (context : LoadContext)
  | finished (context : LoadContext) (result : LoadResult)

/-- The context after a handler; the one of a load that is answered has the answer. -/
def LoadNext.context : LoadNext → LoadContext
  | .waiting c => c
  | .finished c result => { c with answer := some result }

namespace LoadContext

variable (attempts : ℕ) (view : LoadView)

def retryLoad (c : LoadContext) (error : Bytes) (retryable : Bool) : LoadNext :=
  if retryable ∧ c.attempt < attempts ∧ !view.late then .waiting { c with stage := .delayed }
  else .finished c (loadError c.request.target .unavailable error)

def startLoad (c : LoadContext) : LoadNext :=
  let c := { c with attempt := c.attempt + 1 }
  if !view.backend ∨ view.expired then
    c.retryLoad attempts view (str "read service unavailable or deadline expired") true
  else .waiting { c with stage := .querying, queries := c.queries + 1 }

/-- The handlers of the query: its result, or the error of a request that timed out or could not be
delivered. -/
def respond (realOfText : Bytes → Option Double) (c : LoadContext) :
    Except Bytes DbResult → LoadNext
  | .ok result =>
    if !result.ok then c.retryLoad attempts view result.error result.code.isConnectionError
    else .finished c (loadAnswer realOfText c.request c.statement result)
  | .error error => c.retryLoad attempts view error true

end LoadContext

/-- `load_ready` up to the start of the load. -/
def acceptLoad (settings : ServiceConfig) (arrival : Arrival) (request : LoadRequest) :
    Except LoadResult LoadContext :=
  let refuse (code : ResultCode) (error : Bytes) : Except LoadResult LoadContext :=
    .error (loadError request.target code error)
  if settings.configError ≠ [] then refuse .invalidRequest settings.configError
  else if arrival.expired then
    refuse .unavailable (str "load deadline expired while awaiting schema")
  else match validateLoad request with
    | .error error => refuse .invalidRequest error
    | .ok () =>
      match settings.catalog.findStore request.target.store,
          settings.catalog.findEntity request.target.store request.target.entity with
      | some store, some schema =>
        match StatementBuilder.load schema request with
        | .error error => refuse .invalidRequest error
        | .ok statement =>
          if !arrival.backend then
            refuse .unavailable (str "read service unavailable: " ++ store.readService)
          else .ok { request, store, statement }
      | _, _ => refuse .invalidRequest (str "unknown entity store or entity")

/-! ## A load that goes on is not answered -/

namespace LoadContext

variable {attempts : ℕ} {view : LoadView} {c : LoadContext}

/-- What a handler of a load keeps: a load that goes on is not answered. -/
def Unanswered : LoadNext → Prop
  | .waiting c => c.answer = none
  | .finished _ _ => True

lemma retryLoad_unanswered (h : c.answer = none) (error : Bytes) (retryable : Bool) :
    Unanswered (c.retryLoad attempts view error retryable) := by
  unfold retryLoad
  split
  · exact h
  · trivial

lemma startLoad_unanswered (h : c.answer = none) : Unanswered (c.startLoad attempts view) := by
  unfold startLoad
  dsimp only
  split
  · exact retryLoad_unanswered (c := { c with attempt := c.attempt + 1 }) h _ _
  · exact h

lemma respond_unanswered {realOfText} (h : c.answer = none)
    (reply : Except Bytes DbResult) : Unanswered (c.respond attempts view realOfText reply) := by
  cases reply with
  | error error => exact retryLoad_unanswered h error true
  | ok result =>
    unfold respond
    dsimp only
    split
    · exact retryLoad_unanswered h _ _
    · trivial

end LoadContext

lemma acceptLoad_unanswered {settings arrival request}
    {c} (h : acceptLoad settings arrival request = .ok c) : c.answer = none := by
  unfold acceptLoad at h
  dsimp only at h
  repeat' split at h
  all_goals cases h
  rfl

end Caf.EntityStore.Sql
