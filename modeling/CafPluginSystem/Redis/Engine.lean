import CafPluginSystem.Redis.Documents
import CafPluginSystem.Redis.Records

/-!
# The engine and its commit script

`EntityStoreEngine::save` and `load` of `plugins/redis/redis_entity_store.hpp`, cut where they talk
to Redis: `prepare` is everything before the retry loop, `planCommit` turns the reply of the
snapshot read into the arguments of the commit script, `commitScript` is the Lua script as Redis
executes it, and `finishCommit` reads its reply.  The retry loops, which decide by clock and
connection state, are in `Redis.Clients`.
-/

namespace Caf.EntityStore.Redis

open EntityCodec DecimalText

/-! ## Redis -/

/-- A Redis hash. -/
abbrev Hash := StringMap Bytes

/-- `redisReply`. -/
inductive Reply where
  | nil
  | status (text : Bytes)
  | error (text : Bytes)
  | integer (value : ℤ)
  | string (bytes : Bytes)
  | array (elements : List Reply)

/-- `HGET` on one field. -/
def hget (hash : Hash) (field : Bytes) : Reply :=
  match hash[field]? with
  | none => .nil
  | some bytes => .string bytes

def hmget (hash : Hash) (fields : List Bytes) : Reply := .array (fields.map (hget hash))

/-- `HSET` of several fields. -/
def hset (hash : Hash) (updates : List (Bytes × Bytes)) : Hash := hash.insertMany updates

/-- The number `HSET` returns: how many of the fields are new. -/
def hsetCount (hash : Hash) (updates : List (Bytes × Bytes)) : ℕ :=
  (updates.filter fun update => update.1 ∉ hash).length

/-- The loop of the commit script over its arguments, four for each object, with the updates
collected so far; it ends in the only write of the script. -/
def scriptLoop (hash : Hash) : List Bytes → List (Bytes × Bytes) → Reply × List (Bytes × Bytes)
  | field :: present :: before :: updated :: rest, updates =>
    if present = str "0" then
      if field ∈ hash then (.array [.integer 0], [])
      else scriptLoop hash rest (updates ++ [(field, updated)])
    else if hash[field]? = some before then
      scriptLoop hash rest (updates ++ [(field, updated)])
    else (.array [.integer 0], [])
  | _, updates => (.integer (hsetCount hash updates), updates)

/-- `commit_script` on a hash: its reply and what it writes.  `tonumber` is only ever given what
`std::to_string` printed, so reading a natural number is enough. -/
def commitScript (hash : Hash) : List Bytes → Reply × List (Bytes × Bytes)
  | ledger :: record :: count :: rest =>
    match hash[ledger]? with
    | some previous => (.array [.integer 2, .string previous], [])
    | none =>
      match natOfText? count with
      | none => (.error (str "invalid entity commit arguments"), [])
      | some count =>
        if count < 1 ∨ count > 1024 ∨ rest.length ≠ count * 4 then
          (.error (str "invalid entity commit arguments"), [])
        else scriptLoop hash rest [(ledger, record)]
  | _ => (.error (str "invalid entity commit arguments"), [])

/-! ## The engine -/

/-- The members of `service_config` that the engine reads, the time limits apart. -/
structure ServiceConfig where
  configError : Bytes := []
  catalog : SchemaCatalog
  saveRetryAttempts : ℕ := 3
  loadRetryAttempts : ℕ := 3

structure Engine where
  name : Bytes
  settings : ServiceConfig

def checkReply : Reply → Except EntityError Unit
  | .error text => .error { code := .unavailable, message := text, failed := unavailable_ne_ok }
  | _ => .ok ()

def stringReply : Reply → Except EntityError Bytes
  | .string bytes => .ok bytes
  | _ => corrupt (str "unexpected Redis value type")

def checkConfig (engine : Engine) : Except EntityError Unit :=
  if engine.settings.configError ≠ [] then invalid engine.settings.configError else .ok ()

/-- `if (auto error = validate(request); !error.empty()) invalid(error)`. -/
def orInvalid : Except Bytes Unit → Except EntityError Unit
  | .ok () => .ok ()
  | .error error => invalid error

def findStore (engine : Engine) (name : Bytes) (write : Bool) : Except EntityError StoreSchema :=
  match engine.settings.catalog.findStore name with
  | none => invalid (str "unknown entity store: " ++ name)
  | some store =>
    if (if write then store.writeConnection else store.readConnection) ≠ engine.name then
      invalid (str "connection does not match entity store routing")
    else .ok store

def findEntity (store : StoreSchema) (name : Bytes) : Except EntityError EntitySchema :=
  match store.entities[name]? with
  | none => invalid (str "unknown entity: " ++ name)
  | some mapped => .ok mapped

def failure (request : SaveRequest) (error : EntityError) : SaveResult where
  code := error.code
  error := error.message
  requestId := request.requestId

variable (p : Platform)

/-! ## Saving -/

/-- What `save` computes from the request before it talks to Redis. -/
structure Prepared where
  store : StoreSchema
  fields : List Bytes
  signature : Bytes
  hash : Bytes
  ledger : Bytes

/-- One iteration of the first change loop of `save`. -/
def prepareChange (store : StoreSchema) (patch : EntityPatch) : Except EntityError Bytes := do
  let mapped ← findEntity store patch.target.entity
  validatePatch p mapped patch
  objectField p mapped patch.target

/-- The start of `save`, up to the retry loop. -/
def prepare (engine : Engine) (request : SaveRequest) : Except EntityError Prepared := do
  checkConfig engine
  orInvalid (validateSave request)
  if request.requestId.length > 255 ∨ request.changes.length > 1024 then
    invalid (str "save request is too large")
  let store ← findStore engine ((request.changes.head?.map fun c => c.target.store).getD []) true
  let fields ← request.changes.mapM (prepareChange p store)
  let signature ← signature p request
  let ledger ← ledgerField request.requestId
  .ok { store, fields, signature, hash := hashKey store, ledger }

/-- The keys of `snapshots`: the object fields, each once and in order. -/
def snapshotFields (fields : List Bytes) : List Bytes :=
  (fields.foldl (fun m field => m.insertIfNew field ()) (∅ : StringMap Unit)).keys

/-- The fields of the snapshot read. -/
def Prepared.reads (prepared : Prepared) : List Bytes :=
  prepared.ledger :: snapshotFields prepared.fields

/-- `if (!bytes->empty()) documents.emplace(field, EntityCodec::decode(*bytes))`. -/
def addDocument (field bytes : Bytes) (documents : StringMap Document) :
    Except EntityError (StringMap Document) :=
  if bytes = [] then .ok documents
  else do
    let document ← decode bytes
    .ok (documents.insertIfNew field document)

/-- The loop over `snapshots` and the elements of the reply, with the size and the documents so
far. -/
def readSnapshots : List Bytes → List Reply → ℕ → StringMap Document →
    Except EntityError (List (Bytes × Option Bytes) × StringMap Document)
  | field :: rest, .nil :: items, total, documents => do
      let (snapshots, documents) ← readSnapshots rest items total documents
      .ok ((field, none) :: snapshots, documents)
  | field :: rest, item :: items, total, documents => do
      let bytes ← stringReply item
      if total + bytes.length > Writer.maxBytes then invalid (str "batch snapshot exceeds 8 MiB")
      let documents ← addDocument field bytes documents
      let (snapshots, documents) ← readSnapshots rest items (total + bytes.length) documents
      .ok ((field, some bytes) :: snapshots, documents)
  | _, _, _, documents => .ok ([], documents)

/-- The second change loop of `save`: every change is applied to the document of its field. -/
def applyChanges (store : StoreSchema) : List (EntityPatch × Bytes) → StringMap Document →
    Except EntityError (List CommittedEntity × StringMap Document)
  | [], documents => .ok ([], documents)
  | (patch, field) :: rest, documents => do
      let mapped ← findEntity store patch.target.entity
      let document ← apply p (documents.getD field {}) mapped patch
      let (entities, documents) ← applyChanges store rest (documents.insert field document)
      .ok ({ target := patch.target, version := document.version, operation := patch.operation }
        :: entities, documents)

/-- The bytes a document is stored as; the empty text marks a deleted one. -/
def storedBytes (document : Document) : Except EntityError Bytes :=
  if document.version = 0 then .ok [] else encode p document

/-- One object of the commit command. -/
structure Entry where
  field : Bytes
  before : Option Bytes
  updated : Bytes

/-- The loop that builds the commit command, with the size so far.  Every field has a document,
because every field belongs to a change. -/
def buildEntries (documents : StringMap Document) : List (Bytes × Option Bytes) → ℕ →
    Except EntityError (List Entry)
  | [], _ => .ok []
  | (field, before) :: rest, total => do
      let updated ← storedBytes p (documents.getD field {})
      let total := total + (field.length + updated.length + (before.getD []).length)
      if total > 3 * Writer.maxBytes then invalid (str "atomic batch exceeds 24 MiB")
      let entries ← buildEntries documents rest total
      .ok ({ field, before, updated } :: entries)

/-- A commit that is ready to be sent: the result to answer with and the script's arguments. -/
structure Plan where
  entities : List CommittedEntity
  record : Bytes
  entries : List Entry

/-- The four arguments of one object. -/
def Entry.arguments (entry : Entry) : List Bytes :=
  [entry.field, if entry.before.isSome then str "1" else str "0", entry.before.getD [],
    entry.updated]

/-- `ARGV`. -/
def Plan.arguments (plan : Plan) (ledger : Bytes) : List Bytes :=
  ledger :: plan.record :: natText plan.entries.length :: plan.entries.flatMap Entry.arguments

/-- What `save` knows after the snapshot read. -/
inductive Snapshot where
  | replayed (result : SaveResult)
  | planned (plan : Plan)

/-- An iteration of the retry loop from the reply of the snapshot read to the commit command. -/
def planCommit (prepared : Prepared) (request : SaveRequest) (reply : Reply) :
    Except EntityError Snapshot := do
  checkReply reply
  match reply with
  | .array (first :: items) =>
    if items.length ≠ (snapshotFields prepared.fields).length then
      corrupt (str "unexpected Redis snapshot reply")
    else match first with
      | .nil => do
          let (snapshots, documents) ←
            readSnapshots (snapshotFields prepared.fields) items 0 ∅
          let (entities, documents) ←
            applyChanges p prepared.store (request.changes.zip prepared.fields) documents
          let record ← ledger prepared.signature { requestId := request.requestId, entities }
          let entries ← buildEntries p documents snapshots record.length
          .ok (.planned { entities, record, entries })
      | first => do
          let bytes ← stringReply first
          let result ← replay request prepared.signature bytes
          .ok (.replayed result)
  | _ => corrupt (str "unexpected Redis snapshot reply")

/-- The result of a commit that was acknowledged. -/
def committedResult (request : SaveRequest) (entities : List CommittedEntity) : SaveResult where
  code := .ok
  requestId := request.requestId
  committed := true
  entities := entities

/-- An iteration of the retry loop from the reply of the commit command on.  `none` is a snapshot
that was out of date. -/
def finishCommit (prepared : Prepared) (request : SaveRequest) (plan : Plan) (reply : Reply) :
    Except EntityError (Option SaveResult) := do
  checkReply reply
  match reply with
  | .integer _ => .ok (some (committedResult request plan.entities))
  | .array (.integer status :: rest) =>
    match rest with
    | [previous] =>
      if status = 2 then do
        let bytes ← stringReply previous
        let result ← replay request prepared.signature bytes
        .ok (some result)
      else if status ≠ 0 then corrupt (str "unknown Redis commit status")
      else .ok none
    | _ =>
      if status ≠ 0 then corrupt (str "unknown Redis commit status") else .ok none
  | _ => corrupt (str "unexpected Redis commit reply")

/-! ## Loading -/

/-- The projection of `load`. -/
def selectFields (mapped : EntitySchema) (fields : FieldMask) :
    Except EntityError (List FieldSchema) :=
  if fields.allFields then .ok mapped.fields
  else fields.names.mapM fun name =>
    match mapped.findField name with
    | none => invalid (str "unknown projected field: " ++ name)
    | some column => .ok column

/-- What `load` computes from the request before it talks to Redis. -/
structure PreparedLoad where
  mapped : EntitySchema
  hash : Bytes
  field : Bytes
  selected : List FieldSchema

def prepareLoad (engine : Engine) (request : LoadRequest) : Except EntityError PreparedLoad := do
  checkConfig engine
  orInvalid (validateLoad request)
  let store ← findStore engine request.target.store false
  let mapped ← findEntity store request.target.entity
  let field ← objectField p mapped request.target
  let selected ← selectFields mapped request.fields
  .ok { mapped, hash := hashKey store, field, selected }

/-- An iteration of the retry loop of `load`, from the reply of the read on. -/
def finishLoad (prepared : PreparedLoad) (request : LoadRequest) (reply : Reply) :
    Except EntityError LoadResult := do
  checkReply reply
  match reply with
  | .nil => .ok { code := .notFound, target := request.target }
  | reply => do
      let bytes ← stringReply reply
      if bytes = [] then .ok { code := .notFound, target := request.target }
      else do
        let document ← decode bytes
        validateDocument p document prepared.mapped
        .ok {
          code := .ok
          target := request.target
          fields := selectValues prepared.selected document
          version := document.version }

/-! ## A store to evaluate the engine on -/

namespace Sample

def store : StoreSchema where
  name := str "default"
  readService := str "redis_service"
  writeService := str "redis_service"
  entities := (∅ : StringMap EntitySchema).insert (str "player") NullExample.mapped

def engine : Engine where
  name := str "default"
  settings := { catalog := ((SchemaCatalog.empty true).addStore store).toOption.getD (.empty true) }

/-- Create a player or set its counter. -/
def request (requestId : Bytes) : SaveRequest where
  requestId := requestId
  changes := [{ (NullExample.patch .set) with createIfMissing := true }]

end Sample

end Caf.EntityStore.Redis
