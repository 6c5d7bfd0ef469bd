import CafPluginSystem.EntityStore.Schema
import CafPluginSystem.Library.Framing
import CafPluginSystem.Redis.Decimal

/-!
# The entity codec

The classes `Writer`, `Reader` and `EntityCodec` of `plugins/redis/redis_entity_codec.hpp`: the
versioned, length-prefixed byte format in which the Redis adapter stores entities and commit
records, names its hash fields and signs requests.

A `Writer` is the bytes written so far and a `Reader` is the bytes still to be read.  What the
source takes from elsewhere — CAF's JSON parser and the floating-point operations — is a
`Platform`; nothing is assumed about it.
-/

namespace Caf.EntityStore.Redis

open DecimalText Framing

/-- The operations the codec takes from CAF and from the C++ implementation. -/
structure Platform where
  /-- `caf::json_value::parse` accepts the text, and as an object or an array. -/
  jsonContainer : Bytes → Bool
  /-- `std::to_chars` in general format with `max_digits10` digits. -/
  realToChars : Double → Option Bytes
  /-- `std::from_chars` that consumes the whole text. -/
  realFromChars : Bytes → Option Double
  realAdd : Double → Double → Double

/-- A platform without JSON and without floating point, to evaluate the model on. -/
def Platform.integral : Platform where
  jsonContainer _ := false
  realToChars _ := none
  realFromChars _ := none
  realAdd x _ := x

namespace Writer

/-- `Writer::max_bytes`. -/
def maxBytes : ℕ := 8 * 1024 * 1024

def check (data : Bytes) : Except EntityError Bytes :=
  if data.length > maxBytes then invalid (str "entity payload exceeds 8 MiB") else .ok data

def number (data : Bytes) (value : UInt64) : Bytes := data ++ bigEndian value

def byte (data : Bytes) (value : UInt8) : Bytes := data ++ [value]

def text (data value : Bytes) : Except EntityError Bytes :=
  if value.length > maxBytes then invalid (str "entity payload exceeds 8 MiB")
  else check (number data (UInt64.ofNat value.length) ++ value)

def take (data : Bytes) : Except EntityError Bytes := check data

end Writer

namespace Reader

/-- The constructor `Reader(data)`. -/
def make (data : Bytes) : Except EntityError Bytes :=
  if data.length > Writer.maxBytes then corrupt (str "stored entity exceeds size limit")
  else .ok data

def byte : Bytes → Except EntityError (UInt8 × Bytes)
  | [] => corrupt (str "truncated entity encoding")
  | c :: rest => .ok (c, rest)

/-- The loop of `number()`, with the bytes still to come and the number so far. -/
def numberLoop : ℕ → UInt64 → Bytes → Except EntityError (UInt64 × Bytes)
  | 0, out, data => .ok (out, data)
  | n + 1, out, data => do
      let (c, rest) ← byte data
      numberLoop n ((out <<< 8) ||| c.toUInt64) rest

def number (data : Bytes) : Except EntityError (UInt64 × Bytes) := numberLoop 8 0 data

def text (data : Bytes) : Except EntityError (Bytes × Bytes) := do
  let (count, rest) ← number data
  if count.toNat > rest.length then corrupt (str "invalid entity length")
  else .ok (rest.take count.toNat, rest.drop count.toNat)

def finish : Bytes → Except EntityError Unit
  | [] => .ok ()
  | _ :: _ => corrupt (str "trailing entity data")

end Reader

/-- A stored entity: its version, 0 while it does not exist, and its values by physical column. -/
structure Document where
  version : UInt64 := 0
  fields : StringMap Value := ∅

namespace EntityCodec

variable (p : Platform)

/-! ## Values -/

def encodeValue (out : Bytes) (item : Value) : Except EntityError Bytes :=
  let out := Writer.byte out item.kind.code
  match item.kind with
  | .nullValue => .ok out
  | .boolean => .ok (Writer.byte out (if item.booleanValue then 1 else 0))
  | .signedInteger => .ok (Writer.number out item.signedValue.toUInt64)
  | .unsignedInteger => .ok (Writer.number out item.unsignedValue)
  | .real =>
    if !item.realValue.isFinite then invalid (str "non-finite real")
    else .ok (Writer.number out (if item.realValue.isZero then .zero else item.realValue).bits)
  | .decimal => do
      let parsed ← Decimal.ofText item.textValue
      Writer.text out parsed.str
  | .text => Writer.text out item.textValue
  | .json =>
    if !p.jsonContainer item.textValue then
      invalid (str "JSON field must be one object or array")
    else Writer.text out item.textValue
  | .bytes => Writer.text out item.bytesValue

def decodeValue (data : Bytes) : Except EntityError (Value × Bytes) := do
  let (kind, rest) ← Reader.byte data
  if kind = 0 then .ok (.null, rest)
  else if kind = 1 then do
    let (b, rest) ← Reader.byte rest
    if b > 1 then corrupt (str "invalid boolean") else .ok (.boolean (b != 0), rest)
  else if kind = 2 then do
    let (n, rest) ← Reader.number rest
    .ok (.signedInteger n.toInt64, rest)
  else if kind = 3 then do
    let (n, rest) ← Reader.number rest
    .ok (.unsignedInteger n, rest)
  else if kind = 4 then do
    let (n, rest) ← Reader.number rest
    .ok (.real ⟨n⟩, rest)
  else if kind = 5 then do
    let (text, rest) ← Reader.text rest
    .ok (.decimal text, rest)
  else if kind = 6 then do
    let (text, rest) ← Reader.text rest
    .ok (.text text, rest)
  else if kind = 7 then do
    let (text, rest) ← Reader.text rest
    .ok (.json text, rest)
  else if kind = 8 then do
    let (bytes, rest) ← Reader.text rest
    .ok (.bytes bytes, rest)
  else corrupt (str "unknown stored value kind")

def numericText (item : Value) : Except EntityError Bytes :=
  match item.kind with
  | .signedInteger => .ok (intText item.signedValue.toInt)
  | .unsignedInteger => .ok (natText item.unsignedValue.toNat)
  | .decimal => do
      let parsed ← Decimal.ofText item.textValue
      .ok parsed.str
  | .real =>
    if !item.realValue.isFinite then invalid (str "non-finite real")
    else match p.realToChars item.realValue with
      | none => invalid (str "invalid real")
      | some text => .ok text
  | _ => invalid (str "increment requires a numeric value")

def validateValue (item : Value) (field : FieldSchema) (key : Bool := false) :
    Except EntityError Unit := do
  if item.kind = .nullValue then
    if key ∨ !field.nullable then invalid (str "field cannot be null: " ++ field.name)
  else if item.kind ≠ field.kind then
    invalid (str "value kind does not match schema: " ++ field.name)
  let _ ← encodeValue p [] item
  .ok ()

def zero : ValueKind → Except EntityError Value
  | .signedInteger => .ok (.signedInteger 0)
  | .unsignedInteger => .ok (.unsignedInteger 0)
  | .real => .ok (.real .zero)
  | .decimal => .ok (.decimal (str "0"))
  | _ => invalid (str "increment requires a numeric schema field")

/-- The branch of `increment` for a `real` field. -/
def incrementReal (before delta : Value) : Except EntityError Value := do
  let text ← numericText p delta
  match p.realFromChars text with
  | none => invalid (str "real increment overflow")
  | some amount =>
    if !amount.isFinite || !(p.realAdd before.realValue amount).isFinite then
      invalid (str "real increment overflow")
    else .ok (.real (p.realAdd before.realValue amount))

/-- The end of `increment` for integers and decimals: the sum, if the field can hold it. -/
def incrementSum (before : Value) (change : Decimal) (kind : ValueKind) :
    Except EntityError Value := do
  let beforeText ← numericText p before
  let augend ← Decimal.ofText beforeText
  let sum ← augend.add change
  if kind = .decimal then .ok (.decimal sum.str)
  else do
    let text ← sum.integer
    if kind = .signedInteger then
      match int64OfText? text with
      | none => invalid (str "signed increment overflow")
      | some number => .ok (.signedInteger number)
    else
      match uint64OfText? text with
      | none => invalid (str "unsigned increment overflow")
      | some number => .ok (.unsignedInteger number)

/-- The branches of `increment` for integers and decimals. -/
def incrementExact (before delta : Value) (kind : ValueKind) : Except EntityError Value := do
  let deltaText ← numericText p delta
  let change ← Decimal.ofText deltaText
  if kind = .decimal then incrementSum p before change kind
  else do
    let _ ← change.integer
    incrementSum p before change kind

def increment (before delta : Value) (kind : ValueKind) : Except EntityError Value :=
  if !kind.isNumber || !delta.kind.isNumber || before.kind != kind then
    invalid (str "cannot increment null or non-numeric field")
  else if kind = .real then incrementReal p before delta
  else incrementExact p before delta kind

/-! ## Documents -/

/-- The body of the field loops: a name, then a value. -/
def encodeEntry (out : Bytes) (entry : Bytes × Value) : Except EntityError Bytes := do
  let out ← Writer.text out entry.1
  encodeValue p out entry.2

def encode (document : Document) : Except EntityError Bytes := do
  let out ← Writer.text [] (str "redis-entity-v1")
  let out := Writer.number out document.version
  let out := Writer.number out (UInt64.ofNat document.fields.size)
  let out ← document.fields.toList.foldlM (encodeEntry p) out
  Writer.take out

/-- The field loop of `decode`, with the number of fields still to be read. -/
def decodeFields : ℕ → StringMap Value → Bytes → Except EntityError (StringMap Value × Bytes)
  | 0, fields, data => .ok (fields, data)
  | n + 1, fields, data => do
      let (column, rest) ← Reader.text data
      let (item, rest) ← decodeValue rest
      if column ∈ fields then corrupt (str "duplicate stored field")
      else decodeFields n (fields.insert column item) rest

def decode (bytes : Bytes) : Except EntityError Document := do
  let data ← Reader.make bytes
  let (format, data) ← Reader.text data
  if format ≠ str "redis-entity-v1" then corrupt (str "unsupported entity encoding")
  let (version, data) ← Reader.number data
  if version = 0 ∨ version > int64Max then corrupt (str "invalid entity version")
  let (count, data) ← Reader.number data
  if count > 65536 then corrupt (str "too many stored fields")
  let (fields, data) ← decodeFields count.toNat ∅ data
  Reader.finish data
  .ok { version := version, fields := fields }

/-! ## Requests -/

/-- The body of the key loop of `encode_target`. -/
def encodeKey (out : Bytes) (key : NamedValue) : Except EntityError Bytes :=
  encodeEntry p out (key.name, key.data)

def encodeTarget (out : Bytes) (target : EntityRef) : Except EntityError Bytes := do
  let out ← Writer.text out target.store
  let out ← Writer.text out target.partition
  let out ← Writer.text out target.entity
  let out := Writer.number out (UInt64.ofNat target.key.length)
  target.key.foldlM (encodeKey p) out

/-- The body of the field loop of `signature`. -/
def encodePatch (out : Bytes) (field : FieldPatch) : Except EntityError Bytes := do
  let out ← Writer.text out field.name
  encodeValue p (Writer.byte out field.operation.code) field.data

/-- `static_cast<uint8_t>` of a `bool`. -/
def flag (b : Bool) : UInt8 := if b then 1 else 0

/-- The body of the change loop of `signature`. -/
def encodeChange (out : Bytes) (change : EntityPatch) : Except EntityError Bytes := do
  let out ← encodeTarget p out change.target
  let out := Writer.byte out (flag change.createIfMissing)
  let out := Writer.byte out (flag change.checkVersion)
  let out := Writer.number out change.expectedVersion
  let out := Writer.number out (UInt64.ofNat change.fields.length)
  change.fields.foldlM (encodePatch p) out

def signature (request : SaveRequest) : Except EntityError Bytes := do
  let out ← Writer.text [] (str "redis-request-v1")
  let out := Writer.number out (UInt64.ofNat request.changes.length)
  let out ← request.changes.foldlM (encodeChange p) out
  if request.changes.any fun x => x.operation != .legacyPatch then do
    let out ← Writer.text out (str "strict-crud-v1")
    Writer.take (request.changes.foldl (fun out x => Writer.byte out x.operation.code) out)
  else Writer.take out

/-! ## Names of hash fields -/

/-- The key loop of `object_field`: the values of the target's key by physical column. -/
def collectKeys (target : EntityRef) : List FieldSchema → StringMap Value →
    Except EntityError (StringMap Value)
  | [], keys => .ok keys
  | key :: rest, keys =>
    match target.key.find? fun item => item.name == key.name with
    | none => invalid (str "missing entity key: " ++ key.name)
    | some found => do
        validateValue p found.data key true
        collectKeys target rest (keys.insertIfNew key.column found.data)

def objectField (mapped : EntitySchema) (target : EntityRef) : Except EntityError Bytes := do
  if target.key.length ≠ mapped.keys.length then invalid (str "entity key count mismatch")
  let out ← Writer.text [] (str "object")
  let out ← Writer.text out mapped.table
  let keys ← collectKeys p target mapped.keys ∅
  let out ← keys.toList.foldlM (encodeEntry p) out
  Writer.take out

def ledgerField (requestId : Bytes) : Except EntityError Bytes := do
  let out ← Writer.text [] (str "request")
  let out ← Writer.text out requestId
  Writer.take out

def hashKey (store : StoreSchema) : Bytes :=
  str "__caf_entity_store:v1:" ++ store.idempotencyTable

/-! ## Commit records -/

def ledger (signature : Bytes) (result : SaveResult) : Except EntityError Bytes := do
  let out ← Writer.text [] (str "redis-commit-v1")
  let out ← Writer.text out signature
  let out := Writer.number out (UInt64.ofNat result.entities.length)
  Writer.take (result.entities.foldl (fun out item => Writer.number out item.version) out)

/-- The change loop of `replay`. -/
def replayEntities : List EntityPatch → Bytes → Except EntityError (List CommittedEntity × Bytes)
  | [], data => .ok ([], data)
  | change :: rest, data => do
      let (version, data) ← Reader.number data
      if version > int64Max ∨ (version = 0) ≠ (change.operation = .deleteEntity) then
        corrupt (str "invalid committed version")
      else do
        let (entities, data) ← replayEntities rest data
        .ok ({ target := change.target, version, operation := change.operation } :: entities, data)

def replay (request : SaveRequest) (signature bytes : Bytes) : Except EntityError SaveResult := do
  let data ← Reader.make bytes
  let (format, data) ← Reader.text data
  if format ≠ str "redis-commit-v1" then corrupt (str "unsupported commit record")
  let (signed, data) ← Reader.text data
  if signed ≠ signature then
    .error { code := .conflict, message := str "request_id was already used with different payload",
             failed := conflict_ne_ok }
  let (count, data) ← Reader.number data
  if count ≠ UInt64.ofNat request.changes.length then
    corrupt (str "invalid commit record count")
  let (entities, data) ← replayEntities request.changes data
  Reader.finish data
  .ok { code := .ok, requestId := request.requestId, committed := true, entities }

end EntityCodec

end Caf.EntityStore.Redis
