import CafPluginSystem.Database.Contract
import CafPluginSystem.EntityStore.Schema
import CafPluginSystem.Library.DecimalText

/-!
# Statements of the SQL entity store

What the SQL adapter sends to a database (`include/templates/sql_entity_store_statements.hpp`), and
the texts it writes into the idempotency table (`request_signature`, `encode_versions` and
`decode_versions` of `include/templates/sql_entity_store_actor.hpp`).

A statement is what it says, not the text that says it: the three dialects differ in the text
only.  The builder checks a request against the schema, with the texts of the source, before it
builds anything.

* `decodeVersions_encodeVersions` — the versions of a commit read back from their text.
* `decodeVersions_exact` — and which texts are read at all.
-/

namespace Caf.EntityStore.Sql

open DecimalText List

/-! ## Statements -/

/-- The statements that the adapter generates. -/
inductive Statement where
  | createIdempotencyTable (table : Bytes)
  /-- Insert the request id with an empty result, unless it is there. -/
  | reserveRequest (table requestId signature : Bytes)
  /-- Select the signature and the result of a request id. -/
  | loadRequestRecord (table requestId : Bytes)
  /-- Update the result of a request id. -/
  | finishRequestRecord (table requestId resultData : Bytes)
  /-- Update the fields of a row and count its version up, where the key matches and, when the patch
  checks it, the version. -/
  | update (schema : EntitySchema) (patch : EntityPatch)
  /-- Insert a row with version 1. -/
  | insert (schema : EntitySchema) (patch : EntityPatch)
  /-- Delete the row where the key matches and, when the patch checks it, the version. -/
  | deleteEntity (schema : EntitySchema) (patch : EntityPatch)
  /-- Select the version of a row. -/
  | currentVersion (schema : EntitySchema) (target : EntityRef)
  deriving DecidableEq, Repr

/-! ## The statement builder -/

/-- `find_named`. -/
def findNamed (values : List NamedValue) (name : Bytes) : Option NamedValue :=
  values.find? fun value => value.name == name

def compatible (expected actual : ValueKind) (increment : Bool) : Bool :=
  if actual = .nullValue then true
  else if increment then expected.isNumber && actual.isNumber
  else expected == actual || (expected.isNumber && actual.isNumber)

/-- One iteration of `validate_keys`. -/
def validateKey (target : EntityRef) (expected : FieldSchema) : Except Bytes Unit :=
  match findNamed target.key expected.name with
  | none => .error (str "missing entity key: " ++ expected.name)
  | some actual =>
    if actual.data.kind = .nullValue ∨ !compatible expected.kind actual.data.kind false then
      .error (str "invalid key type: " ++ expected.name)
    else .ok ()

def validateKeys (schema : EntitySchema) (target : EntityRef) : Except Bytes Unit :=
  if target.key.length ≠ schema.keys.length then
    .error (str "entity key does not match schema: " ++ target.entity)
  else schema.keys.forM (validateKey target)

/-- One iteration of `validate_patch`. -/
def validatePatchField (schema : EntitySchema) (change : FieldPatch) : Except Bytes Unit :=
  match schema.findWritableField change.name with
  | none => .error (str "unknown or read-only entity field: " ++ change.name)
  | some field =>
    if (change.operation = .erase ∨ change.data.kind = .nullValue) ∧ !field.nullable then
      .error (str "entity field is not nullable: " ++ change.name)
    else if change.operation ≠ .erase ∧
        !compatible field.kind change.data.kind (change.operation = .increment) then
      .error (str "invalid entity field type: " ++ change.name)
    else .ok ()

def validatePatch (schema : EntitySchema) (patch : EntityPatch) : Except Bytes Unit :=
  patch.fields.forM (validatePatchField schema)

namespace StatementBuilder

def update (schema : EntitySchema) (patch : EntityPatch) : Except Bytes Statement := do
  validateKeys schema patch.target
  validatePatch schema patch
  .ok (.update schema patch)

def insert (schema : EntitySchema) (patch : EntityPatch) : Except Bytes Statement := do
  validateKeys schema patch.target
  validatePatch schema patch
  .ok (.insert schema patch)

def deleteEntity (schema : EntitySchema) (patch : EntityPatch) : Except Bytes Statement := do
  validateKeys schema patch.target
  .ok (.deleteEntity schema patch)

def currentVersion (schema : EntitySchema) (target : EntityRef) : Except Bytes Statement := do
  validateKeys schema target
  .ok (.currentVersion schema target)

end StatementBuilder

/-! ## Signatures -/

/-- `token`: a text behind its length. -/
def token (value : Bytes) : Bytes := natText value.length ++ 58 :: value

/-- `append_value`.  `realText` prints a `double` with `max_digits10` significant digits. -/
def valueTokens (realText : Double → Bytes) (item : Value) : Bytes :=
  token (natText item.kind.code.toNat) ++ token (
    match item.kind with
    | .nullValue => []
    | .boolean => if item.booleanValue then str "1" else str "0"
    | .signedInteger => intText item.signedValue.toInt
    | .unsignedInteger => natText item.unsignedValue.toNat
    | .real => realText item.realValue
    | .decimal | .text | .json => item.textValue
    | .bytes => item.bytesValue)

def flagToken (b : Bool) : Bytes := token (if b then str "1" else str "0")

/-- The part of the signature for one change. -/
def changeTokens (realText : Double → Bytes) (change : EntityPatch) : Bytes :=
  token change.target.store ++ token change.target.partition ++ token change.target.entity
    ++ token (natText change.target.key.length)
    ++ change.target.key.flatMap (fun key => token key.name ++ valueTokens realText key.data)
    ++ flagToken change.createIfMissing ++ flagToken change.checkVersion
    ++ token (natText change.expectedVersion.toNat) ++ token (natText change.fields.length)
    ++ change.fields.flatMap fun field =>
      token (natText field.operation.code.toNat) ++ token field.name
        ++ valueTokens realText field.data

def requestSignature (realText : Double → Bytes) (request : SaveRequest) : Bytes :=
  token (natText request.changes.length) ++ request.changes.flatMap (changeTokens realText)
    ++ if request.changes.any fun x => x.operation != .legacyPatch then
        token (str "strict-crud-v1")
          ++ request.changes.flatMap fun x => token (natText x.operation.code.toNat)
      else []

/-! ## Versions of a commit -/

def encodeVersions : List UInt64 → Bytes
  | [] => []
  | [version] => natText version.toNat
  | version :: rest => natText version.toNat ++ 44 :: encodeVersions rest

/-- The loop of `decode_versions`, with the number of versions still missing and the text behind
the last comma. -/
def decodeVersions : ℕ → Bytes → Option (List UInt64)
  | 0, _ => none
  | n + 1, text =>
    match uint64OfText? (text.takeWhile (· != 44)) with
    | none => none
    | some version =>
      match text.dropWhile (· != 44) with
      | [] => if n = 0 then some [version] else none
      | _ :: rest => (decodeVersions n rest).map (version :: ·)

/-- A non-empty text of digits, and the version it denotes. -/
def Denotes (part : Bytes) (version : UInt64) : Prop :=
  ∃ ds, ds ≠ [] ∧ part = ds.map digitByte ∧ value ds = version.toNat

lemma uint64OfText_eq_some {part : Bytes} {version : UInt64} :
    uint64OfText? part = some version ↔ Denotes part version := by
  constructor
  · intro h
    obtain ⟨n, hn, hrange⟩ := Option.bind_eq_some_iff.mp h
    obtain ⟨ds, hne, rfl⟩ := natOfText_eq_some hn
    rw [natOfText_map hne, Option.some.injEq] at hn
    obtain ⟨hlt, rfl⟩ : n < 2 ^ 64 ∧ UInt64.ofNat n = version := by simpa using hrange
    exact ⟨ds, hne, rfl, by rw [hn, UInt64.toNat_ofNat', Nat.mod_eq_of_lt hlt]⟩
  · rintro ⟨ds, hne, rfl, hvalue⟩
    simp [uint64OfText?, natOfText_map hne, hvalue, version.toNat_lt]

/-- The pieces between the commas, as the loop finds them. -/
lemma splitOn_comma (text : Bytes) : text.splitOn 44 = text.takeWhile (· != 44) ::
    match text.dropWhile (· != 44) with
    | [] => []
    | _ :: rest => rest.splitOn 44 := by
  have hfront : (44 : UInt8) ∉ text.takeWhile (· != 44) := fun h => by
    simpa using mem_takeWhile_imp h
  have hback := head_dropWhile_not (l := text) (· != (44 : UInt8))
  conv_lhs => rw [← text.takeWhile_append_dropWhile (p := (· != 44))]
  cases hrest : text.dropWhile (· != 44) with
  | nil => rw [append_nil, splitOn_eq_singleton hfront]
  | cons c rest =>
    obtain rfl : c = 44 := by simpa [hrest] using hback
    rw [splitOn_append_cons_self, splitOn_eq_singleton hfront]
    rfl

/-- **Exactly the texts of `n` versions are read.** -/
lemma decodeVersions_eq_some {n : ℕ} {text : Bytes} {versions : List UInt64} :
    decodeVersions n text = some versions ↔
      versions.length = n ∧ Forall₂ Denotes (text.splitOn 44) versions := by
  induction n generalizing text versions with
  | zero =>
    rw [splitOn_comma]
    cases versions <;> simp [decodeVersions]
  | succ n ih =>
    rw [decodeVersions, splitOn_comma]
    cases versions with
    | nil =>
      split
      · simp
      · split
        · split <;> simp
        · simp
    | cons version versions =>
      rw [forall₂_cons, ← uint64OfText_eq_some]
      cases uint64OfText? (text.takeWhile (· != 44)) with
      | none => simp
      | some first =>
        cases text.dropWhile (· != 44) with
        | nil => cases versions <;> simp [eq_comm]
        | cons c rest => simp [ih, and_left_comm]

lemma splitOn_encodeVersions : ∀ {versions : List UInt64}, versions ≠ [] →
    (encodeVersions versions).splitOn 44 = versions.map fun version => natText version.toNat := by
  have hno (n : ℕ) : (44 : UInt8) ∉ natText n := fun hc => by simpa using natText_mem hc
  intro versions hne
  induction versions with
  | nil => exact absurd rfl hne
  | cons version rest ih =>
    cases rest with
    | nil => exact splitOn_eq_singleton (hno _)
    | cons next rest =>
      rw [encodeVersions, splitOn_append_cons_self, splitOn_eq_singleton (hno _), ih (cons_ne_nil _ _)]
      · rfl
      · simp

/-- **The versions of a commit read back from their text**, by whoever expects as many. -/
lemma decodeVersions_encodeVersions {versions : List UInt64} (n : ℕ) (hne : versions ≠ []) :
    decodeVersions n (encodeVersions versions)
      = if n = versions.length then some versions else none := by
  have hsplit := splitOn_encodeVersions hne
  split_ifs with hn
  · refine decodeVersions_eq_some.mpr ⟨hn.symm, ?_⟩
    rw [hsplit, forall₂_map_left_iff, forall₂_same]
    exact fun version _ => uint64OfText_eq_some.mp (uint64OfText_natText version)
  · refine Option.eq_none_iff_forall_ne_some.mpr fun read hread => hn ?_
    obtain ⟨hlen, hall⟩ := decodeVersions_eq_some.mp hread
    rw [← hlen, ← hall.length_eq, hsplit, length_map]

/-- **The text of versions is read back, and exactly the texts of `n` versions are read.** -/
theorem decodeVersions_exact :
    (∀ versions, versions ≠ [] →
      decodeVersions versions.length (encodeVersions versions) = some versions) ∧
    ∀ n text versions, decodeVersions n text = some versions ↔
      versions.length = n ∧ Forall₂ Denotes (text.splitOn 44) versions := by
  refine ⟨fun versions hne => ?_, fun n text versions => decodeVersions_eq_some⟩
  rw [decodeVersions_encodeVersions _ hne, if_pos rfl]

/-- The text of a request that is only reserved holds no versions. -/
lemma decodeVersions_nil (n : ℕ) : decodeVersions n [] = none := by
  cases n <;> rfl

/-- Equal texts of equally many versions are of equal versions. -/
lemma encodeVersions_injective {versions versions' : List UInt64}
    (hlen : versions.length = versions'.length)
    (h : encodeVersions versions = encodeVersions versions') : versions = versions' := by
  rcases eq_or_ne versions [] with rfl | hne
  · exact (length_eq_zero_iff.mp hlen.symm).symm
  · have hne' : versions' ≠ [] := by
      rintro rfl
      exact hne (length_eq_zero_iff.mp hlen)
    have hread := decodeVersions_encodeVersions versions.length hne
    rw [h, decodeVersions_encodeVersions _ hne', if_pos hlen, if_pos rfl] at hread
    exact (Option.some.inj hread).symm

end Caf.EntityStore.Sql
