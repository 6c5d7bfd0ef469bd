import CafPluginSystem.Library.Fallible

/-!
# The entity store contract

The data that business actors and storage adapters exchange
(`include/common/entity_store_contract.hpp`) and its structural validation.

`std::string` is a list of bytes throughout: identifiers, texts and error messages are compared,
measured and encoded byte by byte.  A `value` keeps all its members, the ones its kind does not
select included, because `operator==` compares them all.  A `double` is its IEEE 754 bit pattern;
what the model needs of it — being finite, a NaN or a zero — is read off the bits.
-/

namespace Caf

/-- A `std::string`: its bytes. -/
abbrev Bytes := List UInt8

instance lawfulBEqBytes : LawfulBEq Bytes := inferInstance

/-- The bytes of an ASCII literal of the source. -/
def str (s : String) : Bytes := s.toList.map fun c => UInt8.ofNat c.toNat

/-- A `double`, by its bit pattern. -/
structure Double where
  bits : UInt64
  deriving DecidableEq, Repr

namespace Double

/-- `std::isfinite`: the exponent field is not all ones. -/
def isFinite (x : Double) : Bool := (x.bits >>> 52) &&& 0x7ff != 0x7ff

/-- `x == 0`: every bit but the sign is clear. -/
def isZero (x : Double) : Bool := x.bits <<< 1 == 0

/-- The positive zero. -/
def zero : Double := ⟨0⟩

/-- The exponent field is all ones and the fraction is not zero. -/
def isNaN (x : Double) : Bool := !x.isFinite && x.bits <<< 12 != 0

/-- `operator==`: a NaN equals nothing, and the two zeros are equal. -/
def sameAs (x y : Double) : Bool := !x.isNaN && !y.isNaN && (x == y || x.isZero && y.isZero)

end Double

namespace EntityStore

inductive ValueKind where
  | nullValue | boolean | signedInteger | unsignedInteger | real | decimal | text | json | bytes
  deriving DecidableEq, Repr

/-- `static_cast<uint8_t>(kind)`. -/
def ValueKind.code : ValueKind → UInt8
  | .nullValue => 0
  | .boolean => 1
  | .signedInteger => 2
  | .unsignedInteger => 3
  | .real => 4
  | .decimal => 5
  | .text => 6
  | .json => 7
  | .bytes => 8

/-- `detail::is_number`. -/
def ValueKind.isNumber : ValueKind → Bool
  | .signedInteger | .unsignedInteger | .real | .decimal => true
  | _ => false

/-- A value of the contract.  Only the member that `kind` selects is meaningful, but all of them
travel with the value and are compared by `operator==`. -/
structure Value where
  kind : ValueKind := .nullValue
  booleanValue : Bool := false
  signedValue : Int64 := 0
  unsignedValue : UInt64 := 0
  realValue : Double := .zero
  textValue : Bytes := []
  bytesValue : Bytes := []
  deriving DecidableEq, Repr

namespace Value

def null : Value := {}
def boolean (x : Bool) : Value := { kind := .boolean, booleanValue := x }
def signedInteger (x : Int64) : Value := { kind := .signedInteger, signedValue := x }
def unsignedInteger (x : UInt64) : Value := { kind := .unsignedInteger, unsignedValue := x }
def real (x : Double) : Value := { kind := .real, realValue := x }
def decimal (x : Bytes) : Value := { kind := .decimal, textValue := x }
def text (x : Bytes) : Value := { kind := .text, textValue := x }
def json (x : Bytes) : Value := { kind := .json, textValue := x }
def bytes (x : Bytes) : Value := { kind := .bytes, bytesValue := x }

/-- `operator==`, member by member. -/
def sameAs (v w : Value) : Bool :=
  v.realValue.sameAs w.realValue && { v with realValue := .zero } == { w with realValue := .zero }

end Value

structure NamedValue where
  name : Bytes
  data : Value
  deriving DecidableEq, Repr

def NamedValue.sameAs (x y : NamedValue) : Bool := x.name == y.name && x.data.sameAs y.data

/-- Where a record lives; the record's data is not part of it. -/
structure EntityRef where
  store : Bytes := str "default"
  partition : Bytes := []
  entity : Bytes := []
  key : List NamedValue := []
  deriving DecidableEq, Repr

structure FieldMask where
  allFields : Bool := true
  names : List Bytes := []
  deriving DecidableEq, Repr

structure LoadRequest where
  target : EntityRef
  fields : FieldMask := {}
  deriving DecidableEq, Repr

inductive ResultCode where
  | ok | notFound | conflict | invalidRequest | unavailable | commitUnknown | internalError
  deriving DecidableEq, Repr

structure LoadResult where
  code : ResultCode := .internalError
  error : Bytes := []
  target : EntityRef := {}
  fields : List NamedValue := []
  version : UInt64 := 0
  deriving DecidableEq, Repr

inductive PatchOp where
  | set | erase | increment
  deriving DecidableEq, Repr

def PatchOp.code : PatchOp → UInt8
  | .set => 0
  | .erase => 1
  | .increment => 2

structure FieldPatch where
  operation : PatchOp := .set
  name : Bytes := []
  data : Value := {}
  deriving DecidableEq, Repr

inductive EntityOperation where
  | legacyPatch | insert | update | deleteEntity
  deriving DecidableEq, Repr

def EntityOperation.code : EntityOperation → UInt8
  | .legacyPatch => 0
  | .insert => 1
  | .update => 2
  | .deleteEntity => 3

structure EntityPatch where
  target : EntityRef
  fields : List FieldPatch := []
  createIfMissing : Bool := false
  checkVersion : Bool := false
  expectedVersion : UInt64 := 0
  operation : EntityOperation := .legacyPatch
  deriving DecidableEq, Repr

/-- The unit of an atomic save; `requestId` is the idempotency key. -/
structure SaveRequest where
  requestId : Bytes
  changes : List EntityPatch
  deriving DecidableEq, Repr

structure CommittedEntity where
  target : EntityRef
  version : UInt64 := 0
  operation : EntityOperation := .legacyPatch
  deriving DecidableEq, Repr

structure SaveResult where
  code : ResultCode := .internalError
  error : Bytes := []
  requestId : Bytes := []
  committed : Bool := false
  entities : List CommittedEntity := []
  deriving DecidableEq, Repr

lemma ValueKind.code_injective : Function.Injective ValueKind.code := by
  intro a b h
  cases a <;> cases b <;> first | rfl | exact absurd h (by decide)

lemma PatchOp.code_injective : Function.Injective PatchOp.code := by
  intro a b h
  cases a <;> cases b <;> first | rfl | exact absurd h (by decide)

lemma EntityOperation.code_injective : Function.Injective EntityOperation.code := by
  intro a b h
  cases a <;> cases b <;> first | rfl | exact absurd h (by decide)

/-- Of operations of which none is strict, only the number is left to say. -/
lemma EntityOperation.eq_replicate {operations : List EntityOperation}
    (h : ¬operations.any (· != .legacyPatch)) :
    operations = List.replicate operations.length .legacyPatch := by
  rw [List.eq_replicate_iff]
  simpa using h

/-- `std::numeric_limits<int64_t>::max()` as a `uint64_t`. -/
def int64Max : UInt64 := 0x7fffffffffffffff

/-! ## Structural validation

`validate` returns an error text, empty when the request is well formed.  Here the empty text is
`Except.ok ()`; the texts and the order of the checks are the source's. -/

/-- The key-name loop of `detail::validate_target`, with the names already inserted. -/
def validateKeyNames : List Bytes → List NamedValue → Except Bytes Unit
  | _, [] => .ok ()
  | names, key :: keys =>
    if key.name = [] then .error (str "target.key contains an empty field name")
    else if key.name ∈ names then
      .error (str "target.key contains duplicate field: " ++ key.name)
    else validateKeyNames (key.name :: names) keys

def validateTarget (target : EntityRef) : Except Bytes Unit :=
  if target.store = [] then .error (str "target.store is empty")
  else if target.entity = [] then .error (str "target.entity is empty")
  else if target.key = [] then .error (str "target.key is empty")
  else validateKeyNames [] target.key

/-- The projection loop of `validate(load_request)`. -/
def validateMaskNames : List Bytes → List Bytes → Except Bytes Unit
  | _, [] => .ok ()
  | names, name :: rest =>
    if name = [] then .error (str "field mask contains an empty field name")
    else if name ∈ names then .error (str "field mask contains duplicate field: " ++ name)
    else validateMaskNames (name :: names) rest

def validateLoad (request : LoadRequest) : Except Bytes Unit := do
  validateTarget request.target
  if request.fields.allFields && request.fields.names ≠ [] then
    .error (str "field mask cannot contain names when all_fields is true")
  if !request.fields.allFields && request.fields.names = [] then
    .error (str "field mask must contain names when all_fields is false")
  validateMaskNames [] request.fields.names

/-- Two changes of one batch, one of them strict, that name the same record: same store, entity
and key count, and every key of the later change is a key of the earlier one. -/
def duplicateStrictTarget (prior change : EntityPatch) : Bool :=
  !(change.operation == .legacyPatch && prior.operation == .legacyPatch)
    && prior.target.store == change.target.store
    && prior.target.entity == change.target.entity
    && prior.target.key.length == change.target.key.length
    && change.target.key.all fun key => prior.target.key.any fun key' => key'.sameAs key

/-- The field loop of `validate(save_request)` for one change, with the names already seen. -/
def validateFields (change : EntityPatch) : List Bytes → List FieldPatch → Except Bytes Unit
  | _, [] => .ok ()
  | names, field :: fields =>
    if change.operation = .insert ∧ field.operation ≠ .set then
      .error (str "strict insert requires set fields")
    else if field.name = [] then
      .error (str "entity patch contains an empty field name")
    else if field.name ∈ names then
      .error (str "entity patch contains duplicate field: " ++ field.name)
    else if field.name ∈ change.target.key.map NamedValue.name then
      .error (str "entity patch cannot modify key field: " ++ field.name)
    else if field.operation = .increment ∧ !field.data.kind.isNumber then
      .error (str "increment requires a numeric value: " ++ field.name)
    else validateFields change (field.name :: names) fields

/-- One iteration of the change loop of `validate(save_request)`; `seen` are the changes before
it.  The checks `static_cast<uint8_t>(operation) > …` have no counterpart: the enumerations
have no other values here. -/
def validateChange (store partition : Bytes) (seen : List EntityPatch) (change : EntityPatch) :
    Except Bytes Unit := do
  if seen.any fun prior => duplicateStrictTarget prior change then
    .error (str "duplicate entity target in strict batch")
  validateTarget change.target
  if change.target.store ≠ store then .error (str "all changes must use the same store")
  if change.target.partition ≠ partition then
    .error (str "all changes must use the same partition")
  if change.operation ≠ .legacyPatch ∧ change.createIfMissing then
    .error (str "strict operation cannot use create_if_missing")
  if change.operation ≠ .legacyPatch ∧ change.expectedVersion > int64Max then
    .error (str "strict version exceeds int64")
  if change.operation = .insert ∧ (change.checkVersion ∨ change.expectedVersion ≠ 0) then
    .error (str "insert cannot specify an existing version")
  if (change.operation = .update ∨ change.operation = .deleteEntity)
      ∧ (!change.checkVersion ∨ change.expectedVersion = 0) then
    .error (str "strict update/delete requires a positive expected version")
  if change.operation = .deleteEntity ∧ change.fields ≠ [] then
    .error (str "delete entity cannot contain field patches")
  if change.fields = [] ∧ change.operation ≠ .insert ∧ change.operation ≠ .deleteEntity then
    .error (str "entity patch has no fields")
  validateFields change [] change.fields

/-- The change loop of `validate(save_request)`. -/
def validateChanges (store partition : Bytes) : List EntityPatch → List EntityPatch →
    Except Bytes Unit
  | _, [] => .ok ()
  | seen, change :: rest => do
      validateChange store partition seen change
      validateChanges store partition (seen ++ [change]) rest

def validateSave (request : SaveRequest) : Except Bytes Unit :=
  if request.requestId = [] then .error (str "request_id is empty")
  else match request.changes with
    | [] => .error (str "changes is empty")
    | first :: rest =>
      validateChanges first.target.store first.target.partition [] (first :: rest)

/-- What the change loop checks about every target. -/
lemma validateChanges_target {store partition : Bytes} {change : EntityPatch} :
    ∀ {seen changes : List EntityPatch}, validateChanges store partition seen changes = .ok () →
      change ∈ changes → validateTarget change.target = .ok () ∧ change.target.store = store
  | seen, first :: changes, h, hmem => by
    obtain ⟨_, hfirst, hrest⟩ := Fallible.bind_eq_ok.mp h
    rcases List.mem_cons.mp hmem with rfl | hmem
    · simp only [validateChange, Fallible.error_bind, Fallible.guard_eq_ok, Fallible.bind_eq_ok, not_not] at hfirst
      obtain ⟨-, _, htgt, hstore, -⟩ := hfirst
      exact ⟨htgt, hstore⟩
    · exact validateChanges_target hrest hmem

/-- What it checks about every pair of changes. -/
lemma validateChanges_pairwise {store partition : Bytes} :
    ∀ {seen changes : List EntityPatch}, validateChanges store partition seen changes = .ok () →
      (∀ prior ∈ seen, ∀ change ∈ changes, duplicateStrictTarget prior change = false) ∧
        changes.Pairwise fun prior change => duplicateStrictTarget prior change = false
  | seen, [], _ => by simp
  | seen, first :: changes, h => by
    obtain ⟨_, hfirst, hrest⟩ := Fallible.bind_eq_ok.mp h
    obtain ⟨hseen, hpairs⟩ := validateChanges_pairwise hrest
    simp only [validateChange, Fallible.error_bind, Fallible.guard_eq_ok, List.any_eq_true, not_exists, not_and,
      Bool.not_eq_true] at hfirst
    refine ⟨fun prior hprior change hchg => ?_, List.pairwise_cons.mpr ⟨fun change => hseen first (by simp) change, hpairs⟩⟩
    rcases List.mem_cons.mp hchg with rfl | hchg
    · exact hfirst.1 prior hprior
    · exact hseen prior (by simp [hprior]) change hchg

end EntityStore

end Caf
