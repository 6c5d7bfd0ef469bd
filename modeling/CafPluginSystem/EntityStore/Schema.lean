import CafPluginSystem.EntityStore.Contract
import CafPluginSystem.Library.Fallible

/-!
# Schemas and the catalog

The trusted side of the entity store (`include/templates/entity_store_schema.hpp`): which stores
and entities exist, where their records live and which fields a client may read or write.

The catalog can only be built by `addStore`, which validates every entity; `SchemaCatalog`
carries that fact as a field, so that what a lookup returns is valid by construction.
-/

namespace Caf.EntityStore

open Fallible List

variable {allowBinary : Bool}

/-- `std::map<std::string, V>`, iterated in the byte order of the keys. -/
abbrev StringMap (V : Type) := Std.ExtTreeMap Bytes V

namespace StringMap

variable {V W : Type}
variable {k : Bytes}

lemma lookup_insert (m : StringMap V) (k a : Bytes) (v : V) :
    (m.insert k v)[a]? = if k = a then some v else m[a]? := by
  simp only [Std.ExtTreeMap.getElem?_insert, Std.LawfulEqOrd.compare_eq_iff_eq]

lemma lookup_erase (m : StringMap V) (k a : Bytes) :
    (m.erase k)[a]? = if k = a then none else m[a]? := by
  simp only [Std.ExtTreeMap.getElem?_erase, Std.LawfulEqOrd.compare_eq_iff_eq]

/-- `emplace`: an entry that is there already stays. -/
lemma lookup_insertIfNew (m : StringMap V) (k a : Bytes) (v : V) :
    (m.insertIfNew k v)[a]? = if k = a ∧ k ∉ m then some v else m[a]? := by
  simp only [Std.ExtTreeMap.getElem?_insertIfNew, Std.LawfulEqOrd.compare_eq_iff_eq]

lemma mem_insert {m : StringMap V} {a : Bytes} {v : V} : a ∈ m.insert k v ↔ k = a ∨ a ∈ m := by
  simp only [Std.ExtTreeMap.mem_insert, Std.LawfulEqOrd.compare_eq_iff_eq]

/-- No two entries of a map have the same key. -/
lemma toList_distinct (m : StringMap V) : m.toList.Pairwise fun a b => a.1 ≠ b.1 := by
  simpa only [Std.LawfulEqOrd.compare_eq_iff_eq] using Std.ExtTreeMap.distinct_keys_toList (t := m)

variable {l : List (Bytes × V)}

lemma lookup_insertMany_of_mem (m : StringMap V)
    (hl : l.Pairwise fun a b => a.1 ≠ b.1) {v : V} (h : (k, v) ∈ l) :
    (m.insertMany l)[k]? = some v :=
  Std.ExtTreeMap.getElem?_insertMany_list_of_mem (Std.LawfulEqOrd.compare_eq_iff_eq.mpr rfl)
    (by simpa only [Std.LawfulEqOrd.compare_eq_iff_eq] using hl) h

lemma lookup_insertMany_of_not_mem (m : StringMap V)
    (h : k ∉ l.map Prod.fst) : (m.insertMany l)[k]? = m[k]? :=
  Std.ExtTreeMap.getElem?_insertMany_list_of_contains_eq_false (by simpa using h)

/-- Inserting the entries of a map one after another, each changed by `f`, maps it. -/
lemma insertMany_toList (m : StringMap V) (f : V → W) :
    (∅ : StringMap W).insertMany (m.toList.map fun e => (e.1, f e.2)) = m.map fun _ => f := by
  apply Std.ExtTreeMap.ext_getElem?
  intro k
  rw [Std.ExtTreeMap.getElem?_map]
  cases hk : m[k]? with
  | none =>
    rw [lookup_insertMany_of_not_mem]
    · simp
    · simp only [map_map, mem_map, Function.comp_apply, not_exists, not_and]
      rintro ⟨a, v⟩ hmem rfl
      rw [Std.ExtTreeMap.mem_toList_iff_getElem?_eq_some, hk] at hmem
      cases hmem
  | some v =>
    refine lookup_insertMany_of_mem _ ?_ ?_
    · rw [pairwise_map]
      exact toList_distinct m
    · exact mem_map.mpr ⟨(k, v), Std.ExtTreeMap.mem_toList_iff_getElem?_eq_some.mpr hk, rfl⟩

end StringMap

structure FieldSchema where
  name : Bytes
  column : Bytes
  kind : ValueKind := .text
  writable : Bool := true
  nullable : Bool := true
  /-- Discovery tells attributes that were left out from explicit ones. -/
  kindExplicit : Bool := false
  nullableExplicit : Bool := false
  writableExplicit : Bool := false
  deriving DecidableEq, Repr

structure EntitySchema where
  name : Bytes
  table : Bytes
  versionColumn : Bytes := str "version"
  keys : List FieldSchema := []
  fields : List FieldSchema := []
  discoverFromDatabase : Bool := false
  keysExplicit : Bool := false
  fieldsExplicit : Bool := false
  deriving DecidableEq, Repr

namespace EntitySchema

/-- The private `find`: the first entry with the logical name. -/
def find (values : List FieldSchema) (name : Bytes) : Option FieldSchema :=
  values.find? fun value => value.name == name

def findKey (mapped : EntitySchema) (logicalName : Bytes) : Option FieldSchema :=
  find mapped.keys logicalName

def findField (mapped : EntitySchema) (logicalName : Bytes) : Option FieldSchema :=
  match mapped.findKey logicalName with
  | some key => some key
  | none => find mapped.fields logicalName

def findWritableField (mapped : EntitySchema) (logicalName : Bytes) : Option FieldSchema :=
  (find mapped.fields logicalName).filter fun field => field.writable

end EntitySchema

structure StoreSchema where
  name : Bytes
  readService : Bytes
  writeService : Bytes
  readConnection : Bytes := str "default"
  writeConnection : Bytes := str "default"
  idempotencyTable : Bytes := str "__entity_store_requests"
  entities : StringMap EntitySchema := ∅

/-! ## Validation -/

/-- `std::isalpha` in the C locale. -/
def isAlpha (c : UInt8) : Bool := (65 ≤ c && c ≤ 90) || (97 ≤ c && c ≤ 122)

/-- `std::isalnum` in the C locale. -/
def isAlnum (c : UInt8) : Bool := isAlpha c || (48 ≤ c && c ≤ 57)

def validIdentifierPart : Bytes → Bool
  | [] => false
  | first :: rest =>
    (isAlpha first || first == 95) && (first :: rest).all fun c => isAlnum c || c == 95

/-- Every part between dots is an identifier. -/
def validQualifiedIdentifier (value : Bytes) : Bool :=
  (value.splitOn 46).all validIdentifierPart

def validateField (allowBinary : Bool) (field : FieldSchema) : Except Bytes Unit :=
  if field.name = [] then .error (str "schema field name is empty")
  else if !validIdentifierPart field.column then
    .error (str "invalid schema column: " ++ field.column)
  else if (field.kind = .bytes ∧ !allowBinary) ∨ field.kind = .nullValue then
    .error (str "unsupported SQL entity schema kind: " ++ field.name)
  else .ok ()

/-- The loop that `validate_entity` runs over the keys and then over the fields, with the names
and columns already taken; it returns them extended. -/
def validateColumns (allowBinary : Bool) : List Bytes → List Bytes → List FieldSchema →
    Except Bytes (List Bytes × List Bytes)
  | names, columns, [] => .ok (names, columns)
  | names, columns, field :: rest => do
      validateField allowBinary field
      if field.name ∈ names then .error (str "duplicate schema field: " ++ field.name)
      if field.column ∈ columns then
        .error (str "duplicate or reserved schema column: " ++ field.column)
      validateColumns allowBinary (field.name :: names) (field.column :: columns) rest

def validateEntity (allowBinary : Bool) (entity : EntitySchema) : Except Bytes Unit := do
  if !validQualifiedIdentifier entity.table then
    .error (str "invalid entity table: " ++ entity.table)
  if !validIdentifierPart entity.versionColumn then
    .error (str "invalid version column: " ++ entity.versionColumn)
  if entity.keys = [] ∧ (!entity.discoverFromDatabase ∨ entity.keysExplicit) then
    .error (str "entity has no keys")
  if entity.fields = [] ∧ (!entity.discoverFromDatabase ∨ entity.fieldsExplicit) then
    .error (str "entity has no fields")
  let (names, columns) ← validateColumns allowBinary [] [entity.versionColumn] entity.keys
  let _ ← validateColumns allowBinary names columns entity.fields
  .ok ()

/-- The loop takes every name and column it passes, and none of them twice. -/
lemma validateColumns_ok : ∀ {fields : List FieldSchema}
    {names columns names' columns' : List Bytes},
    validateColumns allowBinary names columns fields = .ok (names', columns') →
      names' = (fields.map FieldSchema.name).reverse ++ names ∧
      columns' = (fields.map FieldSchema.column).reverse ++ columns ∧
      (names.Nodup → names'.Nodup) ∧ (columns.Nodup → columns'.Nodup)
  | [], names, columns, names', columns', h => by
    cases h
    exact ⟨rfl, rfl, id, id⟩
  | field :: fields, names, columns, names', columns', h => by
    simp only [validateColumns, bind_eq_ok, error_bind,
      guard_eq_ok] at h
    obtain ⟨-, -, hname, hcol, hrest⟩ := h
    obtain ⟨rfl, rfl, hn, hc⟩ := validateColumns_ok hrest
    refine ⟨by simp, by simp, fun hnodup => hn ?_, fun hnodup => hc ?_⟩
    · exact nodup_cons.mpr ⟨hname, hnodup⟩
    · exact nodup_cons.mpr ⟨hcol, hnodup⟩

/-- The names and the columns of an entity are distinct, over keys and fields together. -/
structure EntitySchema.Distinct (entity : EntitySchema) : Prop where
  names : ((entity.keys ++ entity.fields).map FieldSchema.name).Nodup
  columns : ((entity.keys ++ entity.fields).map FieldSchema.column).Nodup

variable {entity : EntitySchema}

/-- **What `validate_entity` establishes.** -/
lemma validateEntity_distinct
    (h : validateEntity allowBinary entity = .ok ()) : entity.Distinct := by
  simp only [validateEntity, bind_eq_ok, error_bind, guard_eq_ok] at h
  obtain ⟨-, -, -, -, ⟨names, columns⟩, hkeys, ⟨names', columns'⟩, hfields, -⟩ := h
  obtain ⟨rfl, rfl, hn, hc⟩ := validateColumns_ok hkeys
  obtain ⟨rfl, rfl, hn', hc'⟩ := validateColumns_ok hfields
  have hnames := hn' (hn nodup_nil)
  have hcols := hc' (hc (nodup_singleton _))
  constructor
  · rw [← nodup_reverse, map_append, reverse_append]
    simpa using hnames
  · rw [← nodup_reverse, map_append, reverse_append]
    exact (nodup_append.mp (by simpa [append_assoc] using hcols)).1

/-- The entity loop of `add_store`. -/
def validateEntities (allowBinary : Bool) (store : Bytes) :
    List (Bytes × EntitySchema) → Except Bytes Unit
  | [] => .ok ()
  | (name, entity) :: rest => do
      if name ≠ entity.name ∨ entity.name = [] then
        .error (str "entity schema name mismatch in store: " ++ store)
      match validateEntity allowBinary entity with
      | .ok () => validateEntities allowBinary store rest
      | .error error =>
        .error (error ++ str " (store=" ++ store ++ str ", entity=" ++ name ++ str ")")

def validateStore (allowBinary : Bool) (store : StoreSchema) : Except Bytes Unit := do
  if store.name = [] then .error (str "entity store name is empty")
  if store.readService = [] ∨ store.writeService = [] then
    .error (str "entity store services are empty: " ++ store.name)
  if store.readConnection = [] ∨ store.writeConnection = [] then
    .error (str "entity store connection names are empty: " ++ store.name)
  if !validQualifiedIdentifier store.idempotencyTable then
    .error (str "invalid idempotency table: " ++ store.idempotencyTable)
  validateEntities allowBinary store.name store.entities.toList
  if store.entities.isEmpty then
    .error (str "entity store has no entities: " ++ store.name)

lemma validateEntities_mem {store name : Bytes} :
    ∀ {entities : List (Bytes × EntitySchema)}, validateEntities allowBinary store entities = .ok () →
      (name, entity) ∈ entities → validateEntity allowBinary entity = .ok ()
  | (name', entity') :: rest, h, hmem => by
    simp only [validateEntities, error_bind, guard_eq_ok] at h
    obtain ⟨-, h⟩ := h
    split at h
    · next hent =>
      rcases mem_cons.mp hmem with heq | hrest
      · cases heq
        exact hent
      · exact validateEntities_mem h hrest
    · cases h

/-- Every entity of a valid store is valid. -/
lemma validateStore_entity {store : StoreSchema} {name : Bytes} (h : validateStore allowBinary store = .ok ())
    (hent : store.entities[name]? = some entity) : validateEntity allowBinary entity = .ok () := by
  simp only [validateStore, bind_eq_ok, error_bind, guard_eq_ok] at h
  obtain ⟨-, -, -, -, _, hents, -⟩ := h
  exact validateEntities_mem hents
    (Std.ExtTreeMap.mem_toList_iff_getElem?_eq_some.mpr hent)

/-- `schema_catalog`: stores by name, every one of them accepted by `add_store`. -/
structure SchemaCatalog where
  allowBinary : Bool := false
  stores : StringMap StoreSchema := ∅
  valid : ∀ name store, stores[name]? = some store →
    store.name = name ∧ validateStore allowBinary store = .ok ()

namespace SchemaCatalog

/-- The catalog before any store was added. -/
def empty (allowBinary : Bool) : SchemaCatalog where
  allowBinary := allowBinary
  stores := ∅
  valid := by simp

/-- The catalog of one store. -/
def single (allowBinary : Bool) (store : StoreSchema) (h : validateStore allowBinary store = .ok ()) :
    SchemaCatalog where
  allowBinary := allowBinary
  stores := (∅ : StringMap StoreSchema).insert store.name store
  valid := by
    intro name found hfound
    rw [StringMap.lookup_insert] at hfound
    split at hfound
    · next heq =>
      cases hfound
      exact ⟨heq, h⟩
    · simp at hfound

def addStore (catalog : SchemaCatalog) (store : StoreSchema) : Except Bytes SchemaCatalog :=
  match h : validateStore catalog.allowBinary store with
  | .error error => .error error
  | .ok () =>
    if store.name ∈ catalog.stores then
      .error (str "duplicate entity store: " ++ store.name)
    else .ok {
      allowBinary := catalog.allowBinary
      stores := catalog.stores.insert store.name store
      valid := by
        intro name found hfound
        rw [StringMap.lookup_insert] at hfound
        split at hfound
        · next heq =>
          cases hfound
          exact ⟨heq, h⟩
        · exact catalog.valid name found hfound }

def findStore (catalog : SchemaCatalog) (name : Bytes) : Option StoreSchema :=
  catalog.stores[name]?

def findEntity (catalog : SchemaCatalog) (store entity : Bytes) : Option EntitySchema :=
  (catalog.findStore store).bind fun owner => owner.entities[entity]?

end SchemaCatalog

end Caf.EntityStore
