import CafPluginSystem.Sql.Statements

/-!
# Schema discovery

Entities whose keys and fields are read from the database when the SQL entity store starts: the providers
of `include/templates/sql_entity_store_schema_provider.hpp`, which complete a configured entity from the
rows of a metadata query, and the parts of `schema_catalog` that list the entities to discover and change
them.

* `SchemaProvider.apply` — completes an entity, or says why it cannot.
* `Narrows`, `publish_narrows` — **what is published exposes no more than the database and the
  configuration do**.
* `SchemaCatalog.discover` — the same on the catalog, which stays a catalog of valid entities.
-/

namespace Caf.EntityStore

open Database DecimalText Fallible List

variable {entity : EntitySchema} {allowBinary : Bool} {name : Bytes} {fields : List FieldSchema}
  {names : List Bytes}

/-! ## Providers -/

inductive DialectKind where
  | sqlite | mysql | postgres
  deriving DecidableEq, Repr

/-- A row of the metadata query. -/
structure ColumnMetadata where
  name : Bytes
  type : Bytes
  detail : Bytes
  nullable : Bool
  keyOrder : UInt64
  generated : Bool
  hidden : Bool

namespace SchemaProvider

def lowercase (text : Bytes) : Bytes := text.map fun c => if 65 ≤ c ∧ c ≤ 90 then c + 32 else c

/-- `base_type`: the lower-case text before a bracket, without blanks around it. -/
def baseType (type : Bytes) : Bytes :=
  (((lowercase type).takeWhile (· ≠ 40)).rdropWhile (· = 32)).dropWhile (· = 32)

/-- The type is one of these names. -/
def isOneOf (type : Bytes) (names : List String) : Bool := names.any fun name => type == str name

/-- `infer_kind` of the three providers. -/
def inferKind (dialect : DialectKind) (column : ColumnMetadata) : Option ValueKind :=
  let type := baseType column.type
  match dialect with
  | .sqlite =>
    if isOneOf type ["integer", "int", "tinyint", "smallint", "mediumint", "bigint", "int2", "int8"] then
      some .signedInteger
    else if isOneOf type ["real", "double", "double precision", "float"] then some .real
    else if isOneOf type ["text", "varchar", "char", "character", "clob", "nvarchar", "nchar"] then
      some .text
    else none
  | .mysql =>
    if isOneOf type ["tinyint", "smallint", "mediumint", "int", "integer", "bigint"] then
      if (lowercase column.detail).tails.any fun rest => (str "unsigned").isPrefixOf rest then
        some .unsignedInteger
      else some .signedInteger
    else if isOneOf type ["decimal", "numeric"] then some .decimal
    else if isOneOf type ["float", "double", "real"] then some .real
    else if isOneOf type ["json"] then some .json
    else if isOneOf type ["char", "varchar", "tinytext", "text", "mediumtext", "longtext", "date",
        "datetime", "timestamp", "time"] then some .text
    else none
  | .postgres =>
    if isOneOf type ["smallint", "integer", "bigint"] then some .signedInteger
    else if isOneOf type ["numeric", "decimal"] then some .decimal
    else if isOneOf type ["real", "double precision"] then some .real
    else if isOneOf type ["boolean"] then some .boolean
    else if isOneOf type ["json", "jsonb"] then some .json
    else if isOneOf type ["text", "character varying", "character", "uuid", "date",
        "timestamp without time zone", "timestamp with time zone", "time without time zone",
        "time with time zone"] then some .text
    else none

/-- The columns of the metadata query, in the order in which a row is read. -/
def metadataNames : List Bytes :=
  [str "column_name", str "data_type", str "type_detail", str "nullable", str "key_order",
    str "generated", str "hidden"]

def metadataPosition (result : DbResult) (name : Bytes) : Except Bytes ℕ :=
  match result.columns.findIdx? (· == name) with
  | none => .error (str "schema metadata result is missing column: " ++ name)
  | some position => .ok position

def metadataFlag (cell : Bytes) : Option Bool :=
  if cell = str "0" then some false else if cell = str "1" then some true else none

/-- A cell of a metadata row. -/
def metadataCell (result : DbResult) (rowIndex : ℕ) (row : List Bytes) (position : ℕ) :
    Except Bytes Bytes :=
  match row[position]? with
  | none => .error (str "invalid NULL/truncated schema metadata row")
  | some cell =>
    if result.isNull rowIndex position then
      .error (str "invalid NULL/truncated schema metadata row")
    else .ok cell

def decodeRow (cells : List Bytes) : Except Bytes ColumnMetadata :=
  match cells with
  | [name, type, detail, nullable, keyOrder, generated, hidden] =>
    match metadataFlag nullable, uint64OfText? keyOrder, metadataFlag generated,
        metadataFlag hidden with
    | some nullable, some keyOrder, some generated, some hidden =>
      if name = [] then .error (str "invalid schema metadata value")
      else .ok { name, type, detail, nullable, keyOrder, generated, hidden }
    | _, _, _, _ => .error (str "invalid schema metadata value")
  | _ => .error (str "invalid schema metadata value")

def decodeMetadata (result : DbResult) : Except Bytes (List ColumnMetadata) := do
  if !result.ok then .error (str "schema metadata query failed: " ++ result.error)
  if result.rows = [] then
    .error (str "table is missing, inaccessible, or has no visible columns")
  let positions ← metadataNames.mapM (metadataPosition result)
  result.rows.zipIdx.mapM fun (row, rowIndex) => do
    let cells ← positions.mapM (metadataCell result rowIndex row)
    decodeRow cells

/-- `complete_field`. -/
def completeField (dialect : DialectKind) (field : FieldSchema) (column : ColumnMetadata) (key : Bool) :
    Except Bytes FieldSchema := do
  if column.hidden then .error (str "hidden database columns cannot be exposed: " ++ column.name)
  if isOneOf (baseType column.type) ["blob", "tinyblob", "mediumblob", "longblob", "binary",
      "varbinary", "bytea", "bit", "bit varying"] then
    .error (str "binary database column is unsupported: " ++ column.name)
  let kind ← if field.kindExplicit then .ok field.kind
    else match inferKind dialect column with
      | none => .error (str "ambiguous database type '" ++ column.type ++ str "' for " ++ column.name
          ++ str "; configure an explicit kind")
      | some kind => .ok kind
  if field.nullableExplicit && field.nullable && !column.nullable then
    .error (str "nullable override cannot relax database NOT NULL: " ++ column.name)
  let nullable := if field.nullableExplicit then field.nullable else column.nullable
  if key && nullable then .error (str "primary keys must not be nullable: " ++ column.name)
  if field.writableExplicit && field.writable && (key || column.generated) then
    .error (str "keys/generated columns cannot be writable: " ++ column.name)
  let writable := if key || column.generated then false else field.writable
  .ok { field with kind, nullable, writable }

/-- The loop that builds `by_name`. -/
def checkDistinct : List Bytes → List ColumnMetadata → Except Bytes Unit
  | _, [] => .ok ()
  | names, column :: rest =>
    if column.name ∈ names then .error (str "duplicate metadata column: " ++ column.name)
    else checkDistinct (column.name :: names) rest

def findColumn (columns : List ColumnMetadata) (name : Bytes) : Option ColumnMetadata :=
  columns.find? fun column => column.name == name

/-- The loop over the keys, with the columns that are taken. -/
def completeKeys (dialect : DialectKind) (columns : List ColumnMetadata) :
    List Bytes → List FieldSchema → Except Bytes (List FieldSchema)
  | _, [] => .ok []
  | taken, field :: rest => do
      let column ← match findColumn columns field.column with
        | none => .error (str "configured key is not a unique primary key column: " ++ field.column)
        | some column =>
          if column.keyOrder = 0 ∨ field.column ∈ taken then
            .error (str "configured key is not a unique primary key column: " ++ field.column)
          else .ok column
      let completed ← completeField dialect field column true
      let others ← completeKeys dialect columns (field.column :: taken) rest
      .ok (completed :: others)

/-- One iteration of the loop over the fields. -/
def completeOrdinary (dialect : DialectKind) (columns : List ColumnMetadata) (versionColumn : Bytes)
    (field : FieldSchema) : Except Bytes FieldSchema :=
  match findColumn columns field.column with
  | none => .error (str "configured field is absent from database: " ++ field.column)
  | some column =>
    if column.keyOrder > 0 ∨ field.column = versionColumn then
      .error (str "keys/version cannot also be exposed as ordinary fields: " ++ field.column)
    else completeField dialect field column false

/-- A field that has the name of its column. -/
def plainField (column : ColumnMetadata) : FieldSchema := { name := column.name, column := column.name }

def checkVersionColumn (dialect : DialectKind) (columns : List ColumnMetadata) (versionColumn : Bytes) :
    Except Bytes Unit :=
  match findColumn columns versionColumn with
  | none => .error (str "version column is missing: " ++ versionColumn)
  | some column =>
    if column.nullable || column.generated || column.hidden || column.keyOrder != 0
        || !(inferKind dialect column == some .signedInteger
          || inferKind dialect column == some .unsignedInteger) then
      .error (str "version column must be a non-null, non-generated integer: " ++ versionColumn)
    else .ok ()

/-- The entity with its keys and fields completed. -/
def complete (dialect : DialectKind) (entity : EntitySchema) (columns : List ColumnMetadata) :
    Except Bytes EntitySchema := do
  checkDistinct [] columns
  let primaryKey := (columns.filter fun column => column.keyOrder > 0).insertionSort
    fun a b => a.keyOrder ≤ b.keyOrder
  if primaryKey.isEmpty then
    .error (str "database entity requires a primary key: " ++ entity.table)
  if primaryKey.map (fun column => column.keyOrder.toNat) ≠ List.range' 1 primaryKey.length then
    .error (str "invalid primary key metadata: " ++ entity.table)
  checkVersionColumn dialect columns entity.versionColumn
  let keys := if entity.keysExplicit then entity.keys else primaryKey.map plainField
  if keys.length ≠ primaryKey.length then
    .error (str "configured keys must include the complete database primary key")
  let keys ← completeKeys dialect columns [] keys
  let fields := if entity.fieldsExplicit then entity.fields
    else (columns.filter fun column =>
      !(column.keyOrder > 0 || column.hidden || column.name == entity.versionColumn)).map plainField
  let fields ← fields.mapM (completeOrdinary dialect columns entity.versionColumn)
  .ok { entity with keys, fields, discoverFromDatabase := false }

/-- `apply`: the completed entity, which is validated before it is published. -/
def apply (dialect : DialectKind) (entity : EntitySchema) (result : DbResult) :
    Except Bytes EntitySchema := do
  if !entity.discoverFromDatabase then
    .error (str "schema is not awaiting database discovery: " ++ entity.name)
  let columns ← decodeMetadata result
  let completed ← complete dialect entity columns
  validateEntity false completed
  .ok completed

lemma complete_name {dialect completed}
    {columns} (h : complete dialect entity columns = .ok completed) :
    completed.name = entity.name := by
  simp only [complete, bind_eq_ok, error_bind, guard_eq_ok] at h
  obtain ⟨_, -, -, -, _, -, -, _, -, _, -, h⟩ := h
  cases h
  rfl

/-- **What `apply` publishes** is complete and valid. -/
lemma apply_ok {dialect completed result} (h : apply dialect entity result = .ok completed) :
    ∃ columns, decodeMetadata result = .ok columns ∧
      complete dialect entity columns = .ok completed ∧ validateEntity false completed = .ok () := by
  simp only [apply, bind_eq_ok, error_bind, guard_eq_ok] at h
  obtain ⟨-, columns, hcols, completed', hcomp, _, hval, heq⟩ := h
  cases heq
  exact ⟨columns, hcols, hcomp, hval⟩

/-! ### What is published -/

variable {dialect : DialectKind} {columns : List ColumnMetadata} {field completed : FieldSchema}
  {column : ColumnMetadata} {key : Bool}

/-- The field as it was configured. -/
def configured (field : FieldSchema) : Bytes × Bytes := (field.name, field.column)

/-- A field that exposes a column and no more of it than the database allows. -/
structure Exposes (field : FieldSchema) (column : ColumnMetadata) : Prop where
  name : column.name = field.column
  visible : column.hidden = false
  nullable : field.nullable → column.nullable
  writable : column.generated → field.writable = false

/-- An entity that was completed from the columns of its table. -/
structure Narrows (columns : List ColumnMetadata) (entity completed : EntitySchema) : Prop where
  distinct : (columns.map ColumnMetadata.name).Nodup
  primaryKey : (completed.keys.map FieldSchema.column).Perm
    ((columns.filter fun column => column.keyOrder > 0).map ColumnMetadata.name)
  keys : ∀ key ∈ completed.keys, key.writable = false ∧ key.nullable = false ∧
    ∃ column ∈ columns, Exposes key column
  fields : ∀ field ∈ completed.fields, field.column ≠ entity.versionColumn ∧
    ∃ column ∈ columns, Exposes field column ∧ column.keyOrder = 0
  explicitKeys : entity.keysExplicit → completed.keys.map configured = entity.keys.map configured
  explicitFields :
    entity.fieldsExplicit → completed.fields.map configured = entity.fields.map configured

lemma checkDistinct_ok (h : checkDistinct names columns = .ok ()) :
    (columns.map ColumnMetadata.name).Nodup := by
  have hall : ∀ names, checkDistinct names columns = .ok () →
      (columns.map ColumnMetadata.name).Nodup ∧ ∀ column ∈ columns, column.name ∉ names := by
    clear h
    induction columns with
    | nil => simp
    | cons column rest ih =>
      intro names h
      simp only [checkDistinct, guard_eq_ok] at h
      obtain ⟨hnodup, hnew⟩ := ih _ h.2
      refine ⟨nodup_cons.mpr ⟨?_, hnodup⟩, ?_⟩
      · intro hmem
        obtain ⟨other, hoth, heq⟩ := mem_map.mp hmem
        exact hnew other hoth (by simp [heq])
      · intro other hoth
        rcases mem_cons.mp hoth with rfl | hoth
        · exact h.1
        · exact fun hmem => hnew other hoth (mem_cons_of_mem _ hmem)
  exact (hall names h).1

lemma findColumn_some (h : findColumn columns name = some column) :
    column ∈ columns ∧ column.name = name :=
  ⟨mem_of_find?_eq_some h, by simpa using find?_some h⟩

lemma completeField_ok (h : completeField dialect field column key = .ok completed)
    (hname : column.name = field.column) : configured completed = configured field ∧
      Exposes completed column ∧ (key → completed.writable = false ∧ completed.nullable = false) := by
  simp only [completeField, error_bind, guard_eq_ok] at h
  obtain ⟨hhidden, -, h⟩ := h
  split at h
  on_goal 2 =>
    split at h
    · cases h
  all_goals
    simp only [ok_bind, guard_eq_ok] at h
    obtain ⟨hrelaxed, hkey, -, h⟩ := h
    cases h
    refine ⟨rfl, ⟨hname, by simpa using hhidden, ?_, ?_⟩, ?_⟩
    · grind
    · grind
    · grind

/-- What one of the loops has completed. -/
lemma completeKeys_ok {taken keys} (h : completeKeys dialect columns taken fields = .ok keys) :
    keys.map configured = fields.map configured ∧
      (keys.map FieldSchema.column).Nodup ∧ (∀ key ∈ keys, key.column ∉ taken) ∧
      ∀ key ∈ keys, key.writable = false ∧ key.nullable = false ∧
        ∃ column ∈ columns, Exposes key column ∧ column.keyOrder > 0 := by
  induction fields generalizing taken keys with
  | nil =>
    cases h
    simp
  | cons field rest ih =>
    rw [completeKeys] at h
    split at h
    · cases h
    · next column hfound =>
      simp only [error_bind, guard_eq_ok, ok_bind, bind_eq_ok,
        not_or] at h
      obtain ⟨⟨hprimary, hfree⟩, first, hfirst, others, hoth, h⟩ := h
      cases h
      obtain ⟨hmem, hname⟩ := findColumn_some hfound
      obtain ⟨hsame, hexpose, hlocked⟩ := completeField_ok hfirst hname
      obtain ⟨hconf, hnodup, htaken, hkeys⟩ := ih hoth
      have hsecond : first.column = field.column := congrArg Prod.snd hsame
      simp only [map_cons, nodup_cons, forall_mem_cons]
      refine ⟨by rw [hsame, hconf], ⟨?_, hnodup⟩, ⟨hsecond ▸ hfree, ?_⟩, ⟨?_, hkeys⟩⟩
      · intro hagain
        obtain ⟨other, hother, heq⟩ := mem_map.mp hagain
        exact htaken other hother (by simp [heq, hsecond])
      · exact fun other hother hmem => htaken other hother (mem_cons_of_mem _ hmem)
      · exact ⟨(hlocked rfl).1, (hlocked rfl).2, column, hmem, hexpose, by grind⟩

lemma completeOrdinary_ok {versionColumn} (h : completeOrdinary dialect columns versionColumn field = .ok completed) :
    configured completed = configured field ∧ completed.column ≠ versionColumn ∧
      ∃ column ∈ columns, Exposes completed column ∧ column.keyOrder = 0 := by
  unfold completeOrdinary at h
  split at h
  · cases h
  · next column hfound =>
    rw [guard_eq_ok, not_or] at h
    obtain ⟨⟨hordinary, hver⟩, h⟩ := h
    obtain ⟨hmem, hname⟩ := findColumn_some hfound
    obtain ⟨hsame, hexpose, -⟩ := completeField_ok h hname
    have hsecond : completed.column = field.column := congrArg Prod.snd hsame
    exact ⟨hsame, hsecond ▸ hver, column, hmem, hexpose, by grind⟩

lemma complete_narrows {completed}
    (h : complete dialect entity columns = .ok completed) : Narrows columns entity completed := by
  simp only [complete, bind_eq_ok, error_bind, guard_eq_ok] at h
  obtain ⟨_, hdist, -, -, _, -, hlen, keys, hkeys, fields, hfields, h⟩ := h
  cases h
  obtain ⟨hconf, hnodup, -, hprimary⟩ := completeKeys_ok hkeys
  refine ⟨checkDistinct_ok hdist, ?_, ?_, ?_, ?_, ?_⟩
  · -- distinct columns of the primary key, and as many as it has
    refine (hnodup.subperm ?_).perm_of_length_le ?_
    · intro name hname
      obtain ⟨key, hkey, rfl⟩ := mem_map.mp hname
      obtain ⟨-, -, column, hmem, hexpose, horder⟩ := hprimary key hkey
      exact mem_map.mpr ⟨column, mem_filter.mpr ⟨hmem, by simpa using horder⟩,
        hexpose.name⟩
    · have hcount := congrArg List.length hconf
      rw [not_not] at hlen
      simp only [length_map, length_insertionSort] at hcount hlen ⊢
      omega
  · intro key hkey
    obtain ⟨hwritable, hnullable, column, hmem, hexpose, -⟩ := hprimary key hkey
    exact ⟨hwritable, hnullable, column, hmem, hexpose⟩
  · intro field hfield
    obtain ⟨before, -, hbefore⟩ := mapM_mem hfields hfield
    exact (completeOrdinary_ok hbefore).2
  · intro hexplicit
    rwa [if_pos hexplicit] at hconf
  · intro hexplicit
    rw [if_pos hexplicit] at hfields
    exact mapM_map_eq hfields fun before field hfield => (completeOrdinary_ok hfield).1

/-- `apply` as its caller sees it: the entity is replaced only by a valid one. -/
def publish (dialect : DialectKind) (entity : EntitySchema) (result : DbResult) :
    EntitySchema × Except Bytes Unit :=
  match apply dialect entity result with
  | .error error => (entity, .error error)
  | .ok completed => (completed, .ok ())

/-- **Discovery only narrows.** -/
theorem publish_narrows (dialect : DialectKind) (entity : EntitySchema) (result : DbResult) :
    match publish dialect entity result with
    | (after, .ok ()) => validateEntity false after = .ok () ∧
        ∃ columns, decodeMetadata result = .ok columns ∧ Narrows columns entity after
    | (after, .error _) => after = entity := by
  unfold publish
  cases h : apply dialect entity result with
  | error error => rfl
  | ok completed =>
    obtain ⟨columns, hcols, hcomp, hval⟩ := apply_ok h
    exact ⟨hval, columns, hcols, complete_narrows hcomp⟩

end SchemaProvider

/-! ## Valid catalogs -/

lemma validateField_allow {field}
    (h : validateField false field = .ok ()) : validateField allowBinary field = .ok () := by
  unfold validateField at h ⊢
  simp only [guard_eq_ok] at h ⊢
  obtain ⟨hname, hcol, hkind, -⟩ := h
  refine ⟨hname, hcol, ?_, trivial⟩
  rintro (⟨hbytes, -⟩ | hnull)
  · exact hkind (.inl ⟨hbytes, rfl⟩)
  · exact hkind (.inr hnull)

lemma validateColumns_allow {columns taken} (h : validateColumns false names columns fields = .ok taken) :
    validateColumns allowBinary names columns fields = .ok taken := by
  induction fields generalizing names columns with
  | nil => exact h
  | cons field fields ih =>
    simp only [validateColumns, bind_eq_ok, error_bind, guard_eq_ok] at h ⊢
    obtain ⟨_, hfield, hname, hcol, hrest⟩ := h
    exact ⟨(), validateField_allow hfield, hname, hcol, ih hrest⟩

/-- An entity that is valid without binary fields is valid in any catalog. -/
lemma validateEntity_allow (h : validateEntity false entity = .ok ()) : validateEntity allowBinary entity = .ok () := by
  simp only [validateEntity, bind_eq_ok, error_bind, guard_eq_ok] at h ⊢
  obtain ⟨htab, hver, hkeys, hfields, taken, hk, taken', hf, -⟩ := h
  exact ⟨htab, hver, hkeys, hfields, taken, validateColumns_allow hk, taken',
    validateColumns_allow hf, trivial⟩

lemma validateEntities_iff {store entities} :
    validateEntities allowBinary store entities = .ok () ↔ ∀ entry ∈ entities,
      entry.1 = entry.2.name ∧ entry.2.name ≠ [] ∧ validateEntity allowBinary entry.2 = .ok () := by
  induction entities with
  | nil => simp [validateEntities]
  | cons entry entities ih =>
    obtain ⟨name, entity⟩ := entry
    simp only [validateEntities, error_bind, guard_eq_ok, forall_mem_cons]
    rw [not_or, not_not]
    constructor
    · rintro ⟨⟨hname, hne⟩, h⟩
      split at h
      · next hval => exact ⟨⟨hname, hne, hval⟩, ih.mp h⟩
      · cases h
    · rintro ⟨⟨hname, hne, hval⟩, hrest⟩
      refine ⟨⟨hname, hne⟩, ?_⟩
      rw [hval]
      exact ih.mpr hrest

namespace SchemaCatalog

variable {catalog : SchemaCatalog} {store : StoreSchema} {entityName : Bytes}

/-- An entity to discover. -/
structure Target where
  store : Bytes
  entity : Bytes
  deriving DecidableEq, Repr

/-- `discovery_targets`, which are sorted as the maps are. -/
def discoveryTargets (catalog : SchemaCatalog) : List Target :=
  catalog.stores.toList.flatMap fun (storeName, store) =>
    store.entities.toList.filterMap fun (entityName, entity) =>
      if entity.discoverFromDatabase then some ⟨storeName, entityName⟩ else none

/-- An entity of a store of the catalog is valid and has the name under which it is found. -/
lemma entity_valid (hstore : catalog.stores[name]? = some store) (hent : store.entities[entityName]? = some entity) :
    entityName = entity.name ∧ entity.name ≠ [] ∧ validateEntity catalog.allowBinary entity = .ok () := by
  obtain ⟨-, hval⟩ := catalog.valid name store hstore
  simp only [validateStore, bind_eq_ok, error_bind, guard_eq_ok] at hval
  obtain ⟨-, -, -, -, _, hents, -⟩ := hval
  exact validateEntities_iff.mp hents _
    (Std.ExtTreeMap.mem_toList_iff_getElem?_eq_some.mpr hent)

/-- A store with one of its entities replaced. -/
def replaceEntity (store : StoreSchema) (name : Bytes) (entity : EntitySchema) : StoreSchema :=
  { store with entities := store.entities.insert name entity }

lemma replaceEntity_valid {completed} (hstore : catalog.stores[name]? = some store)
    (hent : store.entities[entityName]? = some entity) (hname : completed.name = entity.name)
    (hval : validateEntity catalog.allowBinary completed = .ok ()) :
    validateStore catalog.allowBinary (replaceEntity store entityName completed) = .ok () := by
  obtain ⟨hkey, hne, -⟩ := entity_valid hstore hent
  obtain ⟨-, hstoreValid⟩ := catalog.valid name store hstore
  simp only [validateStore, bind_eq_ok, error_bind, guard_eq_ok] at hstoreValid ⊢
  obtain ⟨hn, hservices, hconnections, htab, _, hents, -⟩ := hstoreValid
  refine ⟨hn, hservices, hconnections, htab, (), validateEntities_iff.mpr ?_, ?_, rfl⟩
  · rintro ⟨other, found⟩ hfound
    have hlook := Std.ExtTreeMap.mem_toList_iff_getElem?_eq_some.mp hfound
    simp only [replaceEntity, StringMap.lookup_insert] at hlook
    split at hlook
    · next heq =>
      cases hlook
      refine ⟨?_, hname ▸ hne, hval⟩
      rw [← heq, hname]
      exact hkey
    · exact validateEntities_iff.mp hents _
        (Std.ExtTreeMap.mem_toList_iff_getElem?_eq_some.mpr hlook)
  · simp [replaceEntity]

/-- The catalog after the metadata of an entity was applied (`mutable_entity` and `apply`). -/
def discover (catalog : SchemaCatalog) (dialect : DialectKind) (target : Target) (result : DbResult) :
    Except Bytes SchemaCatalog :=
  match hstore : catalog.stores[target.store]? with
  | none => .ok catalog
  | some store =>
    match hentity : store.entities[target.entity]? with
    | none => .ok catalog
    | some entity =>
      match happly : SchemaProvider.apply dialect entity result with
      | .error error => .error error
      | .ok completed => .ok {
          allowBinary := catalog.allowBinary
          stores := catalog.stores.insert target.store (replaceEntity store target.entity completed)
          valid := by
            intro name found hfound
            rw [StringMap.lookup_insert] at hfound
            split at hfound
            · next heq =>
              cases hfound
              obtain ⟨_, -, hcomplete, hvalid⟩ := SchemaProvider.apply_ok happly
              refine ⟨(catalog.valid _ _ hstore).1.trans heq, ?_⟩
              exact replaceEntity_valid hstore hentity (SchemaProvider.complete_name hcomplete)
                (validateEntity_allow hvalid)
            · exact catalog.valid name found hfound }

end SchemaCatalog

end Caf.EntityStore
