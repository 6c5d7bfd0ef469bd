import CafPluginSystem.Redis.Commit
import CafPluginSystem.Redis.Refusals

/-!
# Documents that stay readable

What a save stores is encoded, and decoded and validated again by every later load and save.  Two
things can go wrong on the way.  The canonical text of a decimal can be longer than the constructor
of `Decimal` accepts, and `decode` accepts fewer columns than `encode` writes.  And a document is
validated with the schema of whoever reads it, which is the schema it was written with only where
entities that share a table share their columns, the table being the entity's namespace.

`Kept` is what holds of every document where the first two do not happen; it includes validity
where the third does not.

* `validateValue_canonical` — a valid value that `Fits` is valid in canonical form.
* `Kept.decode` — a kept document that was encoded decodes to its canonical form, which is kept.
* `apply_kept`, `apply_notInternal` — patches keep documents, and find nothing wrong with them.
-/

namespace Caf.EntityStore.Redis

open EntityCodec Fallible Std.ExtTreeMap StringMap

variable {p : Platform}
variable {patch : EntityPatch} {item : Value} {column : FieldSchema} {document' : Document}

/-! ## Values -/

/-- The canonical form of the value can be read: if it is a decimal, its canonical text is within
the constructor's limit. -/
def Fits (item : Value) : Prop :=
  item.kind = .decimal → ∀ d, Decimal.ofText item.textValue = .ok d → d.str.length ≤ Decimal.limit

lemma fits_of_kind (h : item.kind ≠ .decimal) : Fits item :=
  fun hkind => absurd hkind h

/-- A decimal whose own text can be read has a canonical text that can be read. -/
lemma Decimal.ofText_of_str {d e} (h : ofText d.str = .ok e) :
    e = d ∧ d.str.length ≤ limit := by
  by_cases hlen : d.str.length ≤ limit
  · rw [ofText_str d hlen, Except.ok.injEq] at h
    exact ⟨h.symm, hlen⟩
  · rw [ofText_str_oversized d (by omega)] at h
    cases h

/-- Canonical values fit. -/
lemma fits_toValue (c : Content) : Fits c.toValue := by
  cases c with
  | decimal x =>
    intro _ d hd
    obtain ⟨rfl, hlen⟩ := Decimal.ofText_of_str hd
    exact hlen
  | _ => exact fits_of_kind (by simp [Content.toValue_kind, Content.kind])

/-- A value that fits has the content of its canonical form. -/
lemma contentOf_toValue {c} (h : contentOf p item = .ok c)
    (hfits : Fits item) : contentOf p c.toValue = .ok c := by
  unfold contentOf at h
  split at h
  case h_5 =>
    obtain ⟨hfinite, h⟩ := guard_eq_ok.mp h
    cases h
    by_cases hzero : item.realValue.isZero
    · rw [if_pos hzero]
      rfl
    · simp [contentOf, Content.toValue, Value.real, hfinite, hzero]
  case h_6 hkind =>
    obtain ⟨d, hd, h⟩ := bind_eq_ok.mp h
    cases h
    simp [contentOf, Content.toValue, Value.decimal, Decimal.ofText_str d (hfits hkind d hd)]
  case h_8 =>
    obtain ⟨hjson, h⟩ := guard_eq_ok.mp h
    cases h
    simp [contentOf, Content.toValue, Value.json, hjson]
  all_goals
    cases h
    rfl

/-- The kind of a value is one the column takes. -/
def KindMatches (kind : ValueKind) (field : FieldSchema) (key : Bool) : Prop :=
  if kind = .nullValue then ¬(key ∨ !field.nullable) else kind = field.kind

/-- **What `validate_value` accepts.** -/
lemma validateValue_eq_ok {field key} :
    validateValue p item field key = .ok () ↔
      KindMatches item.kind field key ∧ ∃ c, contentOf p item = .ok c ∧
        (c.framed?.isSome → c.encoding.length ≤ Writer.maxBytes) := by
  have hencode : (do let _ ← encodeValue p [] item; (.ok () : Except EntityError Unit)) = .ok () ↔
      ∃ c, contentOf p item = .ok c ∧ (c.framed?.isSome → c.encoding.length ≤ Writer.maxBytes) := by
    simp only [bind_eq_ok, encodeValue_eq_ok, and_true]
    constructor
    · rintro ⟨_, c, hc, rfl, hle⟩
      exact ⟨c, hc, hle⟩
    · rintro ⟨c, hc, hle⟩
      exact ⟨_, c, hc, rfl, hle⟩
  unfold validateValue KindMatches
  simp only [invalid, error_bind]
  split
  · rw [guard_eq_ok, hencode]
  · rw [guard_eq_ok, hencode, not_not]

/-- **A valid value that fits is valid in canonical form.** -/
lemma validateValue_canonical {field key}
    (h : validateValue p item field key = .ok ()) (hfits : Fits item) :
    validateValue p (canonicalValue p item) field key = .ok () := by
  obtain ⟨hkind, c, hc, hle⟩ := validateValue_eq_ok.mp h
  rw [canonicalValue, hc]
  refine validateValue_eq_ok.mpr ⟨?_, c, contentOf_toValue hc hfits, hle⟩
  rw [Content.toValue_kind, contentOf_kind hc]
  exact hkind

lemma canonicalValue_fits (hfits : Fits item) : Fits (canonicalValue p item) := by
  unfold canonicalValue
  split
  · exact fits_toValue _
  · exact hfits

/-- What an increment computes is canonical, so it fits. -/
lemma increment_fits {before delta after kind}
    (h : increment p before delta kind = .ok after) : Fits after := by
  simp only [increment, invalid, guard_eq_ok] at h
  obtain ⟨-, h⟩ := h
  split at h
  · obtain ⟨text, -, h⟩ := bind_eq_ok.mp h
    split at h
    · cases h
    · obtain ⟨-, h⟩ := guard_eq_ok.mp h
      cases h
      exact fits_of_kind (by simp [Value.real])
  · have hsum : ∀ change, incrementSum p before change kind = .ok after → Fits after := by
      intro change hchg
      simp only [incrementSum, bind_eq_ok] at hchg
      obtain ⟨beforeText, -, augend, -, sum, -, hchg⟩ := hchg
      split at hchg
      · cases hchg
        exact fits_toValue (.decimal sum)
      · obtain ⟨text, -, hchg⟩ := bind_eq_ok.mp hchg
        split at hchg
        · split at hchg
          · cases hchg
          · cases hchg
            exact fits_of_kind (by simp [Value.signedInteger])
        · split at hchg
          · cases hchg
          · cases hchg
            exact fits_of_kind (by simp [Value.unsignedInteger])
    simp only [incrementExact, bind_eq_ok] at h
    obtain ⟨deltaText, -, change, -, h⟩ := h
    split at h
    · exact hsum change h
    · obtain ⟨-, -, h⟩ := bind_eq_ok.mp h
      exact hsum change h

/-! ## Documents -/

/-- The catalog keeps the entity in the hash. -/
def Maps (catalog : SchemaCatalog) (hash : Bytes) (mapped : EntitySchema) : Prop :=
  ∃ (name : Bytes) (store : StoreSchema) (entity : Bytes), catalog.stores[name]? = some store ∧ hashKey store = hash ∧
    store.entities[entity]? = some mapped

lemma Maps.distinct {catalog hash mapped} (h : Maps catalog hash mapped) : mapped.Distinct := by
  obtain ⟨name, store, entity, hstore, -, hent⟩ := h
  exact validateEntity_distinct (validateStore_entity (catalog.valid name store hstore).2 hent)

/-- Entities that share a table of one hash share their keys and fields. -/
def TablesSeparate (catalog : SchemaCatalog) : Prop :=
  ∀ hash mapped mapped', Maps catalog hash mapped → Maps catalog hash mapped' →
    mapped.table = mapped'.table → mapped.keys = mapped'.keys ∧ mapped.fields = mapped'.fields

/-- Some entity of the table has the column. -/
def HasColumn (catalog : SchemaCatalog) (hash table column : Bytes) : Prop :=
  ∃ mapped, Maps catalog hash mapped ∧ mapped.table = table ∧
    column ∈ (mapped.keys ++ mapped.fields).map FieldSchema.column

/-- No table has more columns than `decode` accepts. -/
def ColumnsBounded (catalog : SchemaCatalog) : Prop :=
  ∀ hash table, ∃ columns : List Bytes, columns.length ≤ 65536 ∧
    ∀ column, HasColumn catalog hash table column → column ∈ columns

/-- What the document of an entity may hold: columns of its table, with values that fit. -/
def KeptFields (catalog : SchemaCatalog) (hash table : Bytes) (fields : StringMap Value) : Prop :=
  ∀ (column : Bytes) (value : Value), fields[column]? = some value → HasColumn catalog hash table column ∧ Fits value

/-- What holds of every document that the adapter keeps for an entity, stored or in memory. -/
structure Kept (p : Platform) (catalog : SchemaCatalog) (hash : Bytes) (mapped : EntitySchema)
    (document : Document) : Prop where
  version_le : document.version ≤ int64Max
  missing : document.version = 0 → document.fields = ∅
  fields : KeptFields catalog hash mapped.table document.fields
  valid : TablesSeparate catalog → document.version ≠ 0 → checkDocument p document mapped = .ok ()

variable {catalog : SchemaCatalog} {hash : Bytes} {mapped : EntitySchema}

namespace KeptFields

variable {table : Bytes} {fields : StringMap Value}

lemma empty : KeptFields catalog hash table ∅ := by
  intro column value h
  simp at h

variable (h : KeptFields catalog hash table fields)
include h

lemma insert {column value} (hcol : HasColumn catalog hash table column) (hfits : Fits value) :
    KeptFields catalog hash table (fields.insert column value) := by
  intro other found hfound
  rw [lookup_insert] at hfound
  split at hfound
  · next heq =>
    cases hfound
    exact heq ▸ ⟨hcol, hfits⟩
  · exact h other found hfound

lemma insertIfNew {column value} (hcol : HasColumn catalog hash table column) (hfits : Fits value) :
    KeptFields catalog hash table (fields.insertIfNew column value) := by
  intro other found hfound
  rw [lookup_insertIfNew] at hfound
  split at hfound
  · next heq =>
    cases hfound
    exact heq.1 ▸ ⟨hcol, hfits⟩
  · exact h other found hfound

lemma erase (column : Bytes) :
    KeptFields catalog hash table (fields.erase column) := by
  intro other found hfound
  rw [lookup_erase] at hfound
  split at hfound
  · cases hfound
  · exact h other found hfound

lemma canonical :
    KeptFields catalog hash table (fields.map fun _ => canonicalValue p) := by
  intro column found hfound
  rw [getElem?_map, Option.map_eq_some_iff] at hfound
  obtain ⟨value, hval, rfl⟩ := hfound
  obtain ⟨hcol, hfits⟩ := h column value hval
  exact ⟨hcol, canonicalValue_fits hfits⟩

/-- A document has no more columns than its table. -/
lemma size_le (hbound : ColumnsBounded catalog) :
    fields.size ≤ 65536 := by
  obtain ⟨columns, hlen, hcols⟩ := hbound hash table
  have hnodup : fields.keys.Nodup := by
    have hdist := distinct_keys (t := fields)
    simp only [Std.LawfulEqOrd.compare_eq_iff_eq] at hdist
    exact hdist
  have hsub : fields.keys ⊆ columns := by
    intro column hmem
    rw [mem_keys, mem_iff_isSome_getElem?, Option.isSome_iff_exists]
      at hmem
    obtain ⟨value, hval⟩ := hmem
    exact hcols column (h column value hval).1
  calc fields.size = fields.keys.length := length_keys.symm
    _ ≤ columns.length := (List.subperm_of_subset hnodup hsub).length_le
    _ ≤ 65536 := hlen

end KeptFields

variable {document : Document} {field : Bytes}

lemma validateDocument_eq_ok :
    validateDocument p document mapped = .ok () ↔ checkDocument p document mapped = .ok () := by
  unfold validateDocument
  split <;> simp_all [corrupt]

/-- What `validate_document` accepts. -/
lemma checkDocument_eq_ok : checkDocument p document mapped = .ok () ↔
    (∀ key ∈ mapped.keys, validateDocumentKey p document key = .ok ()) ∧
    ∀ column ∈ mapped.fields, validateValue p (loadedValue document column) column = .ok () := by
  simp only [checkDocument, bind_eq_ok, ← forM_eq_ok]
  constructor
  · rintro ⟨_, h⟩
    exact h
  · exact fun h => ⟨(), h⟩

lemma canonicalValue_null : canonicalValue p Value.null = Value.null := rfl

/-- The document as it is read back. -/
def Document.canonical (p : Platform) (document : Document) : Document :=
  { document with fields := document.fields.map fun _ => canonicalValue p }

lemma loadedValue_canonical (document : Document) (column : FieldSchema) :
    loadedValue (document.canonical p) column = canonicalValue p (loadedValue document column) := by
  simp only [loadedValue, Document.canonical, getElem?_map]
  cases document.fields[column.column]? with
  | none => simp [canonicalValue_null]
  | some value => simp

/-- A valid document whose values fit is valid in canonical form. -/
lemma checkDocument_canonical (h : checkDocument p document mapped = .ok ())
    (hfits : ∀ (column : Bytes) (value : Value), document.fields[column]? = some value →
      Fits value) :
    checkDocument p (document.canonical p) mapped = .ok () := by
  obtain ⟨hkeys, hfields⟩ := checkDocument_eq_ok.mp h
  refine checkDocument_eq_ok.mpr ⟨fun key hkey => ?_, fun column hcol => ?_⟩
  · have hvalid := hkeys key hkey
    simp only [validateDocumentKey, Document.canonical, getElem?_map] at hvalid ⊢
    cases hval : document.fields[key.column]? with
    | none =>
      rw [hval] at hvalid
      cases hvalid
    | some value =>
      rw [hval] at hvalid
      exact validateValue_canonical hvalid (hfits _ _ hval)
  · rw [loadedValue_canonical]
    refine validateValue_canonical (hfields column hcol) ?_
    unfold loadedValue
    cases hval : document.fields[column.column]? with
    | none => exact fits_of_kind (by decide)
    | some value => exact hfits _ _ hval

namespace Kept

lemma empty : Kept p catalog hash mapped {} where
  version_le := by decide
  missing _ := rfl
  fields := KeptFields.empty
  valid _ h := absurd rfl h

variable {document : Document}

variable (h : Kept p catalog hash mapped document)
include h

lemma canonical :
    Kept p catalog hash mapped (document.canonical p) where
  version_le := h.version_le
  missing hzero := by simp [Document.canonical, h.missing hzero]
  fields := h.fields.canonical
  valid hsep hne := checkDocument_canonical (h.valid hsep hne)
    fun column value hval => (h.fields column value hval).2

/-- Where tables are separate, a document is kept for every entity of its table alike. -/
lemma share (hmap : Maps catalog hash mapped) {mapped'}
    (hmap' : Maps catalog hash mapped') (htab : mapped.table = mapped'.table) :
    Kept p catalog hash mapped' document where
  version_le := h.version_le
  missing := h.missing
  fields := htab ▸ h.fields
  valid hsep hne := by
    obtain ⟨hkeys, hfields⟩ := hsep hash mapped mapped' hmap hmap' htab
    have hval := h.valid hsep hne
    rwa [checkDocument, hkeys, hfields] at hval

/-- **A kept document that was encoded decodes to its canonical form.** -/
lemma decode_eq {bytes} (hbound : ColumnsBounded catalog) (hne : document.version ≠ 0)
    (hencode : encode p document = .ok bytes) : decode bytes = .ok (document.canonical p) :=
  decode_encode hencode hne h.version_le (h.fields.size_le hbound)

end Kept

/-! ## Patches -/

/-- The decimals of a change fit, in its key and in what it sets. -/
structure ChangeFits (patch : EntityPatch) : Prop where
  key : ∀ key ∈ patch.target.key, Fits key.data
  set : ∀ field ∈ patch.fields, field.operation = .set → Fits field.data

/-- What `save` has checked about a change before it applies it. -/
structure Checked (p : Platform) (mapped : EntitySchema) (patch : EntityPatch) (field : Bytes) :
    Prop where
  validated : validatePatch p mapped patch = .ok ()
  named : objectField p mapped patch.target = .ok field

/-- Every key of a target that `object_field` accepts is one of the schema's. -/
lemma objectField_keys {target} (hdist : mapped.Distinct)
    (h : objectField p mapped target = .ok field) :
    ∀ key ∈ target.key, ∃ column, mapped.findKey key.name = some column := by
  intro key hkey
  obtain ⟨column, hcol, hname⟩ := List.mem_map.mp
    ((objectField_names hdist h).mem_iff.mpr (List.mem_map_of_mem (f := NamedValue.name) hkey))
  cases hfind : mapped.findKey key.name with
  | some found => exact ⟨found, rfl⟩
  | none =>
    have hnone := List.find?_eq_none.mp hfind column hcol
    simp [hname] at hnone

lemma createKeys_kept (hmap : Maps catalog hash mapped) : ∀ {keys : List NamedValue}
    {fields : StringMap Value}, (∀ key ∈ keys, ∃ column, mapped.findKey key.name = some column) →
      (∀ key ∈ keys, Fits key.data) → KeptFields catalog hash mapped.table fields →
      ∃ fields', createKeys mapped fields keys = .ok fields' ∧
        KeptFields catalog hash mapped.table fields'
  | [], fields, _, _, h => ⟨fields, rfl, h⟩
  | key :: keys, fields, hfound, hfits, h => by
    obtain ⟨column, hcol⟩ := hfound key (by simp)
    simp only [createKeys, hcol]
    refine createKeys_kept hmap (fun k hk => hfound k (by simp [hk]))
      (fun k hk => hfits k (by simp [hk])) (h.insertIfNew ⟨mapped, hmap, rfl, ?_⟩
        (hfits key (by simp)))
    exact List.mem_map_of_mem (List.mem_append_left _ (List.mem_of_find?_eq_some hcol))

/-- The checks at the start of `apply` find nothing wrong with a kept document. -/
lemma openDocument_kept (hmap : Maps catalog hash mapped) (hsep : TablesSeparate catalog)
    (h : Kept p catalog hash mapped document)
    (hcheck : Checked p mapped patch field) (hfits : ChangeFits patch) :
    NotInternal (openDocument p document mapped patch) := by
  unfold openDocument
  by_cases hzero : document.version = 0
  · rw [if_pos hzero]
    refine Raises.guard (by decide) fun _ => ?_
    obtain ⟨fields, hfields, -⟩ := createKeys_kept hmap
      (objectField_keys hmap.distinct hcheck.named) hfits.key h.fields
    simp [hfields]
  · rw [if_neg hzero]
    refine Raises.guard (by decide) fun _ => ?_
    rw [validateDocument_eq_ok.mpr (h.valid hsep hzero), ok_bind]
    exact Raises.guard (by decide) fun _ => by simp

lemma openDocument_fields (hmap : Maps catalog hash mapped)
    (h : Kept p catalog hash mapped document)
    (hcheck : Checked p mapped patch field) (hfits : ChangeFits patch)
    (hopen : openDocument p document mapped patch = .ok document') :
    KeptFields catalog hash mapped.table document'.fields := by
  unfold openDocument at hopen
  split at hopen
  · obtain ⟨fields, hfields, hkept⟩ := createKeys_kept hmap
      (objectField_keys hmap.distinct hcheck.named) hfits.key h.fields
    obtain ⟨-, hopen⟩ := guard_eq_ok.mp hopen
    rw [hfields, ok_bind] at hopen
    cases hopen
    exact hkept
  · simp only [guard_eq_ok, bind_eq_ok] at hopen
    obtain ⟨-, _, -, -, hopen⟩ := hopen
    cases hopen
    exact h.fields

/-- `validate_patch` has found every field of the patch. -/
lemma Checked.found {name} (h : Checked p mapped patch name) :
    ∀ field ∈ patch.fields, ∃ column, mapped.findWritableField field.name = some column := by
  intro field hfield
  have hval := (guard_eq_ok.mp h.validated).2
  have hthis := forM_eq_ok.mp hval field hfield
  unfold validatePatchField at hthis
  cases hcol : mapped.findWritableField field.name with
  | some column => exact ⟨column, rfl⟩
  | none =>
    rw [hcol] at hthis
    cases hthis

lemma applyField_refuses {fields field} (hcol : mapped.findWritableField field.name = some column) :
    Refuses (applyField p mapped fields field) := by
  unfold applyField
  rw [hcol]
  dsimp only
  split
  · simp
  · simp
  · refine Raises.bind ?_ fun before _ => (increment_refuses _ _ _).bind fun _ _ => by simp
    unfold incrementBase
    split
    · unfold zero
      split <;> simp
    · simp

lemma applyField_kept (hmap : Maps catalog hash mapped) {fields fields'}
    {field} (hfits : field.operation = .set → Fits field.data)
    (h : KeptFields catalog hash mapped.table fields)
    (happly : applyField p mapped fields field = .ok fields') :
    KeptFields catalog hash mapped.table fields' := by
  unfold applyField at happly
  split at happly
  · cases happly
  · next column hcol =>
    have hhas : HasColumn catalog hash mapped.table column.column :=
      ⟨mapped, hmap, rfl, List.mem_map_of_mem
        (List.mem_append_right _ (findWritableField_some hcol).1)⟩
    split at happly
    · cases happly
      exact h.erase _
    · next hset =>
      cases happly
      exact h.insert hhas (hfits hset)
    · simp only [bind_eq_ok] at happly
      obtain ⟨before, -, after, hafter, happly⟩ := happly
      cases happly
      exact h.insert hhas (increment_fits hafter)

/-- The field loop keeps the columns, one field after another. -/
lemma applyFields_kept (hmap : Maps catalog hash mapped) : ∀ {patches : List FieldPatch}
    {fields fields' : StringMap Value}, (∀ field ∈ patches, field.operation = .set → Fits field.data) →
      KeptFields catalog hash mapped.table fields →
      patches.foldlM (applyField p mapped) fields = .ok fields' →
      KeptFields catalog hash mapped.table fields'
  | [], fields, fields', _, h, happly => by
    cases happly
    exact h
  | field :: patches, fields, fields', hfits, h, happly => by
    rw [List.foldlM_cons, bind_eq_ok] at happly
    obtain ⟨mid, hmid, hrest⟩ := happly
    exact applyFields_kept hmap (fun g hg => hfits g (by simp [hg]))
      (applyField_kept hmap (hfits field (by simp)) h hmid) hrest

lemma applyFields_refuses : ∀ {patches : List FieldPatch} {fields : StringMap Value},
    (∀ field ∈ patches, ∃ column, mapped.findWritableField field.name = some column) →
      Refuses (patches.foldlM (applyField p mapped) fields)
  | [], fields, _ => by simp
  | field :: patches, fields, h => by
    obtain ⟨column, hcol⟩ := h field (by simp)
    exact (applyField_refuses hcol).bind fun _ _ =>
      applyFields_refuses fun g hg => h g (by simp [hg])

/-- **A patch keeps the document.** -/
lemma apply_kept (hmap : Maps catalog hash mapped) (h : Kept p catalog hash mapped document)
    (hcheck : Checked p mapped patch field) (hfits : ChangeFits patch)
    (happly : apply p document mapped patch = .ok document') :
    Kept p catalog hash mapped document' := by
  have hver := (apply_version happly h.version_le).1
  obtain ⟨opened, hopen, hrest⟩ := bind_eq_ok.mp happly
  have hfields := openDocument_fields hmap h hcheck hfits hopen
  split at hrest
  · cases hrest
    exact .empty
  · simp only [patchDocument, invalid, guard_eq_ok, bind_eq_ok] at hrest
    obtain ⟨hne, fields, happlied, hrest⟩ := hrest
    split at hrest
    · next hval =>
      cases hrest
      have hpos := (version_succ (openDocument_version hopen ▸ h.version_le) hne).2
      exact ⟨hver, fun hzero => absurd hzero hpos,
        applyFields_kept hmap hfits.set hfields happlied,
        fun _ _ => validateDocument_eq_ok.mp hval⟩
    · cases hrest

/-- **A patch finds nothing wrong with a kept document.** -/
lemma apply_notInternal (hmap : Maps catalog hash mapped) (hsep : TablesSeparate catalog)
    (h : Kept p catalog hash mapped document)
    (hcheck : Checked p mapped patch field) (hfits : ChangeFits patch) :
    NotInternal (apply p document mapped patch) := by
  refine (openDocument_kept hmap hsep h hcheck hfits).bind fun opened _ => ?_
  split
  · simp
  · refine Raises.guard (by decide) fun _ => ?_
    refine (applyFields_refuses hcheck.found).notInternal.bind fun fields _ => ?_
    dsimp only
    split
    · simp
    · exact (refuses_invalid _).notInternal

end Caf.EntityStore.Redis
