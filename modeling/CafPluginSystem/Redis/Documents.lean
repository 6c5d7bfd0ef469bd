import CafPluginSystem.Redis.Codec

/-!
# Validating and patching documents

The private functions of `EntityStoreEngine` (`plugins/redis/redis_entity_store.hpp`) that work on
one document in memory: `validate_patch`, `validate_document` and `apply`, and what a load shows
of a document.

A document can hold a null in two ways, as an explicit null and by not having the column, and a
load shows both as null.  Setting and erasing do not look at the old value, but an increment does:
it starts from zero where the column is missing and refuses an explicit null.  So a load
determines what a patch does up to exactly this difference (`apply_sameLoad`).
-/

namespace Caf.EntityStore.Redis

open EntityCodec Fallible StringMap

variable (p : Platform)
variable {column : FieldSchema} {d e : Document} {f g : StringMap Value} {rest : List FieldPatch}
  {field : FieldPatch}

/-! ## Validation -/

/-- One iteration of the field loop of `validate_patch`. -/
def validatePatchField (mapped : EntitySchema) (field : FieldPatch) : Except EntityError Unit :=
  match mapped.findWritableField field.name with
  | none => invalid (str "unknown or read-only field: " ++ field.name)
  | some column =>
    match field.operation with
    | .set => validateValue p field.data column
    | .erase =>
      if !column.nullable then invalid (str "cannot erase required field: " ++ field.name)
      else .ok ()
    | .increment =>
      if !column.kind.isNumber then invalid (str "increment requires numeric schema field")
      else do
        let text ← numericText p field.data
        let delta ← Decimal.ofText text
        if column.kind = .signedInteger ∨ column.kind = .unsignedInteger then
          let _ ← delta.integer
          .ok ()
        else .ok ()

def validatePatch (mapped : EntitySchema) (patch : EntityPatch) : Except EntityError Unit :=
  if patch.expectedVersion > int64Max then invalid (str "version exceeds int64")
  else patch.fields.forM (validatePatchField p mapped)

/-- What a load shows for a column: a missing one reads as null. -/
def loadedValue (document : Document) (column : FieldSchema) : Value :=
  (document.fields[column.column]?).getD .null

/-- The values a load returns for the selected columns. -/
def selectValues (selected : List FieldSchema) (document : Document) : List NamedValue :=
  selected.map fun column => ⟨column.name, loadedValue document column⟩

/-- The key loop of `validate_document`. -/
def validateDocumentKey (document : Document) (key : FieldSchema) : Except EntityError Unit :=
  match document.fields[key.column]? with
  | none => corrupt (str "missing stored entity key")
  | some found => validateValue p found key true

/-- The two loops of `validate_document`, before its `catch`. -/
def checkDocument (document : Document) (mapped : EntitySchema) : Except EntityError Unit := do
  mapped.keys.forM (validateDocumentKey p document)
  mapped.fields.forM fun column => validateValue p (loadedValue document column) column

def validateDocument (document : Document) (mapped : EntitySchema) : Except EntityError Unit :=
  match checkDocument p document mapped with
  | .ok () => .ok ()
  | .error error => corrupt error.message

/-! ## Patching -/

/-- The key loop of `apply` for a document that is being created.  `object_field` has found the
target's keys in the schema; the null pointer the source would follow otherwise is an error
here. -/
def createKeys (mapped : EntitySchema) : StringMap Value → List NamedValue →
    Except EntityError (StringMap Value)
  | fields, [] => .ok fields
  | fields, key :: keys =>
    match mapped.findKey key.name with
    | none => corrupt []
    | some column => createKeys mapped (fields.insertIfNew column.column key.data) keys

/-- What an increment adds to: the stored value, or zero where the column is missing. -/
def incrementBase (fields : StringMap Value) (column : FieldSchema) : Except EntityError Value :=
  match fields[column.column]? with
  | none => zero column.kind
  | some found => .ok found

/-- One iteration of the field loop of `apply`.  `validate_patch` has found the field. -/
def applyField (mapped : EntitySchema) (fields : StringMap Value) (field : FieldPatch) :
    Except EntityError (StringMap Value) :=
  match mapped.findWritableField field.name with
  | none => corrupt []
  | some column =>
    match field.operation with
    | .erase => .ok (fields.erase column.column)
    | .set => .ok (fields.insert column.column field.data)
    | .increment => do
        let before ← incrementBase fields column
        let after ← increment p before field.data column.kind
        .ok (fields.insert column.column after)

/-- The checks at the start of `apply`; they return the document with its key columns. -/
def openDocument (document : Document) (mapped : EntitySchema) (patch : EntityPatch) :
    Except EntityError Document :=
  if document.version = 0 then
    if (patch.operation ≠ .insert ∧ !patch.createIfMissing)
        ∨ (patch.checkVersion ∧ patch.expectedVersion ≠ 0) then
      .error { code := .notFound, message := str "entity not found" }
    else do
      let fields ← createKeys mapped document.fields patch.target.key
      .ok { document with fields }
  else if patch.operation = .insert then
    .error { code := .conflict, message := str "entity already exists", failed := conflict_ne_ok }
  else do
    validateDocument p document mapped
    if patch.checkVersion ∧ patch.expectedVersion ≠ document.version then
      .error { code := .conflict, message := str "entity version conflict", failed := conflict_ne_ok }
    else .ok document

/-- The rest of `apply`, for anything but a deletion. -/
def patchDocument (document : Document) (mapped : EntitySchema) (patch : EntityPatch) :
    Except EntityError Document :=
  if document.version = int64Max then invalid (str "entity version exhausted")
  else do
    let fields ← patch.fields.foldlM (applyField p mapped) document.fields
    let document : Document := { version := document.version + 1, fields }
    match validateDocument p document mapped with
    | .ok () => .ok document
    | .error error => invalid error.message

def apply (document : Document) (mapped : EntitySchema) (patch : EntityPatch) :
    Except EntityError Document := do
  let document ← openDocument p document mapped patch
  if patch.operation = .deleteEntity then .ok {}
  else patchDocument p document mapped patch

/-! ## What a load determines -/

variable {p}

/-- A load of all fields of one entity cannot tell the documents apart. -/
structure SameLoad (mapped : EntitySchema) (d e : Document) : Prop where
  version : d.version = e.version
  keys : ∀ key ∈ mapped.keys, d.fields[key.column]? = e.fields[key.column]?
  values : selectValues mapped.fields d = selectValues mapped.fields e

lemma SameLoad.loaded {mapped} (h : SameLoad mapped d e) :
    ∀ column ∈ mapped.fields, loadedValue d column = loadedValue e column := by
  intro column hcol
  have := List.map_inj_left.mp h.values column hcol
  simpa using this

/-- Validation only looks at what a load shows. -/
lemma SameLoad.validateDocument {mapped}
    (h : SameLoad mapped d e) : validateDocument p d mapped = validateDocument p e mapped := by
  have hkeys : mapped.keys.forM (validateDocumentKey p d)
      = mapped.keys.forM (validateDocumentKey p e) :=
    forM_congr fun key hkey => by simp only [validateDocumentKey, h.keys key hkey]
  have hfields : (mapped.fields.forM fun column => validateValue p (loadedValue d column) column)
      = mapped.fields.forM fun column => validateValue p (loadedValue e column) column :=
    forM_congr fun column hcol => by rw [h.loaded column hcol]
  simp only [Redis.validateDocument, checkDocument, hkeys, hfields]

/-- The first operation of the patch on the field is an increment, so it reads the stored value. -/
def incrementedFirst (fields : List FieldPatch) (name : Bytes) : Bool :=
  (fields.find? fun field => field.name == name).any fun field => field.operation == .increment

/-- The columns of two documents while the same patch runs on both, with the operations still to
come: a column that an increment is about to read is the same in both. -/
structure Aligned (mapped : EntitySchema) (rest : List FieldPatch) (f g : StringMap Value) :
    Prop where
  keys : ∀ key ∈ mapped.keys, f[key.column]? = g[key.column]?
  loaded : ∀ column ∈ mapped.fields, (f[column.column]?).getD .null = (g[column.column]?).getD .null
  incremented : ∀ column ∈ mapped.fields, incrementedFirst rest column.name →
    f[column.column]? = g[column.column]?

lemma findWritableField_some {mapped : EntitySchema} {name}
    (h : mapped.findWritableField name = some column) :
    column ∈ mapped.fields ∧ column.name = name := by
  obtain ⟨hfind, -⟩ := Option.filter_eq_some_iff.mp h
  exact ⟨List.mem_of_find?_eq_some hfind, by simpa using List.find?_some hfind⟩

section

variable {mapped : EntitySchema} (hdist : mapped.Distinct) (h : Aligned mapped (field :: rest) f g)
include hdist h

/-- A column that is written alike in both documents stays aligned, and so do the others. -/
lemma Aligned.update {f' g' : StringMap Value}
    (hcol : mapped.findWritableField field.name = some column)
    (hsame : f'[column.column]? = g'[column.column]?)
    (hf : ∀ a, column.column ≠ a → f'[a]? = f[a]?) (hg : ∀ a, column.column ≠ a → g'[a]? = g[a]?) :
    Aligned mapped rest f' g' := by
  obtain ⟨hmem, hname⟩ := findWritableField_some hcol
  constructor
  · intro key hkey
    by_cases heq : column.column = key.column
    · rw [← heq, hsame]
    · rw [hf _ heq, hg _ heq, h.keys key hkey]
  · intro other hoth
    by_cases heq : column.column = other.column
    · rw [← heq, hsame]
    · rw [hf _ heq, hg _ heq, h.loaded other hoth]
  · intro other hoth hinc
    by_cases heq : column.column = other.column
    · rw [← heq, hsame]
    · rw [hf _ heq, hg _ heq]
      refine h.incremented other hoth ?_
      -- names are distinct, so `field` is about another field than `other`
      have hne : field.name ≠ other.name := by
        intro hsameName
        have hnames := (List.nodup_append.mp (List.map_append ▸ hdist.names)).2.1
        exact heq (congrArg FieldSchema.column
          (List.inj_on_of_nodup_map hnames hmem hoth (hname.trans hsameName)))
      simpa [incrementedFirst, List.find?_cons, hne] using hinc

/-- **One field of the patch keeps the documents aligned.** -/
lemma applyField_aligned :
    SameOutcome (Aligned mapped rest) (applyField p mapped f field)
      (applyField p mapped g field) := by
  unfold applyField
  cases hcol : mapped.findWritableField field.name with
  | none => rfl
  | some column =>
    obtain ⟨hmem, hname⟩ := findWritableField_some hcol
    cases hop : field.operation with
    | erase =>
      exact h.update hdist hcol (by simp)
        (fun a ha => by simp [lookup_erase, ha])
        (fun a ha => by simp [lookup_erase, ha])
    | set =>
      exact h.update hdist hcol (by simp)
        (fun a ha => by simp [lookup_insert, ha])
        (fun a ha => by simp [lookup_insert, ha])
    | increment =>
      have hread : f[column.column]? = g[column.column]? :=
        h.incremented column hmem (by simp [incrementedFirst, hname, hop])
      simp only [incrementBase, hread]
      refine (SameOutcome.of_eq (R := Eq) (fun _ => rfl) _).bind ?_
      rintro before _ rfl
      refine (SameOutcome.of_eq (R := Eq) (fun _ => rfl) _).bind ?_
      rintro after _ rfl
      exact h.update hdist hcol (by simp)
        (fun a ha => by simp [lookup_insert, ha])
        (fun a ha => by simp [lookup_insert, ha])

end

/-- The whole field loop keeps the documents aligned. -/
lemma applyFields_aligned {mapped} (hdist : mapped.Distinct) :
    ∀ {fields : List FieldPatch} {f g : StringMap Value}, Aligned mapped fields f g →
      SameOutcome (Aligned mapped []) (fields.foldlM (applyField p mapped) f)
        (fields.foldlM (applyField p mapped) g)
  | [], f, g, h => h
  | field :: fields, f, g, h => by
    exact (applyField_aligned hdist h).bind fun f' g' h' => applyFields_aligned hdist h'

lemma Aligned.sameLoad {mapped} (h : Aligned mapped [] f g)
    (version : UInt64) : SameLoad mapped ⟨version, f⟩ ⟨version, g⟩ where
  version := rfl
  keys := h.keys
  values := List.map_congr_left fun column hcol => by
    simp only [loadedValue, h.loaded column hcol]

/-- A column that is present in both documents or in neither is the same in both. -/
lemma SameLoad.lookup_eq {mapped} (h : SameLoad mapped d e) (hcol : column ∈ mapped.fields)
    (hpres : column.column ∈ d.fields ↔ column.column ∈ e.fields) :
    d.fields[column.column]? = e.fields[column.column]? := by
  have hloaded := h.loaded column hcol
  simp only [loadedValue] at hloaded
  rw [Std.ExtTreeMap.mem_iff_isSome_getElem?, Std.ExtTreeMap.mem_iff_isSome_getElem?] at hpres
  cases hd : d.fields[column.column]? with
  | none =>
    cases he : e.fields[column.column]? with
    | none => rfl
    | some w => simp [hd, he] at hpres
  | some v =>
    cases he : e.fields[column.column]? with
    | none => simp [hd, he] at hpres
    | some w => simpa [hd, he] using hloaded

/-- An update of a stored document starts alike from documents a load cannot tell apart. -/
lemma openDocument_sameLoad {mapped} (h : SameLoad mapped d e)
    (hstore : d.version ≠ 0) (patch : EntityPatch) :
    SameOutcome (fun d' e' => d' = d ∧ e' = e) (openDocument p d mapped patch)
      (openDocument p e mapped patch) := by
  have hstore' : e.version ≠ 0 := h.version ▸ hstore
  unfold openDocument
  rw [if_neg hstore, if_neg hstore', h.validateDocument, h.version]
  split
  · rfl
  · refine (SameOutcome.of_eq (R := Eq) (fun _ => rfl) _).bind ?_
    rintro _ _ -
    split
    · rfl
    · exact ⟨rfl, rfl⟩

/-- **A load determines what a patch does**, up to how a null is stored where the patch starts with
an increment: on two stored documents that a load of all fields cannot tell apart, a patch fails
alike or leads to documents that a load cannot tell apart either, provided each column whose first
operation is an increment is present in both documents or in neither. -/
theorem apply_sameLoad {allowBinary : Bool} {mapped : EntitySchema}
    (hvalid : validateEntity allowBinary mapped = .ok ()) {d e : Document}
    (h : SameLoad mapped d e) (hstored : d.version ≠ 0) (patch : EntityPatch)
    (hpresent : ∀ column ∈ mapped.fields, incrementedFirst patch.fields column.name →
      (column.column ∈ d.fields ↔ column.column ∈ e.fields)) :
    SameOutcome (SameLoad mapped) (apply p d mapped patch) (apply p e mapped patch) := by
  have hdist := validateEntity_distinct hvalid
  have haligned : Aligned mapped patch.fields d.fields e.fields :=
    ⟨h.keys, h.loaded, fun column hcol hinc =>
      h.lookup_eq hcol (hpresent column hcol hinc)⟩
  refine (openDocument_sameLoad h hstored patch).bind ?_
  rintro d' e' ⟨hd', he'⟩
  rw [hd', he']
  split
  · exact ⟨rfl, fun _ _ => rfl, rfl⟩
  · unfold patchDocument
    rw [h.version]
    split
    · rfl
    · refine (applyFields_aligned hdist haligned).bind fun f g hfg => ?_
      have hsame := hfg.sameLoad (e.version + 1)
      simp only [hsame.validateDocument (p := p)]
      split
      · exact hsame
      · rfl

/-! ### An increment tells a missing column from an explicit null -/

namespace NullExample

/-- An entity with one nullable counter. -/
def mapped : EntitySchema where
  name := str "player"
  table := str "players"
  keys := [{ name := str "id", column := str "id", kind := .unsignedInteger }]
  fields := [{ name := str "score", column := str "score", kind := .signedInteger }]

/-- A stored player, with whatever is stored of the counter. -/
def player (score : Option Value) : Document where
  version := 1
  fields := (∅ : StringMap Value).insert (str "id") (.unsignedInteger 7)
    |>.alter (str "score") fun _ => score

/-- One operation on the counter. -/
def patch (operation : PatchOp) : EntityPatch where
  target := { entity := str "player", key := [⟨str "id", .unsignedInteger 7⟩] }
  fields := [{ operation, name := str "score", data := .signedInteger 1 }]

lemma player_sameLoad : SameLoad mapped (player none) (player (some .null)) where
  version := rfl
  keys := by
    intro key hkey
    obtain rfl := List.mem_singleton.mp hkey
    rfl
  values := rfl

end NullExample

open NullExample in
/-- Two stored players that a load cannot tell apart, one without the counter and one with an
explicit null: the increment succeeds on the first and is refused on the second. -/
theorem apply_tells_null_from_missing :
    validateEntity true mapped = .ok () ∧
    validateDocument .integral (player none) mapped = .ok () ∧
    validateDocument .integral (player (some .null)) mapped = .ok () ∧
    SameLoad mapped (player none) (player (some .null)) ∧
    validatePatch .integral mapped (patch .increment) = .ok () ∧
    ((apply .integral (player none) mapped (patch .increment)).toOption.map Document.version)
      = some 2 ∧
    apply .integral (player (some .null)) mapped (patch .increment)
      = invalid (str "cannot increment null or non-numeric field") :=
  ⟨by decide, rfl, rfl, player_sameLoad, rfl, by decide +kernel, rfl⟩

open NullExample in
/-- Setting the counter does not look at the null, so the same two players are treated alike. -/
theorem apply_set_sameLoad :
    validateEntity true mapped = .ok () ∧
    SameLoad mapped (player none) (player (some .null)) ∧ (player none).version ≠ 0 ∧
    SameOutcome (SameLoad mapped) (apply .integral (player none) mapped (patch .set))
      (apply .integral (player (some .null)) mapped (patch .set)) :=
  ⟨by decide, player_sameLoad, by decide,
    apply_sameLoad (show validateEntity true mapped = .ok () by decide) player_sameLoad (by decide)
      (patch .set) (by decide)⟩

end Caf.EntityStore.Redis
