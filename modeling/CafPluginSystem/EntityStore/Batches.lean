import CafPluginSystem.Redis.Records
import CafPluginSystem.Sql.Text

/-!
# The records of a strict batch

`validate(save_request)` refuses a batch in which a strict operation and another change have one
target.  It compares keys with `operator==`, over all members of a value.  A store knows a record
by its table and by what the key says: Redis by the canonical values of the key columns, which the
object field holds, and SQL by what the parameters of the key predicate are compared as.

* `objectField_eq_iff`, `object_identity` — when two targets have one object field.
* `selects_both_iff` — when one row satisfies two key predicates.
* `strict_batch_apart_iff` — **what tells the changes of a strict batch apart**, and how far the
  validation goes.
-/

namespace Caf.EntityStore

open Fallible List Option

/-- The value that a target gives to a key column. -/
def keyAt (keys : List FieldSchema) (target : EntityRef) (column : Bytes) : Option Value :=
  (keys.find? fun key => key.column == column).bind fun key =>
    (Sql.findNamed target.key key.name).map NamedValue.data

lemma keyAt_cons (key : FieldSchema) (keys : List FieldSchema) (target : EntityRef) (column : Bytes) :
    keyAt (key :: keys) target column = if key.column = column
      then (Sql.findNamed target.key key.name).map NamedValue.data else keyAt keys target column := by
  rw [keyAt, find?_cons]
  split_ifs with hcol
  · simp [hcol]
  · rw [show (key.column == column) = false by simpa using hcol, keyAt]

/-- The search by something that tells the members of a list apart. -/
lemma find?_of_nodup_map {α β : Type} [BEq β] [LawfulBEq β] {f : α → β} {l : List α}
    (hnodup : (l.map f).Nodup) {a} (ha : a ∈ l) : (l.find? fun x => f x == f a) = some a := by
  obtain ⟨first, hfirst⟩ : ∃ first, (l.find? fun x => f x == f a) = some first :=
    isSome_iff_exists.mp (find?_isSome.mpr ⟨a, ha, by simp⟩)
  have heq : f first = f a := by simpa using find?_some hfirst
  rw [hfirst, inj_on_of_nodup_map hnodup (mem_of_find?_eq_some hfirst) ha heq]

lemma EntitySchema.Distinct.keyColumns {schema : EntitySchema} (h : schema.Distinct) :
    (schema.keys.map FieldSchema.column).Nodup :=
  (nodup_append.mp (map_append ▸ h.columns)).1

/-- What holds for the targets of any two changes of which one is strict. -/
def StrictPairs (request : SaveRequest) (R : EntityRef → EntityRef → Prop) : Prop :=
  request.changes.Pairwise fun x y =>
    x.operation ≠ .legacyPatch ∨ y.operation ≠ .legacyPatch → R x.target y.target

lemma strictPairs_congr {request} {R S : EntityRef → EntityRef → Prop}
    (h : ∀ x ∈ request.changes, ∀ y ∈ request.changes, R x.target y.target ↔ S x.target y.target) :
    StrictPairs request R ↔ StrictPairs request S :=
  List.Pairwise.iff_of_mem fun {x y} hx hy => imp_congr_right fun _ => h x hx y hy

/-- **What the validation establishes**: of two changes of one entity, the later one has a key that
is not a key of the other. -/
lemma validateSave_pairs {request} (h : validateSave request = .ok ()) :
    StrictPairs request fun x y => x.store = y.store ∧ (x.entity = y.entity →
      x.key.length = y.key.length → ∃ key ∈ y.key, ∀ key' ∈ x.key, key'.sameAs key = false) := by
  simp only [validateSave, guard_eq_ok] at h
  obtain ⟨-, h⟩ := h
  split at h
  · cases h
  · next first rest hchgs =>
    rw [StrictPairs, hchgs]
    refine (List.Pairwise.and_mem.mp (validateChanges_pairwise h).2).imp ?_
    rintro x y ⟨hx, hy, hdup⟩ hstrict
    have hstore : x.target.store = y.target.store :=
      (validateChanges_target h hx).2.trans (validateChanges_target h hy).2.symm
    refine ⟨hstore, fun hent hlen => ?_⟩
    have hop : (y.operation == .legacyPatch && x.operation == .legacyPatch) = false := by
      rcases hstrict with hx | hy
      · simp [hx]
      · simp [hy]
    simpa [duplicateStrictTarget, hop, hstore, hent, hlen] using hdup

/-! ## Redis -/

namespace Redis

variable {p : Platform} {mapped mapped' : EntitySchema} {target target' : EntityRef}

/-- The key loop files every column's first value. -/
lemma collectKeys_lookup (column : Bytes) : ∀ {keys : List FieldSchema} {m m' : StringMap Value},
    EntityCodec.collectKeys p target keys m = .ok m' →
      m'[column]? = m[column]?.or (keyAt keys target column)
  | [], m, m', h => by
    cases h
    simp [keyAt]
  | key :: keys, m, m', h => by
    rw [EntityCodec.collectKeys] at h
    split at h
    · cases h
    · next found hfound =>
      obtain ⟨_, -, hrest⟩ := bind_eq_ok.mp h
      have hnamed : Sql.findNamed target.key key.name = some found := hfound
      rw [collectKeys_lookup column hrest, StringMap.lookup_insertIfNew, keyAt_cons, hnamed]
      by_cases hcol : key.column = column
      · subst hcol
        by_cases hmem : key.column ∈ m <;> simp [hmem]
      · simp [hcol]

/-- **Two targets have one object field** when they are in one table and every column of the key
has one canonical value. -/
lemma objectField_eq_iff {field field'} (h : EntityCodec.objectField p mapped target = .ok field)
    (h' : EntityCodec.objectField p mapped' target' = .ok field') :
    field = field' ↔ mapped.table = mapped'.table ∧ ∀ column,
      (keyAt mapped.keys target column).map (canonicalValue p)
        = (keyAt mapped'.keys target' column).map (canonicalValue p) := by
  obtain ⟨hle, keys, contents, hkeys, hcontents, hfield⟩ := EntityCodec.objectField_eq_ok h
  obtain ⟨-, keys', contents', hkeys', hcontents', hfield'⟩ := EntityCodec.objectField_eq_ok h'
  have hcols : contents = contents' ↔ ∀ column, (keyAt mapped.keys target column).map (canonicalValue p)
      = (keyAt mapped'.keys target' column).map (canonicalValue p) := by
    have hinj : Function.Injective fun e : Bytes × Content => (e.1, e.2.toValue) :=
      Function.injective_id.prodMap Content.toValue_injective
    have hlook (column : Bytes) : keys[column]? = keyAt mapped.keys target column := by
      simpa using collectKeys_lookup column hkeys
    have hlook' (column : Bytes) : keys'[column]? = keyAt mapped'.keys target' column := by
      simpa using collectKeys_lookup column hkeys'
    rw [← (map_injective_iff.mpr hinj).eq_iff, mapM_entryContent hcontents,
      mapM_entryContent hcontents', ← Std.ExtTreeMap.toList_map (f := fun _ => canonicalValue p),
      ← Std.ExtTreeMap.toList_map (f := fun _ => canonicalValue p), Std.ExtTreeMap.toList_inj]
    constructor
    · intro hmaps column
      have hcell := congrArg (fun m : StringMap Value => m[column]?) hmaps
      simpa only [Std.ExtTreeMap.getElem?_map, hlook, hlook'] using hcell
    · intro hmaps
      refine Std.ExtTreeMap.ext_getElem? fun column => ?_
      rw [Std.ExtTreeMap.getElem?_map, Std.ExtTreeMap.getElem?_map, hlook, hlook', hmaps column]
  rw [← hcols]
  constructor
  · rintro rfl
    have htab := EntityCodec.objectField_table h h'
    rw [hfield, htab] at hfield'
    rw [hfield] at hle
    simp only [length_append] at hle
    exact ⟨htab, entryEncoding_selfDelimiting.flatMap_injective entryEncoding_ne_nil (by omega)
      (append_cancel_left (append_cancel_left hfield'))⟩
  · rintro ⟨htab, rfl⟩
    rw [hfield, hfield', htab]

/-- The target gives this canonical value to a key column, wherever the key stands in the schema and
in the target. -/
def KeyValue (p : Platform) (mapped : EntitySchema) (target : EntityRef) (column : Bytes) (v : Value) :
    Prop :=
  ∃ key ∈ mapped.keys, key.column = column ∧
    ∃ named ∈ target.key, named.name = key.name ∧ canonicalValue p named.data = v

lemma keyValue_iff (hdist : mapped.Distinct) {field column : Bytes} {v : Value}
    (h : EntityCodec.objectField p mapped target = .ok field) :
    KeyValue p mapped target column v ↔
      (keyAt mapped.keys target column).map (canonicalValue p) = some v := by
  have hnames : (target.key.map NamedValue.name).Nodup :=
    (EntityCodec.objectField_names hdist h).nodup_iff.mp
      (nodup_append.mp (map_append ▸ hdist.names)).1
  constructor
  · rintro ⟨key, hkey, rfl, named, hnamed, hname, rfl⟩
    have hfound := find?_of_nodup_map hnames hnamed
    rw [hname] at hfound
    simp [keyAt, Sql.findNamed, find?_of_nodup_map hdist.keyColumns hkey, hfound]
  · intro hv
    obtain ⟨data, hdata, rfl⟩ := map_eq_some_iff.mp hv
    obtain ⟨key, hkey, hfound⟩ := bind_eq_some_iff.mp hdata
    obtain ⟨named, hnamed, rfl⟩ := map_eq_some_iff.mp hfound
    exact ⟨key, mem_of_find?_eq_some hkey, by simpa using find?_some hkey, named,
      mem_of_find?_eq_some hnamed, by simpa using find?_some hnamed, rfl⟩

/-- **What an object field identifies**: the table, and the map from the key columns to canonical
values.  No commit record has such a field. -/
theorem object_identity {allowBinary allowBinary' : Bool} {field field' : Bytes}
    (hmapped : validateEntity allowBinary mapped = .ok ())
    (hmapped' : validateEntity allowBinary' mapped' = .ok ())
    (h : EntityCodec.objectField p mapped target = .ok field)
    (h' : EntityCodec.objectField p mapped' target' = .ok field') :
    (field = field' ↔ mapped.table = mapped'.table ∧
      ∀ column v, KeyValue p mapped target column v ↔ KeyValue p mapped' target' column v) ∧
    ∀ requestId ledger, EntityCodec.ledgerField requestId = .ok ledger → field ≠ ledger := by
  refine ⟨?_, fun requestId ledger hledger => EntityCodec.objectField_ne_ledgerField h hledger⟩
  simp only [objectField_eq_iff h h', keyValue_iff (validateEntity_distinct hmapped) h,
    keyValue_iff (validateEntity_distinct hmapped') h']
  exact and_congr_right fun _ => forall_congr' fun column => Option.ext_iff

namespace Sample

/-- A seat has two keys. -/
def seat : EntitySchema where
  name := str "seat"
  table := str "seats"
  keys := [{ name := str "row", column := str "r", kind := .unsignedInteger },
    { name := str "place", column := str "p", kind := .unsignedInteger }]
  fields := [{ name := str "guest", column := str "guest", kind := .text }]

/-- The same with the keys declared in the other order. -/
def seat' : EntitySchema := { seat with keys := seat.keys.reverse }

def second : EntityRef :=
  { entity := str "seat", key := [⟨str "row", .unsignedInteger 1⟩, ⟨str "place", .unsignedInteger 2⟩] }

def seatField (mapped : EntitySchema) : Bytes :=
  (EntityCodec.objectField .integral mapped second).toOption.getD []

end Sample

open Sample in
/-- The order of the keys in the schema does not show in the field. -/
theorem object_identity_seat : seatField seat = seatField seat' := by
  have hmap : validateEntity false seat = .ok () := by decide +kernel
  have hmap' : validateEntity false seat' = .ok () := by decide +kernel
  have h : EntityCodec.objectField .integral seat second = .ok (seatField seat) := by decide +kernel
  have h' : EntityCodec.objectField .integral seat' second = .ok (seatField seat') := by decide +kernel
  exact (object_identity hmap hmap' h h').1.mpr ⟨rfl, by simp [KeyValue, seat']⟩

end Redis

/-! ## SQL -/

namespace Sql

/-- A row of a table; a cell is a number or a text. -/
structure Row (ν : Type) where
  table : Bytes
  cells : Bytes → ν ⊕ Bytes

variable {ν : Type} {number : Bytes → ν} {d : Dialect} {schema schema' : EntitySchema}
  {target target' : EntityRef}

/-- What the parameter of a value is compared as; the database reads numbers with `number`. -/
def Dialect.meaning (d : Dialect) (number : Bytes → ν) (v : Value) : ν ⊕ Bytes :=
  if v.kind.isNumber then .inl (number (d.parameter v)) else .inr (d.parameter v)

/-- The row satisfies the predicate of `append_where`. -/
def Dialect.Selects (d : Dialect) (number : Bytes → ν) (schema : EntitySchema) (target : EntityRef)
    (row : Row ν) : Prop :=
  row.table = schema.table ∧
    ∀ item ∈ keyItems schema target, ∀ v ∈ item.value?, row.cells item.column = d.meaning number v

/-- The predicate sets every key column that the target has. -/
lemma selects_iff (hdist : schema.Distinct) {row : Row ν} :
    d.Selects number schema target row ↔ row.table = schema.table ∧
      ∀ column, ∀ v ∈ keyAt schema.keys target column, row.cells column = d.meaning number v := by
  refine and_congr_right fun _ => ⟨fun h column v hv => ?_, fun h item hitem v hv => ?_⟩
  · obtain ⟨key, hkey, hfound⟩ := bind_eq_some_iff.mp hv
    obtain ⟨named, hnamed, rfl⟩ := map_eq_some_iff.mp hfound
    have hcol : key.column = column := by simpa using find?_some hkey
    have hitem := h { column := key.column, value? := some named.data }
      (mem_filterMap.mpr ⟨key, mem_of_find?_eq_some hkey, by rw [hnamed]; rfl⟩) named.data rfl
    rwa [hcol] at hitem
  · obtain ⟨key, hkey, hfound⟩ := mem_filterMap.mp hitem
    obtain ⟨named, hnamed, rfl⟩ := map_eq_some_iff.mp hfound
    refine h key.column v ?_
    -- the columns are distinct, so the search by column finds this key
    simpa [keyAt, find?_of_nodup_map hdist.keyColumns hkey, hnamed] using hv

/-- **One row satisfies two predicates** when they are about one table and agree on every column
that is a key of both. -/
lemma selects_both_iff (hdist : schema.Distinct) (hdist' : schema'.Distinct) :
    (∃ row, d.Selects number schema target row ∧ d.Selects number schema' target' row) ↔
      schema.table = schema'.table ∧ ∀ column, ∀ v ∈ keyAt schema.keys target column,
        ∀ w ∈ keyAt schema'.keys target' column, d.meaning number v = d.meaning number w := by
  simp only [selects_iff hdist, selects_iff hdist']
  constructor
  · rintro ⟨row, ⟨htab, hcells⟩, htab', hcells'⟩
    exact ⟨htab.symm.trans htab', fun column v hv w hw =>
      (hcells column v hv).symm.trans (hcells' column w hw)⟩
  · rintro ⟨htab, hagree⟩
    refine ⟨⟨schema.table, fun column =>
      ((keyAt schema.keys target column).or (keyAt schema'.keys target' column)).elim (.inr []) (d.meaning number)⟩,
      ⟨rfl, fun column v hv => ?_⟩, htab, fun column w hw => ?_⟩
    · simp [mem_def.mp hv]
    · cases hv : keyAt schema.keys target column with
      | none => simp [hv, mem_def.mp hw]
      | some v => simpa [hv] using hagree column v hv w hw

end Sql

/-- The schemas of a catalog have distinct columns. -/
lemma SchemaCatalog.findEntity_distinct {catalog : SchemaCatalog} {store entity : Bytes}
    {schema : EntitySchema} (h : catalog.findEntity store entity = some schema) : schema.Distinct := by
  obtain ⟨found, hstore, hent⟩ := bind_eq_some_iff.mp h
  exact validateEntity_distinct (validateStore_entity (catalog.valid store found hstore).2 hent)

namespace Sample

open Sql.Sample (player settings score postgres)

/-- Two updates of players; the text of the second key is not meaningful. -/
def twoScores (second : UInt64) (text : Bytes) : SaveRequest where
  requestId := str "a"
  changes := [score 7 5 3, { score second 5 3 with
    target.key := [⟨str "id", { Value.unsignedInteger second with textValue := text }⟩] }]

end Sample

end Caf.EntityStore
