import CafPluginSystem.Sql.Load

/-!
# The text of a statement

`statement_builder` (`include/templates/sql_entity_store_statements.hpp`) writes a statement step by step.  A step appends
text, or a value: a placeholder goes to the text and the textual form of the value to the parameters.  What a builder appends
is a list of such steps here, and `finish` takes them.  The columns that a statement names, each with the value that it is
compared with or set to, are its items.

* `erase` — a request without the contents of its values; the builder takes the same steps for it, without the contents.
* `weave` — a text around its placeholders.
* `statements_hide_values` — **the text of a statement does not depend on the values**, which are its parameters.
-/

namespace Caf.EntityStore

open List

/-- A value without its content. -/
def Value.erase (v : Value) : Value := { kind := v.kind }

def NamedValue.erase (v : NamedValue) : NamedValue := { v with data := v.data.erase }

def EntityRef.erase (target : EntityRef) : EntityRef := { target with key := target.key.map NamedValue.erase }

def FieldPatch.erase (change : FieldPatch) : FieldPatch := { change with data := change.data.erase }

/-- A change without the contents of its keys and fields, and without the version it expects. -/
def EntityPatch.erase (patch : EntityPatch) : EntityPatch :=
  { patch with target := patch.target.erase, fields := patch.fields.map FieldPatch.erase, expectedVersion := 0 }

namespace Sql

open DecimalText Fallible

variable {identifier : Bytes} {α : Type}

/-! ## Dialects -/

inductive DialectKind where
  | sqlite | mysql | postgres
  deriving DecidableEq, Repr

/-- `sql_dialect`.  `realText` prints a `double` with `max_digits10` significant digits. -/
structure Dialect where
  kind : DialectKind
  realText : Double → Bytes

/-- A statement that is being written. -/
structure SqlStatement where
  text : Bytes := []
  params : List Bytes := []
  resultFields : List FieldSchema := []

/-- A step of a builder. -/
inductive Append where
  | text (t : Bytes)
  | parameter (v : Value)

/-- A column and what it is compared with or set to; nothing is `NULL`. -/
structure Item where
  column : Bytes
  increment : Bool := false
  value? : Option Value

namespace Dialect

variable (d : Dialect)

def mark : UInt8 := if d.kind = .mysql then 96 else 34

/-- The loop of `quote`, behind an opening mark. -/
def quoteFrom : Bytes → Bytes
  | [] => [d.mark]
  | c :: rest => if c = 46 then d.mark :: 46 :: d.mark :: quoteFrom rest else c :: quoteFrom rest

/-- Every part between dots is put between marks. -/
def quote (identifier : Bytes) : Bytes := d.mark :: d.quoteFrom identifier

def placeholder (index : ℕ) : Bytes := if d.kind = .postgres then 36 :: natText index else [63]

def booleanParameter (value : Bool) : Bytes :=
  if d.kind = .postgres then (if value then str "true" else str "false") else if value then str "1" else str "0"

/-- The textual form of a value. -/
def parameter (input : Value) : Bytes :=
  match input.kind with
  | .boolean => d.booleanParameter input.booleanValue
  | .signedInteger => intText input.signedValue.toInt
  | .unsignedInteger => natText input.unsignedValue.toNat
  | .real => d.realText input.realValue
  | .decimal | .text | .json => input.textValue
  | .nullValue | .bytes => []

/-- `append_parameter`, and `text +=`. -/
def append (out : SqlStatement) : Append → SqlStatement
  | .text t => { out with text := out.text ++ t }
  | .parameter v =>
    { out with text := out.text ++ d.placeholder (out.params.length + 1), params := out.params ++ [d.parameter v] }

def finish (steps : List Append) : SqlStatement := steps.foldl d.append {}

end Dialect

/-! ## The builders -/

/-- The keys of a record, in the order of the schema. -/
def keyItems (schema : EntitySchema) (target : EntityRef) : List Item :=
  schema.keys.filterMap fun keySchema =>
    (findNamed target.key keySchema.name).map fun key => { column := keySchema.column, value? := some key.data }

def changeItem (field : FieldSchema) (change : FieldPatch) : Item where
  column := field.column
  increment := change.operation = .increment
  value? := if change.operation = .erase ∨ change.data.kind = .nullValue then none else some change.data

def changeItems (schema : EntitySchema) (patch : EntityPatch) : List Item :=
  patch.fields.filterMap fun change => (schema.findWritableField change.name).map fun field => changeItem field change

def versionItems (schema : EntitySchema) (patch : EntityPatch) : List Item :=
  if patch.checkVersion then [{ column := schema.versionColumn, value? := some (.unsignedInteger patch.expectedVersion) }] else []

/-- What a builder is asked for. -/
inductive Build where
  | load (request : LoadRequest)
  | update (patch : EntityPatch)
  | insert (patch : EntityPatch)
  | deleteEntity (patch : EntityPatch)
  | currentVersion (target : EntityRef)

namespace Dialect

variable (d : Dialect) (schema : EntitySchema)

/-- The value of an item in `VALUES (…)`. -/
def valueStep (item : Item) : Append := item.value?.elim (.text (str "NULL")) .parameter

/-- An item of `SET` or `WHERE`. -/
def itemSteps (item : Item) : List Append :=
  [.text (d.quote item.column ++ str " = " ++
    if item.increment ∧ item.value?.isSome then d.quote item.column ++ str " + " else []), valueStep item]

/-- `append_where`, and the check of the version. -/
def appendWhere (target : EntityRef) (versions : List Item) : List Append :=
  [.text (str " AND ")].intercalate ((keyItems schema target).map d.itemSteps) ++
    versions.flatMap fun item => .text (str " AND ") :: d.itemSteps item

/-- Quoted columns, with a comma behind each. -/
def columnList (columns : List Bytes) : Bytes := columns.flatMap fun column => d.quote column ++ str ", "

def insertSteps (items : List Item) : List Append :=
  .text (str "INSERT INTO " ++ d.quote schema.table ++ str " (" ++ d.columnList (items.map Item.column)
    ++ d.quote schema.versionColumn ++ str ") VALUES (") ::
    [.text (str ", ")].intercalate (items.map fun item => [valueStep item]) ++
    [.text ((if items = [] then [] else str ", ") ++ str "1)")]

end Dialect

namespace Build

def target : Build → EntityRef
  | .load request => request.target
  | .update patch | .insert patch | .deleteEntity patch => patch.target
  | .currentVersion target => target

/-- The checks, and the fields that a load selects. -/
def check (schema : EntitySchema) : Build → Except Bytes (List FieldSchema)
  | .load request => (StatementBuilder.load schema request).map LoadStatement.resultFields
  | .update patch => (StatementBuilder.update schema patch).map fun _ => []
  | .insert patch => (StatementBuilder.insert schema patch).map fun _ => []
  | .deleteEntity patch => (StatementBuilder.deleteEntity schema patch).map fun _ => []
  | .currentVersion target => (StatementBuilder.currentVersion schema target).map fun _ => []

def steps (d : Dialect) (schema : EntitySchema) (selected : List FieldSchema) : Build → List Append
  | .load request =>
    .text (str "SELECT " ++ d.columnList (selected.map FieldSchema.column) ++ d.quote schema.versionColumn ++ str " FROM "
      ++ d.quote schema.table ++ str " WHERE ") :: d.appendWhere schema request.target []
  | .update patch =>
    .text (str "UPDATE " ++ d.quote schema.table ++ str " SET ") ::
      [.text (str ", ")].intercalate ((changeItems schema patch).map d.itemSteps) ++
      .text (str ", " ++ d.quote schema.versionColumn ++ str " = " ++ d.quote schema.versionColumn ++ str " + 1 WHERE ") ::
      d.appendWhere schema patch.target (versionItems schema patch)
  | .insert patch => d.insertSteps schema (keyItems schema patch.target ++ changeItems schema patch)
  | .deleteEntity patch =>
    .text (str "DELETE FROM " ++ d.quote schema.table ++ str " WHERE ") ::
      d.appendWhere schema patch.target (versionItems schema patch)
  | .currentVersion target =>
    .text (str "SELECT " ++ d.quote schema.versionColumn ++ str " FROM " ++ d.quote schema.table ++ str " WHERE ") ::
      d.appendWhere schema target []

/-- **`statement_builder`.** -/
def make (d : Dialect) (schema : EntitySchema) (b : Build) : Except Bytes SqlStatement :=
  (b.check schema).map fun selected => { d.finish (b.steps d schema selected) with resultFields := selected }

/-- The items of a statement, in their order. -/
def items (schema : EntitySchema) : Build → List Item
  | .load request => keyItems schema request.target
  | .update patch => changeItems schema patch ++ keyItems schema patch.target ++ versionItems schema patch
  | .insert patch => keyItems schema patch.target ++ changeItems schema patch
  | .deleteEntity patch => keyItems schema patch.target ++ versionItems schema patch
  | .currentVersion target => keyItems schema target

/-- **The values that are bound**, in their order. -/
def bound (schema : EntitySchema) (b : Build) : List Value := (b.items schema).filterMap Item.value?

def erase : Build → Build
  | .load request => .load { request with target := request.target.erase }
  | .update patch => .update patch.erase
  | .insert patch => .insert patch.erase
  | .deleteEntity patch => .deleteEntity patch.erase
  | .currentVersion target => .currentVersion target.erase

end Build

/-! ## Steps at once -/

def Append.erase : Append → Append
  | .text t => .text t
  | .parameter v => .parameter v.erase

@[simp] lemma Append.text_erase (t : Bytes) : (Append.text t).erase = .text t := rfl

def Append.value? : Append → Option Value
  | .text _ => none
  | .parameter v => some v

def textFrom (d : Dialect) : ℕ → List Append → Bytes
  | _, [] => []
  | n, .text t :: rest => t ++ textFrom d n rest
  | n, .parameter _ :: rest => d.placeholder (n + 1) ++ textFrom d (n + 1) rest

lemma foldl_append (d : Dialect) (steps : List Append) (out : SqlStatement) : steps.foldl d.append out = { out with
    text := out.text ++ textFrom d out.params.length steps
    params := out.params ++ (steps.filterMap Append.value?).map d.parameter } := by
  induction steps generalizing out with
  | nil => simp [textFrom]
  | cons step steps ih =>
    rw [foldl_cons, ih]
    cases step with
    | text t => simp [Dialect.append, textFrom, Append.value?, filterMap_cons]
    | parameter v => simp [Dialect.append, textFrom, Append.value?]

lemma textFrom_erase (d : Dialect) (n : ℕ) (steps : List Append) : textFrom d n (steps.map Append.erase) = textFrom d n steps := by
  induction steps generalizing n with
  | nil => rfl
  | cons step steps ih =>
    cases step with
    | text t | parameter v => simp [textFrom, Append.erase, ih]

/-! ## Without contents -/

section Erase

variable {d : Dialect} {schema : EntitySchema} {target : EntityRef} {patch : EntityPatch}

def Item.erase (item : Item) : Item := { item with value? := item.value?.map Value.erase }

@[simp] lemma Item.erase_column (item : Item) : item.erase.column = item.column := rfl

lemma map_intercalate {β : Type} (f : α → β) (sep : List α) (ls : List (List α)) :
    (sep.intercalate ls).map f = (sep.map f).intercalate (ls.map (List.map f)) := by
  induction ls with
  | nil => rfl
  | cons l ls ih =>
    cases ls with
    | nil => simp
    | cons l' ls =>
      simp only [map_cons, intercalate_cons_cons, map_append] at ih ⊢
      rw [ih]

lemma findNamed_erase (values : List NamedValue) (name : Bytes) :
    findNamed (values.map NamedValue.erase) name = (findNamed values name).map NamedValue.erase := by
  rw [findNamed, find?_map]
  rfl

lemma keyItems_erase : keyItems schema target.erase = (keyItems schema target).map Item.erase := by
  simp only [keyItems, EntityRef.erase, findNamed_erase, map_filterMap, Option.map_map]
  rfl

lemma changeItems_erase : changeItems schema patch.erase = (changeItems schema patch).map Item.erase := by
  simp only [changeItems, EntityPatch.erase, filterMap_map, map_filterMap, Option.map_map]
  refine filterMap_congr fun change _ => ?_
  refine congrArg (fun f => Option.map f (schema.findWritableField change.name)) (funext fun field => ?_)
  simp only [changeItem, Item.erase, Function.comp_apply, FieldPatch.erase, Value.erase, apply_ite (Option.map Value.erase)]
  rfl

lemma versionItems_erase : versionItems schema patch.erase = (versionItems schema patch).map Item.erase := by
  rw [versionItems, versionItems, apply_ite (List.map Item.erase)]
  rfl

lemma valueStep_erase (item : Item) : Dialect.valueStep item.erase = (Dialect.valueStep item).erase := by
  cases hval : item.value? <;> simp [Dialect.valueStep, Item.erase, hval, Append.erase]

lemma itemSteps_erase (item : Item) : d.itemSteps item.erase = (d.itemSteps item).map Append.erase := by
  have hsome : item.erase.value?.isSome = item.value?.isSome := Option.isSome_map ..
  simp only [Dialect.itemSteps, hsome, map_cons, map_nil, valueStep_erase, Append.text_erase]
  rfl

lemma appendWhere_erase (versions : List Item) :
    d.appendWhere schema target.erase (versions.map Item.erase) = (d.appendWhere schema target versions).map Append.erase := by
  simp [Dialect.appendWhere, keyItems_erase, map_intercalate, map_flatMap, flatMap_map, itemSteps_erase, Function.comp_def]

/-- **Without contents the builder takes the same steps**, without contents. -/
lemma Build.steps_erase (selected : List FieldSchema) (b : Build) :
    b.erase.steps d schema selected = (b.steps d schema selected).map Append.erase := by
  have hwhere (t : EntityRef) : d.appendWhere schema t.erase [] = (d.appendWhere schema t []).map Append.erase := appendWhere_erase []
  have hver (patch : EntityPatch) : d.appendWhere schema patch.erase.target (versionItems schema patch.erase)
      = (d.appendWhere schema patch.target (versionItems schema patch)).map Append.erase := by
    rw [versionItems_erase]
    exact appendWhere_erase _
  cases b with
  | load request | currentVersion target => simp [Build.erase, Build.steps, hwhere]
  | update patch =>
    simp [Build.erase, Build.steps, hver, changeItems_erase, map_intercalate, itemSteps_erase, Function.comp_def]
  | insert patch =>
    have hitems : keyItems schema patch.erase.target ++ changeItems schema patch.erase
        = (keyItems schema patch.target ++ changeItems schema patch).map Item.erase := by
      rw [changeItems_erase, map_append, ← keyItems_erase]
      rfl
    simp only [Build.erase, Build.steps, hitems]
    generalize keyItems schema patch.target ++ changeItems schema patch = items
    simp [Dialect.insertSteps, map_intercalate, valueStep_erase, Function.comp_def]
  | deleteEntity patch => simp [Build.erase, Build.steps, hver]

lemma validateKeys_erase : validateKeys schema target.erase = validateKeys schema target := by
  have hkey : validateKey target.erase = validateKey target := by
    funext expected
    rw [validateKey, validateKey, EntityRef.erase, findNamed_erase]
    cases findNamed target.key expected.name <;> rfl
  rw [validateKeys, validateKeys, hkey]
  simp [EntityRef.erase]

lemma validatePatch_erase : validatePatch schema patch.erase = validatePatch schema patch := by
  show forM (patch.fields.map FieldPatch.erase) (validatePatchField schema) = forM patch.fields (validatePatchField schema)
  rw [forM_map]
  rfl

lemma Build.check_erase (b : Build) : b.erase.check schema = b.check schema := by
  have htgt (patch : EntityPatch) : validateKeys schema patch.erase.target = validateKeys schema patch.target := validateKeys_erase
  cases b with
  | load request =>
    simp only [Build.erase, Build.check, StatementBuilder.load, validateKeys_erase]
    cases validateKeys schema request.target with
    | error error => rfl
    | ok _ =>
      simp only [ok_bind]
      split_ifs
      · rfl
      · cases request.fields.names.mapM (selectField schema) <;> rfl
  | update patch =>
    simp only [Build.erase, Build.check, StatementBuilder.update, validatePatch_erase, htgt]
    cases validateKeys schema patch.target <;> cases validatePatch schema patch <;> rfl
  | insert patch =>
    simp only [Build.erase, Build.check, StatementBuilder.insert, validatePatch_erase, htgt]
    cases validateKeys schema patch.target <;> cases validatePatch schema patch <;> rfl
  | deleteEntity patch =>
    simp only [Build.erase, Build.check, StatementBuilder.deleteEntity, htgt]
    cases validateKeys schema patch.target <;> rfl
  | currentVersion target =>
    simp only [Build.erase, Build.check, StatementBuilder.currentVersion, validateKeys_erase]
    cases validateKeys schema target <;> rfl

/-- **The text of a statement is the one without contents.** -/
lemma Build.text_erase (b : Build) :
    (b.erase.make d schema).map SqlStatement.text = (b.make d schema).map SqlStatement.text := by
  rw [Build.make, Build.make, check_erase]
  cases b.check schema with
  | error error => rfl
  | ok selected => simp only [Except.map, Dialect.finish, foldl_append, steps_erase, textFrom_erase]

end Erase

/-! ## Placeholders -/

/-- A text around its placeholders, which are numbered on from `n`. -/
def Dialect.weave (d : Dialect) : ℕ → Bytes → List Bytes → Bytes
  | _, head, [] => head
  | n, head, next :: rest => head ++ d.placeholder (n + 1) ++ d.weave (n + 1) next rest

/-- Text without `$` and `?`. -/
def Clean (t : Bytes) : Prop := ∀ c ∈ t, c ≠ 36 ∧ c ≠ 63

/-- Text that has no placeholder, and does not go on with the number of the one in front of it. -/
def Lawful (t : Bytes) : Prop := Clean t ∧ ∀ c ∈ t.head?, ¬(48 ≤ c ∧ c ≤ 57)

instance Clean.decidable (t : Bytes) : Decidable (Clean t) := inferInstanceAs (Decidable (∀ c ∈ t, _))

instance Lawful.decidable (t : Bytes) : Decidable (Lawful t) := inferInstanceAs (Decidable (_ ∧ _))

lemma lawful_nil : Lawful [] := by simp [Lawful, Clean]

lemma Lawful.append {t t'} (h : Lawful t) (h' : Lawful t') : Lawful (t ++ t') := by
  refine ⟨fun c hc => (mem_append.mp hc).elim (h.1 c) (h'.1 c), ?_⟩
  cases t with
  | nil => exact h'.2
  | cons c t => exact h.2

/-- A value that has a textual form. -/
def Textual (v : Value) : Prop := v.kind ≠ .nullValue ∧ v.kind ≠ .bytes

/-- A step that may be taken. -/
def Append.Good : Append → Prop
  | .text t => Lawful t
  | .parameter v => Textual v

lemma weave_append (d : Dialect) (n : ℕ) (t head : Bytes) (rest : List Bytes) :
    d.weave n (t ++ head) rest = t ++ d.weave n head rest := by
  cases rest with
  | nil => rfl
  | cons next rest => simp [Dialect.weave]

/-- **Good steps weave a text.** -/
lemma textFrom_weave (d : Dialect) (n : ℕ) {steps} (h : ∀ step ∈ steps, step.Good) :
    ∃ head rest, textFrom d n steps = d.weave n head rest ∧ rest.length = (steps.filterMap Append.value?).length ∧
      ∀ t ∈ head :: rest, Lawful t := by
  induction steps generalizing n with
  | nil => exact ⟨[], [], rfl, rfl, by simpa using lawful_nil⟩
  | cons step steps ih =>
    obtain ⟨hstep, hsteps⟩ := forall_mem_cons.mp h
    cases step with
    | text t =>
      obtain ⟨head, rest, htext, hlen, hlawful⟩ := ih n hsteps
      obtain ⟨hhead, hrest⟩ := forall_mem_cons.mp hlawful
      refine ⟨t ++ head, rest, by rw [textFrom, htext, weave_append], by simpa [Append.value?, filterMap_cons] using hlen, ?_⟩
      exact forall_mem_cons.mpr ⟨hstep.append hhead, hrest⟩
    | parameter v =>
      obtain ⟨head, rest, htext, hlen, hlawful⟩ := ih (n + 1) hsteps
      exact ⟨[], head :: rest, by rw [textFrom, htext]; rfl, by simp [Append.value?, hlen],
        forall_mem_cons.mpr ⟨lawful_nil, hlawful⟩⟩

lemma mem_intercalate {x : α} {sep : List α} {ls : List (List α)} (h : x ∈ sep.intercalate ls) :
    x ∈ sep ∨ ∃ l ∈ ls, x ∈ l := by
  induction ls with
  | nil => cases h
  | cons l ls ih =>
    cases ls with
    | nil => exact .inr ⟨l, mem_cons_self, by simpa using h⟩
    | cons l' ls =>
      rw [intercalate_cons_cons, mem_append, mem_append] at h
      rcases h with (h | h) | h
      · exact .inr ⟨l, mem_cons_self, h⟩
      · exact .inl h
      · rcases ih h with hsep | ⟨l₀, hl₀, hx⟩
        · exact .inl hsep
        · exact .inr ⟨l₀, mem_cons_of_mem _ hl₀, hx⟩

/-- The values of a loop that appends one at most for each element. -/
lemma values_intercalate {f g} (sep : Bytes) (h : ∀ x, (f x).filterMap Append.value? = (g x).toList) (xs : List α) :
    ([.text sep].intercalate (xs.map f)).filterMap Append.value? = xs.filterMap g := by
  induction xs with
  | nil => rfl
  | cons x xs ih =>
    cases xs with
    | nil => simp [h, filterMap_eq_flatMap_toList]
    | cons x' xs =>
      rw [map_cons, map_cons, intercalate_cons_cons, ← map_cons, filterMap_append, filterMap_append, ih, h]
      simp [Append.value?, filterMap_eq_flatMap_toList]

/-! ## The schemas of a catalog -/

lemma clean_of_identifierPart (h : validIdentifierPart identifier = true) : Clean identifier := by
  intro c hc
  cases identifier with
  | nil => cases hc
  | cons first rest =>
    simp only [validIdentifierPart, Bool.and_eq_true] at h
    have hchar := all_eq_true.mp h.2 c hc
    constructor
    · rintro rfl
      revert hchar
      decide
    · rintro rfl
      revert hchar
      decide

lemma clean_of_qualifiedIdentifier (h : validQualifiedIdentifier identifier = true) : Clean identifier := by
  intro c hc
  have hjoin : [46].intercalate (identifier.splitOn 46) = identifier := intercalate_splitOn 46
  rw [← hjoin] at hc
  rcases mem_intercalate hc with hdot | ⟨part, hpart, hc⟩
  · obtain rfl := mem_singleton.mp hdot
    decide
  · exact clean_of_identifierPart (all_eq_true.mp h part hpart) c hc

/-- What the builders need of a schema. -/
structure Suited (schema : EntitySchema) : Prop where
  table : Clean schema.table
  version : Clean schema.versionColumn
  columns : ∀ f ∈ schema.keys ++ schema.fields, Clean f.column ∧ f.kind ≠ .bytes

lemma validateColumns_field {f} : ∀ {fields : List FieldSchema} {names columns : List Bytes}
    {taken : List Bytes × List Bytes}, validateColumns false names columns fields = .ok taken → f ∈ fields →
      validateField false f = .ok ()
  | first :: fields, names, columns, taken, h, hf => by
    simp only [validateColumns, bind_eq_ok, error_bind, guard_eq_ok] at h
    obtain ⟨_, hfirst, -, -, hrest⟩ := h
    rcases mem_cons.mp hf with rfl | hf
    · exact hfirst
    · exact validateColumns_field hrest hf

lemma suited_of_validateEntity {schema} (h : validateEntity false schema = .ok ()) : Suited schema := by
  simp only [validateEntity, bind_eq_ok, error_bind, guard_eq_ok] at h
  obtain ⟨htab, hver, -, -, taken, hkeys, taken', hfields, -⟩ := h
  refine ⟨clean_of_qualifiedIdentifier (by simpa using htab), clean_of_identifierPart (by simpa using hver), ?_⟩
  intro f hf
  have hfield : validateField false f = .ok () := by
    rcases mem_append.mp hf with hf | hf
    · exact validateColumns_field hkeys hf
    · exact validateColumns_field hfields hf
  simp only [validateField] at hfield
  split_ifs at hfield with hname hcol hkind
  exact ⟨clean_of_identifierPart (by simpa using hcol), fun hbytes => hkind (.inl ⟨hbytes, rfl⟩)⟩

section Steps

variable {d : Dialect} {schema : EntitySchema}
variable {target : EntityRef} {selected : List FieldSchema} {field : FieldSchema}

lemma lawful_quote (h : Clean identifier) : Lawful (d.quote identifier) := by
  have hmark : (d.mark ≠ 36 ∧ d.mark ≠ 63) ∧ ¬(48 ≤ d.mark ∧ d.mark ≤ 57) := by
    rw [Dialect.mark]
    split_ifs <;> decide
  have hfrom : Clean (d.quoteFrom identifier) := by
    induction identifier with
    | nil => simpa [Dialect.quoteFrom, Clean] using hmark.1
    | cons c rest ih =>
      have hrest : Clean (d.quoteFrom rest) := ih fun c' hc' => h c' (mem_cons_of_mem _ hc')
      have hc := h c mem_cons_self
      rw [Dialect.quoteFrom]
      split_ifs with hdot
      · simpa [Clean, hmark.1] using hrest
      · simpa [Clean, hc] using hrest
  exact ⟨by simpa [Clean, Dialect.quote, hmark.1] using hfrom, by simpa [Dialect.quote] using hmark.2⟩

lemma lawful_columnList {columns} (h : ∀ column ∈ columns, Clean column) : Lawful (d.columnList columns) := by
  induction columns with
  | nil => exact lawful_nil
  | cons column columns ih =>
    obtain ⟨hcol, hcols⟩ := forall_mem_cons.mp h
    rw [Dialect.columnList, flatMap_cons]
    exact ((lawful_quote hcol).append (by decide +kernel)).append (ih hcols)

/-- An item that may be written. -/
def Item.Good (item : Item) : Prop := Clean item.column ∧ ∀ v ∈ item.value?, Textual v

lemma good_valueStep {item} (h : item.Good) : (Dialect.valueStep item).Good := by
  rw [Dialect.valueStep]
  cases hval : item.value? with
  | none => exact (by decide +kernel : Lawful (str "NULL"))
  | some v => exact h.2 v hval

lemma good_itemSteps {item} (h : item.Good) : ∀ step ∈ d.itemSteps item, step.Good := by
  have hquote : Lawful (d.quote item.column) := lawful_quote h.1
  refine forall_mem_cons.mpr ⟨(hquote.append (by decide +kernel)).append ?_, by simpa using good_valueStep h⟩
  split_ifs
  · exact hquote.append (by decide +kernel)
  · exact lawful_nil

lemma good_intercalate {sep : Bytes} (hsep : Lawful sep) {f : Item → List Append} (hf : ∀ item, item.Good → ∀ step ∈ f item, step.Good)
    {items : List Item} (h : ∀ item ∈ items, item.Good) : ∀ step ∈ [.text sep].intercalate (items.map f), step.Good := by
  intro step hstep
  rcases mem_intercalate hstep with hstep | ⟨l, hl, hstep⟩
  · obtain rfl := mem_singleton.mp hstep
    exact hsep
  · obtain ⟨item, hitem, rfl⟩ := mem_map.mp hl
    exact hf item (h item hitem) step hstep

lemma good_appendWhere {versions} (h : ∀ item ∈ keyItems schema target ++ versions, item.Good) :
    ∀ step ∈ d.appendWhere schema target versions, step.Good := by
  obtain ⟨hkeys, hvers⟩ := forall_mem_append.mp h
  refine forall_mem_append.mpr ⟨good_intercalate (by decide +kernel) (fun _ => good_itemSteps) hkeys, ?_⟩
  intro step hstep
  obtain ⟨item, hitem, hstep⟩ := mem_flatMap.mp hstep
  rcases mem_cons.mp hstep with rfl | hstep
  · exact (by decide +kernel : Lawful (str " AND "))
  · exact good_itemSteps (hvers item hitem) step hstep

/-- **Good items are written in good steps.** -/
lemma Build.steps_good (hsuited : Suited schema) (b : Build) (hkeys : keyItems schema b.target ≠ [])
    (hsel : ∀ f ∈ selected, f ∈ schema.keys ++ schema.fields) (h : ∀ item ∈ b.items schema, item.Good) :
    ∀ step ∈ b.steps d schema selected, step.Good := by
  have htab : Lawful (d.quote schema.table) := lawful_quote hsuited.table
  have hver : Lawful (d.quote schema.versionColumn) := lawful_quote hsuited.version
  cases b with
  | load request =>
    have hcols : Lawful (d.columnList (selected.map FieldSchema.column)) := by
      refine lawful_columnList fun column hcol => ?_
      obtain ⟨f, hf, rfl⟩ := mem_map.mp hcol
      exact (hsuited.columns f (hsel f hf)).1
    refine forall_mem_cons.mpr ⟨?_, good_appendWhere (by simpa [Build.items] using h)⟩
    exact ((((Lawful.append (by decide +kernel) hcols).append hver).append (by decide +kernel)).append htab).append
      (by decide +kernel)
  | update patch =>
    rw [Build.items, append_assoc] at h
    obtain ⟨hchgs, hwhere⟩ := forall_mem_append.mp h
    refine forall_mem_append.mpr ⟨forall_mem_cons.mpr ⟨?_, good_intercalate (by decide +kernel) (fun _ => good_itemSteps)
      hchgs⟩, forall_mem_cons.mpr ⟨?_, good_appendWhere hwhere⟩⟩
    · exact (Lawful.append (by decide +kernel) htab).append (by decide +kernel)
    · exact (((Lawful.append (by decide +kernel) hver).append (by decide +kernel)).append hver).append (by decide +kernel)
  | insert patch =>
    have hcols : Lawful (d.columnList ((Build.insert patch).items schema |>.map Item.column)) := by
      refine lawful_columnList fun column hcol => ?_
      obtain ⟨item, hitem, rfl⟩ := mem_map.mp hcol
      exact (h item hitem).1
    refine forall_mem_append.mpr ⟨forall_mem_cons.mpr ⟨?_, good_intercalate (by decide +kernel)
      (fun item hitem => by simpa using good_valueStep hitem) h⟩, ?_⟩
    · exact ((((Lawful.append (by decide +kernel) htab).append (by decide +kernel)).append hcols).append hver).append
        (by decide +kernel)
    · rw [if_neg (by simp [show keyItems schema patch.target ≠ [] from hkeys])]
      exact forall_mem_singleton.mpr (by decide +kernel : Lawful (str ", " ++ str "1)"))
  | deleteEntity patch =>
    exact forall_mem_cons.mpr ⟨(Lawful.append (by decide +kernel) htab).append (by decide +kernel), good_appendWhere h⟩
  | currentVersion target =>
    refine forall_mem_cons.mpr ⟨?_, good_appendWhere (by simpa [Build.items] using h)⟩
    exact (((Lawful.append (by decide +kernel) hver).append (by decide +kernel)).append htab).append (by decide +kernel)

lemma valueStep_value (item : Item) : [Dialect.valueStep item].filterMap Append.value? = item.value?.toList := by
  rw [Dialect.valueStep]
  cases item.value? <;> rfl

lemma itemSteps_values (item : Item) : (d.itemSteps item).filterMap Append.value? = item.value?.toList := valueStep_value item

lemma appendWhere_values (target : EntityRef) (versions : List Item) : (d.appendWhere schema target versions).filterMap Append.value?
    = (keyItems schema target ++ versions).filterMap Item.value? := by
  rw [Dialect.appendWhere, filterMap_append, values_intercalate _ itemSteps_values, filterMap_append]
  refine congrArg _ ?_
  rw [filterMap_flatMap, filterMap_eq_flatMap_toList]
  exact flatMap_congr fun item _ => itemSteps_values (d := d) item

/-- **The values of a builder are those of its items.** -/
lemma Build.steps_values (b : Build) (selected : List FieldSchema) :
    (b.steps d schema selected).filterMap Append.value? = b.bound schema := by
  have hwhere (t : EntityRef) (versions : List Item) : (d.appendWhere schema t versions).filterMap Append.value?
      = (keyItems schema t ++ versions).filterMap Item.value? := appendWhere_values t versions
  cases b with
  | load request | currentVersion target =>
    exact (hwhere _ _).trans (by simp [Build.bound, Build.items])
  | update patch =>
    simp [Build.steps, Build.bound, Build.items, Append.value?, filterMap_cons, values_intercalate _ itemSteps_values, hwhere]
  | insert patch =>
    simp only [Build.steps, Dialect.insertSteps, Build.bound, Build.items, Append.value?, cons_append, filterMap_cons,
      filterMap_append, filterMap_nil, append_nil, values_intercalate _ valueStep_value]
  | deleteEntity patch => exact hwhere _ _

/-! ## What the checks establish -/

lemma compatible_kind {expected actual increment} (h : compatible expected actual increment = true)
    (hexp : expected ≠ .bytes) : actual ≠ .bytes := by
  rintro rfl
  cases expected <;> cases increment <;> first | exact hexp rfl | cases h

lemma good_keyItems (hsuited : Suited schema) (h : validateKeys schema target = .ok ()) :
    ∀ item ∈ keyItems schema target, item.Good := by
  intro item hitem
  obtain ⟨keySchema, hkey, hfound⟩ := mem_filterMap.mp hitem
  obtain ⟨key, hnamed, rfl⟩ := Option.map_eq_some_iff.mp hfound
  have hval := forM_eq_ok.mp (guard_eq_ok.mp h).2 keySchema hkey
  have hcol := hsuited.columns keySchema (mem_append_left _ hkey)
  simp only [validateKey, hnamed, guard_eq_ok, not_or, Bool.not_eq_true', Bool.not_eq_false] at hval
  refine ⟨hcol.1, ?_⟩
  rintro v ⟨⟩
  exact ⟨hval.1.1, compatible_kind hval.1.2 hcol.2⟩

lemma good_changeItems (hsuited : Suited schema) {patch} (h : validatePatch schema patch = .ok ()) :
    ∀ item ∈ changeItems schema patch, item.Good := by
  intro item hitem
  obtain ⟨change, hchg, hfound⟩ := mem_filterMap.mp hitem
  obtain ⟨field, hfield, rfl⟩ := Option.map_eq_some_iff.mp hfound
  have hval := forM_eq_ok.mp h change hchg
  have hcol := hsuited.columns field
    (mem_append_right _ (mem_of_find?_eq_some (Option.filter_eq_some_iff.mp hfield).1))
  simp only [validatePatchField, hfield, guard_eq_ok, not_and, Bool.not_eq_true', Bool.not_eq_false] at hval
  refine ⟨hcol.1, fun v hv => ?_⟩
  rw [changeItem, Option.mem_def] at hv
  split_ifs at hv with hnull
  cases hv
  rw [not_or] at hnull
  exact ⟨hnull.2, compatible_kind (hval.2.1 hnull.1) hcol.2⟩

lemma good_versionItems (hsuited : Suited schema) (patch : EntityPatch) : ∀ item ∈ versionItems schema patch, item.Good := by
  rw [versionItems]
  split_ifs
  · refine forall_mem_singleton.mpr ⟨hsuited.version, ?_⟩
    rintro v ⟨⟩
    simp [Textual, Value.unsignedInteger]
  · simp

lemma keyItems_ne_nil (h : validateKeys schema target = .ok ()) (htgt : validateTarget target = .ok ()) :
    keyItems schema target ≠ [] := by
  obtain ⟨hlen, hkeys⟩ := guard_eq_ok.mp h
  simp only [validateTarget, guard_eq_ok] at htgt
  cases hsch : schema.keys with
  | nil =>
    rw [hsch, length_nil, not_not, length_eq_zero_iff] at hlen
    exact absurd hlen htgt.2.2.1
  | cons keySchema rest =>
    have hval := forM_eq_ok.mp hkeys keySchema (by simp [hsch])
    rw [validateKey] at hval
    split at hval
    · cases hval
    · next actual hactual => simp [keyItems, hsch, hactual]

lemma selectField_mem {name} (h : selectField schema name = .ok field) :
    field ∈ schema.keys ++ schema.fields := by
  rw [selectField] at h
  split at h
  · cases h
  · next found hfound =>
    cases h
    rw [EntitySchema.findField] at hfound
    split at hfound
    · next key hkey =>
      cases hfound
      exact mem_append_left _ (mem_of_find?_eq_some hkey)
    · exact mem_append_right _ (mem_of_find?_eq_some hfound)

/-- **The checks** let good items pass. -/
lemma Build.check_eq_ok (hsuited : Suited schema) {b : Build} (h : b.check schema = .ok selected) :
    validateKeys schema b.target = .ok () ∧ (∀ item ∈ b.items schema, item.Good) ∧
      ∀ f ∈ selected, f ∈ schema.keys ++ schema.fields := by
  have hvers := good_versionItems hsuited
  cases b with
  | load request =>
    simp only [Build.check, StatementBuilder.load, map_eq_ok, bind_eq_ok] at h
    obtain ⟨statement, ⟨_, hkeys, hselect⟩, rfl⟩ := h
    refine ⟨hkeys, good_keyItems hsuited hkeys, fun f hf => ?_⟩
    split_ifs at hselect
    · cases hselect
      exact mem_append_right _ hf
    · obtain ⟨selected, hsel, hok⟩ := bind_eq_ok.mp hselect
      cases hok
      obtain ⟨name, -, hfound⟩ := mapM_mem hsel hf
      exact selectField_mem hfound
  | update patch =>
    simp only [Build.check, StatementBuilder.update, map_eq_ok, bind_eq_ok] at h
    obtain ⟨_, ⟨_, hkeys, _, hpatch, -⟩, rfl⟩ := h
    exact ⟨hkeys, forall_mem_append.mpr ⟨forall_mem_append.mpr ⟨good_changeItems hsuited hpatch, good_keyItems hsuited hkeys⟩,
      hvers patch⟩, by simp⟩
  | insert patch =>
    simp only [Build.check, StatementBuilder.insert, map_eq_ok, bind_eq_ok] at h
    obtain ⟨_, ⟨_, hkeys, _, hpatch, -⟩, rfl⟩ := h
    exact ⟨hkeys, forall_mem_append.mpr ⟨good_keyItems hsuited hkeys, good_changeItems hsuited hpatch⟩, by simp⟩
  | deleteEntity patch =>
    simp only [Build.check, StatementBuilder.deleteEntity, map_eq_ok, bind_eq_ok] at h
    obtain ⟨_, ⟨_, hkeys, -⟩, rfl⟩ := h
    exact ⟨hkeys, forall_mem_append.mpr ⟨good_keyItems hsuited hkeys, hvers patch⟩, by simp⟩
  | currentVersion target =>
    simp only [Build.check, StatementBuilder.currentVersion, map_eq_ok, bind_eq_ok] at h
    obtain ⟨_, ⟨_, hkeys, -⟩, rfl⟩ := h
    exact ⟨hkeys, good_keyItems hsuited hkeys, by simp⟩

end Steps

/-- **Statements never contain client data.**  Whatever the builder makes for an entity of an SQL catalog, it makes the same
text for a request that differs in the contents of key values and field values and in the expected version only.  The text has a
placeholder for every parameter, numbered from one on, and nothing else that could be taken for one.  The parameters are the
textual forms of the values that are bound, and none of these is null or bytes. -/
theorem statements_hide_values {catalog : SchemaCatalog} (hsql : catalog.allowBinary = false) {store entity : Bytes}
    {schema : EntitySchema} (hschema : catalog.findEntity store entity = some schema) (d : Dialect) {b : Build}
    (hvalid : validateTarget b.target = .ok ()) :
    (∀ b' : Build, b'.erase = b.erase → (b'.make d schema).map SqlStatement.text = (b.make d schema).map SqlStatement.text) ∧
    ∀ s, b.make d schema = .ok s →
      (∃ head rest, s.text = d.weave 0 head rest ∧ rest.length = s.params.length ∧ ∀ t ∈ head :: rest, Lawful t) ∧
      s.params = (b.bound schema).map d.parameter ∧ ∀ v ∈ b.bound schema, Textual v := by
  have hsuited : Suited schema := by
    obtain ⟨found, hstore, hent⟩ := Option.bind_eq_some_iff.mp hschema
    have hstored := (catalog.valid store found hstore).2
    rw [hsql] at hstored
    exact suited_of_validateEntity (validateStore_entity hstored hent)
  constructor
  · intro b' hsame
    rw [← b'.text_erase, hsame, b.text_erase]
  · intro s hs
    obtain ⟨selected, hcheck, rfl⟩ := map_eq_ok.mp hs
    obtain ⟨hkeys, hgood, hsel⟩ := Build.check_eq_ok hsuited hcheck
    have hvalues : (b.steps d schema selected).filterMap Append.value? = b.bound schema := b.steps_values selected
    obtain ⟨head, rest, htext, hlen, hlawful⟩ :=
      textFrom_weave d 0 (b.steps_good hsuited (keyItems_ne_nil hkeys hvalid) hsel hgood)
    refine ⟨⟨head, rest, ?_, ?_, hlawful⟩, ?_, ?_⟩
    · simpa [Dialect.finish, foldl_append] using htext
    · simp [Dialect.finish, foldl_append, hlen]
    · simp [Dialect.finish, foldl_append, hvalues]
    · intro v hv
      obtain ⟨item, hitem, hval⟩ := mem_filterMap.mp hv
      exact (hgood item hitem).2 v hval

namespace Sample

def postgres : Dialect := ⟨.postgres, fun _ => []⟩

/-- Add to the score of a player at a version. -/
def score (id : UInt64) (points : Int64) (version : UInt64) : EntityPatch where
  target := { entity := str "player", key := [⟨str "id", .unsignedInteger id⟩] }
  fields := [{ operation := .increment, name := str "score", data := .signedInteger points }]
  checkVersion := true
  expectedVersion := version
  operation := .update

end Sample

open Sample in
/-- Two players, one text. -/
theorem statements_hide_values_score :
    settings.catalog.findEntity (str "default") (str "player") = some player ∧
    ((Build.update (score 7 5 3)).make postgres player).toOption.map (fun s => (s.text, s.params)) = some
      (str "UPDATE \"players\" SET \"score\" = \"score\" + $1, \"version\" = \"version\" + 1 WHERE \"id\" = $2 AND \"version\" = $3",
        [str "5", str "7", str "3"]) ∧
    ((Build.update (score 8 (-1) 4)).make postgres player).map SqlStatement.text
      = ((Build.update (score 7 5 3)).make postgres player).map SqlStatement.text ∧
    ∀ v ∈ (Build.update (score 7 5 3)).bound player, Textual v := by
  have hfound : settings.catalog.findEntity (str "default") (str "player") = some player := by decide +kernel
  obtain ⟨htext, hmade⟩ := statements_hide_values rfl hfound postgres (b := .update (score 7 5 3)) (by decide +kernel)
  have hrun : ((Build.update (score 7 5 3)).make postgres player).toOption.map (fun s => (s.text, s.params)) = some
      (str "UPDATE \"players\" SET \"score\" = \"score\" + $1, \"version\" = \"version\" + 1 WHERE \"id\" = $2 AND \"version\" = $3",
        [str "5", str "7", str "3"]) := by decide +kernel
  refine ⟨hfound, hrun, htext (.update (score 8 (-1) 4)) rfl, ?_⟩
  cases hmake : (Build.update (score 7 5 3)).make postgres player with
  | error error =>
    rw [hmake] at hrun
    cases hrun
  | ok s => exact (hmade s hmake).2.2

end Sql

end Caf.EntityStore
