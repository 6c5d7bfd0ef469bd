import CafPluginSystem.Redis.Content

/-!
# Field names, signatures and commit records

What the other byte strings of the adapter identify.

* `ledgerField_injective`, `objectField_ne_ledgerField` — the commit record of a request has a
  hash field of its own, which no other request and no entity uses.
* `signature_content` — two requests with one signature have the same changes up to value
  canonicalisation.
* `replay_ledger` — a commit record replays to the result it was written for.
* `replay_agree` — whoever replays a commit record sees the same signature and versions.
-/

namespace Caf.EntityStore.Redis

open Framing Fallible List

variable {α : Type}

/-! ## Names of hash fields -/

namespace EntityCodec

variable {p : Platform}
variable {target : EntityRef} {field requestId : Bytes} {mapped : EntitySchema}

lemma ledgerField_eq_ok (h : ledgerField requestId = .ok field) :
    field = frame (str "request") ++ frame requestId ∧ field.length ≤ Writer.maxBytes := by
  simp only [ledgerField, bind_eq_ok, Writer.text_eq_ok, Writer.take_eq_ok] at h
  obtain ⟨out, ⟨rfl, -⟩, out', ⟨rfl, -⟩, rfl, hle⟩ := h
  exact ⟨by simp, hle⟩

lemma ledgerField_injective {r s} (hr : ledgerField r = .ok field)
    (hs : ledgerField s = .ok field) : r = s := by
  obtain ⟨hr, hle⟩ := ledgerField_eq_ok hr
  obtain ⟨hs, -⟩ := ledgerField_eq_ok hs
  have hframe : frame r = frame s := append_cancel_left (hr.symm.trans hs)
  rw [hr, length_append] at hle
  exact (frame_selfDelimiting maxBytes_lt).eq_of_encoding_eq (by omega) hframe

/-- The name of an object starts with the word `object` and the table. -/
lemma objectField_eq_ok (h : objectField p mapped target = .ok field) :
    field.length ≤ Writer.maxBytes ∧ ∃ keys contents, collectKeys p target mapped.keys ∅ = .ok keys ∧
      keys.toList.mapM (entryContent p) = .ok contents ∧
      field = frame (str "object") ++ (frame mapped.table ++ contents.flatMap entryEncoding) := by
  simp only [objectField, invalid, error_bind, guard_eq_ok, bind_eq_ok,
    Writer.text_eq_ok, Writer.take_eq_ok] at h
  obtain ⟨-, out, ⟨rfl, -⟩, out', ⟨rfl, -⟩, keys, hkeys, out'', hloop, rfl, hle⟩ := h
  obtain ⟨contents, hcontents, rfl⟩ := encodeEntry_appends.foldlM hloop
  exact ⟨hle, keys, contents, hkeys, hcontents, by simp⟩

/-- **No entity shares a hash field with a commit record.** -/
lemma objectField_ne_ledgerField {ledger} (ho : objectField p mapped target = .ok field)
    (hl : ledgerField requestId = .ok ledger) : field ≠ ledger := by
  intro heq
  obtain ⟨-, keys, contents, -, -, hfield⟩ := objectField_eq_ok ho
  obtain ⟨hledger, -⟩ := ledgerField_eq_ok hl
  rw [heq, hledger] at hfield
  have hword := (frame_selfDelimiting maxBytes_lt (str "request") (str "object") _ _
    (by decide) (by decide) hfield).1
  exact absurd hword (by decide)

/-- Objects with one name are in one table. -/
lemma objectField_table {mapped' target'}
    (h : objectField p mapped target = .ok field) (h' : objectField p mapped' target' = .ok field) :
    mapped.table = mapped'.table := by
  obtain ⟨hle, keys, contents, -, -, hfield⟩ := objectField_eq_ok h
  obtain ⟨-, keys', contents', -, -, hfield'⟩ := objectField_eq_ok h'
  have hrest := append_cancel_left (hfield.symm.trans hfield')
  have hlen := congrArg List.length hrest
  rw [hfield] at hle
  simp only [length_append] at hle hlen
  exact (frame_selfDelimiting maxBytes_lt _ _ _ _ (by omega) (by omega) hrest).1

lemma collectKeys_found : ∀ {keys : List FieldSchema}
    {m m' : StringMap Value}, collectKeys p target keys m = .ok m' →
      ∀ key ∈ keys, key.name ∈ target.key.map NamedValue.name
  | [], m, m', h, key, hkey => by cases hkey
  | first :: keys, m, m', h, key, hkey => by
    rw [collectKeys] at h
    split at h
    · cases h
    · next found hfound =>
      obtain ⟨-, -, hrest⟩ := bind_eq_ok.mp h
      rcases mem_cons.mp hkey with rfl | hmem
      · have hname := find?_some hfound
        rw [beq_iff_eq] at hname
        exact mem_map.mpr ⟨found, mem_of_find?_eq_some hfound, hname⟩
      · exact collectKeys_found hrest key hmem

/-- `object_field` finds every key of the schema in the target, and there are no more. -/
lemma objectField_names (hdist : mapped.Distinct) (h : objectField p mapped target = .ok field) :
    (mapped.keys.map FieldSchema.name).Perm (target.key.map NamedValue.name) := by
  simp only [objectField, invalid, error_bind, guard_eq_ok, bind_eq_ok,
    not_not] at h
  obtain ⟨hlen, _, -, _, -, _, hkeys, -⟩ := h
  have hnodup : (mapped.keys.map FieldSchema.name).Nodup :=
    (nodup_append.mp (map_append ▸ hdist.names)).1
  have hsub : mapped.keys.map FieldSchema.name ⊆ target.key.map NamedValue.name := by
    intro name hname
    obtain ⟨key, hkey, rfl⟩ := mem_map.mp hname
    exact collectKeys_found hkeys key hkey
  exact (subperm_of_subset hnodup hsub).perm_of_length_le (by simp [hlen])

end EntityCodec

/-! ## Signatures -/

/-- A field patch up to canonicalisation. -/
abbrev PatchContent := Bytes × PatchOp × Content

/-- A change up to canonicalisation of its values. -/
structure ChangeContent where
  store : Bytes
  partition : Bytes
  entity : Bytes
  key : List (Bytes × Content)
  createIfMissing : Bool
  checkVersion : Bool
  expectedVersion : UInt64
  fields : List PatchContent
  operation : EntityOperation

def patchContent (p : Platform) (field : FieldPatch) : Except EntityError PatchContent := do
  let c ← contentOf p field.data
  .ok (field.name, field.operation, c)

def keyContent (p : Platform) (key : NamedValue) : Except EntityError (Bytes × Content) :=
  entryContent p (key.name, key.data)

def changeContent (p : Platform) (change : EntityPatch) : Except EntityError ChangeContent := do
  let key ← change.target.key.mapM (keyContent p)
  let fields ← change.fields.mapM (patchContent p)
  .ok {
    store := change.target.store
    partition := change.target.partition
    entity := change.target.entity
    key
    createIfMissing := change.createIfMissing
    checkVersion := change.checkVersion
    expectedVersion := change.expectedVersion
    fields
    operation := change.operation }

/-- The changes of a request up to canonicalisation of their values. -/
def requestContent (p : Platform) (request : SaveRequest) :
    Except EntityError (List ChangeContent) :=
  request.changes.mapM (changeContent p)

/-- The members of a change that its own encoding holds: all but the operation, which a strict
batch lists at its end. -/
abbrev ChangeBody :=
  Bytes × Bytes × Bytes × List (Bytes × Content) × Bool × Bool × UInt64 × List PatchContent

def ChangeContent.body (c : ChangeContent) : ChangeBody :=
  (c.store, c.partition, c.entity, c.key, c.createIfMissing, c.checkVersion, c.expectedVersion,
    c.fields)

def patchEncoding (x : PatchContent) : Bytes := frame x.1 ++ ([x.2.1.code] ++ x.2.2.encoding)

def bodyEncoding (x : ChangeBody) : Bytes :=
  frame x.1 ++ (frame x.2.1 ++ (frame x.2.2.1 ++ (counted entryEncoding x.2.2.2.1 ++
    ([EntityCodec.flag x.2.2.2.2.1] ++ ([EntityCodec.flag x.2.2.2.2.2.1] ++
      (bigEndian x.2.2.2.2.2.2.1 ++ counted patchEncoding x.2.2.2.2.2.2.2))))))

/-- The end of a signature: the operations, when one of them is strict. -/
def operationsEncoding (operations : List EntityOperation) : Bytes :=
  if operations.any (· != .legacyPatch) then
    frame (str "strict-crud-v1") ++ operations.map EntityOperation.code
  else []

def signatureBytes (changes : List ChangeContent) : Bytes :=
  frame (str "redis-request-v1") ++
    (counted bodyEncoding (changes.map ChangeContent.body) ++
      operationsEncoding (changes.map ChangeContent.operation))

/-- A code of one byte. -/
lemma byte_selfDelimiting {f : α → UInt8} (hf : Function.Injective f) (limit : ℕ) :
    SelfDelimiting limit fun a => [f a] :=
  SelfDelimiting.of_length (n := 1) (fun _ => rfl) fun _ _ h => hf (singleton_inj.mp h)

lemma flag_injective : Function.Injective EntityCodec.flag := by
  intro a b h
  cases a <;> cases b <;> first | rfl | exact absurd h (by decide)

lemma patchEncoding_selfDelimiting : SelfDelimiting Writer.maxBytes patchEncoding :=
  (frame_selfDelimiting maxBytes_lt).append
    ((byte_selfDelimiting PatchOp.code_injective _).append (encoding_selfDelimiting maxBytes_lt))

lemma bodyEncoding_selfDelimiting : SelfDelimiting Writer.maxBytes bodyEncoding :=
  have htext := frame_selfDelimiting maxBytes_lt
  have hflag := byte_selfDelimiting flag_injective Writer.maxBytes
  have hword : SelfDelimiting Writer.maxBytes bigEndian :=
    SelfDelimiting.of_length bigEndian_length bigEndian_injective
  have hkey := entryEncoding_selfDelimiting.counted entryEncoding_ne_nil maxBytes_lt
  have hfields := patchEncoding_selfDelimiting.counted (fun x => by simp [patchEncoding]) maxBytes_lt
  htext.append (htext.append (htext.append (hkey.append (hflag.append (hflag.append
    (hword.append hfields))))))

lemma operationsEncoding_injective {xs ys} (hlen : xs.length = ys.length)
    (h : operationsEncoding xs = operationsEncoding ys) : xs = ys := by
  unfold operationsEncoding at h
  split at h <;> split at h
  · exact map_injective_iff.mpr EntityOperation.code_injective (append_cancel_left h)
  · exact absurd (append_eq_nil_iff.mp h).1 (frame_ne_nil _)
  · exact absurd (append_eq_nil_iff.mp h.symm).1 (frame_ne_nil _)
  · next hx hy => rw [EntityOperation.eq_replicate hx, EntityOperation.eq_replicate hy, hlen]

/-- **A signature determines the changes up to canonicalisation.** -/
lemma signatureBytes_injective {xs ys : List ChangeContent}
    (hle : (signatureBytes xs).length ≤ Writer.maxBytes)
    (h : signatureBytes xs = signatureBytes ys) : xs = ys := by
  have hle' := h ▸ hle
  have hrest := append_cancel_left h
  simp only [signatureBytes, length_append] at hle hle'
  obtain ⟨hbody, hops⟩ :=
    bodyEncoding_selfDelimiting.counted (fun x => by simp [bodyEncoding]) maxBytes_lt _ _ _ _
      (by omega) (by omega) hrest
  have hlen : xs.length = ys.length := by simpa using congrArg List.length hbody
  have hop := operationsEncoding_injective (by simpa using hlen) hops
  refine eq_of_map_eq_map (fun x y hb ho => ?_) hbody hop
  cases x
  cases y
  simp only [ChangeContent.body, Prod.mk.injEq] at hb
  simp only at ho
  simp [hb, ho]

namespace EntityCodec

variable {p : Platform}
variable {bytes : Bytes} {request r s : SaveRequest} {result : SaveResult}

lemma encodeKey_appends : Appends (encodeKey p) (keyContent p) entryEncoding :=
  fun out out' key h => encodeEntry_appends out out' (key.name, key.data) h

lemma encodePatch_appends : Appends (encodePatch p) (patchContent p) patchEncoding := by
  intro out out' field h
  obtain ⟨mid, hname, hval⟩ := bind_eq_ok.mp h
  obtain ⟨rfl, -⟩ := Writer.text_eq_ok.mp hname
  obtain ⟨c, hc, rfl, -⟩ := encodeValue_eq_ok.mp hval
  exact ⟨(field.name, field.operation, c), by simp [patchContent, hc],
    by simp [patchEncoding, Writer.byte]⟩

lemma encodeChange_appends :
    Appends (encodeChange p) (changeContent p) fun c => bodyEncoding c.body := by
  intro out out' change h
  simp only [encodeChange, encodeTarget, bind_eq_ok, Writer.text_eq_ok] at h
  obtain ⟨mid, ⟨_, ⟨rfl, -⟩, _, ⟨rfl, -⟩, _, ⟨rfl, -⟩, hkeys⟩, hfields⟩ := h
  obtain ⟨key, hkey, rfl⟩ := encodeKey_appends.foldlM hkeys
  obtain ⟨fields, hfield, rfl⟩ := encodePatch_appends.foldlM hfields
  refine ⟨_, by rw [changeContent, hkey, ok_bind, hfield, ok_bind], ?_⟩
  simp [bodyEncoding, ChangeContent.body, counted, Writer.number, Writer.byte,
    mapM_length hkey, mapM_length hfield]

lemma mapM_operation : ∀ {changes : List EntityPatch} {contents : List ChangeContent},
    changes.mapM (changeContent p) = .ok contents →
      contents.map ChangeContent.operation = changes.map EntityPatch.operation
  | [], contents, h => by
    cases h
    rfl
  | change :: changes, contents, h => by
    simp only [mapM_cons, changeContent, bind_eq_ok, pure_eq_ok] at h
    obtain ⟨c, ⟨key, -, fields, -, hc⟩, cs, hcs, hcons⟩ := h
    cases hc
    cases hcons
    simp [mapM_operation hcs]

lemma foldl_byte (f : α → UInt8) : ∀ (xs : List α) (out : Bytes),
    xs.foldl (fun out x => Writer.byte out (f x)) out = out ++ xs.map f
  | [], out => by simp
  | x :: xs, out => by
    rw [foldl_cons, foldl_byte f xs, Writer.byte]
    simp

/-- What `signature` writes. -/
lemma signature_eq_ok (h : signature p request = .ok bytes) :
    ∃ changes, requestContent p request = .ok changes ∧ bytes = signatureBytes changes ∧
      bytes.length ≤ Writer.maxBytes := by
  simp only [signature, bind_eq_ok, Writer.text_eq_ok] at h
  obtain ⟨_, ⟨rfl, -⟩, out, hchgs, htail⟩ := h
  obtain ⟨contents, hcontents, rfl⟩ := encodeChange_appends.foldlM hchgs
  have hops := mapM_operation hcontents
  have hany : (request.changes.map EntityPatch.operation).any (· != .legacyPatch)
      = request.changes.any fun x => x.operation != .legacyPatch := by
    simp [any_map, Function.comp_def]
  have hbody : contents.flatMap (fun c => bodyEncoding c.body)
      = (contents.map ChangeContent.body).flatMap bodyEncoding := by
    simp [flatMap_map]
  refine ⟨contents, hcontents, ?_⟩
  unfold signatureBytes operationsEncoding
  rw [hops, hany]
  split at htail
  · next hstrict =>
    simp only [bind_eq_ok, Writer.text_eq_ok, Writer.take_eq_ok] at htail
    obtain ⟨_, ⟨rfl, -⟩, rfl, hle⟩ := htail
    refine ⟨?_, hle⟩
    rw [if_pos hstrict, foldl_byte, hbody]
    simp [counted, Writer.number, mapM_length hcontents, map_map, Function.comp_def]
  · next hlegacy =>
    obtain ⟨rfl, hle⟩ := Writer.take_eq_ok.mp htail
    refine ⟨?_, hle⟩
    rw [if_neg hlegacy, hbody]
    simp [counted, Writer.number, mapM_length hcontents]

/-- **Requests with one signature have the same changes up to canonicalisation.** -/
theorem signature_content (hr : signature p r = .ok bytes) (hs : signature p s = .ok bytes) :
    ∃ changes, requestContent p r = .ok changes ∧ requestContent p s = .ok changes := by
  obtain ⟨xs, hxs, rfl, hle⟩ := signature_eq_ok hr
  obtain ⟨ys, hys, heq, -⟩ := signature_eq_ok hs
  rw [signatureBytes_injective hle heq] at hxs
  exact ⟨ys, hxs, hys⟩

/-- **A signature identifies the request**: it is the same exactly when the changes are the same up to
canonicalisation.  So legacy patches never have the signature of a batch with a strict operation. -/
theorem signature_eq_iff {r s : SaveRequest} {a b : Bytes} (hr : signature p r = .ok a)
    (hs : signature p s = .ok b) :
    (a = b ↔ requestContent p r = requestContent p s) ∧
      ((∀ change ∈ r.changes, change.operation = .legacyPatch) →
        (∃ change ∈ s.changes, change.operation ≠ .legacyPatch) → a ≠ b) := by
  obtain ⟨xs, hxs, rfl, hle⟩ := signature_eq_ok hr
  obtain ⟨ys, hys, rfl, -⟩ := signature_eq_ok hs
  have hiff : signatureBytes xs = signatureBytes ys ↔ requestContent p r = requestContent p s := by
    rw [hxs, hys, Except.ok.injEq]
    exact ⟨signatureBytes_injective hle, congrArg signatureBytes⟩
  refine ⟨hiff, fun hlegacy ⟨change, hchg, hstrict⟩ heq => hstrict ?_⟩
  rw [hxs, hys, Except.ok.injEq] at hiff
  have hops := mapM_operation hxs
  rw [hiff.mp heq, mapM_operation hys] at hops
  -- an operation of one request is one of the other
  obtain ⟨change', hchg', hsame⟩ := mem_map.mp
    (hops ▸ mem_map_of_mem (f := EntityPatch.operation) hchg)
  exact hsame.symm.trans (hlegacy change' hchg')

namespace Sample

/-- A price is set. -/
def price (operation : EntityOperation) (text : Bytes) : SaveRequest where
  requestId := str "a"
  changes := [{
    target := { entity := str "item", key := [⟨str "id", .unsignedInteger 1⟩] }
    fields := [{ name := str "price", data := .decimal text }]
    operation }]

/-- Its signature. -/
def signed (operation : EntityOperation) (text : Bytes) : Bytes :=
  (signature .integral (price operation text)).toOption.getD []

end Sample

open Sample in
/-- A decimal is signed the same in two spellings, and not the same for another operation. -/
theorem signature_eq_iff_price :
    signed .legacyPatch (str "1.50") = signed .legacyPatch (str "15e-1") ∧
      signed .legacyPatch (str "1.50") ≠ signed .update (str "1.50") :=
  have hlegacy : signature .integral (price .legacyPatch (str "1.50"))
    = .ok (signed .legacyPatch (str "1.50")) := by decide +kernel
  ⟨(signature_eq_iff hlegacy (by decide +kernel)).1.mpr rfl,
    (signature_eq_iff (s := price .update (str "1.50")) hlegacy (by decide +kernel)).2
      (by decide +kernel) (by decide +kernel)⟩

/-! ## Commit records -/

/-- The bytes of a commit record. -/
def ledgerBytes (signature : Bytes) (versions : List UInt64) : Bytes :=
  frame (str "redis-commit-v1") ++ (frame signature ++ counted bigEndian versions)

lemma foldl_number (f : α → UInt64) : ∀ (xs : List α) (out : Bytes),
    xs.foldl (fun out x => Writer.number out (f x)) out = out ++ (xs.map f).flatMap bigEndian
  | [], out => by simp
  | x :: xs, out => by
    rw [foldl_cons, foldl_number f xs, Writer.number]
    simp

/-- What `ledger` writes. -/
lemma ledger_eq_ok {signature} (h : ledger signature result = .ok bytes) :
    bytes = ledgerBytes signature (result.entities.map CommittedEntity.version) ∧
      bytes.length ≤ Writer.maxBytes := by
  simp only [ledger, bind_eq_ok, Writer.text_eq_ok, Writer.take_eq_ok] at h
  obtain ⟨_, ⟨rfl, -⟩, _, ⟨rfl, -⟩, rfl, hle⟩ := h
  refine ⟨?_, hle⟩
  rw [foldl_number]
  simp [ledgerBytes, counted, Writer.number]

/-- What a commit records for a change: a version in range, 0 exactly for a deletion. -/
structure Commits (change : EntityPatch) (entity : CommittedEntity) : Prop where
  target : entity.target = change.target
  operation : entity.operation = change.operation
  version_le : entity.version ≤ int64Max
  version_zero : entity.version = 0 ↔ change.operation = .deleteEntity

lemma replayEntities_commits (rest : Bytes) : ∀ {changes : List EntityPatch}
    {entities : List CommittedEntity}, List.Forall₂ Commits changes entities →
      replayEntities changes ((entities.map CommittedEntity.version).flatMap bigEndian ++ rest)
        = .ok (entities, rest)
  | [], _, .nil => by simp [replayEntities]
  | change :: changes, entity :: entities, .cons h hrest => by
    have hval : ¬(entity.version > int64Max ∨
        (entity.version = 0) ≠ (change.operation = .deleteEntity)) := by
      rw [not_or]
      exact ⟨UInt64.not_lt.mpr h.version_le, by simp [h.version_zero]⟩
    simp only [replayEntities, map_cons, flatMap_cons, append_assoc,
      Reader.number_bigEndian, ok_bind, if_neg hval, replayEntities_commits rest hrest]
    rw [← h.target, ← h.operation]

/-- **A commit record replays to the result it was written for.** -/
theorem replay_ledger {signature} (h : ledger signature result = .ok bytes)
    (hcommits : List.Forall₂ Commits request.changes result.entities) :
    replay request signature bytes = .ok {
      code := .ok
      requestId := request.requestId
      committed := true
      entities := result.entities } := by
  obtain ⟨rfl, hle⟩ := ledger_eq_ok h
  have hlimit := hle
  have hmax := maxBytes_lt
  simp only [ledgerBytes, length_append, frame_length] at hlimit
  have hmake : ∀ data : Bytes, data.length ≤ Writer.maxBytes → Reader.make data = .ok data :=
    fun data hdata => if_neg (by omega)
  have hents := replayEntities_commits [] hcommits
  rw [append_nil] at hents
  have hcount : (result.entities.map CommittedEntity.version).length = request.changes.length := by
    rw [length_map, hcommits.length_eq]
  simp only [replay, hmake _ hle, ok_bind]
  simp only [ledgerBytes]
  rw [Reader.text_frame _ (by decide)]
  simp only [ok_bind, ne_eq, not_true_eq_false, if_false]
  rw [Reader.text_frame _ (by omega)]
  simp [ok_bind, counted, Reader.number_bigEndian, hcount, hents, Reader.finish]

/-- A replay answers ok. -/
lemma replay_code {signature}
    (h : replay request signature bytes = .ok result) : result.code = .ok := by
  simp only [replay, corrupt, bind_eq_ok, guard_eq_ok, error_bind] at h
  obtain ⟨_, -, _, -, -, _, -, -, _, -, -, _, -, _, -, hok⟩ := h
  cases hok
  rfl

/-- Two readings of the same committed versions agree. -/
lemma replayEntities_agree : ∀ {xs ys : List EntityPatch} {data : Bytes}
    {es fs : List CommittedEntity} {u v : Bytes}, xs.length = ys.length →
      replayEntities xs data = .ok (es, u) → replayEntities ys data = .ok (fs, v) →
      es.map CommittedEntity.version = fs.map CommittedEntity.version
  | [], [], data, es, fs, u, v, _, hx, hy => by
    cases hx
    cases hy
    rfl
  | x :: xs, y :: ys, data, es, fs, u, v, hlen, hx, hy => by
    simp only [replayEntities, corrupt, bind_eq_ok, guard_eq_ok] at hx hy
    obtain ⟨⟨version, rest⟩, hver, -, ⟨es', u'⟩, hes, hx⟩ := hx
    obtain ⟨⟨version', rest'⟩, hver', -, ⟨fs', v'⟩, hfs, hy⟩ := hy
    rw [hver, Except.ok.injEq, Prod.mk.injEq] at hver'
    obtain ⟨rfl, rfl⟩ := hver'
    cases hx
    cases hy
    simp [replayEntities_agree (Nat.succ.inj hlen) hes hfs]

/-- **Whoever replays a commit record sees the same signature and the same versions.** -/
theorem replay_agree {sr ss x y} (hr : replay r sr bytes = .ok x) (hs : replay s ss bytes = .ok y)
    (hlr : r.changes.length < 2 ^ 64) (hls : s.changes.length < 2 ^ 64) :
    sr = ss ∧ x.entities.map CommittedEntity.version = y.entities.map CommittedEntity.version := by
  simp only [replay, corrupt, bind_eq_ok, guard_eq_ok, error_bind,
    not_not] at hr hs
  obtain ⟨data, hdata, ⟨format, d1⟩, hd1, -, ⟨signed, d2⟩, hd2, hsr, ⟨count, d3⟩, hd3, hcr,
    ⟨es, d4⟩, hes, -, -, hx⟩ := hr
  obtain ⟨data', hdata', ⟨format', d1'⟩, hd1', -, ⟨signed', d2'⟩, hd2', hss, ⟨count', d3'⟩, hd3',
    hcs, ⟨fs, d4'⟩, hfs, -, -, hy⟩ := hs
  -- both readings go through the same bytes
  rw [hdata, Except.ok.injEq] at hdata'
  subst hdata'
  rw [hd1, Except.ok.injEq, Prod.mk.injEq] at hd1'
  obtain ⟨rfl, rfl⟩ := hd1'
  rw [hd2, Except.ok.injEq, Prod.mk.injEq] at hd2'
  obtain ⟨rfl, rfl⟩ := hd2'
  rw [hd3, Except.ok.injEq, Prod.mk.injEq] at hd3'
  obtain ⟨rfl, rfl⟩ := hd3'
  have hlen : r.changes.length = s.changes.length := by
    have := congrArg UInt64.toNat (hcr.symm.trans hcs)
    rw [UInt64.toNat_ofNat', UInt64.toNat_ofNat'] at this
    omega
  cases hx
  cases hy
  exact ⟨hsr.symm.trans hss, replayEntities_agree hlen hes hfs⟩

end EntityCodec

end Caf.EntityStore.Redis
