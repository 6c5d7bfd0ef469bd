import CafPluginSystem.Redis.Engine

/-!
# What a commit does

A save computes its commit from a snapshot that may be out of date by the time the script runs.
The script compares every object with the snapshot byte by byte, so when it writes, the snapshot
was still the contents of the hash.  `Applies` says what the write amounts to without mentioning
snapshots: the changes of the request applied one after another to the documents that the hash
holds at that instant, the commit record, and nothing else.

* `commitScript_writes` — when the script writes, and what.
* `planCommit_planned` — what a planned commit was computed from.
* `commitScript_applies` — a script that writes applies the request.
* `planCommit_commits`, `planCommit_replay` — the commit record that it leaves replays to the
  result that the save answers.
-/

namespace Caf.EntityStore.Redis

open EntityCodec DecimalText Fallible List StringMap

variable {p : Platform}
variable {documents : StringMap Document} {store : StoreSchema} {patch : EntityPatch}
  {mapped : EntitySchema} {document' : Document}

/-! ## The script -/

/-- The snapshot of an object is what the hash holds. -/
def Entry.current (hash : Hash) (entry : Entry) : Bool := decide (hash[entry.field]? = entry.before)

/-- What an entry writes. -/
def Entry.update (entry : Entry) : Bytes × Bytes := (entry.field, entry.updated)

/-- The loop writes every object when all snapshots are current, and nothing otherwise. -/
lemma scriptLoop_entries (hash : Hash) : ∀ (entries : List Entry) (updates : List (Bytes × Bytes)),
    scriptLoop hash (entries.flatMap Entry.arguments) updates =
      if entries.all (Entry.current hash) then
        (.integer (hsetCount hash (updates ++ entries.map Entry.update)),
          updates ++ entries.map Entry.update)
      else (.array [.integer 0], [])
  | [], updates => by simp [scriptLoop]
  | entry :: entries, updates => by
    rw [flatMap_cons, Entry.arguments]
    simp only [cons_append, nil_append, scriptLoop]
    rw [scriptLoop_entries hash entries]
    have hflags : ¬(str "1" = str "0") := by decide
    cases hbefore : entry.before with
    | none =>
      have hmem : entry.field ∈ hash ↔ entry.current hash = false := by
        rw [Std.ExtTreeMap.mem_iff_isSome_getElem?, Entry.current, hbefore]
        cases hash[entry.field]? <;> simp
      cases hcur : entry.current hash with
      | true => simp [hmem, hcur, Entry.update]
      | false => simp [hmem, hcur]
    | some before =>
      have hcmp : hash[entry.field]? = some before ↔ entry.current hash = true := by
        simp [Entry.current, hbefore]
      cases hcur : entry.current hash with
      | true => simp [hcmp, hcur, hflags, Entry.update]
      | false => simp [hcmp, hcur, hflags]

lemma arguments_length (entries : List Entry) :
    (entries.flatMap Entry.arguments).length = entries.length * 4 := by
  induction entries with
  | nil => rfl
  | cons entry entries ih =>
    simp [Entry.arguments]
    omega

/-- The updates of a plan: the commit record, then the objects. -/
def Plan.updates (plan : Plan) (ledger : Bytes) : List (Bytes × Bytes) :=
  (ledger, plan.record) :: plan.entries.map Entry.update

/-- The script on the arguments of a plan. -/
lemma commitScript_plan (hash : Hash) (plan : Plan) (ledger : Bytes) :
    commitScript hash (plan.arguments ledger) =
      match hash[ledger]? with
      | some previous => (.array [.integer 2, .string previous], [])
      | none =>
        if plan.entries.length < 1 ∨ plan.entries.length > 1024 then
          (.error (str "invalid entity commit arguments"), [])
        else if plan.entries.all (Entry.current hash) then
          (.integer (hsetCount hash (plan.updates ledger)), plan.updates ledger)
        else (.array [.integer 0], []) := by
  rw [Plan.arguments, commitScript]
  cases hash[ledger]? with
  | some previous => rfl
  | none =>
    simp only [natOfText_natText, arguments_length, scriptLoop_entries]
    simp [Plan.updates]

variable {hash : Hash} {plan : Plan} {documents' : StringMap Document} {field : Bytes}
  {prepared : Prepared} {document : Document}

/-- **When the script writes, and what.** -/
lemma commitScript_writes {ledger} (h : (commitScript hash (plan.arguments ledger)).2 ≠ []) :
    hash[ledger]? = none ∧ (∀ entry ∈ plan.entries, hash[entry.field]? = entry.before) ∧
      (commitScript hash (plan.arguments ledger)).2 = plan.updates ledger := by
  rw [commitScript_plan] at h ⊢
  cases hledger : hash[ledger]? with
  | some previous => simp [hledger] at h
  | none =>
    simp only [hledger] at h ⊢
    split at h
    · simp at h
    · next hcount =>
      rw [if_neg hcount]
      split at h
      · next hall =>
        rw [if_pos hall]
        refine ⟨trivial, ?_, rfl⟩
        intro entry hentry
        simpa [Entry.current] using all_eq_true.mp hall entry hentry
      · simp at h

/-- The script answers with a number exactly when it writes. -/
lemma commitScript_integer {ledger} :
    (∃ n, (commitScript hash (plan.arguments ledger)).1 = .integer n) ↔
      (commitScript hash (plan.arguments ledger)).2 ≠ [] := by
  rw [commitScript_plan]
  cases hash[ledger]? with
  | some previous => simp
  | none =>
    simp only
    split
    · simp
    · split
      · simp [Plan.updates]
      · simp

/-! ## The snapshot -/

lemma mem_foldl_insertIfNew (a : Bytes) : ∀ (fields : List Bytes) (m : StringMap Unit),
    a ∈ fields.foldl (fun m field => m.insertIfNew field ()) m ↔ a ∈ fields ∨ a ∈ m
  | [], m => by simp
  | field :: fields, m => by
    rw [foldl_cons, mem_foldl_insertIfNew a fields, Std.ExtTreeMap.mem_insertIfNew,
      Std.LawfulEqOrd.compare_eq_iff_eq, mem_cons, eq_comm (a := field)]
    tauto

lemma mem_snapshotFields {fields a} :
    a ∈ snapshotFields fields ↔ a ∈ fields := by
  rw [snapshotFields, Std.ExtTreeMap.mem_keys, mem_foldl_insertIfNew]
  simp

lemma snapshotFields_nodup (fields : List Bytes) : (snapshotFields fields).Nodup := by
  have := Std.ExtTreeMap.distinct_keys
    (t := fields.foldl (fun m field => m.insertIfNew field ()) (∅ : StringMap Unit))
  simp only [Std.LawfulEqOrd.compare_eq_iff_eq] at this
  exact this

/-- The document that a hash holds under a field; a missing field and a deletion marker are an
entity that does not exist. -/
def storedDocument (hash : Hash) (field : Bytes) : Except EntityError Document :=
  match hash[field]? with
  | none => .ok {}
  | some bytes => if bytes = [] then .ok {} else decode bytes

/-- **Reading the reply of a snapshot read** gives the bytes and the documents of the hash. -/
lemma readSnapshots_hmget : ∀ {fields : List Bytes} {total : ℕ}
    {documents documents' : StringMap Document} {snapshots : List (Bytes × Option Bytes)},
    readSnapshots fields (fields.map (hget hash)) total documents = .ok (snapshots, documents') →
      fields.Nodup → (∀ field ∈ fields, field ∉ documents) →
      snapshots = fields.map (fun field => (field, hash[field]?)) ∧
      (∀ field ∈ fields, storedDocument hash field = .ok (documents'.getD field {})) ∧
      ∀ field, field ∉ fields → documents'[field]? = documents[field]?
  | [], total, documents, documents', snapshots, h, _, _ => by
    cases h
    exact ⟨rfl, by simp, fun _ _ => rfl⟩
  | field :: fields, total, documents, documents', snapshots, h, hnodup, hnew => by
    obtain ⟨hfield, hnodup⟩ := nodup_cons.mp hnodup
    have hnewRest : ∀ g ∈ fields, g ∉ documents := fun g hg => hnew g (by simp [hg])
    have hmiss : documents[field]? = none :=
      Std.ExtTreeMap.getElem?_eq_none (hnew field (by simp))
    rw [map_cons] at h
    cases hbytes : hash[field]? with
    | none =>
      simp only [hget, hbytes, readSnapshots, bind_eq_ok] at h
      obtain ⟨⟨rest, documents''⟩, hrest, hok⟩ := h
      cases hok
      obtain ⟨rfl, hstore, hframe⟩ := readSnapshots_hmget hrest hnodup hnewRest
      refine ⟨by simp [hbytes], ?_, fun g hg => hframe g (by simp_all)⟩
      refine forall_mem_cons.mpr ⟨?_, hstore⟩
      rw [storedDocument, hbytes, Std.ExtTreeMap.getD_eq_getD_getElem?, hframe field hfield,
        hmiss]
      rfl
    | some bytes =>
      simp only [hget, hbytes, readSnapshots, stringReply, invalid, ok_bind,
        error_bind, guard_eq_ok, bind_eq_ok] at h
      obtain ⟨-, mid, hmid, ⟨rest, documents''⟩, hrest, hok⟩ := h
      cases hok
      -- the documents with this field's, if it has one
      have hthis : storedDocument hash field = .ok (mid.getD field {}) ∧
          ∀ g, g ≠ field → mid[g]? = documents[g]? := by
        rw [storedDocument, hbytes]
        rw [addDocument] at hmid
        by_cases hempty : bytes = []
        · simp only [if_pos hempty] at hmid ⊢
          cases hmid
          rw [Std.ExtTreeMap.getD_eq_getD_getElem?, hmiss]
          exact ⟨rfl, fun _ _ => rfl⟩
        · simp only [if_neg hempty, bind_eq_ok] at hmid ⊢
          obtain ⟨document, hdoc, hok⟩ := hmid
          cases hok
          have hnotin := hnew field (by simp)
          refine ⟨?_, fun g hg => ?_⟩
          · rw [hdoc, Std.ExtTreeMap.getD_eq_getD_getElem?, lookup_insertIfNew,
              if_pos ⟨rfl, hnotin⟩]
            rfl
          · rw [lookup_insertIfNew, if_neg fun hc => hg hc.1.symm]
      have hnewMid : ∀ g ∈ fields, g ∉ mid := by
        intro g hg
        have hne : g ≠ field := fun heq => hfield (heq ▸ hg)
        rw [Std.ExtTreeMap.mem_iff_isSome_getElem?, hthis.2 g hne,
          ← Std.ExtTreeMap.mem_iff_isSome_getElem?]
        exact hnewRest g hg
      obtain ⟨rfl, hstore, hframe⟩ := readSnapshots_hmget hrest hnodup hnewMid
      refine ⟨by simp [hbytes], ?_, fun g hg => ?_⟩
      · refine forall_mem_cons.mpr ⟨?_, hstore⟩
        simp only [hthis.1, Std.ExtTreeMap.getD_eq_getD_getElem?, hframe field hfield]
      · rw [mem_cons, not_or] at hg
        rw [hframe g hg.2, hthis.2 g hg.1]

/-! ## The plan -/

/-- The changes of a request applied one after another to documents. -/
def applyAll (p : Platform) (store : StoreSchema) : List (EntityPatch × Bytes) →
    (Bytes → Document) → Except EntityError (List CommittedEntity × (Bytes → Document))
  | [], documents => .ok ([], documents)
  | (patch, field) :: rest, documents => do
      let mapped ← findEntity store patch.target.entity
      let document ← apply p (documents field) mapped patch
      let (entities, documents) ← applyAll p store rest (Function.update documents field document)
      .ok ({ target := patch.target, version := document.version, operation := patch.operation }
        :: entities, documents)

/-- The loop of `save` applies the changes one after another. -/
lemma applyChanges_applyAll : ∀ (changes : List (EntityPatch × Bytes))
    (documents : StringMap Document),
    applyAll p store changes (fun field => documents.getD field {})
      = (applyChanges p store changes documents).map
          fun result => (result.1, fun field => result.2.getD field {})
  | [], documents => rfl
  | (patch, field) :: changes, documents => by
    rw [applyAll, applyChanges]
    cases findEntity store patch.target.entity with
    | error error => rfl
    | ok mapped =>
      rw [ok_bind, ok_bind]
      cases apply p (documents.getD field {}) mapped patch with
      | error error => rfl
      | ok document =>
        have hupd : Function.update (fun g => documents.getD g {}) field document
            = fun g => (documents.insert field document).getD g {} := by
          funext g
          simp only [Std.ExtTreeMap.getD_insert, Std.LawfulEqOrd.compare_eq_iff_eq,
            Function.update_apply, eq_comm (a := field)]
        rw [ok_bind, ok_bind, hupd,
          applyChanges_applyAll changes (documents.insert field document)]
        cases applyChanges p store changes (documents.insert field document) with
        | error error => rfl
        | ok result => rfl

/-- What was applied to the documents of the snapshot, as a function of the field. -/
lemma applyAll_of_applyChanges {changes entities}
    (h : applyChanges p store changes documents = .ok (entities, documents')) :
    applyAll p store changes (fun field => documents.getD field {})
      = .ok (entities, fun field => documents'.getD field {}) := by
  rw [applyChanges_applyAll, h]
  rfl

/-- A document whose field no change names stays as it is. -/
lemma applyAll_frame :
    ∀ {changes : List (EntityPatch × Bytes)} {documents documents' : Bytes → Document}
      {entities : List CommittedEntity},
      applyAll p store changes documents = .ok (entities, documents') →
      (∀ change ∈ changes, change.2 ≠ field) → documents' field = documents field
  | [], documents, documents', entities, h, _ => by
    cases h
    rfl
  | (patch, other) :: changes, documents, documents', entities, h, hoth => by
    simp only [applyAll, bind_eq_ok] at h
    obtain ⟨mapped, -, document, -, ⟨rest, documents''⟩, hrest, hok⟩ := h
    cases hok
    have hframe := applyAll_frame hrest fun change hchg => hoth change (by simp [hchg])
    rwa [Function.update_of_ne (hoth (patch, other) (by simp)).symm] at hframe

/-- **The last change of a field decides**: its result is the document in the end, with the version
that is reported for the change. -/
lemma applyAll_last {entity} :
    ∀ {changes : List (EntityPatch × Bytes)} {k : ℕ} {documents documents' : Bytes → Document}
      {entities : List CommittedEntity},
      applyAll p store changes documents = .ok (entities, documents') →
      changes[k]? = some (patch, field) → entities[k]? = some entity →
      (∀ j, k < j → ∀ change, changes[j]? = some change → change.2 ≠ field) →
      ∃ mapped document, findEntity store patch.target.entity = .ok mapped ∧
        apply p document mapped patch = .ok (documents' field) ∧
        entity.version = (documents' field).version
  | (first, other) :: changes, k, documents, documents', entities, h, hchg, hent, hlast => by
    simp only [applyAll, bind_eq_ok] at h
    obtain ⟨mapped, hmap, document, hdoc, ⟨rest, documents''⟩, hrest, hok⟩ := h
    cases hok
    cases k with
    | zero =>
      cases hchg
      cases hent
      have hframe : documents'' field = _ := applyAll_frame hrest fun change hmem => by
        obtain ⟨j, hj⟩ := mem_iff_getElem?.mp hmem
        exact hlast (j + 1) (Nat.succ_pos j) change (by simpa using hj)
      rw [Function.update_self] at hframe
      exact ⟨mapped, _, hmap, by rw [hdoc, ← hframe], by rw [← hframe]⟩
    | succ k =>
      exact applyAll_last hrest (by simpa using hchg) (by simpa using hent)
        fun j hj change hj' => hlast (j + 1) (by omega) change (by simpa using hj')

lemma buildEntries_ok : ∀ {snapshots : List (Bytes × Option Bytes)}
    {total : ℕ} {entries : List Entry}, buildEntries p documents snapshots total = .ok entries →
      entries.map (fun entry => (entry.field, entry.before)) = snapshots ∧
      ∀ entry ∈ entries, storedBytes p (documents.getD entry.field {}) = .ok entry.updated
  | [], total, entries, h => by
    cases h
    exact ⟨rfl, by simp⟩
  | (field, before) :: snapshots, total, entries, h => by
    simp only [buildEntries, invalid, error_bind, bind_eq_ok,
      guard_eq_ok] at h
    obtain ⟨updated, hupdated, -, rest, hrest, hok⟩ := h
    cases hok
    obtain ⟨hsnaps, hstore⟩ := buildEntries_ok hrest
    exact ⟨by simp [hsnaps], forall_mem_cons.mpr ⟨hupdated, hstore⟩⟩

/-- What a planned commit was computed from. -/
structure Planned (p : Platform) (prepared : Prepared) (request : SaveRequest) (hash : Hash)
    (plan : Plan) (documents documents' : StringMap Document) : Prop where
  fresh : hash[prepared.ledger]? = none
  stored : ∀ field ∈ prepared.fields, storedDocument hash field = .ok (documents.getD field {})
  applied : applyChanges p prepared.store (request.changes.zip prepared.fields) documents
    = .ok (plan.entities, documents')
  record : ledger prepared.signature { requestId := request.requestId, entities := plan.entities }
    = .ok plan.record
  snapshots : plan.entries.map (fun entry => (entry.field, entry.before))
    = (snapshotFields prepared.fields).map fun field => (field, hash[field]?)
  updated : ∀ entry ∈ plan.entries,
    storedBytes p (documents'.getD entry.field {}) = .ok entry.updated

/-- **What `save` plans after an executed snapshot read.** -/
lemma planCommit_planned {request}
    (h : planCommit p prepared request (hmget hash prepared.reads) = .ok (.planned plan)) :
    ∃ documents documents', Planned p prepared request hash plan documents documents' := by
  simp only [planCommit, hmget, Prepared.reads, map_cons, checkReply, ok_bind,
    length_map, ne_eq, not_true_eq_false, if_false] at h
  split at h
  · next hfirst =>
    simp only [bind_eq_ok] at h
    obtain ⟨⟨snapshots, documents⟩, hread, ⟨entities, documents'⟩, happly, record, hrec,
      entries, hents, hok⟩ := h
    cases hok
    have hfresh : hash[prepared.ledger]? = none := by
      cases hledger : hash[prepared.ledger]? with
      | none => rfl
      | some previous => simp [hget, hledger] at hfirst
    obtain ⟨rfl, hstore, -⟩ := readSnapshots_hmget hread (snapshotFields_nodup _) (by simp)
    obtain ⟨hsnaps, hupdated⟩ := buildEntries_ok hents
    exact ⟨documents, documents', hfresh,
      fun field hfield => hstore field (mem_snapshotFields.mpr hfield), happly, hrec, hsnaps,
      hupdated⟩
  · simp only [bind_eq_ok] at h
    obtain ⟨_, -, _, -, hok⟩ := h
    cases hok

/-- What `save` answers when the snapshot read finds a commit record. -/
lemma planCommit_replayed {request result}
    (h : planCommit p prepared request (hmget hash prepared.reads) = .ok (.replayed result)) :
    ∃ record, hash[prepared.ledger]? = some record ∧
      replay request prepared.signature record = .ok result := by
  simp only [planCommit, hmget, Prepared.reads, map_cons, checkReply, ok_bind,
    length_map, ne_eq, not_true_eq_false, if_false] at h
  split at h
  · simp only [bind_eq_ok] at h
    obtain ⟨_, -, _, -, _, -, _, -, hok⟩ := h
    cases hok
  · simp only [bind_eq_ok] at h
    obtain ⟨bytes, hbytes, result', hreplay, hok⟩ := h
    cases hok
    refine ⟨bytes, ?_, hreplay⟩
    cases hledger : hash[prepared.ledger]? with
    | none => simp [hget, hledger, stringReply, corrupt] at hbytes
    | some record =>
      simp only [hget, hledger, stringReply, Except.ok.injEq] at hbytes
      rw [hbytes]

/-! ## A write applies the request -/

/-- `after` is `before` with the changes of the request applied to the documents it holds, one
after another, and with the commit record for them. -/
structure Applies (p : Platform) (prepared : Prepared) (request : SaveRequest)
    (before after : Hash) (entities : List CommittedEntity) : Prop where
  fresh : prepared.ledger ∉ before
  objects : ∃ documents documents', (∀ field ∈ prepared.fields,
      storedDocument before field = .ok (documents field)) ∧
    applyAll p prepared.store (request.changes.zip prepared.fields) documents
      = .ok (entities, documents') ∧
    ∀ field ∈ prepared.fields, ∃ bytes, storedBytes p (documents' field) = .ok bytes ∧
      after[field]? = some bytes
  record : ∃ record, ledger prepared.signature { requestId := request.requestId, entities }
    = .ok record ∧ after[prepared.ledger]? = some record
  others : ∀ field, field ∉ prepared.fields → field ≠ prepared.ledger →
    after[field]? = before[field]?

section

variable {request} (h : Planned p prepared request hash plan documents documents')
include h

lemma Planned.mem_fields :
    field ∈ plan.entries.map Entry.field ↔ field ∈ prepared.fields := by
  have hfields := congrArg (List.map Prod.fst) h.snapshots
  simp only [map_map, Function.comp_def, map_id'] at hfields
  rw [hfields, mem_snapshotFields]

/-- The updates of a plan name each field once. -/
lemma Planned.updates_distinct (hledger : prepared.ledger ∉ prepared.fields) :
    (plan.updates prepared.ledger).Pairwise fun a b => a.1 ≠ b.1 := by
  have hfields := congrArg (List.map Prod.fst) h.snapshots
  simp only [map_map, Function.comp_def, map_id'] at hfields
  constructor
  · intro update hupd heq
    obtain ⟨entry, hentry, rfl⟩ := mem_map.mp hupd
    refine hledger (h.mem_fields.mp ?_)
    rw [show prepared.ledger = entry.field from heq]
    exact mem_map_of_mem hentry
  · have hnodup : (plan.entries.map Entry.field).Nodup := by
      rw [hfields]
      exact snapshotFields_nodup _
    rw [pairwise_map]
    exact pairwise_map.mp hnodup

end

/-- **A script that writes applies the request to the hash as it finds it**, whenever the
snapshot was taken. -/
theorem commitScript_applies {request old} (hledger : prepared.ledger ∉ prepared.fields)
    (hplan : planCommit p prepared request (hmget old prepared.reads) = .ok (.planned plan))
    (hwrites : (commitScript hash (plan.arguments prepared.ledger)).2 ≠ []) :
    Applies p prepared request hash
      (hset hash (commitScript hash (plan.arguments prepared.ledger)).2) plan.entities := by
  obtain ⟨documents, documents', h⟩ := planCommit_planned hplan
  obtain ⟨hfresh, hcur, hupdates⟩ := commitScript_writes hwrites
  have hdist := h.updates_distinct hledger
  -- the snapshot is still the contents of the hash
  have hsame : ∀ field ∈ prepared.fields, hash[field]? = old[field]? := by
    intro field hfield
    obtain ⟨entry, hentry, rfl⟩ := mem_map.mp (h.mem_fields.mpr hfield)
    have hmem : (entry.field, entry.before)
        ∈ (snapshotFields prepared.fields).map fun field => (field, old[field]?) := by
      rw [← h.snapshots]
      exact mem_map_of_mem hentry
    obtain ⟨g, -, hg⟩ := mem_map.mp hmem
    obtain ⟨rfl, hbefore⟩ := Prod.mk.inj hg
    rw [hcur entry hentry, hbefore]
  rw [hupdates]
  refine ⟨?_, ⟨_, _, ?_, applyAll_of_applyChanges h.applied, ?_⟩, ⟨plan.record, h.record, ?_⟩, ?_⟩
  · rw [Std.ExtTreeMap.mem_iff_isSome_getElem?, hfresh]
    simp
  · intro field hfield
    rw [storedDocument, hsame field hfield]
    exact h.stored field hfield
  · intro field hfield
    obtain ⟨entry, hentry, rfl⟩ := mem_map.mp (h.mem_fields.mpr hfield)
    refine ⟨entry.updated, h.updated entry hentry, ?_⟩
    refine lookup_insertMany_of_mem _ hdist (mem_cons_of_mem _ ?_)
    exact mem_map.mpr ⟨entry, hentry, rfl⟩
  · exact lookup_insertMany_of_mem _ hdist (by simp [Plan.updates])
  · intro field hfield hne
    refine lookup_insertMany_of_not_mem _ ?_
    rw [Plan.updates, map_cons, mem_cons, not_or, map_map]
    exact ⟨hne, fun hmem => hfield (h.mem_fields.mp hmem)⟩

/-! ## The record of a commit -/

/-- A stored document has a version in range. -/
lemma decode_version {bytes} (h : decode bytes = .ok document) :
    document.version ≠ 0 ∧ document.version ≤ int64Max := by
  simp only [decode, corrupt, bind_eq_ok, error_bind, guard_eq_ok] at h
  obtain ⟨_, -, _, -, -, ⟨version, _⟩, -, hver, _, -, -, _, -, -, -, hok⟩ := h
  cases hok
  exact ⟨(not_or.mp hver).1, UInt64.not_lt.mp (not_or.mp hver).2⟩

lemma storedDocument_version
    (h : storedDocument hash field = .ok document) : document.version ≤ int64Max := by
  unfold storedDocument at h
  split at h
  · cases h
    decide
  · split at h
    · cases h
      decide
    · exact (decode_version h).2

lemma openDocument_version (h : openDocument p document mapped patch = .ok document') :
    document'.version = document.version := by
  simp only [openDocument] at h
  split at h
  · rw [guard_eq_ok] at h
    obtain ⟨fields, -, hok⟩ := bind_eq_ok.mp h.2
    cases hok
    rfl
  · simp only [guard_eq_ok, bind_eq_ok] at h
    obtain ⟨-, -, -, -, hok⟩ := h
    cases hok
    rfl

/-- A version that is not exhausted can be counted up without leaving the range. -/
lemma version_succ {version} (hle : version ≤ int64Max) (hne : version ≠ int64Max) :
    version + 1 ≤ int64Max ∧ version + 1 ≠ 0 := by
  have hmax : int64Max.toNat = 2 ^ 63 - 1 := rfl
  have hlt : version.toNat < 2 ^ 63 - 1 := by
    have hle' := UInt64.le_iff_toNat_le.mp hle
    have hne' : version.toNat ≠ int64Max.toNat := fun h => hne (UInt64.toNat_inj.mp h)
    omega
  have hsucc : (version + 1).toNat = version.toNat + 1 := by
    rw [UInt64.toNat_add]
    have : (1 : UInt64).toNat = 1 := rfl
    omega
  constructor
  · rw [UInt64.le_iff_toNat_le, hsucc]
    omega
  · intro hzero
    rw [hzero] at hsucc
    simp at hsucc

/-- **The version after a change**: in range, and 0 exactly for a deletion. -/
lemma apply_version
    (h : apply p document mapped patch = .ok document') (hle : document.version ≤ int64Max) :
    document'.version ≤ int64Max ∧ (document'.version = 0 ↔ patch.operation = .deleteEntity) := by
  obtain ⟨opened, hopen, hrest⟩ := bind_eq_ok.mp h
  rw [← openDocument_version hopen] at hle
  split at hrest
  · next hdel =>
    cases hrest
    exact ⟨by decide, by simp [hdel]⟩
  · next hkeep =>
    simp only [patchDocument, invalid, guard_eq_ok, bind_eq_ok] at hrest
    obtain ⟨hne, fields, -, hrest⟩ := hrest
    split at hrest
    · cases hrest
      obtain ⟨hsucc, hpos⟩ := version_succ hle hne
      exact ⟨hsucc, by simp [hkeep, hpos]⟩
    · cases hrest

/-- The versions that the change loop reports are ones a commit record can hold. -/
lemma applyAll_commits : ∀ {changes : List (EntityPatch × Bytes)}
    {documents documents' : Bytes → Document} {entities : List CommittedEntity},
    applyAll p store changes documents = .ok (entities, documents') →
      (∀ change ∈ changes, (documents change.2).version ≤ int64Max) →
      List.Forall₂ (fun change entity => Commits change.1 entity) changes entities
  | [], documents, documents', entities, h, _ => by
    cases h
    exact .nil
  | (patch, field) :: changes, documents, documents', entities, h, hle => by
    simp only [applyAll, bind_eq_ok] at h
    obtain ⟨mapped, -, document, hdoc, ⟨rest, documents''⟩, hrest, hok⟩ := h
    cases hok
    obtain ⟨hver, hzero⟩ := apply_version hdoc (hle (patch, field) (by simp))
    refine .cons ⟨rfl, rfl, hver, hzero⟩ (applyAll_commits hrest ?_)
    intro change hchg
    rw [Function.update_apply]
    split
    · exact hver
    · exact hle change (by simp [hchg])

/-- What `prepare` establishes. -/
structure Prepared.Valid (p : Platform) (prepared : Prepared) (request : SaveRequest) : Prop where
  nonempty : request.changes ≠ []
  length_le : request.changes.length ≤ 1024
  changes : request.changes.mapM (prepareChange p prepared.store) = .ok prepared.fields
  signature : EntityCodec.signature p request = .ok prepared.signature
  ledger : ledgerField request.requestId = .ok prepared.ledger

lemma validateSave_nonempty {request} (h : validateSave request = .ok ()) :
    request.changes ≠ [] := by
  intro hnil
  rw [validateSave, hnil, guard_eq_ok] at h
  cases h.2

lemma orInvalid_eq_ok {x} : orInvalid x = .ok () ↔ x = .ok () := by
  cases x with
  | error e => simp [orInvalid, invalid]
  | ok u => simp [orInvalid]

lemma prepare_valid {engine request}
    (h : prepare p engine request = .ok prepared) : prepared.Valid p request := by
  simp only [prepare, invalid, bind_eq_ok, error_bind, guard_eq_ok] at h
  obtain ⟨-, -, _, hval, hsmall, store, -, fields, hfields, signature, hsig, ledger,
    hledger, hok⟩ := h
  cases hok
  exact ⟨validateSave_nonempty (orInvalid_eq_ok.mp hval), by omega, hfields, hsig, hledger⟩

namespace Prepared.Valid

variable {prepared : Prepared} {request : SaveRequest}

variable (h : prepared.Valid p request)
include h

/-- **No commit record is named like one of the objects.** -/
lemma ledgerField_not_mem {requestId field}
    (hfield : ledgerField requestId = .ok field) : field ∉ prepared.fields := by
  intro hmem
  obtain ⟨patch, -, hpatch⟩ := mapM_mem h.changes hmem
  simp only [prepareChange, bind_eq_ok] at hpatch
  obtain ⟨mapped, -, -, -, hobject⟩ := hpatch
  exact objectField_ne_ledgerField hobject hfield rfl

lemma ledger_not_mem : prepared.ledger ∉ prepared.fields :=
  h.ledgerField_not_mem h.ledger

lemma zip_fst :
    (request.changes.zip prepared.fields).map Prod.fst = request.changes := by
  rw [map_fst_zip]
  exact (mapM_length h.changes).ge

end Prepared.Valid

variable {request : SaveRequest} (h : Planned p prepared request hash plan documents documents')
  (hval : prepared.Valid p request)
include h hval

/-- **The record of a planned commit replays to the result of the commit.** -/
lemma Planned.replay :
    replay request prepared.signature plan.record = .ok (committedResult request plan.entities) := by
  refine replay_ledger h.record ?_
  have hcommits := applyAll_commits (applyAll_of_applyChanges h.applied) fun change hchg =>
    storedDocument_version (h.stored change.2 (of_mem_zip hchg).2)
  rw [← hval.zip_fst]
  exact List.forall₂_map_left_iff.mpr hcommits

/-- **On the hash that the snapshot was read from, the script writes.** -/
lemma Planned.commits :
    commitScript hash (plan.arguments prepared.ledger)
      = (.integer (hsetCount hash (plan.updates prepared.ledger)), plan.updates prepared.ledger) := by
  have hlen : plan.entries.length = (snapshotFields prepared.fields).length := by
    simpa using congrArg List.length h.snapshots
  have hfields : prepared.fields.length = request.changes.length := mapM_length hval.changes
  have hpos : 1 ≤ plan.entries.length := by
    rw [hlen, Nat.one_le_iff_ne_zero, Ne, length_eq_zero_iff]
    intro hnil
    cases hprep : prepared.fields with
    | nil =>
      rw [hprep] at hfields
      exact hval.nonempty (length_eq_zero_iff.mp hfields.symm)
    | cons field fields =>
      have hmem : field ∈ snapshotFields prepared.fields :=
        mem_snapshotFields.mpr (by simp [hprep])
      simp [hnil] at hmem
  have hle : plan.entries.length ≤ 1024 := by
    have hsub : snapshotFields prepared.fields ⊆ prepared.fields :=
      fun field hmem => mem_snapshotFields.mp hmem
    have hshort := (subperm_of_subset (snapshotFields_nodup _) hsub).length_le
    have := hval.length_le
    omega
  have hcur : plan.entries.all (Entry.current hash) := by
    rw [all_eq_true]
    intro entry hentry
    have hmem : (entry.field, entry.before)
        ∈ (snapshotFields prepared.fields).map fun field => (field, hash[field]?) := by
      rw [← h.snapshots]
      exact mem_map_of_mem hentry
    obtain ⟨field, -, hpair⟩ := mem_map.mp hmem
    obtain ⟨rfl, hbefore⟩ := Prod.mk.inj hpair
    simp [Entry.current, hbefore]
  rw [commitScript_plan]
  simp only [h.fresh, hcur, if_true]
  rw [if_neg (by omega)]

end Caf.EntityStore.Redis
