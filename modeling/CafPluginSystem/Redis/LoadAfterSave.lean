import CafPluginSystem.Redis.Clients
import CafPluginSystem.Redis.Readable

/-!
# Loading what was saved

One client after another, over a connection that does not fail: `saveNow` and `loadNow` are what
`save` and `load` then compute (`saveNow_run` is the run of `World.step` that does it).

* `Readable`, `Applies.readable` — every stored document and commit record can be read, and a
  write keeps that.
* `saveNow_notInternal`, `loadNow_notInternal` — so neither saves nor loads answer with
  `internal_error`.
* `load_after_save` — what a load returns right after a save that committed.
* `saves_in_turn` — whatever interleaved saves leave is what saves made one after another leave;
  so no load finds anything corrupt while they are going on (`load_during_saves`).
-/

namespace Caf.EntityStore.Redis

open EntityCodec Fallible List Function Machine

variable {p : Platform}
variable {mapped : EntitySchema} {hash field : Bytes} {fields : List Bytes} {document : Document}

/-! ## Saving and loading without interruption -/

/-- What a client that runs alone answers to the reply of its commit. -/
def answerNow (request : SaveRequest) : Except EntityError (Option SaveResult) → SaveResult
  | .error error => failure request error
  | .ok (some result) => result
  | .ok none => failure request {
      code := .conflict
      message := str "concurrent update; retry with the same request_id"
      failed := conflict_ne_ok }

/-- `save` when nothing else happens: the hashes after it, and its answer. -/
def saveNow (p : Platform) (engine : Engine) (keyspace : Bytes → Hash) (request : SaveRequest) :
    (Bytes → Hash) × SaveResult :=
  match prepare p engine request with
  | .error error => (keyspace, failure request error)
  | .ok prepared =>
    match planCommit p prepared request (hmget (keyspace prepared.hash) prepared.reads) with
    | .error error => (keyspace, failure request error)
    | .ok (.replayed result) => (keyspace, result)
    | .ok (.planned plan) =>
      let hash := keyspace prepared.hash
      let (reply, updates) := commitScript hash (plan.arguments prepared.ledger)
      (Function.update keyspace prepared.hash (hset hash updates),
        answerNow request (finishCommit prepared request plan reply))

/-- `load` when nothing else happens. -/
def loadNow (p : Platform) (engine : Engine) (keyspace : Bytes → Hash) (request : LoadRequest) :
    LoadResult :=
  match (do
      let prepared ← prepareLoad p engine request
      finishLoad p prepared request (hget (keyspace prepared.hash) prepared.field)) with
  | .ok result => result
  | .error error => { code := error.code, error := error.message, target := request.target }

/-- When the script of a plan writes, what the plan was made from is still there. -/
lemma hmget_of_writes {prepared request old plan} (now : Hash)
    (hplan : planCommit p prepared request (hmget old prepared.reads) = .ok (.planned plan))
    (hwrites : (commitScript now (plan.arguments prepared.ledger)).2 ≠ []) :
    hmget now prepared.reads = hmget old prepared.reads := by
  obtain ⟨documents, documents', h⟩ := planCommit_planned hplan
  obtain ⟨hfresh, hcur, -⟩ := commitScript_writes hwrites
  refine congrArg Reply.array (map_congr_left fun field hmem => ?_)
  rcases mem_cons.mp hmem with rfl | hmem
  · rw [hget, hget, hfresh, h.fresh]
  · have hpair := mem_map_of_mem (f := fun field => (field, old[field]?)) hmem
    rw [← h.snapshots] at hpair
    obtain ⟨entry, hentry, heq⟩ := mem_map.mp hpair
    obtain ⟨rfl, hbefore⟩ := Prod.mk.inj heq
    rw [hget, hget, hcur entry hentry, hbefore]

/-- What each client was called with. -/
def World.calls (w : World) (i : ℕ) : Engine × SaveRequest := ((w.clients i).engine, (w.clients i).request)

/-- The saves of some clients, one after another. -/
def inTurn (p : Platform) (calls : ℕ → Engine × SaveRequest) (keyspace : Bytes → Hash) (order : List ℕ) :
    Bytes → Hash :=
  order.foldl (fun keyspace i => (saveNow p (calls i).1 keyspace (calls i).2).1) keyspace

/-- The hashes are those of saves in turn. -/
def Serial (p : Platform) (w₀ w : World) : Prop :=
  Invariant p w ∧ w.calls = w₀.calls ∧ ∃ order, w.keyspace = inTurn p w₀.calls w₀.keyspace order

lemma step_serial {w₀ w w' : World} {event} (hserial : Serial p w₀ w) (hstep : w.step p event = some w') :
    Serial p w₀ w' := by
  obtain ⟨h, hcalls, order, hks⟩ := hserial
  obtain ⟨hframe, hsame⟩ := step_frame hstep
  have hsame' : w'.calls = w.calls := funext fun i => Prod.ext (hsame i).1 (hsame i).2
  refine ⟨step_invariant w event w' h hstep, hsame'.trans hcalls, ?_⟩
  by_cases hwrote : w'.keyspace = w.keyspace
  · exact ⟨order, hwrote.trans hks⟩
  cases event with
  | execute i n =>
    obtain ⟨prepared, plan, hprep, ⟨old, hplan⟩, -, rfl⟩ := step_execute h hstep
    have hsnapshot := hmget_of_writes (w.keyspace prepared.hash) hplan fun hnil => hwrote (by simp [hnil, hset])
    refine ⟨order ++ [i], ?_⟩
    rw [inTurn] at hks
    rw [inTurn, foldl_append, ← hks, ← hcalls]
    simp only [foldl_cons, foldl_nil, World.calls, saveNow, hprep, hsnapshot, hplan]
  | _ => exact absurd (hframe (by simp)) hwrote

lemma run_serial {w₀ w : World} {events} (hinit : w₀.Initial) (hrun : run (World.step p) w₀ events = some w) :
    Serial p w₀ w :=
  run_invariant (fun _ _ _ => step_serial) ⟨hinit.invariant, rfl, [], rfl⟩ hrun

/-- **Concurrent saves are saves in turn.**  However the steps of the clients interleave and whatever fails, the hashes
are what the saves of some clients, made alone and one after another, make of the first ones; and a client that was
answered ok gets the same answer when it saves once more, and changes nothing. -/
theorem saves_in_turn {w₀ w : World} {events : List Event} (hinit : w₀.Initial)
    (hrun : run (World.step p) w₀ events = some w) :
    (∃ order, w.keyspace = inTurn p w₀.calls w₀.keyspace order) ∧
    ∀ i result, (w.clients i).phase = .answered result → result.code = .ok →
      saveNow p (w₀.calls i).1 w.keyspace (w₀.calls i).2 = (w.keyspace, result) := by
  obtain ⟨h, hcalls, horder⟩ := run_serial hinit hrun
  refine ⟨horder, fun i result hanswered hcode => ?_⟩
  have hphase := h.phase i
  rw [hanswered] at hphase
  obtain ⟨prepared, record, hprep, hrec, hreplay⟩ := hphase.1 hcode
  have hplan : planCommit p prepared (w.clients i).request (hmget (w.keyspace prepared.hash) prepared.reads)
      = .ok (.replayed result) := by
    simp [planCommit, hmget, Prepared.reads, hget, hrec, checkReply, stringReply, hreplay]
  rw [← hcalls]
  simp only [World.calls, saveNow, hprep, hplan]

open Sample in
/-- One client commits, and another finds its record. -/
theorem saves_in_turn_sample : ∃ w order, run (World.step .integral) world
    (untilCommit ++ .execute 0 1 :: afterCommit) = some w ∧ w.keyspace = inTurn .integral world.calls world.keyspace order := by
  obtain ⟨w, hrun⟩ := Option.isSome_iff_exists.mp (show (run (World.step .integral) world
    (untilCommit ++ .execute 0 1 :: afterCommit)).isSome by decide +kernel)
  obtain ⟨order, hks⟩ := (saves_in_turn world_initial hrun).1
  exact ⟨w, order, hrun, hks⟩

/-! ## Commit records stay readable -/

/-- A commit record as a save writes it. -/
def Recorded (p : Platform) (record : Bytes) : Prop :=
  ∃ request signature result, EntityCodec.signature p request = .ok signature ∧
    ledger signature result = .ok record ∧ List.Forall₂ Commits request.changes result.entities

/-- A commit record is a conflict for a request with another signature. -/
lemma replay_conflict {request signature other record result}
    (h : ledger signature result = .ok record) (hne : signature ≠ other) :
    replay request other record = .error {
      code := .conflict
      message := str "request_id was already used with different payload" } := by
  obtain ⟨rfl, hle⟩ := ledger_eq_ok h
  have hlimit := hle
  have hmax := maxBytes_lt
  simp only [ledgerBytes, length_append, frame_length] at hlimit
  have hmake : Reader.make (ledgerBytes signature (result.entities.map CommittedEntity.version))
      = .ok (ledgerBytes signature (result.entities.map CommittedEntity.version)) :=
    if_neg (by omega)
  simp only [replay, hmake, ok_bind]
  simp only [ledgerBytes]
  rw [Reader.text_frame _ (by decide)]
  simp only [ok_bind, ne_eq, not_true_eq_false, if_false]
  rw [Reader.text_frame _ (by omega)]
  simp only [ok_bind, if_pos hne, error_bind]

/-- The operations of a request are part of its signature. -/
lemma signature_operations {r s bytes} (hr : signature p r = .ok bytes) (hs : signature p s = .ok bytes) :
    r.changes.map EntityPatch.operation = s.changes.map EntityPatch.operation := by
  obtain ⟨contents, hcr, hcs⟩ := signature_content hr hs
  rw [← mapM_operation hcr, ← mapM_operation hcs]

/-- Versions that can be recorded for some changes can be recorded for others with the same
operations. -/
lemma commits_transfer : ∀ {xs ys : List EntityPatch} {entities : List CommittedEntity},
    xs.map EntityPatch.operation = ys.map EntityPatch.operation →
      List.Forall₂ Commits xs entities → ∃ entities', List.Forall₂ Commits ys entities' ∧
        entities'.map CommittedEntity.version = entities.map CommittedEntity.version
  | [], [], _, _, .nil => ⟨[], .nil, rfl⟩
  | x :: xs, y :: ys, entity :: entities, hops, .cons h hrest => by
    obtain ⟨hop, hops⟩ := List.cons.inj hops
    obtain ⟨entities', hcommits, hvers⟩ := commits_transfer hops hrest
    refine ⟨{ target := y.target, version := entity.version, operation := y.operation }
      :: entities', .cons ⟨rfl, rfl, h.version_le, ?_⟩ hcommits, by simp [hvers]⟩
    rw [← hop]
    exact h.version_zero

/-- **A commit record is never corrupt**: whoever finds it gets a replay or a conflict. -/
lemma Recorded.replay {record} (h : Recorded p record) {request}
    {signature} (hsig : EntityCodec.signature p request = .ok signature) :
    NotInternal (EntityCodec.replay request signature record) := by
  obtain ⟨committed, signed, result, hsigned, hledger, hcommits⟩ := h
  by_cases hsame : signed = signature
  · subst hsame
    obtain ⟨entities, hents, hvers⟩ :=
      commits_transfer (signature_operations hsigned hsig) hcommits
    have hledger' : ledger signed { requestId := request.requestId, entities } = .ok record := by
      rw [← hledger, ledger, ledger]
      simp only [foldl_number, hvers]
      rw [← length_map (f := CommittedEntity.version), hvers, length_map]
    rw [replay_ledger hledger' hents]
    simp
  · rw [replay_conflict hledger hsame]
    simp

/-! ## The hashes stay readable -/

/-- Every stored document and every commit record can be read. -/
structure Readable (p : Platform) (catalog : SchemaCatalog) (keyspace : Bytes → Hash) : Prop where
  objects : ∀ hash mapped target field, Maps catalog hash mapped →
    objectField p mapped target = .ok field →
    ∃ document, storedDocument (keyspace hash) field = .ok document ∧
      Kept p catalog hash mapped document
  records : ∀ (hash requestId field record : Bytes), ledgerField requestId = .ok field →
    (keyspace hash)[field]? = some record → Recorded p record

lemma readable_empty (catalog : SchemaCatalog) : Readable p catalog fun _ => ∅ where
  objects hash mapped target field _ _ := ⟨{}, by simp [storedDocument], .empty⟩
  records hash requestId field record _ h := by simp at h

/-- The decimals of a request fit. -/
def RequestFits (request : SaveRequest) : Prop := ∀ change ∈ request.changes, ChangeFits change

/-- What a prepared request says about the engine's catalog. -/
structure Prepared.Routed (engine : Engine) (prepared : Prepared) (request : SaveRequest) : Prop where
  config : checkConfig engine = .ok ()
  validated : validateSave request = .ok ()
  store : findStore engine ((request.changes.head?.map fun c => c.target.store).getD []) true
    = .ok prepared.store
  hash : prepared.hash = hashKey prepared.store

lemma prepare_routed {engine request prepared}
    (h : prepare p engine request = .ok prepared) : prepared.Routed engine request := by
  simp only [prepare, invalid, bind_eq_ok, error_bind, guard_eq_ok] at h
  obtain ⟨_, hcfg, _, hval, -, store, hstore, fields, -, signature, -, ledger, -, hok⟩ := h
  cases hok
  exact ⟨hcfg, orInvalid_eq_ok.mp hval, hstore, rfl⟩

lemma findStore_eq_ok {engine name write store} (h : findStore engine name write = .ok store) :
    engine.settings.catalog.stores[name]? = some store ∧
      (if write then store.writeConnection else store.readConnection) = engine.name := by
  unfold findStore at h
  split at h
  · cases h
  · next found hfound =>
    obtain ⟨hconn, hok⟩ := guard_eq_ok.mp h
    cases hok
    exact ⟨hfound, not_not.mp hconn⟩

lemma findEntity_eq_ok {store name} :
    findEntity store name = .ok mapped ↔ store.entities[name]? = some mapped := by
  unfold findEntity
  split <;> simp_all [invalid]

variable {catalog : SchemaCatalog} {keyspace : Bytes → Hash}

/-- Every change was checked against its entity, and its decimals fit. -/
def Ready (p : Platform) (catalog : SchemaCatalog) (hash : Bytes) (store : StoreSchema)
    (changes : List (EntityPatch × Bytes)) : Prop :=
  ∀ change ∈ changes, ChangeFits change.1 ∧ ∃ mapped,
    findEntity store change.1.target.entity = .ok mapped ∧ Maps catalog hash mapped ∧
    Checked p mapped change.1 change.2

lemma prepare_ready {engine request prepared}
    (h : prepare p engine request = .ok prepared) (hfits : RequestFits request) :
    Ready p engine.settings.catalog prepared.hash prepared.store (request.changes.zip prepared.fields) := by
  intro change hchg
  have hrouted := prepare_routed h
  obtain ⟨hstore, -⟩ := findStore_eq_ok hrouted.store
  have hprep := mapM_zip (prepare_valid h).changes hchg
  simp only [prepareChange, bind_eq_ok] at hprep
  obtain ⟨mapped, hmap, _, hval, hfield⟩ := hprep
  exact ⟨hfits _ (of_mem_zip hchg).1, mapped, hmap,
    ⟨_, _, _, hstore, hrouted.hash.symm, findEntity_eq_ok.mp hmap⟩, hval, hfield⟩

/-- The documents of the given fields are kept, whichever entity names them. -/
def KeptAll (p : Platform) (catalog : SchemaCatalog) (hash : Bytes) (fields : List Bytes)
    (documents : Bytes → Document) : Prop :=
  ∀ mapped target field, Maps catalog hash mapped → objectField p mapped target = .ok field →
    field ∈ fields → Kept p catalog hash mapped (documents field)

/-- One change keeps the documents. -/
lemma KeptAll.update {documents}
    (h : KeptAll p catalog hash fields documents) {target} (hmap : Maps catalog hash mapped)
    (hfield : objectField p mapped target = .ok field)
    (hkept : Kept p catalog hash mapped document) :
    KeptAll p catalog hash fields (update documents field document) := by
  intro mapped' target' field' hmap' hfield' hmem
  by_cases heq : field' = field
  · subst heq
    rw [update_self]
    exact hkept.share hmap hmap' (objectField_table hfield hfield')
  · rw [update_of_ne heq]
    exact h mapped' target' field' hmap' hfield' hmem

/-- **A whole request keeps the documents.** -/
lemma applyAll_kept {store} :
    ∀ {changes : List (EntityPatch × Bytes)} {documents documents' : Bytes → Document}
      {entities : List CommittedEntity}, Ready p catalog hash store changes →
      (∀ change ∈ changes, change.2 ∈ fields) → KeptAll p catalog hash fields documents →
      applyAll p store changes documents = .ok (entities, documents') →
      KeptAll p catalog hash fields documents'
  | [], documents, documents', entities, _, _, h, happly => by
    cases happly
    exact h
  | (patch, field) :: changes, documents, documents', entities, hready, hmem, h, happly => by
    simp only [applyAll, bind_eq_ok] at happly
    obtain ⟨mapped, hent, document, hdoc, ⟨rest, documents''⟩, hrest, hok⟩ := happly
    cases hok
    obtain ⟨hfits, mapped', hent', hmap, hcheck⟩ := hready (patch, field) (by simp)
    rw [hent, Except.ok.injEq] at hent'
    subst hent'
    have hkept := h mapped patch.target field hmap hcheck.named
      (hmem (patch, field) (by simp))
    exact applyAll_kept (fun change hchg => hready change (by simp [hchg]))
      (fun change hchg => hmem change (by simp [hchg]))
      (h.update hmap hcheck.named (apply_kept hmap hkept hcheck hfits hdoc)) hrest

/-- **A request finds nothing wrong with kept documents.** -/
lemma applyAll_notInternal {store} (hsep : TablesSeparate catalog) :
    ∀ {changes : List (EntityPatch × Bytes)} {documents : Bytes → Document},
      Ready p catalog hash store changes → (∀ change ∈ changes, change.2 ∈ fields) →
      KeptAll p catalog hash fields documents → NotInternal (applyAll p store changes documents)
  | [], documents, _, _, _ => by simp [applyAll]
  | (patch, field) :: changes, documents, hready, hmem, h => by
    obtain ⟨hfits, mapped, hent, hmap, hcheck⟩ := hready (patch, field) (by simp)
    have hkept := h mapped patch.target field hmap hcheck.named
      (hmem (patch, field) (by simp))
    rw [applyAll, hent, ok_bind]
    refine (apply_notInternal hmap hsep hkept hcheck hfits).bind fun document hdoc => ?_
    refine Raises.bind ?_ fun result _ => by simp
    exact applyAll_notInternal hsep (fun change hchg => hready change (by simp [hchg]))
      (fun change hchg => hmem change (by simp [hchg]))
      (h.update hmap hcheck.named (apply_kept hmap hkept hcheck hfits hdoc))

/-- What is stored of a kept document reads back in canonical form. -/
lemma storedDocument_storedBytes (hkept : Kept p catalog hash mapped document) (hbounded : ColumnsBounded catalog)
    {bytes after} (hbytes : storedBytes p document = .ok bytes)
    (hafter : after[field]? = some bytes) :
    storedDocument after field = .ok (document.canonical p) := by
  rw [storedDocument, hafter]
  unfold storedBytes at hbytes
  split at hbytes
  · next hzero =>
    cases hbytes
    have hfields := hkept.missing hzero
    have hdoc : document = {} := by
      cases document
      simp_all
    rw [hdoc]
    rfl
  · next hne =>
    have hdec := hkept.decode_eq hbounded hne hbytes
    have hnonempty : bytes ≠ [] := by
      intro hnil
      rw [hnil] at hdec
      cases hdec
    simp only [if_neg hnonempty, hdec]

lemma Readable.keptAll (h : Readable p catalog keyspace)
    {documents} (hstore : ∀ field ∈ fields,
      storedDocument (keyspace hash) field = .ok (documents field)) :
    KeptAll p catalog hash fields documents := by
  intro mapped target field hmap hfield hmem
  obtain ⟨document, hdoc, hkept⟩ := h.objects hash mapped target field hmap hfield
  rw [hstore field hmem, Except.ok.injEq] at hdoc
  exact hdoc ▸ hkept

section

variable {engine : Engine} {request : SaveRequest} {prepared : Prepared}

section Applied

variable (hreadable : Readable p engine.settings.catalog keyspace)
  (hbounded : ColumnsBounded engine.settings.catalog)
  (hprepare : prepare p engine request = .ok prepared) (hfits : RequestFits request)
  {after : Hash} {entities : List CommittedEntity}
  (h : Applies p prepared request (keyspace prepared.hash) after entities)

include hreadable hbounded hprepare hfits h

/-- What a write leaves in the fields of its objects. -/
lemma Applies.documents :
    ∃ documents documents', (∀ field ∈ prepared.fields,
        storedDocument (keyspace prepared.hash) field = .ok (documents field)) ∧
      applyAll p prepared.store (request.changes.zip prepared.fields) documents
        = .ok (entities, documents') ∧
      KeptAll p engine.settings.catalog prepared.hash prepared.fields documents' ∧
      ∀ mapped target field, Maps engine.settings.catalog prepared.hash mapped →
        objectField p mapped target = .ok field → field ∈ prepared.fields →
        storedDocument after field = .ok ((documents' field).canonical p) := by
  obtain ⟨documents, documents', hstore, happly, hafter⟩ := h.objects
  have hkept := applyAll_kept (prepare_ready hprepare hfits)
    (fun change hchg => (of_mem_zip hchg).2) (hreadable.keptAll hstore) happly
  refine ⟨documents, documents', hstore, happly, hkept, ?_⟩
  intro mapped target field hmap hfield hmem
  obtain ⟨bytes, hbytes, hlook⟩ := hafter field hmem
  exact storedDocument_storedBytes (hkept mapped target field hmap hfield hmem) hbounded hbytes
    hlook

/-- **A write keeps the hashes readable.** -/
theorem Applies.readable :
    Readable p engine.settings.catalog (update keyspace prepared.hash after) := by
  have hval := prepare_valid hprepare
  obtain ⟨documents, documents', hstore, happly, hkept, hafter⟩ :=
    h.documents hreadable hbounded hprepare hfits
  constructor
  · intro hash mapped target field hmap hfield
    by_cases hhash : hash = prepared.hash
    · subst hhash
      rw [update_self]
      by_cases hmem : field ∈ prepared.fields
      · exact ⟨_, hafter mapped target field hmap hfield hmem,
          (hkept mapped target field hmap hfield hmem).canonical⟩
      · obtain ⟨document, hdoc, hthis⟩ := hreadable.objects _ mapped target field hmap hfield
        refine ⟨document, ?_, hthis⟩
        rw [storedDocument, h.others field hmem (objectField_ne_ledgerField hfield hval.ledger)]
        exact hdoc
    · rw [update_of_ne hhash]
      exact hreadable.objects hash mapped target field hmap hfield
  · intro hash requestId field record hfield hrec
    by_cases hhash : hash = prepared.hash
    · subst hhash
      rw [update_self] at hrec
      by_cases hledger : field = prepared.ledger
      · subst hledger
        obtain ⟨record', hrec', hlook⟩ := h.record
        rw [hrec, Option.some.injEq] at hlook
        subst hlook
        refine ⟨request, prepared.signature, _, hval.signature, hrec', ?_⟩
        have hcommits := applyAll_commits happly fun change hchg =>
          storedDocument_version (hstore change.2 (of_mem_zip hchg).2)
        rw [← hval.zip_fst]
        exact List.forall₂_map_left_iff.mpr hcommits
      · rw [h.others field (hval.ledgerField_not_mem hfield) hledger] at hrec
        exact hreadable.records _ requestId field record hfield hrec
    · rw [update_of_ne hhash] at hrec
      exact hreadable.records hash requestId field record hfield hrec

end Applied

/-! ## Nothing is found corrupt -/

lemma readSnapshots_notInternal {hash} : ∀ {fields : List Bytes} {total : ℕ}
    {documents : StringMap Document},
    (∀ field ∈ fields, ∃ document, storedDocument hash field = .ok document) →
      NotInternal (readSnapshots fields (fields.map (hget hash)) total documents)
  | [], total, documents, _ => by simp [readSnapshots]
  | field :: fields, total, documents, h => by
    have hrest : ∀ total documents,
        NotInternal (readSnapshots fields (fields.map (hget hash)) total documents) :=
      fun total documents => readSnapshots_notInternal fun g hg => h g (by simp [hg])
    obtain ⟨document, hdoc⟩ := h field (by simp)
    rw [storedDocument] at hdoc
    rw [map_cons, hget]
    cases hbytes : hash[field]? with
    | none => exact (hrest _ _).bind fun _ _ => by simp
    | some bytes =>
      rw [hbytes] at hdoc
      refine Raises.guard (by decide) fun _ => Raises.bind ?_ fun documents' _ =>
        (hrest _ _).bind fun _ _ => by simp
      unfold addDocument
      by_cases hempty : bytes = []
      · simp [if_pos hempty]
      · simp only [if_neg hempty] at hdoc ⊢
        simp [hdoc]

lemma buildEntries_refuses {documents} :
    ∀ {snapshots : List (Bytes × Option Bytes)} {total : ℕ},
      Refuses (buildEntries p documents snapshots total)
  | [], total => by simp [buildEntries]
  | (field, before) :: snapshots, total => by
    refine Raises.bind ?_ fun updated _ => ?_
    · unfold storedBytes
      split
      · simp
      · exact encode_refuses _
    · exact Raises.guard rfl fun _ => buildEntries_refuses.bind fun _ _ => by simp

/-- **After a snapshot read of readable hashes, `save` finds nothing corrupt.** -/
lemma planCommit_notInternal (hreadable : Readable p engine.settings.catalog keyspace)
    (hsep : TablesSeparate engine.settings.catalog)
    (hprepare : prepare p engine request = .ok prepared) (hfits : RequestFits request) :
    NotInternal (planCommit p prepared request
      (hmget (keyspace prepared.hash) prepared.reads)) := by
  have hval := prepare_valid hprepare
  have hready := prepare_ready hprepare hfits
  have hstore : ∀ field ∈ snapshotFields prepared.fields, ∃ document,
      storedDocument (keyspace prepared.hash) field = .ok document := by
    intro field hmem
    obtain ⟨patch, hpatch, hfield⟩ :=
      mapM_mem hval.changes (mem_snapshotFields.mp hmem)
    simp only [prepareChange, bind_eq_ok] at hfield
    obtain ⟨mapped, hent, -, -, hobject⟩ := hfield
    have hrouted := prepare_routed hprepare
    obtain ⟨document, hdoc, -⟩ := hreadable.objects prepared.hash mapped patch.target field
      ⟨_, _, _, (findStore_eq_ok hrouted.store).1, hrouted.hash.symm, findEntity_eq_ok.mp hent⟩
      hobject
    exact ⟨document, hdoc⟩
  simp only [planCommit, hmget, Prepared.reads, map_cons, checkReply, ok_bind,
    length_map, ne_eq, not_true_eq_false, if_false]
  cases hledger : (keyspace prepared.hash)[prepared.ledger]? with
  | none =>
    simp only [hget, hledger]
    refine (readSnapshots_notInternal hstore).bind ?_
    rintro ⟨snapshots, documents⟩ hread
    obtain ⟨-, hdocuments, -⟩ := readSnapshots_hmget hread (snapshotFields_nodup _) (by simp)
    have hkept : KeptAll p engine.settings.catalog prepared.hash prepared.fields
        fun field => documents.getD field {} :=
      hreadable.keptAll fun field hmem => hdocuments field (mem_snapshotFields.mpr hmem)
    have happly := applyAll_notInternal hsep hready
      (fun change hchg => (of_mem_zip hchg).2) hkept
    rw [applyChanges_applyAll] at happly
    refine happly.of_map.bind ?_
    rintro ⟨entities, documents'⟩ -
    refine (ledger_refuses _ _).notInternal.bind fun record _ => ?_
    exact buildEntries_refuses.notInternal.bind fun entries _ => by simp
  | some record =>
    simp only [hget, hledger, stringReply, ok_bind]
    exact ((hreadable.records _ _ _ _ hval.ledger hledger).replay hval.signature).bind
      fun _ _ => by simp

/-- **The outcomes of a save that runs alone**: nothing is written, and an ok answer is the replay of
an earlier commit; or the request is applied, and the answer is its result. -/
lemma saveNow_cases (p : Platform) (engine : Engine) (keyspace : Bytes → Hash) (request : SaveRequest) :
    ((saveNow p engine keyspace request).1 = keyspace ∧
      ((saveNow p engine keyspace request).2.code = .ok → ∃ prepared,
        prepare p engine request = .ok prepared ∧ prepared.ledger ∈ keyspace prepared.hash)) ∨
    ∃ prepared after entities, prepare p engine request = .ok prepared ∧
      Applies p prepared request (keyspace prepared.hash) after entities ∧
      saveNow p engine keyspace request
        = (update keyspace prepared.hash after, committedResult request entities) := by
  unfold saveNow
  cases hprepare : prepare p engine request with
  | error error => exact .inl ⟨rfl, fun hok => absurd hok error.failed⟩
  | ok prepared =>
    dsimp only
    cases hplan : planCommit p prepared request
        (hmget (keyspace prepared.hash) prepared.reads) with
    | error error => exact .inl ⟨rfl, fun hok => absurd hok error.failed⟩
    | ok snapshot =>
      cases snapshot with
      | replayed result =>
        obtain ⟨record, hrec, -⟩ := planCommit_replayed hplan
        refine .inl ⟨rfl, fun _ => ⟨prepared, rfl, ?_⟩⟩
        rw [Std.ExtTreeMap.mem_iff_isSome_getElem?, hrec]
        rfl
      | planned plan =>
        have hval := prepare_valid hprepare
        obtain ⟨documents, documents', hplanned⟩ := planCommit_planned hplan
        have hcommits := hplanned.commits hval
        have hwrites : (commitScript (keyspace prepared.hash)
            (plan.arguments prepared.ledger)).2 ≠ [] := by
          rw [hcommits]
          simp [Plan.updates]
        have happlies := commitScript_applies hval.ledger_not_mem hplan hwrites
        refine .inr ⟨prepared, _, plan.entities, rfl, happlies, ?_⟩
        simp only [hcommits, finishCommit, checkReply, ok_bind, answerNow]

/-- A save keeps the hashes readable. -/
lemma saveNow_readable (engine : Engine) (hreadable : Readable p engine.settings.catalog keyspace)
    (hbounded : ColumnsBounded engine.settings.catalog) (hfits : RequestFits request) :
    Readable p engine.settings.catalog (saveNow p engine keyspace request).1 := by
  rcases saveNow_cases p engine keyspace request with
    ⟨hsame, -⟩ | ⟨prepared, after, entities, hprepare, happlies, hsave⟩
  · rw [hsame]
    exact hreadable
  · rw [hsave]
    exact happlies.readable hreadable hbounded hprepare hfits

/-- **No save is answered with `internal_error`.** -/
lemma saveNow_notInternal (engine : Engine) (hreadable : Readable p engine.settings.catalog keyspace)
    (hsep : TablesSeparate engine.settings.catalog) (hfits : RequestFits request) :
    (saveNow p engine keyspace request).2.code ≠ .internalError := by
  unfold saveNow
  cases hprepare : prepare p engine request with
  | error error => exact (prepare_refuses engine request).notInternal error hprepare
  | ok prepared =>
    dsimp only
    have hplanned := planCommit_notInternal hreadable hsep hprepare hfits
    cases hplan : planCommit p prepared request
        (hmget (keyspace prepared.hash) prepared.reads) with
    | error error => exact hplanned error hplan
    | ok snapshot =>
      cases snapshot with
      | replayed result =>
        obtain ⟨record, -, hreplay⟩ := planCommit_replayed hplan
        simp only [replay_code hreplay]
        decide
      | planned plan =>
        obtain ⟨documents, documents', hplanned⟩ := planCommit_planned hplan
        simp only [hplanned.commits (prepare_valid hprepare), finishCommit, checkReply, ok_bind,
          answerNow, committedResult]
        decide

/-- What a load answers when the stored document is valid. -/
lemma finishLoad_stored (prepared : PreparedLoad) (load : LoadRequest) {hash} (hstore : storedDocument hash prepared.field = .ok document)
    (hval : document.version ≠ 0 → checkDocument p document prepared.mapped = .ok ()) :
    finishLoad p prepared load (hget hash prepared.field) = .ok (
      if document.version = 0 then { code := .notFound, target := load.target }
      else {
        code := .ok
        target := load.target
        fields := selectValues prepared.selected document
        version := document.version }) := by
  unfold storedDocument at hstore
  cases hbytes : hash[prepared.field]? with
  | none =>
    rw [hbytes] at hstore
    cases hstore
    simp [finishLoad, hget, hbytes, checkReply]
  | some bytes =>
    rw [hbytes] at hstore
    by_cases hempty : bytes = []
    · simp only [if_pos hempty] at hstore
      cases hstore
      simp [finishLoad, hget, hbytes, checkReply, stringReply, hempty]
    · simp only [if_neg hempty] at hstore
      have hne := (decode_version hstore).1
      simp [finishLoad, hget, hbytes, checkReply, stringReply, hempty, hstore, hne,
        validateDocument_eq_ok.mpr (hval hne)]

/-- **No load is answered with `internal_error`.** -/
lemma loadNow_notInternal (engine : Engine) (hreadable : Readable p engine.settings.catalog keyspace)
    (hsep : TablesSeparate engine.settings.catalog) (load : LoadRequest) :
    (loadNow p engine keyspace load).code ≠ .internalError := by
  unfold loadNow
  cases hprepare : prepareLoad p engine load with
  | error error => exact (prepareLoad_refuses engine load).notInternal error hprepare
  | ok prepared =>
    simp only [prepareLoad, bind_eq_ok] at hprepare
    obtain ⟨_, -, _, -, store, hstore, mapped, hent, field, hfield, selected, -, hok⟩ := hprepare
    cases hok
    have hmap : Maps engine.settings.catalog (hashKey store) mapped :=
      ⟨_, store, _, (findStore_eq_ok hstore).1, rfl, findEntity_eq_ok.mp hent⟩
    obtain ⟨document, hdoc, hkept⟩ := hreadable.objects _ _ _ _ hmap hfield
    rw [ok_bind, finishLoad_stored _ _ hdoc (hkept.valid hsep)]
    dsimp only
    split <;> simp

/-! ## A load after a save -/

/-- A load of all fields of a record that a save names reads the field that the save writes. -/
lemma prepareLoad_of_prepare (hprepare : prepare p engine request = .ok prepared)
    {change} (hmem : (change, field) ∈ request.changes.zip prepared.fields)
    (hent : findEntity prepared.store change.target.entity = .ok mapped) :
    prepareLoad p { engine with name := prepared.store.readConnection } { target := change.target }
      = .ok { mapped, hash := prepared.hash, field, selected := mapped.fields } := by
  have hrouted := prepare_routed hprepare
  have hchg := (of_mem_zip hmem).1
  have hfield := mapM_zip (prepare_valid hprepare).changes hmem
  simp only [prepareChange, hent, ok_bind, bind_eq_ok] at hfield
  obtain ⟨-, -, hfield⟩ := hfield
  -- all targets of the request name the store of the first one
  obtain ⟨htgt, hname⟩ : validateTarget change.target = .ok () ∧
      (request.changes.head?.map fun c => c.target.store).getD [] = change.target.store := by
    have hval := hrouted.validated
    unfold validateSave at hval
    cases hchgs : request.changes with
    | nil => simp [hchgs] at hchg
    | cons first rest =>
      rw [hchgs] at hval hchg
      obtain ⟨htgt, hstore⟩ := validateChanges_target (guard_eq_ok.mp hval).2 hchg
      exact ⟨htgt, by simp [hstore]⟩
  have hload : validateLoad { target := change.target } = .ok () := by
    simp [validateLoad, htgt, validateMaskNames]
  have hstore : findStore { engine with name := prepared.store.readConnection }
      change.target.store false = .ok prepared.store := by
    rw [← hname]
    simp [findStore, SchemaCatalog.findStore, (findStore_eq_ok hrouted.store).1]
  have hcfg : checkConfig { engine with name := prepared.store.readConnection } = .ok () :=
    hrouted.config
  simp only [prepareLoad, hcfg, orInvalid_eq_ok.mpr hload, hstore, hent, hfield, selectFields,
    ok_bind, if_true, hrouted.hash]

/-- Anything but a deletion leaves a document that was validated. -/
lemma apply_valid {document' patch} (h : apply p document mapped patch = .ok document') (hne : document'.version ≠ 0) :
    checkDocument p document' mapped = .ok () := by
  obtain ⟨opened, -, hrest⟩ := bind_eq_ok.mp h
  split at hrest
  · cases hrest
    exact absurd rfl hne
  · simp only [patchDocument, invalid, guard_eq_ok, bind_eq_ok] at hrest
    obtain ⟨-, fields, -, hrest⟩ := hrest
    split at hrest
    · next hval =>
      cases hrest
      exact validateDocument_eq_ok.mp hval
    · cases hrest

end

/-- The saves of a run, each sent to the engine of some connection, one after another from a Redis
that holds nothing. -/
def runSaves (p : Platform) (settings : ServiceConfig) (saves : List (Bytes × SaveRequest)) :
    Bytes → Hash :=
  saves.foldl (fun keyspace save => (saveNow p ⟨save.1, settings⟩ keyspace save.2).1) fun _ => ∅

/-- After every run the hashes are readable. -/
lemma runSaves_readable {settings} (hbounded : ColumnsBounded settings.catalog)
    {saves} (hfits : ∀ save ∈ saves, RequestFits save.2) :
    Readable p settings.catalog (runSaves p settings saves) := by
  have hrun : ∀ keyspace, Readable p settings.catalog keyspace → Readable p settings.catalog
      (saves.foldl (fun keyspace save => (saveNow p ⟨save.1, settings⟩ keyspace save.2).1)
        keyspace) := by
    induction saves with
    | nil => exact fun keyspace h => h
    | cons save saves ih =>
      intro keyspace h
      exact ih (fun s hs => hfits s (by simp [hs])) _
        (saveNow_readable ⟨save.1, settings⟩ h hbounded (hfits save (by simp)))
  exact hrun _ (readable_empty _)

/-- **Load after save.**  Take any run of saves over a catalog without tables too wide for `decode`,
all decimals of which have canonical texts that `Decimal` accepts, and one more save.

Where entities with one table have one schema, neither that save nor any load is answered with
`internal_error`.  And if the save is answered ok under a request id that the hash did not know, then
for each of its changes that is the last one of its record and reports a version, a load of all fields
of the record, before any further save, answers ok with that version and with the canonical form of
what the applied patches produced. -/
theorem load_after_save {settings : ServiceConfig} (hbounded : ColumnsBounded settings.catalog)
    {saves : List (Bytes × SaveRequest)} (hsaves : ∀ save ∈ saves, RequestFits save.2)
    (connection : Bytes) {request : SaveRequest} (hrequest : RequestFits request)
    {keyspace after : Bytes → Hash} {result : SaveResult}
    (hkeyspace : keyspace = runSaves p settings saves)
    (hsave : saveNow p ⟨connection, settings⟩ keyspace request = (after, result)) :
    (TablesSeparate settings.catalog → result.code ≠ .internalError ∧
      ∀ name load, (loadNow p ⟨name, settings⟩ keyspace load).code ≠ .internalError) ∧
    ∀ prepared, prepare p ⟨connection, settings⟩ request = .ok prepared →
      prepared.ledger ∉ keyspace prepared.hash → result.code = .ok →
      ∃ documents documents',
        (∀ field ∈ prepared.fields,
          storedDocument (keyspace prepared.hash) field = .ok (documents field)) ∧
        applyAll p prepared.store (request.changes.zip prepared.fields) documents
          = .ok (result.entities, documents') ∧
        ∀ (k : ℕ) (change : EntityPatch) (field : Bytes) (entity : CommittedEntity),
          request.changes[k]? = some change → prepared.fields[k]? = some field →
          result.entities[k]? = some entity →
          (∀ j, k < j → prepared.fields[j]? ≠ some field) → entity.version ≠ 0 →
          ∃ mapped, findEntity prepared.store change.target.entity = .ok mapped ∧
            loadNow p ⟨prepared.store.readConnection, settings⟩ after { target := change.target } = {
              code := .ok
              target := change.target
              version := entity.version
              fields := mapped.fields.map fun column =>
                ⟨column.name, canonicalValue p (loadedValue (documents' field) column)⟩ } := by
  have hreadable : Readable p settings.catalog keyspace :=
    hkeyspace ▸ runSaves_readable hbounded hsaves
  constructor
  · intro hsep
    refine ⟨?_, fun name load => loadNow_notInternal ⟨name, settings⟩ hreadable hsep load⟩
    have hcode := saveNow_notInternal ⟨connection, settings⟩ hreadable hsep hrequest
    rwa [hsave] at hcode
  · intro prepared hprepare hfresh hcode
    rcases saveNow_cases p ⟨connection, settings⟩ keyspace request with ⟨-, hreplayed⟩ | ⟨prepared', hash, entities, hprep', happlies, hcase⟩
    · -- an ok answer without a write is a replay, and the id was not known
      rw [hsave] at hreplayed
      obtain ⟨prepared', hprep', hledger⟩ := hreplayed hcode
      rw [hprepare, Except.ok.injEq] at hprep'
      subst hprep'
      exact absurd hledger hfresh
    · rw [hprepare, Except.ok.injEq] at hprep'
      subst hprep'
      rw [hsave, Prod.mk.injEq] at hcase
      obtain ⟨rfl, rfl⟩ := hcase
      obtain ⟨documents, documents', hstore, happly, hkept, hafter⟩ :=
        happlies.documents hreadable hbounded hprepare hrequest
      refine ⟨documents, documents', hstore, happly, ?_⟩
      intro k change field entity hchg hfield hent hlast hne
      have hzip : (request.changes.zip prepared.fields)[k]? = some (change, field) := by
        rw [getElem?_zip_eq_some]
        exact ⟨hchg, hfield⟩
      have hmem := mem_of_getElem? hzip
      obtain ⟨mapped, document, hmap, hdoc, hver⟩ :=
        applyAll_last happly hzip hent fun j hj other hoth heq => by
          rw [getElem?_zip_eq_some] at hoth
          exact hlast j hj (heq ▸ hoth.2)
      obtain ⟨-, mapped', hmap', hmaps, hcheck⟩ := prepare_ready hprepare hrequest _ hmem
      rw [hmap, Except.ok.injEq] at hmap'
      subst hmap'
      refine ⟨mapped, hmap, ?_⟩
      have hread := hafter mapped change.target field hmaps hcheck.named (of_mem_zip hmem).2
      have hload := prepareLoad_of_prepare hprepare hmem hmap
      have hvalid : checkDocument p (documents' field) mapped = .ok () :=
        apply_valid hdoc (hver ▸ hne)
      have hfits := (hkept mapped _ field hmaps hcheck.named (of_mem_zip hmem).2).fields
      have hfinish := finishLoad_stored ⟨mapped, prepared.hash, field, mapped.fields⟩
        { target := change.target } hread fun _ =>
          checkDocument_canonical hvalid fun column value hval => (hfits column value hval).2
      unfold loadNow
      simp only [hload, ok_bind, update_self, hfinish]
      have hcanonical : ((documents' field).canonical p).version = entity.version := hver.symm
      simp only [hcanonical, if_neg hne, selectValues, loadedValue_canonical]

/-! ### A catalog to evaluate saves and loads on -/

namespace Sample

/-- The players alone. -/
def settings : ServiceConfig where
  catalog := SchemaCatalog.single true store (by decide +kernel)

/-- An entity in the table of the players, with a required column that players do not have. -/
def guest : EntitySchema where
  name := str "guest"
  table := str "players"
  keys := NullExample.mapped.keys
  fields := [{ name := str "badge", column := str "badge", nullable := false }]

/-- An entity with a decimal. -/
def account : EntitySchema where
  name := str "account"
  table := str "accounts"
  keys := NullExample.mapped.keys
  fields := [{ name := str "balance", column := str "balance", kind := .decimal }]

/-- Players, guests and accounts. -/
def mixedSettings : ServiceConfig where
  catalog := SchemaCatalog.single true { store with
    entities := (store.entities.insert (str "guest") guest).insert (str "account") account }
    (by decide +kernel)

/-- The record with the key that all examples use. -/
def target (entity : String) : EntityRef where
  entity := str entity
  key := [⟨str "id", .unsignedInteger 7⟩]

/-- Create the account or set its balance. -/
def deposit (balance : String) : SaveRequest where
  requestId := str "deposit"
  changes := [{
    target := target "account"
    fields := [{ name := str "balance", data := .decimal (str balance) }]
    createIfMissing := true }]

/-- One more save after a run, all on the default connection. -/
def saved (saves : List SaveRequest) (request : SaveRequest) : (Bytes → Hash) × SaveResult :=
  saveNow .integral ⟨str "default", mixedSettings⟩
    (runSaves .integral mixedSettings (saves.map fun save => (str "default", save))) request

def loaded (keyspace : Bytes → Hash) (entity : String) : LoadResult :=
  loadNow .integral ⟨str "default", mixedSettings⟩ keyspace { target := target entity }

end Sample

open Sample in
/-- Three saves that are answered ok, and what a load finds after them.  A request id that is used
again is answered with the version of its first commit, which need not be the current one.  Two
entities of one table see each other's documents.  And a decimal of seven bytes is stored as a text
that is too long to be read. -/
theorem load_after_save_differs :
    ((saved [request (str "a"), request (str "b")] (request (str "a"))).2.entities.map
        CommittedEntity.version = [1] ∧
      (saved [request (str "a"), request (str "b")] (request (str "a"))).2.code = .ok ∧
      (loaded (saved [request (str "a"), request (str "b")] (request (str "a"))).1 "player").version
        = 2) ∧
    ((saved [] (request (str "a"))).2.code = .ok ∧
      (loaded (saved [] (request (str "a"))).1 "guest").code = .internalError) ∧
    ((saved [] (deposit "1e-4096")).2.code = .ok ∧
      (saved [] (deposit "1e-4096")).2.entities.map CommittedEntity.version = [1] ∧
      (loaded (saved [] (deposit "1e-4096")).1 "account").code = .internalError) := by
  decide +kernel

namespace Sample

lemma maps_settings (h : Maps settings.catalog hash mapped) :
    mapped = NullExample.mapped := by
  obtain ⟨name, found, entity, hstore, -, hent⟩ := h
  have hfound : found = store := by
    have hlook : ((∅ : StringMap StoreSchema).insert store.name store)[name]? = some found := hstore
    rw [StringMap.lookup_insert] at hlook
    split at hlook
    · cases hlook
      rfl
    · simp at hlook
  subst hfound
  have hlook : ((∅ : StringMap EntitySchema).insert (str "player") NullExample.mapped)[entity]?
      = some mapped := hent
  rw [StringMap.lookup_insert] at hlook
  split at hlook
  · cases hlook
    rfl
  · simp at hlook

lemma columnsBounded_settings : ColumnsBounded settings.catalog := by
  intro hash table
  refine ⟨[str "id", str "score"], by decide, ?_⟩
  rintro column ⟨mapped, hmap, -, hcol⟩
  rw [maps_settings hmap] at hcol
  exact hcol

lemma tablesSeparate_settings : TablesSeparate settings.catalog := by
  intro hash mapped mapped' hmap hmap' _
  rw [maps_settings hmap, maps_settings hmap']
  exact ⟨rfl, rfl⟩

lemma request_fits (requestId : Bytes) : RequestFits (request requestId) := by
  intro change hchg
  obtain rfl := mem_singleton.mp hchg
  constructor
  · intro key hkey
    obtain rfl := mem_singleton.mp hkey
    exact fits_of_kind (by decide)
  · intro field hfield _
    obtain rfl := mem_singleton.mp hfield
    exact fits_of_kind (by decide)

end Sample

open Sample in
/-- The first save of a player, and the load after it. -/
theorem load_after_save_player :
    ColumnsBounded settings.catalog ∧ TablesSeparate settings.catalog ∧
    RequestFits (request (str "a")) ∧
    ∃ after result, saveNow .integral ⟨str "default", settings⟩ (runSaves .integral settings [])
        (request (str "a")) = (after, result) ∧ result.code ≠ .internalError ∧
      ∃ entity, result.entities[0]? = some entity ∧
        (loadNow .integral ⟨str "default", settings⟩ after { target := target "player" }).code = .ok ∧
        (loadNow .integral ⟨str "default", settings⟩ after { target := target "player" }).version
          = entity.version := by
  generalize hsave : saveNow .integral ⟨str "default", settings⟩ (runSaves .integral settings [])
    (request (str "a")) = saved
  have hcode : saved.2.code = .ok := by
    rw [← hsave]
    decide +kernel
  have hents : saved.2.entities.map CommittedEntity.version = [1] := by
    rw [← hsave]
    decide +kernel
  have hprep : ((prepare .integral ⟨str "default", settings⟩ (request (str "a"))).map
      fun prepared => (prepared.fields.length, prepared.store.readConnection)).toOption
        = some (1, str "default") := by
    decide +kernel
  obtain ⟨hinternal, hload⟩ := @load_after_save .integral settings columnsBounded_settings []
    (by simp) (str "default") _ (request_fits (str "a")) _ _ _ rfl (hsave.trans Prod.mk.eta.symm)
  refine ⟨columnsBounded_settings, tablesSeparate_settings, request_fits _, saved.1, saved.2,
    Prod.mk.eta.symm, (hinternal tablesSeparate_settings).1, ?_⟩
  cases hprepare : prepare .integral ⟨str "default", settings⟩ (request (str "a")) with
  | error error =>
    rw [hprepare] at hprep
    cases hprep
  | ok prepared =>
    rw [hprepare] at hprep
    obtain ⟨hlen, hconn⟩ := Prod.mk.inj (Option.some.inj hprep)
    obtain ⟨field, hfields⟩ := length_eq_one_iff.mp hlen
    obtain ⟨entity, hent, hver⟩ : ∃ entity, saved.2.entities = [entity] ∧
        entity.version = 1 := by
      obtain ⟨entity, hent⟩ := length_eq_one_iff.mp
        (by simpa using congrArg List.length hents)
      exact ⟨entity, hent, by simpa [hent] using hents⟩
    obtain ⟨documents, documents', -, -, hlast⟩ :=
      hload prepared hprepare (by simp [runSaves]) hcode
    obtain ⟨mapped, -, hres⟩ := hlast 0 _ field entity rfl (by simp [hfields])
      (by simp [hent]) (fun j hj => by rw [hfields, getElem?_eq_none hj]; simp)
      (by rw [hver]; decide)
    rw [hconn] at hres
    exact ⟨entity, by simp [hent], congrArg LoadResult.code hres,
      congrArg LoadResult.version hres⟩

/-- **No load finds anything corrupt while saves are going on.**  Clients of one configuration save into a Redis that
was empty, their steps interleaved in any way and any of them failing: no load of what is stored then is answered with
`internal_error`, where tables are not too wide, entities with one table have one schema and the decimals fit. -/
theorem load_during_saves {settings : ServiceConfig} (hbounded : ColumnsBounded settings.catalog)
    (hsep : TablesSeparate settings.catalog) {w₀ w : World} {events : List Event} (hinit : w₀.Initial)
    (hempty : w₀.keyspace = fun _ => ∅)
    (hcalls : ∀ i, (w₀.calls i).1.settings = settings ∧ RequestFits (w₀.calls i).2)
    (hrun : run (World.step p) w₀ events = some w) (name : Bytes) (load : LoadRequest) :
    (loadNow p ⟨name, settings⟩ w.keyspace load).code ≠ .internalError := by
  obtain ⟨-, -, order, hks⟩ := run_serial hinit hrun
  have hsaves : w.keyspace = runSaves p settings
      (order.map fun i => ((w₀.calls i).1.name, (w₀.calls i).2)) := by
    rw [hks, inTurn, hempty, runSaves, foldl_map]
    congr
    funext keyspace i
    rw [← (hcalls i).1]
  rw [hsaves]
  refine loadNow_notInternal ⟨name, settings⟩ (runSaves_readable hbounded fun save hsave => ?_) hsep load
  obtain ⟨i, -, rfl⟩ := mem_map.mp hsave
  exact (hcalls i).2

namespace Sample

/-- Clients of the configuration of the players. -/
def players : World :=
  { world with clients := fun _ => { engine := ⟨str "default", settings⟩, request := request (str "a") } }

end Sample

open Sample in
/-- A load between the execution of a commit and its acknowledgement. -/
theorem load_during_saves_player : ∃ w, run (World.step .integral) players (untilCommit ++ [.execute 0 1]) = some w ∧
    (loadNow .integral ⟨[], settings⟩ w.keyspace { target := target "player" }).code ≠ .internalError := by
  obtain ⟨w, hrun⟩ := Option.isSome_iff_exists.mp (show (run (World.step .integral) players
    (untilCommit ++ [.execute 0 1])).isSome by decide +kernel)
  have hinit : players.Initial := ⟨fun _ => rfl, fun _ _ => rfl⟩
  exact ⟨w, hrun, load_during_saves columnsBounded_settings tablesSeparate_settings hinit rfl
    (fun _ => ⟨rfl, request_fits _⟩) hrun _ _⟩

end Caf.EntityStore.Redis
