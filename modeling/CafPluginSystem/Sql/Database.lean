import CafPluginSystem.Library.Transactional
import CafPluginSystem.Sql.Save

/-!
# The database under the SQL entity store

What the statements of the entity store answer and do in an ideal database: the idempotency tables
are modelled row by row, with the request id as their key, and the tables of the entities are a
parameter that answers and does anything in response to the statements of changes.

A save that commits has executed a `Complete` log: it has reserved its request id, made each of its
changes in order and read its version, and recorded the versions.

* `Complete.replay` — what such a log does to the idempotency table, wherever it is executed.
* `history_distinct`, `history_record` — in a serial order of such logs, no two are of one request id,
  and whatever row there is was left by one of them.
-/

namespace Caf.EntityStore.Sql

open Database Transactional Function

/-! ## Statements in a database -/

/-- The tables of the entities: what a statement answers there, and what it does. -/
structure Tables where
  State : Type
  exec : Statement → State → DbResult × State

/-- A statement with the result that it gave. -/
abbrev Entry := Statement × DbResult

/-- The rows of a database.  A row of an idempotency table is found by the name of the table and a
request id, and holds a signature and a result. -/
structure Rows (State : Type) where
  entities : State
  requests : Bytes × Bytes → Option (Bytes × Bytes) := fun _ => none

/-- What a statement answers, and the rows after it. -/
def exec (tables : Tables) : Statement → Rows tables.State → DbResult × Rows tables.State
  | .createIdempotencyTable _, rows => ({ ok := true }, rows)
  | .reserveRequest table requestId signature, rows =>
    match rows.requests (table, requestId) with
    | some _ => ({ ok := true, affected := 0 }, rows)
    | none => ({ ok := true, affected := 1 }, { rows with
        requests := Function.update rows.requests (table, requestId) (some (signature, [])) })
  | .loadRequestRecord table requestId, rows =>
    match rows.requests (table, requestId) with
    | none => ({ ok := true }, rows)
    | some (signature, data) => ({ ok := true, rows := [[signature, data]] }, rows)
  | .finishRequestRecord table requestId data, rows =>
    match rows.requests (table, requestId) with
    | none => ({ ok := true, affected := 0 }, rows)
    | some (signature, _) => ({ ok := true, affected := 1 }, { rows with
        requests := Function.update rows.requests (table, requestId) (some (signature, data)) })
  | statement, rows =>
    ((tables.exec statement rows.entities).1,
      { rows with entities := (tables.exec statement rows.entities).2 })

/-- The statements that changes consist of. -/
def Statement.ofChange : Statement → Bool
  | .update _ _ | .insert _ _ | .deleteEntity _ _ | .currentVersion _ _ => true
  | _ => false

lemma exec_requests {tables statement} (h : statement.ofChange = true)
    (rows : Rows tables.State) : (exec tables statement rows).2.requests = rows.requests := by
  cases statement with
  | createIdempotencyTable _ | reserveRequest _ _ _ | loadRequestRecord _ _
  | finishRequestRecord _ _ _ => cases h
  | update _ _ | insert _ _ | deleteEntity _ _ | currentVersion _ _ => rfl

/-! ## What a save executes -/

/-- What a save is about. -/
structure Job where
  request : SaveRequest
  store : StoreSchema
  schemas : List EntitySchema
  signature : Bytes

def SaveContext.job (c : SaveContext) : Job := ⟨c.request, c.store, c.schemas, c.signature⟩

/-- The row of the idempotency table that a save is about. -/
def Job.slot (job : Job) : Bytes × Bytes := (job.store.idempotencyTable, job.request.requestId)

def Job.changes (job : Job) : List (EntityPatch × EntitySchema) :=
  job.request.changes.zip job.schemas

/-- The statements that have written the row of a change, without the query of its version. -/
inductive Written (change : EntityPatch) (schema : EntitySchema) : List Entry → Prop
  | inserted {result : DbResult} (hop : change.operation = .insert) (hok : result.ok = true)
      (haffected : result.affected ≠ 0) : Written change schema [(.insert schema change, result)]
  | updated {result : DbResult} (hop : change.operation ≠ .insert)
      (hdelete : change.operation ≠ .deleteEntity) (hok : result.ok = true)
      (haffected : 0 < result.affected) : Written change schema [(.update schema change, result)]
  | created {result result' : DbResult} (hop : change.operation ≠ .insert)
      (hcreate : SaveContext.createsMissing change) (hok : result.ok = true)
      (haffected : ¬0 < result.affected) (hok' : result'.ok = true)
      (haffected' : result'.affected ≠ 0) :
      Written change schema [(SaveContext.firstStatement schema change, result),
        (.insert schema change, result')]

/-- The statements of one change, and the version that it got. -/
inductive ChangeLog (change : EntityPatch) (schema : EntitySchema) : UInt64 → List Entry → Prop
  | deleted {result : DbResult} (hop : change.operation = .deleteEntity) (hok : result.ok = true)
      (haffected : 0 < result.affected) :
      ChangeLog change schema 0 [(.deleteEntity schema change, result)]
  | written {entries : List Entry} {result : DbResult} {version : UInt64}
      (h : Written change schema entries) (hok : result.ok = true)
      (hversion : SaveContext.versionCell result = some version) :
      ChangeLog change schema version
        (entries ++ [(.currentVersion schema change.target, result)])

/-- The statements of some changes, one after another, and the versions that they got. -/
inductive ChangesLog : List (EntityPatch × EntitySchema) → List UInt64 → List Entry → Prop
  | nil : ChangesLog [] [] []
  | snoc {changes : List (EntityPatch × EntitySchema)} {versions : List UInt64}
      {log entries : List Entry} {change : EntityPatch} {schema : EntitySchema} {version : UInt64}
      (hlog : ChangesLog changes versions log) (hentries : ChangeLog change schema version entries) :
      ChangesLog (changes ++ [(change, schema)]) (versions ++ [version]) (log ++ entries)

/-- The statement that reserves the request id. -/
def Job.reserve (job : Job) : Statement :=
  .reserveRequest job.store.idempotencyTable job.request.requestId job.signature

/-- The statement that records the versions. -/
def Job.record (job : Job) (versions : List UInt64) : Statement :=
  .finishRequestRecord job.store.idempotencyTable job.request.requestId (encodeVersions versions)

/-- The request id is reserved, and some of the changes are made. -/
def Made (job : Job) (changes : List (EntityPatch × EntitySchema)) (versions : List UInt64)
    (log : List Entry) : Prop :=
  ∃ result entries, log = (job.reserve, result) :: entries ∧ result.ok = true ∧
    result.affected ≠ 0 ∧ ChangesLog changes versions entries

/-- **What a save has executed before it commits.** -/
def Complete (job : Job) (versions : List UInt64) (log : List Entry) : Prop :=
  ∃ made result, log = made ++ [(job.record versions, result)] ∧
    Made job job.changes versions made ∧ result.ok = true ∧ result.affected = 1

lemma Written.ofChange {change schema entries}
    (h : Written change schema entries) : ∀ entry ∈ entries, entry.1.ofChange = true := by
  have hfirst : (SaveContext.firstStatement schema change).ofChange = true := by
    unfold SaveContext.firstStatement
    split <;> rfl
  cases h with
  | inserted | updated => simp [Statement.ofChange]
  | created =>
    intro entry hentry
    rcases List.mem_cons.mp hentry with rfl | hentry
    · exact hfirst
    · obtain rfl := List.mem_singleton.mp hentry
      rfl

variable {versions : List UInt64} {log : List Entry} {history : List Commit}

lemma ChangesLog.ofChange {changes} (h : ChangesLog changes versions log) :
    ∀ entry ∈ log, entry.1.ofChange = true := by
  induction h with
  | nil => simp
  | snoc _ hents ih =>
    intro entry hentry
    rcases List.mem_append.mp hentry with hlog | hlast
    · exact ih entry hlog
    · cases hents with
      | deleted =>
        obtain rfl := List.mem_singleton.mp hlast
        rfl
      | written h =>
        rcases List.mem_append.mp hlast with hwritten | hquery
        · exact h.ofChange entry hwritten
        · obtain rfl := List.mem_singleton.mp hquery
          rfl

lemma ChangesLog.length {changes}
    (h : ChangesLog changes versions log) : versions.length = changes.length := by
  induction h with
  | nil => rfl
  | snoc _ _ ih => simp [ih]

variable {job : Job}

section

variable (h : Complete job versions log)
include h

lemma Complete.length : versions.length = job.changes.length := by
  obtain ⟨made, -, -, ⟨-, entries, -, -, -, hchgs⟩, -⟩ := h
  exact hchgs.length

/-- The log of a commit tells the versions. -/
lemma Complete.versions_eq {versions'} (h' : Complete job versions' log) : versions = versions' := by
  refine encodeVersions_injective (h.length.trans h'.length.symm) ?_
  obtain ⟨made, result, hlog, -⟩ := h
  obtain ⟨made', result', hlog', -⟩ := h'
  have hlast : (job.record versions, result) = (job.record versions', result') :=
    (List.append_inj' (hlog.symm.trans hlog') rfl).2 |> List.singleton_inj.mp
  have hrec : job.record versions = job.record versions' := congrArg Prod.fst hlast
  simpa [Job.record] using hrec

/-- **What a complete log does**, wherever it is executed: the request id was not there, and its row
holds the signature and the versions afterwards.  No other row of an idempotency table changes. -/
lemma Complete.replay {tables} {rows rows'} (hreplay : replay (exec tables) log rows = some rows') :
    rows.requests job.slot = none ∧ rows'.requests =
      update rows.requests job.slot (some (job.signature, encodeVersions versions)) := by
  obtain ⟨made, recorded, rfl, ⟨reserved, entries, rfl, -, haff, hchgs⟩, -⟩ := h
  obtain ⟨rows₂, hmade, hrec⟩ := replay_append.mp hreplay
  obtain ⟨hreserved, hents⟩ := replay_cons.mp hmade
  obtain ⟨-, hlast⟩ := replay_cons.mp hrec
  cases hlast
  -- the request id was free, or the reservation would have affected no row
  have hfree : rows.requests job.slot = none := by
    cases hrow : rows.requests job.slot with
    | none => rfl
    | some row =>
      rw [Job.slot] at hrow
      simp only [Job.reserve, exec, hrow] at hreserved
      rw [← hreserved] at haff
      exact absurd rfl haff
  have hafter : (exec tables job.reserve rows).2.requests =
      update rows.requests job.slot (some (job.signature, [])) := by
    rw [Job.slot] at hfree
    simp only [Job.reserve, exec, hfree, Job.slot]
  have hkept : rows₂.requests = (exec tables job.reserve rows).2.requests :=
    replay_invariant (I := fun r => r.requests = (exec tables job.reserve rows).2.requests)
      (fun entry hentry r hr => (exec_requests (hchgs.ofChange entry hentry) r).trans hr) rfl
      hents
  refine ⟨hfree, ?_⟩
  have hrow : rows₂.requests job.slot = some (job.signature, []) := by
    rw [hkept, hafter, update_self]
  rw [Job.slot] at hrow
  simp only [Job.record, exec, hrow]
  rw [hkept, hafter, Job.slot, update_idem]

end

/-! ## Serial orders of complete logs -/

/-- The tag of a transaction: the save that it belongs to, by its store and its number there, what that
save is about, and the key that `BEGIN` was given. -/
structure Origin where
  owner : ℕ × ℕ
  job : Job
  key : Bytes

/-- The save has made all its changes, and recorded these versions. -/
abbrev Commit := Transaction Origin Statement DbResult

/-- The transaction is a whole save. -/
def Whole (commit : Commit) : Prop := ∃ versions, Complete commit.tag.job versions commit.log

variable {tables : Tables}

section Serial

variable (hwhole : ∀ commit ∈ history, Whole commit) {rows rows' : Rows tables.State}
  (h : replay (exec tables) (Transactional.Database.statements history) rows = some rows')
variable {slot : Bytes × Bytes}

include hwhole h

/-- A row stays as it is. -/
lemma history_keeps {row} (hrow : rows.requests slot = some row) :
    rows'.requests slot = some row ∧ ∀ commit ∈ history, commit.tag.job.slot ≠ slot := by
  induction history generalizing rows with
  | nil =>
    cases h
    exact ⟨hrow, by simp⟩
  | cons commit history ih =>
    obtain ⟨rows₁, hcommit, hrest⟩ := Transactional.Database.replay_statements_cons.mp h
    obtain ⟨versions, hcomp⟩ := hwhole commit (by simp)
    obtain ⟨hfree, hreqs⟩ := hcomp.replay hcommit
    have hne : commit.tag.job.slot ≠ slot := by
      rintro rfl
      rw [hfree] at hrow
      cases hrow
    have hrow₁ : rows₁.requests slot = some row := by
      rw [hreqs, update_of_ne (Ne.symm hne)]
      exact hrow
    obtain ⟨hkept, hoth⟩ := ih (fun c hc => hwhole c (by simp [hc])) hrest hrow₁
    refine ⟨hkept, ?_⟩
    rintro c hc
    rcases List.mem_cons.mp hc with rfl | hc
    · exact hne
    · exact hoth c hc

/-- **No two commits are of one request id.** -/
theorem history_distinct :
    history.Pairwise fun a b => a.tag.job.slot ≠ b.tag.job.slot := by
  induction history generalizing rows with
  | nil => exact .nil
  | cons commit history ih =>
    obtain ⟨rows₁, hcommit, hrest⟩ := Transactional.Database.replay_statements_cons.mp h
    obtain ⟨versions, hcomp⟩ := hwhole commit (by simp)
    obtain ⟨-, hreqs⟩ := hcomp.replay hcommit
    have hwhole' : ∀ c ∈ history, Whole c := fun c hc => hwhole c (by simp [hc])
    have hrow : rows₁.requests commit.tag.job.slot
        = some (commit.tag.job.signature, encodeVersions versions) := by
      rw [hreqs, update_self]
    refine .cons (fun c hc heq => ?_) (ih hwhole' hrest)
    exact (history_keeps hwhole' hrest hrow).2 c hc heq.symm

/-- **Every row was left by a commit**, with its signature and its versions. -/
theorem history_record (hempty : ∀ slot, rows.requests slot = none) {signature data}
    (hrow : rows'.requests slot = some (signature, data)) :
    ∃ commit ∈ history, commit.tag.job.slot = slot ∧ commit.tag.job.signature = signature ∧
      ∃ versions, Complete commit.tag.job versions commit.log ∧ data = encodeVersions versions := by
  suffices hany : rows.requests slot = some (signature, data) ∨ ∃ commit ∈ history,
      commit.tag.job.slot = slot ∧ commit.tag.job.signature = signature ∧
      ∃ versions, Complete commit.tag.job versions commit.log ∧ data = encodeVersions versions by
    rcases hany with hrow | hcommit
    · rw [hempty] at hrow
      cases hrow
    · exact hcommit
  clear hempty
  induction history generalizing rows with
  | nil =>
    cases h
    exact .inl hrow
  | cons commit history ih =>
    obtain ⟨rows₁, hcommit, hrest⟩ := Transactional.Database.replay_statements_cons.mp h
    obtain ⟨versions, hcomp⟩ := hwhole commit (by simp)
    obtain ⟨-, hreqs⟩ := hcomp.replay hcommit
    rcases ih (fun c hc => hwhole c (by simp [hc])) hrest with hrow₁ | ⟨c, hc, hfound⟩
    · rw [hreqs] at hrow₁
      by_cases hslot : slot = commit.tag.job.slot
      · subst hslot
        rw [update_self, Option.some.injEq, Prod.mk.injEq] at hrow₁
        exact .inr ⟨commit, by simp, rfl, hrow₁.1, versions, hcomp, hrow₁.2.symm⟩
      · rw [update_of_ne hslot] at hrow₁
        exact .inl hrow₁
    · exact .inr ⟨c, by simp [hc], hfound⟩

end Serial

end Caf.EntityStore.Sql
