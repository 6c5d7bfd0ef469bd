import CafPluginSystem.Sql.World

/-!
# How far a save is

The invariant of one save against the database and the answers to its messages.  It says what the
statements executed in the transaction of the save so far are, whether the last message of the save was
handled or not (`Progress`, `Live`); that a transaction whose `COMMIT` was sent, however long ago, has
executed a complete save and has no statement outstanding (`SaveInv.closed`); and that whoever was
answered ok can point to a commit (`Evidence`).

This module is about what the save does; `Sql.Handling` is about what the database does.

* `SaveInv.startSave`, `SaveInv.retry`, `SaveInv.exit` — the invariant when an attempt starts or ends.
* `SaveInv.respond` — the invariant when a reply arrives, whatever the save waits for.
-/

namespace Caf.EntityStore.Sql

open Database DecimalText SaveContext List

variable {tables : Tables}
variable {t : UInt64}

/-! ## What a save knows -/

/-- A commit of the request id with the signature, and the result that a save reports of it. -/
def Evidence (db : SqlDatabase tables) (job : Job) (result : SaveResult) : Prop :=
  ∃ commit ∈ db.history, ∃ versions, commit.tag.job.slot = job.slot ∧
    commit.tag.job.signature = job.signature ∧ Complete commit.tag.job versions commit.log ∧
    versions.length = job.request.changes.length ∧ result = savedResult job.request versions

/-- The message is part of the transaction. -/
def Message.Mentions (message : Message) (t : UInt64) : Prop :=
  (∃ statement, message = .execute t statement) ∨ message = .commit t

/-- The statement that a save waits for, and the log of its transaction without it. -/
inductive Progress (c : SaveContext) : Statement → List Entry → Prop
  | reserving (hstage : c.stage = .reserving) (hindex : c.changeIndex = 0) (hversions : c.versions = []) :
      Progress c c.job.reserve []
  | replaying {result : DbResult} (hstage : c.stage = .replaying) (haffected : result.affected = 0) :
      Progress c (.loadRequestRecord c.store.idempotencyTable c.request.requestId)
        [(c.job.reserve, result)]
  | first {change : EntityPatch} {schema : EntitySchema} {log : List Entry}
      (hstage : c.stage = firstStage change.operation)
      (hchange : c.change? = some (change, schema))
      (hmade : Made c.job (c.job.changes.take c.changeIndex) c.versions log) :
      Progress c (firstStatement schema change) log
  | creating {change : EntityPatch} {schema : EntitySchema} {log : List Entry} {result : DbResult}
      (hstage : c.stage = .inserting) (hchange : c.change? = some (change, schema))
      (hmade : Made c.job (c.job.changes.take c.changeIndex) c.versions log)
      (hop : change.operation ≠ .insert) (hcreate : createsMissing change)
      (hok : result.ok = true) (haffected : ¬0 < result.affected) :
      Progress c (.insert schema change)
        (log ++ [(firstStatement schema change, result)])
  | reading {change : EntityPatch} {schema : EntitySchema} {log entries : List Entry}
      (hstage : c.stage = .readingVersion) (hchange : c.change? = some (change, schema))
      (hmade : Made c.job (c.job.changes.take c.changeIndex) c.versions log)
      (hwritten : Written change schema entries) :
      Progress c (.currentVersion schema change.target) (log ++ entries)
  | checking {statement : Statement} {log : List Entry} (hstage : c.stage = .checking) :
      Progress c statement log
  | recording {log : List Entry} (hstage : c.stage = .recording)
      (hmade : Made c.job c.job.changes c.versions log) : Progress c (c.job.record c.versions) log

/-- The save waits for a statement of its transaction.  Its earlier statements were handled, and the
log of the transaction, as long as it runs, is the one of `Progress`. -/
structure Executing (db : SqlDatabase tables) (out : ℕ → Option DbResult) (c : SaveContext)
    (messages : List Message) (statement : Statement) (log : List Entry) : Prop where
  sent : c.sent = messages ++ [.execute c.transaction statement]
  progress : Progress c statement log
  earlier : ∀ n s, messages[n]? = some (.execute c.transaction s) → (out n).isSome
  uncommitted : .commit c.transaction ∉ c.sent
  waiting : out messages.length = none →
    ∀ tx, db.status c.transaction = .running tx → tx.log = log
  replied : ∀ reply, out messages.length = some reply → reply.ok = true →
    ∀ tx, db.status c.transaction = .running tx → tx.log = log ++ [(statement, reply)]
  record : c.stage = .replaying → ∀ reply, out messages.length = some reply → reply.ok = true →
    ∀ signature data, recordRow reply = some (signature, data) →
      ∃ commit ∈ db.history, commit.tag.job.slot = c.job.slot ∧
        commit.tag.job.signature = signature ∧
        ∃ versions, Complete commit.tag.job versions commit.log ∧ data = encodeVersions versions

/-- What is known of a save that is not answered, by what it waits for. -/
inductive Live (db : SqlDatabase tables) (out : ℕ → Option DbResult) (o : ℕ × ℕ) (c : SaveContext) :
    Prop
  | idle (hstage : c.stage = .queued ∨ c.stage = .delayed)
  | creating (hstage : c.stage = .creatingTable) (hindex : c.changeIndex = 0)
      (hversions : c.versions = [])
  | failing {failed : SaveResult} (hstage : c.stage = .rollingBack failed) (hcode : failed.code ≠ .ok)
  | replayed {result : SaveResult} (hstage : c.stage = .rollingBackReplay result)
      (hevidence : Evidence db c.job result)
  | beginning {messages : List Message} {connection key : Bytes} (hstage : c.stage = .beginning)
      (hindex : c.changeIndex = 0) (hversions : c.versions = [])
      (hsent : c.sent = messages ++ [.begin connection key])
      (htoken : ∀ reply t, out messages.length = some reply → reply.ok = true →
        uint64OfText? reply.insertId = some t →
        (db.status t).tag?.map Origin.owner = some o ∧ (∀ message ∈ c.sent, ¬message.Mentions t) ∧
        ∀ tx, db.status t = .running tx → tx.log = [])
  | executing {messages : List Message} {statement : Statement} {log : List Entry}
      (h : Executing db out c messages statement log)
  | committing {messages : List Message} (hstage : c.stage = .committing)
      (hsent : c.sent = messages ++ [.commit c.transaction])
      (hcomplete : ∀ tx, db.status c.transaction = .running tx → Complete c.job c.versions tx.log)
      (hreplied : ∀ reply, out messages.length = some reply → reply.ok = true →
        Evidence db c.job (savedResult c.request c.versions))

/-- The invariant of one save, against the database and the answers to its messages. -/
structure SaveInv (db : SqlDatabase tables) (out : ℕ → Option DbResult) (o : ℕ × ℕ) (c : SaveContext) :
    Prop where
  unsent : ∀ n, c.sent.length ≤ n → out n = none
  schemas : c.schemas.length = c.request.changes.length
  owns : ∀ message ∈ c.sent, ∀ t, message.Mentions t → (db.status t).tag?.map Origin.owner = some o
  closed : ∀ t, .commit t ∈ c.sent →
    (∀ n s, c.sent[n]? = some (.execute t s) → (out n).isSome) ∧
      ∀ tx, db.status t = .running tx → ∃ versions, Complete c.job versions tx.log
  live : c.answer = none → Live db out o c
  answered : ∀ result, c.answer = some result → result.code = .ok → Evidence db c.job result

/-! ## Sending -/

lemma SameSave.job {c c'} (h : SameSave c c') : c'.job = c.job := by
  simp [SaveContext.job, h.request, h.store, h.schemas, h.signature]

lemma Message.Mentions.execute {t' statement} (h : (Message.execute t' statement).Mentions t) : t' = t := by
  rcases h with ⟨_, h⟩ | h
  · cases h
    rfl
  · cases h

lemma Message.Mentions.commit {t'} (h : (Message.commit t').Mentions t) : t' = t := by
  rcases h with ⟨_, h⟩ | h
  · cases h
  · cases h
    rfl

section Sending

variable {db : SqlDatabase tables} {out : ℕ → Option DbResult} {o : ℕ × ℕ} {c c' : SaveContext}
variable {reply : DbResult} {message : Message} {change : EntityPatch} {versions : List UInt64}
  {version : UInt64}

/-- The save becomes another context of the same save that has sent nothing more. -/
lemma SaveInv.unchanged (h : SaveInv db out o c) (hsame : SameSave c c') (hsent : c'.sent = c.sent)
    (hlive : c'.answer = none → Live db out o c')
    (hanswered : ∀ result, c'.answer = some result → result.code = .ok → Evidence db c'.job result) :
    SaveInv db out o c' where
  unsent := fun n hn => h.unsent n (hsent ▸ hn)
  schemas := by rw [hsame.schemas, hsame.request, h.schemas]
  owns := fun message hmsg => h.owns message (hsent ▸ hmsg)
  closed := fun t ht => by
    obtain ⟨hhandled, hcomp⟩ := h.closed t (hsent ▸ ht)
    refine ⟨fun n s hn => hhandled n s (hsent ▸ hn), fun tx htx => ?_⟩
    rw [hsame.job]
    exact hcomp tx htx
  live := hlive
  answered := hanswered

/-- The save is answered, with evidence if the answer is ok. -/
lemma SaveInv.finished (h : SaveInv db out o c) {result} (hev : result.code = .ok → Evidence db c.job result) :
    SaveInv db out o { c with answer := some result } := by
  refine h.unchanged ⟨rfl, rfl, rfl, rfl, rfl⟩ rfl (fun hnone => by cases hnone) ?_
  rintro result' hres hok
  cases hres
  exact hev hok

section

variable (h : SaveInv db out o c) (hsame : SameSave c c') (hsent : c'.sent = c.sent ++ [message])
  (hans : c'.answer = none)
include h hsame hsent hans

/-- The save sends a message.  One that belongs to a transaction belongs to one of its own, no
statement is sent after the `COMMIT` of its transaction, and no `COMMIT` before all is done. -/
lemma SaveInv.send (howns : ∀ t, message.Mentions t → (db.status t).tag?.map Origin.owner = some o)
    (hstmt : ∀ t s, message = .execute t s → .commit t ∉ c.sent)
    (hcommit : ∀ t, message = .commit t →
      (∀ n s, c.sent[n]? = some (.execute t s) → (out n).isSome) ∧
        ∀ tx, db.status t = .running tx → ∃ versions, Complete c.job versions tx.log)
    (hlive : Live db out o c') : SaveInv db out o c' where
  unsent := fun n hn => by
    rw [hsent, length_append] at hn
    exact h.unsent n (by omega)
  schemas := by rw [hsame.schemas, hsame.request, h.schemas]
  owns := fun m hm t ht => by
    rw [hsent] at hm
    rcases mem_append.mp hm with hm | hm
    · exact h.owns m hm t ht
    · obtain rfl := mem_singleton.mp hm
      exact howns t ht
  closed := fun t ht => by
    rw [hsent] at ht
    -- a statement of this transaction is an old one, in either case
    have hold : ∀ (n : ℕ) (s : Statement), c'.sent[n]? = some (.execute t s) →
        c.sent[n]? = some (.execute t s) := by
      intro n s hn
      rw [hsent] at hn
      by_cases hlt : n < c.sent.length
      · rwa [getElem?_append_left hlt] at hn
      · rw [getElem?_append_right (by omega)] at hn
        have hmsg : message = .execute t s :=
          (mem_singleton.mp (mem_of_getElem? hn)).symm
        rcases mem_append.mp ht with ht | ht
        · exact absurd ht (hstmt t s hmsg)
        · cases (mem_singleton.mp ht).trans hmsg
    have hclosed : (∀ n s, c.sent[n]? = some (.execute t s) → (out n).isSome) ∧
        ∀ tx, db.status t = .running tx → ∃ versions, Complete c.job versions tx.log := by
      rcases mem_append.mp ht with ht | ht
      · exact h.closed t ht
      · exact hcommit t (mem_singleton.mp ht).symm
    refine ⟨fun n s hn => hclosed.1 n s (hold n s hn), fun tx htx => ?_⟩
    rw [hsame.job]
    exact hclosed.2 tx htx
  live := fun _ => hlive
  answered := fun result hres => by
    rw [hans] at hres
    cases hres

/-- A message that is not part of a transaction. -/
lemma SaveInv.send_outside (hmentions : ∀ t, ¬message.Mentions t) (hlive : Live db out o c') : SaveInv db out o c' := by
  refine h.send hsame hsent hans (fun t ht => absurd ht (hmentions t)) (fun t s hs => ?_)
    (fun t ht => ?_) hlive
  · exact absurd (.inl ⟨s, hs⟩) (hmentions t)
  · exact absurd (.inr ht) (hmentions t)

end

variable {c₀ : SaveContext} {n : Next} {stage : Stage} {log entries : List Entry}
  {schema : EntitySchema} {messages : List Message} {statement : Statement}

section

variable (h : SaveInv db out o c)
include h

/-- An attempt is given up, by the save or by a context `c₀` of it that has sent the same. -/
lemma SaveInv.abandoned (hn : Abandoned c₀ n)
    (hsame : SameSave c c₀) (hsent₀ : c₀.sent = c.sent) (hans : c₀.answer = none) :
    SaveInv db out o n.context := by
  have hout := hn.outcome
  rw [hsent₀] at hout
  have hsame' := hsame.trans hn.same
  cases n with
  | waiting c' =>
    obtain ⟨hans', ⟨hstage, hsent⟩ | ⟨failed, hcode, hstage, -, hsent⟩⟩ := hout
    · refine h.unchanged hsame' hsent (fun _ => .idle (.inr hstage)) fun result hres => ?_
      cases (hans'.trans hans).symm.trans hres
    · refine h.send_outside hsame' hsent (hans'.trans hans) ?_ (.failing hstage hcode)
      rintro t (⟨s, hs⟩ | hs) <;> cases hs
  | finished c' result =>
    obtain ⟨hsent, hcode, -⟩ := hout
    refine h.unchanged hsame' hsent (fun hnone => by cases hnone) ?_
    rintro result' hres hok
    cases hres
    exact absurd hok hcode

lemma SaveInv.givesUp (hans : c.answer = none) (hn : Abandoned c n) :
    SaveInv db out o n.context :=
  h.abandoned hn (SameSave.refl c) rfl hans

/-- A save that starts an attempt. -/
lemma SaveInv.startSave (hans : c.answer = none) (attempts : ℕ)
    (clock : Clock) (key : Bytes) : SaveInv db out o (c.startSave attempts clock key).context := by
  rcases c.startSave_cases attempts clock key with hn | hn
  · exact h.abandoned hn ⟨rfl, rfl, rfl, rfl, rfl⟩ rfl hans
  · refine h.send_outside { hn.same with } hn.sent (hn.answer.trans hans) ?_
      (.creating hn.stage hn.changeIndex hn.versions)
    rintro t (⟨s, hs⟩ | hs) <;> cases hs

lemma SaveInv.retry (hans : c.answer = none) (attempts : ℕ) (clock : Clock) (backend : Bool) (key : Bytes) :
    SaveInv db out o (c.retry attempts clock backend key).context := by
  rcases c.retry_cases attempts clock backend key with hn | ⟨-, hn⟩
  · exact h.givesUp hans hn
  · rw [hn]
    exact h.startSave hans attempts clock key

lemma SaveInv.exit : SaveInv db out o c.exit := by
  refine h.finished fun hok => ?_
  simp only [saveError] at hok
  split at hok <;> cases hok

end

/-! ## Replies -/

lemma Proceeds.job (h : Proceeds c₀ n stage message) : n.context.job = c₀.job :=
  SameSave.job h.same

lemma Proceeds.change? (h : Proceeds c₀ n stage message) : n.context.change? = c₀.change? := by
  simp [SaveContext.change?, h.same.request, h.same.schemas, h.changeIndex]

/-- The changes that are made stay made. -/
lemma Proceeds.made (h : Proceeds c₀ n stage message)
    (hmade : Made c₀.job (c₀.job.changes.take c₀.changeIndex) c₀.versions log) :
    Made n.context.job (n.context.job.changes.take n.context.changeIndex) n.context.versions log := by
  rwa [h.job, h.changeIndex, h.versions]

/-- One more change is made. -/
lemma Made.snoc {job k}
    (h : Made job (job.changes.take k) versions log) (hchg : job.changes[k]? = some (change, schema))
    (hents : ChangeLog change schema version entries) :
    Made job (job.changes.take (k + 1)) (versions ++ [version]) (log ++ entries) := by
  obtain ⟨result, made, rfl, hok, haff, hmade⟩ := h
  refine ⟨result, made ++ entries, rfl, hok, haff, ?_⟩
  rw [take_add_one, hchg]
  exact hmade.snoc hents

/-- The change loop goes on from the changes that are made. -/
lemma GoesOn.progress (h : GoesOn c₀ n) (hmade : Made c₀.job (c₀.job.changes.take c₀.changeIndex) c₀.versions log) :
    ∃ stage statement, Proceeds c₀ n stage (.execute c₀.transaction statement) ∧
      Progress n.context statement log := by
  unfold GoesOn at h
  split at h
  · next hnone =>
    have hall : c₀.job.changes.take c₀.changeIndex = c₀.job.changes :=
      take_of_length_le (getElem?_eq_none_iff.mp hnone)
    rw [hall, ← h.job, ← h.versions] at hmade
    refine ⟨_, _, h, ?_⟩
    have hrec := Progress.recording h.stage hmade
    rwa [h.job, h.versions] at hrec
  · next change schema hsome =>
    exact ⟨_, _, h, .first h.stage (h.change?.trans hsome) (h.made hmade)⟩

/-- The last statement was answered ok, and every statement of the transaction is handled. -/
lemma Executing.handled (h : Executing db out c messages statement log)
    (hrep : out messages.length = some reply) (n : ℕ) (s : Statement)
    (hn : c.sent[n]? = some (.execute c.transaction s)) : (out n).isSome := by
  rw [h.sent] at hn
  by_cases hlt : n < messages.length
  · rw [List.getElem?_append_left hlt] at hn
    exact h.earlier n s hn
  · have hbound := (List.getElem?_eq_some_iff.mp hn).1
    rw [List.length_append, List.length_singleton] at hbound
    have heq : n = messages.length := by omega
    rw [heq, hrep]
    rfl

/-- The transaction of a save that waits for a statement is its own. -/
lemma Executing.owned (h : Executing db out c messages statement log) (hinv : SaveInv db out o c) :
    (db.status c.transaction).tag?.map Origin.owner = some o := by
  refine hinv.owns (.execute c.transaction statement) ?_ _ (.inl ⟨statement, rfl⟩)
  rw [h.sent]
  simp

/-- The save sends a statement of a transaction of its own.  The earlier ones are handled, and their log is
known. -/
lemma SaveInv.execute (h : SaveInv db out o c) (hsame : SameSave c c')
    (hsent : c'.sent = c.sent ++ [.execute t statement]) (hans : c'.answer = none)
    (htx : c'.transaction = t) (howner : (db.status t).tag?.map Origin.owner = some o)
    (huncommitted : .commit t ∉ c.sent)
    (hhandled : ∀ k s, c.sent[k]? = some (.execute t s) → (out k).isSome)
    (hlog : ∀ tx, db.status t = .running tx → tx.log = log) (hprog : Progress c' statement log) :
    SaveInv db out o c' := by
  subst htx
  have hunsent : out c.sent.length = none := h.unsent _ le_rfl
  have hexec : Executing db out c' c.sent statement log := by
    refine ⟨hsent, hprog, hhandled, ?_, fun _ => hlog, ?_, ?_⟩
    · rw [hsent, mem_append, not_or]
      exact ⟨huncommitted, by simp⟩
    · intro reply hrep
      cases hunsent.symm.trans hrep
    · intro _ reply hrep
      cases hunsent.symm.trans hrep
  refine h.send hsame hsent hans ?_ ?_ ?_ (.executing hexec)
  · intro t ht
    rw [← ht.execute]
    exact howner
  · intro t s hs
    cases hs
    exact huncommitted
  · intro t ht
    cases ht

section

variable (h : SaveInv db out o c) (hexec : Executing db out c messages statement log)
  (hrep : out messages.length = some reply) (hok : reply.ok = true)
include h hexec hrep hok

/-- **The next statement.**  The log of the transaction has grown by the statement that was answered. -/
lemma SaveInv.next {statement'} (hn : Proceeds c₀ n stage (.execute c₀.transaction statement'))
    (hprog : Progress n.context statement' (log ++ [(statement, reply)]))
    (honward : Onward c c₀) (htx : c₀.transaction = c.transaction)
    (hans : c.answer = none) : SaveInv db out o n.context := by
  have hsent := hn.sent
  rw [htx, honward.sent] at hsent
  exact h.execute (honward.same.trans hn.same) hsent
    ((hn.answer.trans honward.answer).trans hans) (hn.transaction.trans htx)
    (hexec.owned h) hexec.uncommitted (hexec.handled hrep) (hexec.replied reply hrep hok)
    hprog

/-- The change loop goes on after a statement. -/
lemma SaveInv.goesOn (hn : GoesOn c₀ n) (hmade : Made c₀.job (c₀.job.changes.take c₀.changeIndex) c₀.versions
      (log ++ [(statement, reply)])) (honward : Onward c c₀) (htx : c₀.transaction = c.transaction)
    (hans : c.answer = none) : SaveInv db out o n.context := by
  obtain ⟨stage, statement', hproceeds, hprog⟩ := GoesOn.progress hn hmade
  exact h.next hexec hrep hok hproceeds hprog honward htx hans

end

/-- The version of a change is known, and the loop goes on. -/
lemma SaveInv.advance (h : SaveInv db out o c)
    (hexec : Executing db out c messages statement (log ++ entries)) (hrep : out messages.length = some reply) (hok : reply.ok = true)
    (hn : GoesOn (c.advance version) n) (hchg : c.change? = some (change, schema))
    (hmade : Made c.job (c.job.changes.take c.changeIndex) c.versions log)
    (hents : ChangeLog change schema version (entries ++ [(statement, reply)]))
    (hans : c.answer = none) : SaveInv db out o n.context := by
  refine h.goesOn hexec hrep hok hn ?_ (onward_advance version) rfl hans
  rw [append_assoc]
  exact hmade.snoc hchg hents

/-- The save waits for a statement of its transaction. -/
def Stage.inTransaction : Stage → Bool
  | .reserving | .replaying | .changing | .checking | .inserting | .readingVersion | .recording => true
  | _ => false

lemma Progress.inTransaction (h : Progress c statement log) :
    c.stage.inTransaction = true := by
  cases h with
  | @first change schema log hstage =>
    rw [hstage, firstStage]
    split <;> rfl
  | reserving hstage | replaying hstage | creating hstage | reading hstage | checking hstage
  | recording hstage => simp [Stage.inTransaction, hstage]

/-- The last message of the save is waited for, and its answer says something about a transaction. -/
def Awaits (c : SaveContext) : Prop :=
  c.stage = .beginning ∨ c.stage.inTransaction = true ∨ c.stage = .committing

/-- The row of an earlier commit, read back. -/
lemma Evidence.of_record {job data} (hrow : ∃ commit ∈ db.history, commit.tag.job.slot = job.slot ∧
      commit.tag.job.signature = job.signature ∧
      ∃ versions, Complete commit.tag.job versions commit.log ∧ data = encodeVersions versions)
    (hdec : decodeVersions job.request.changes.length data = some versions) :
    Evidence db job (savedResult job.request versions) := by
  obtain ⟨commit, hcommit, hslot, hsig, recorded, hcomp, rfl⟩ := hrow
  have hne : recorded ≠ [] := by
    rintro rfl
    rw [encodeVersions, decodeVersions_nil] at hdec
    cases hdec
  rw [decodeVersions_encodeVersions _ hne] at hdec
  split at hdec
  · next hlen =>
    obtain rfl := Option.some.inj hdec
    exact ⟨commit, hcommit, _, hslot, hsig, hcomp, hlen.symm, rfl⟩
  · cases hdec

variable (h : SaveInv db out o c) (hans : c.answer = none)
include h hans

/-- All is done, and `COMMIT` is sent. -/
lemma SaveInv.commit (hexec : Executing db out c messages (c.job.record c.versions) log)
    (hmade : Made c.job c.job.changes c.versions log)
    (hrep : out messages.length = some reply) (hok : reply.ok = true) (haff : reply.affected = 1)
    (hn : Proceeds c n .committing (.commit c.transaction)) :
    SaveInv db out o n.context := by
  have hcomp : ∀ tx, db.status c.transaction = .running tx → Complete c.job c.versions tx.log :=
    fun tx htx => ⟨log, reply, hexec.replied reply hrep hok tx htx, hmade, hok, haff⟩
  have hunsent : out c.sent.length = none := h.unsent _ le_rfl
  refine h.send hn.same hn.sent (hn.answer.trans hans) ?_ ?_ ?_ ?_
  · intro t ht
    rw [← ht.commit]
    exact hexec.owned h
  · intro t s hs
    cases hs
  · intro t ht
    cases ht
    exact ⟨hexec.handled hrep, fun tx htx => ⟨c.versions, hcomp tx htx⟩⟩
  · refine .committing hn.stage (hn.transaction ▸ hn.sent) ?_ ?_
    · rw [hn.transaction, Proceeds.job hn, hn.versions]
      exact hcomp
    · intro reply' hrep'
      rw [hunsent] at hrep'
      cases hrep'

/-- The answer to the first statement of a change. -/
lemma SaveInv.respond_change (hexec : Executing db out c messages (firstStatement schema change) log)
    (hop : change.operation ≠ .insert) (hchg : c.change? = some (change, schema))
    (hmade : Made c.job (c.job.changes.take c.changeIndex) c.versions log) (attempts : ℕ)
    (clock : Clock) (hrep : out messages.length = some reply) :
    SaveInv db out o (c.afterChange attempts clock reply).context := by
  have honward := Onward.refl c
  rcases c.afterChange_cases attempts clock reply hchg with
    hn | ⟨hok, ⟨haff, hdel, hn⟩ | ⟨haff, hkeep, hn⟩ | ⟨haff, hcreate, hn⟩ |
      ⟨haff, -, hn⟩⟩
  · exact h.givesUp hans hn
  · -- the row is deleted, and the change is made
    have hdeleted : ChangeLog change schema 0
        ([] ++ [(firstStatement schema change, reply)]) := by
      simp only [firstStatement, hdel, nil_append]
      exact .deleted hdel hok haff
    have hexec' : Executing db out c messages (firstStatement schema change)
        (log ++ []) := by
      rwa [append_nil]
    exact h.advance hexec' hrep hok hn hchg hmade hdeleted hans
  · -- the row is updated, and its version is read
    have hwritten : Written change schema [(firstStatement schema change, reply)] := by
      have hfirst : firstStatement schema change = .update schema change := by
        unfold firstStatement
        split
        · next hinsert => exact absurd hinsert hop
        · next hdel => exact absurd hdel hkeep
        · rfl
      rw [hfirst]
      exact .updated hop hkeep hok haff
    exact h.next hexec hrep hok hn
      (.reading hn.stage (hn.change?.trans hchg) (hn.made hmade) hwritten) honward rfl hans
  · exact h.next hexec hrep hok hn (.creating hn.stage (hn.change?.trans hchg) (hn.made hmade)
      hop hcreate hok haff) honward rfl hans
  · exact h.next hexec hrep hok hn (.checking hn.stage) honward rfl hans

/-- The answer to the `INSERT` of a change, and to the first statement before it if there was one. -/
lemma SaveInv.respond_insert (hexec : Executing db out c messages (.insert schema change) (log ++ entries))
    (hchg : c.change? = some (change, schema))
    (hmade : Made c.job (c.job.changes.take c.changeIndex) c.versions log) (attempts : ℕ)
    (clock : Clock) (hrep : out messages.length = some reply)
    (hwritten : reply.ok = true → reply.affected ≠ 0 →
      Written change schema (entries ++ [(.insert schema change, reply)])) :
    SaveInv db out o (c.afterInsert attempts clock reply).context := by
  rcases c.afterInsert_cases attempts clock reply hchg with hn | ⟨hok, haff, hn⟩
  · exact h.givesUp hans hn
  · refine h.next hexec hrep hok hn ?_ (Onward.refl c) rfl hans
    rw [append_assoc]
    exact .reading hn.stage (hn.change?.trans hchg) (hn.made hmade) (hwritten hok haff)

/-- The answer to a statement of the transaction, by what the save waits for. -/
lemma SaveInv.respond_statement
    (hexec : Executing db out c messages statement log) (attempts : ℕ) (clock : Clock) (hrep : out messages.length = some reply) :
    SaveInv db out o (c.respond attempts clock (.ok reply)).context := by
  have honward := Onward.refl c
  cases hprog : hexec.progress with
  | reserving hstage hindex hvers =>
    simp only [SaveContext.respond, hstage]
    rcases c.afterReserve_cases attempts clock reply with hn | ⟨hok, ⟨haff, hn⟩ | ⟨haff, hn⟩⟩
    · exact h.givesUp hans hn
    · refine h.next hexec hrep hok hn ?_ honward rfl hans
      have hreplaying := Progress.replaying hn.stage haff
      rwa [hn.job, hn.same.store, hn.same.request] at hreplaying
    · refine h.goesOn hexec hrep hok hn ?_ honward rfl hans
      rw [hindex, hvers, take_zero]
      exact ⟨reply, [], rfl, hok, haff, .nil⟩
  | replaying hstage haff =>
    simp only [SaveContext.respond, hstage]
    rcases c.afterReplay_cases attempts clock reply with hn | ⟨data, versions, hok, hrow, hdec, hn⟩
    · exact h.givesUp hans hn
    · have hrec := hexec.record hstage reply hrep hok _ _ hrow
      refine h.send_outside hn.same hn.sent (hn.answer.trans hans) ?_ (.replayed hn.stage ?_)
      · rintro t (⟨s, hs⟩ | hs) <;> cases hs
      · rw [hn.job]
        show Evidence db c.job (savedResult c.job.request versions)
        exact Evidence.of_record hrec hdec
  | @first change schema log hstage hchg hmade =>
    by_cases hop : change.operation = .insert
    · have hfirst : firstStatement schema change = .insert schema change := by
        simp [firstStatement, hop]
      rw [firstStage, if_pos hop] at hstage
      simp only [SaveContext.respond, hstage]
      have hexec' : Executing db out c messages (.insert schema change) (log ++ []) := by
        rwa [append_nil, ← hfirst]
      exact h.respond_insert hans hexec' hchg hmade attempts clock hrep
        fun hok haff => .inserted hop hok haff
    · rw [firstStage, if_neg hop] at hstage
      simp only [SaveContext.respond, hstage]
      exact h.respond_change hans hexec hop hchg hmade attempts clock hrep
  | creating hstage hchg hmade hop hcreate hok haff =>
    simp only [SaveContext.respond, hstage]
    exact h.respond_insert hans hexec hchg hmade attempts clock hrep fun hok' haff' =>
      .created hop hcreate hok haff hok' haff'
  | reading hstage hchg hmade hwritten =>
    simp only [SaveContext.respond, hstage]
    rcases c.afterVersion_cases attempts clock reply with hn | ⟨version, hok, hver, hn⟩
    · exact h.givesUp hans hn
    · exact h.advance hexec hrep hok hn hchg hmade (.written hwritten hok hver) hans
  | checking hstage =>
    simp only [SaveContext.respond, hstage]
    exact h.givesUp hans (c.afterCheck_abandoned attempts clock reply)
  | recording hstage hmade =>
    simp only [SaveContext.respond, hstage]
    rcases c.afterRecord_cases attempts clock reply with hn | ⟨hok, haff, hn⟩
    · exact h.givesUp hans hn
    · exact h.commit hans hexec hmade hrep hok haff hn

/-- `BEGIN` was answered with a token that no message of the save mentions, and the transaction
starts with the reservation of the request id. -/
lemma SaveInv.reserve (hindex : c.changeIndex = 0)
    (hvers : c.versions = []) (howner : (db.status t).tag?.map Origin.owner = some o)
    (hnew : ∀ message ∈ c.sent, ¬message.Mentions t)
    (hempty : ∀ tx, db.status t = .running tx → tx.log = [])
    (hn : Proceeds { c with transaction := t } n .reserving (.execute t c.job.reserve)) :
    SaveInv db out o n.context := by
  have hsame : SameSave c n.context := { hn.same with }
  have hprog : Progress n.context c.job.reserve [] := by
    have hreserving := Progress.reserving hn.stage (hn.changeIndex.trans hindex)
      (hn.versions.trans hvers)
    rwa [SameSave.job hsame] at hreserving
  refine h.execute hsame hn.sent (hn.answer.trans hans) hn.transaction howner
    (fun hcommit => hnew _ hcommit (.inr rfl)) (fun k s hk => ?_) hempty hprog
  exact absurd (.inl ⟨s, rfl⟩) (hnew _ (mem_of_getElem? hk))

/-- **A reply keeps the invariant**, if it is the answer to the last message. -/
theorem SaveInv.respond (hawaits : c.stage.awaitsReply = true) (attempts : ℕ) (clock : Clock)
    {reply}
    (hrep : ∀ result, reply = .ok result → out (c.sent.length - 1) = some result) :
    SaveInv db out o (c.respond attempts clock reply).context := by
  have hlast : ∀ {messages} {message}, c.sent = messages ++ [message] →
      ∀ result, reply = .ok result → out messages.length = some result := by
    intro messages message hsent result hres
    have hout := hrep result hres
    rwa [hsent, length_append, length_singleton, Nat.add_sub_cancel] at hout
  have herr : ∀ error, (∀ failed, c.stage ≠ .rollingBack failed) →
      (∀ result, c.stage ≠ .rollingBackReplay result) →
      SaveInv db out o (c.respond attempts clock (.error error)).context := by
    intro error hfail hreplay
    exact h.givesUp hans (respond_error attempts clock error hawaits
      (fun failed hstage => absurd hstage (hfail failed)) hreplay)
  cases h.live hans with
  | idle hstage => rcases hstage with hstage | hstage <;> simp [hstage, Stage.awaitsReply] at hawaits
  | creating hstage hindex hvers =>
    cases reply with
    | error error => exact herr error (by simp [hstage]) (by simp [hstage])
    | ok result =>
      simp only [SaveContext.respond, hstage]
      rcases c.afterTable_cases attempts clock result with hn | hn
      · exact h.givesUp hans hn
      · have hunsent : out c.sent.length = none := h.unsent _ le_rfl
        refine h.send_outside { hn.same with } hn.sent (hn.answer.trans hans) ?_ ?_
        · rintro t (⟨s, hs⟩ | hs) <;> cases hs
        · refine .beginning hn.stage (hn.changeIndex.trans hindex) (hn.versions.trans hvers)
            hn.sent fun reply t houtcome => ?_
          rw [hunsent] at houtcome
          cases houtcome
  | failing hstage hcode =>
    have hn : Abandoned c (c.respond attempts clock reply) := by
      simp only [SaveContext.respond, hstage]
      exact retryOrFinish_abandoned hcode
    exact h.givesUp hans hn
  | @replayed result hstage hev =>
    have hn : c.respond attempts clock reply = .finished c result := by
      simp only [SaveContext.respond, hstage]
    rw [hn]
    exact h.finished fun _ => hev
  | beginning hstage hindex hvers hsent htoken =>
    cases reply with
    | error error => exact herr error (by simp [hstage]) (by simp [hstage])
    | ok result =>
      simp only [SaveContext.respond, hstage]
      rcases c.afterBegin_cases attempts clock result with hn | ⟨t, hok, hparse, hn⟩
      · exact h.givesUp hans hn
      · obtain ⟨howner, hnew, hempty⟩ := htoken result t (hlast hsent result rfl) hok hparse
        exact h.reserve hans hindex hvers howner hnew hempty hn
  | executing hexec =>
    cases reply with
    | error error =>
      have hstage := hexec.progress.inTransaction
      refine herr error (fun failed hfail => ?_) fun result hreplay => ?_
      · simp [hfail, Stage.inTransaction] at hstage
      · simp [hreplay, Stage.inTransaction] at hstage
    | ok result =>
      exact h.respond_statement hans hexec attempts clock (hlast hexec.sent result rfl)
  | committing hstage hsent hcomp hreplied =>
    cases reply with
    | error error => exact herr error (by simp [hstage]) (by simp [hstage])
    | ok result =>
      simp only [SaveContext.respond, hstage]
      rcases c.afterCommit_cases attempts clock result with ⟨hn, -⟩ | ⟨hok, hn⟩
      · exact h.givesUp hans hn
      · rw [hn]
        exact h.finished fun _ => hreplied result (hlast hsent result rfl) hok

end Sending

end Caf.EntityStore.Sql
