import CafPluginSystem.Sql.Progress

/-!
# The database under a save moves on

What a message of one save, when it is handled, does to the transactions and the commits of all: nothing
outside what the message is about (`Frame`, `perform_frame`).  With that, handling a message keeps the
invariant of the save that sent it and of every other save.

* `SaveInv.handled` — for the save that sent the message.
* `SaveInv.elsewhere` — for another save.
-/

namespace Caf.EntityStore.Sql

open Database DecimalText Transactional.Database Function Option
open Function (update_of_ne update_self)

variable {tables : Tables}

/-! ## The database moves on -/

section Frame

variable {db db' : SqlDatabase tables} {out out' : ℕ → Option DbResult} {o : ℕ × ℕ} {c : SaveContext}
variable {message : Message} {token : UInt64} {job : Job} {reply : DbResult} {statement : Statement}
  {signature : Bytes} {log : List Entry}

/-- What every operation of the database keeps.  `touched` are the tokens of transactions that begin
or grow; any other transaction goes on as it is or ends. -/
structure Frame (db db' : SqlDatabase tables) (touched : UInt64 → Prop) : Prop where
  history : ∀ commit ∈ db.history, commit ∈ db'.history
  tag : ∀ t tag, (db.status t).tag? = some tag → (db'.status t).tag? = some tag
  running : ∀ t, ¬touched t → ∀ tx, db'.status t = .running tx → db.status t = .running tx

lemma Frame.evidence {touched : UInt64 → Prop} (h : Frame db db' touched)
    {result} (hev : Evidence db job result) : Evidence db' job result := by
  obtain ⟨commit, hcommit, hfacts⟩ := hev
  exact ⟨commit, h.history commit hcommit, hfacts⟩

variable {t : UInt64} {position n : ℕ} {result : DbResult} {rows : Rows tables.State}

lemma Frame.owner {touched : UInt64 → Prop} (h : Frame db db' touched)
    (ht : (db.status t).tag?.map Origin.owner = some o) :
    (db'.status t).tag?.map Origin.owner = some o := by
  obtain ⟨tag, htag, rfl⟩ := map_eq_some_iff.mp ht
  rw [h.tag t tag htag]
  rfl

/-- The tokens whose transactions the invariant of an unanswered save speaks of: those with a `COMMIT`,
the one of the current attempt, and the one that `BEGIN` was answered with. -/
def Watches (out : ℕ → Option DbResult) (c : SaveContext) (t : UInt64) : Prop :=
  .commit t ∈ c.sent ∨
    (Awaits c ∧ c.transaction = t ∧ ∃ s, c.sent.getLast? = some (.execute t s)) ∨
    (c.stage = .beginning ∧ ∃ reply, out (c.sent.length - 1) = some reply ∧ reply.ok = true ∧
      uint64OfText? reply.insertId = some t)

lemma Live.frame {touched : UInt64 → Prop} (h : Live db out o c) (hframe : Frame db db' touched)
    (hlast : Awaits c → out' (c.sent.length - 1) = out (c.sent.length - 1))
    (hsome : ∀ n, (out n).isSome → (out' n).isSome)
    (hwatched : ∀ t, Watches out c t → ¬touched t) : Live db' out' o c := by
  cases h with
  | idle hstage => exact .idle hstage
  | creating hstage hindex hvers => exact .creating hstage hindex hvers
  | failing hstage hcode => exact .failing hstage hcode
  | replayed hstage hev => exact .replayed hstage (hframe.evidence hev)
  | @beginning messages connection key hstage hindex hvers hsent htoken =>
    have hlen : c.sent.length - 1 = messages.length := by simp [hsent]
    have hsame := hlast (.inl hstage)
    rw [hlen] at hsame
    refine .beginning hstage hindex hvers hsent fun reply t hrep hok hparse => ?_
    rw [hsame] at hrep
    obtain ⟨howner, hnew, hempty⟩ := htoken reply t hrep hok hparse
    refine ⟨hframe.owner howner, hnew, fun tx htx => hempty tx (hframe.running t ?_ tx htx)⟩
    exact hwatched t (.inr (.inr ⟨hstage, reply, hlen ▸ hrep, hok, hparse⟩))
  | @executing messages statement log hexec =>
    have hlen : c.sent.length - 1 = messages.length := by simp [hexec.sent]
    have hawaits : Awaits c := .inr (.inl hexec.progress.inTransaction)
    have hsame := hlast hawaits
    rw [hlen] at hsame
    have hrun : ∀ tx, db'.status c.transaction = .running tx →
        db.status c.transaction = .running tx := by
      refine hframe.running c.transaction
        (hwatched _ (.inr (.inl ⟨hawaits, rfl, statement, ?_⟩)))
      rw [hexec.sent, List.getLast?_concat]
    refine .executing ⟨hexec.sent, hexec.progress, fun n s hn => hsome n (hexec.earlier n s hn),
      hexec.uncommitted, ?_, ?_, ?_⟩
    · intro hnone tx htx
      rw [hsame] at hnone
      exact hexec.waiting hnone tx (hrun tx htx)
    · intro reply hrep hok tx htx
      rw [hsame] at hrep
      exact hexec.replied reply hrep hok tx (hrun tx htx)
    · intro hstage reply hrep hok signature data hrow
      rw [hsame] at hrep
      obtain ⟨commit, hcommit, hfacts⟩ := hexec.record hstage reply hrep hok signature data hrow
      exact ⟨commit, hframe.history commit hcommit, hfacts⟩
  | @committing messages hstage hsent hcomp hreplied =>
    have hlen : c.sent.length - 1 = messages.length := by simp [hsent]
    have hsame := hlast (.inr (.inr hstage))
    rw [hlen] at hsame
    refine .committing hstage hsent (fun tx htx => hcomp tx (hframe.running _ ?_ tx htx)) ?_
    · exact hwatched _ (.inl (by rw [hsent]; simp))
    · intro reply hrep hok
      rw [hsame] at hrep
      exact hframe.evidence (hreplied reply hrep hok)

/-- The invariant of a save when the database moves on, up to what it waits for. -/
lemma SaveInv.frame {touched : UInt64 → Prop} (h : SaveInv db out o c) (hframe : Frame db db' touched)
    (hsome : ∀ n, (out n).isSome → (out' n).isSome)
    (hunsent : ∀ n, c.sent.length ≤ n → out' n = none)
    (hclosed : ∀ t, .commit t ∈ c.sent → ¬touched t)
    (hlive : c.answer = none → Live db' out' o c) : SaveInv db' out' o c where
  unsent := hunsent
  schemas := h.schemas
  owns := fun message hmsg t ht => hframe.owner (h.owns message hmsg t ht)
  closed := fun t ht => by
    obtain ⟨hhandled, hcomp⟩ := h.closed t ht
    refine ⟨fun n s hn => hsome n (hhandled n s hn), fun tx htx => hcomp tx ?_⟩
    exact hframe.running t (hclosed t ht) tx htx
  live := hlive
  answered := fun result hres hok => hframe.evidence (h.answered result hres hok)

/-- What a save watches is its own. -/
lemma SaveInv.watched (h : SaveInv db out o c) (hans : c.answer = none)
    (ht : Watches out c t) : (db.status t).tag?.map Origin.owner = some o := by
  rcases ht with hcommit | ⟨-, -, s, hlast⟩ | ⟨hstage, reply, hrep, hok, hparse⟩
  · exact h.owns _ hcommit t (.inr rfl)
  · exact h.owns _ (List.mem_of_getLast? hlast) t (.inl ⟨s, rfl⟩)
  · cases h.live hans with
    | @beginning messages connection key _ _ _ hsent htoken =>
      have hlen : c.sent.length - 1 = messages.length := by simp [hsent]
      exact (htoken reply t (hlen ▸ hrep) hok hparse).1
    | executing hexec =>
      have hinside := hexec.progress.inTransaction
      simp [hstage, Stage.inTransaction] at hinside
    | idle hstage' | creating hstage' | failing hstage' | replayed hstage' | committing hstage' =>
      simp [hstage] at hstage'

lemma Frame.refl (db : SqlDatabase tables) (touched : UInt64 → Prop) : Frame db db touched :=
  ⟨fun _ h => h, fun _ _ h => h, fun _ _ _ h => h⟩

/-- The token of the transaction that begins or grows when a message is executed. -/
def Message.Touches (token : UInt64) : Message → UInt64 → Prop
  | .begin _ _, t => t = token
  | .execute transaction _, t => t = transaction
  | _, _ => False

/-- One token gets a new status. -/
lemma Frame.update {touched : UInt64 → Prop} {status} (hhistory : ∀ commit ∈ db.history, commit ∈ db'.history)
    (hstat : db'.status = update db.status t status)
    (htag : ∀ tag, (db.status t).tag? = some tag → status.tag? = some tag)
    (hrun : touched t ∨ ∀ tx, status ≠ .running tx) : Frame db db' touched := by
  refine ⟨hhistory, fun t' tag h => ?_, fun t' ht' tx h => ?_⟩
  · rw [hstat]
    by_cases heq : t' = t
    · subst heq
      rw [update_self]
      exact htag tag h
    · rwa [update_of_ne heq]
  · rw [hstat] at h
    by_cases heq : t' = t
    · subst heq
      rw [update_self] at h
      exact absurd h (hrun.resolve_left ht' tx)
    · rwa [update_of_ne heq] at h

/-- **Executing a message keeps the frame.** -/
lemma perform_frame (h : World.perform db o job token position message = some (result, db')) :
    Frame db db' (message.Touches token) ∧ db'.start = db.start := by
  cases message with
  | exec connection statement =>
    cases h
    exact ⟨.refl _ _, rfl⟩
  | begin connection key =>
    obtain ⟨db₁, hbegin, heq⟩ := map_eq_some_iff.mp h
    cases heq
    obtain ⟨hunused, rfl⟩ := begin_cases hbegin
    refine ⟨.update (fun _ hc => hc) rfl (fun tag htag => ?_) (.inl rfl), rfl⟩
    rw [hunused] at htag
    cases htag
  | execute transaction statement =>
    obtain ⟨tx₀, s, hrun, -, -, rfl⟩ := execute_cases h
    refine ⟨.update (fun _ hc => hc) rfl (fun tag htag => ?_) (.inl rfl), rfl⟩
    rw [hrun] at htag
    exact htag
  | commit transaction =>
    obtain ⟨db₁, hcommit, heq⟩ := map_eq_some_iff.mp h
    cases heq
    obtain ⟨tx₀, hrun, hstart, hhistory, hstat, -⟩ := commit_cases hcommit
    refine ⟨.update (fun c hc => (hhistory c).mpr (.inr hc)) hstat (fun tag htag => ?_)
      (.inr fun tx h => by cases h), hstart⟩
    rw [hrun] at htag
    exact htag
  | rollback key =>
    cases h
    refine ⟨⟨fun _ hc => hc, fun t tag htag => ?_, fun t _ tx htx => ?_⟩, rfl⟩
    · rw [endWhere_tag]
      exact htag
    · exact endWhere_running htx

/-- A token that is touched is new, or the message executes a statement of its transaction. -/
lemma touches_cases (hperf : World.perform db o job token position message = some (result, db'))
    (ht : message.Touches token t) :
    (db.status t).tag? = none ∨ ∃ statement, message = .execute t statement := by
  cases message with
  | begin connection key =>
    obtain ⟨db₁, hbegin, -⟩ := map_eq_some_iff.mp hperf
    obtain ⟨hunused, -⟩ := begin_cases hbegin
    obtain rfl : t = token := ht
    exact .inl (by rw [hunused]; rfl)
  | execute transaction statement =>
    obtain rfl : t = transaction := ht
    exact .inr ⟨statement, rfl⟩
  | exec connection statement | commit transaction | rollback key => exact ht.elim

/-- A token that is touched is new, or belongs to whoever sent the message. -/
lemma SaveInv.touched (h : SaveInv db out o c) (hmsg : c.sent[n]? = some message)
    (hperf : World.perform db o job token position message = some (result, db'))
    (ht : message.Touches token t) :
    (db.status t).tag? = none ∨ (db.status t).tag?.map Origin.owner = some o := by
  refine (touches_cases hperf ht).imp_right ?_
  rintro ⟨statement, rfl⟩
  exact h.owns _ (List.mem_of_getElem? hmsg) t (.inl ⟨statement, rfl⟩)

/-- A transaction whose `COMMIT` was sent neither begins nor grows. -/
lemma SaveInv.untouched (h : SaveInv db out o c) (hmsg : c.sent[n]? = some message) (hunhandled : out n = none)
    (hperf : World.perform db o job token position message = some (result, db'))
    (hcommit : .commit t ∈ c.sent) : ¬message.Touches token t := by
  intro ht
  rcases touches_cases hperf ht with hnone | ⟨statement, rfl⟩
  · have howner := h.owns _ hcommit t (.inr rfl)
    rw [hnone] at howner
    cases howner
  · have hhandled := (h.closed t hcommit).1 n statement hmsg
    rw [hunhandled] at hhandled
    cases hhandled

/-- **Another save does not notice** that a message is executed. -/
lemma SaveInv.elsewhere {o' c' out'} (h : SaveInv db out' o' c') (hoth : o' ≠ o) {touched : UInt64 → Prop}
    (hframe : Frame db db' touched)
    (htouched : ∀ t, touched t →
      (db.status t).tag? = none ∨ (db.status t).tag?.map Origin.owner = some o) :
    SaveInv db' out' o' c' := by
  have hmine : ∀ t, (db.status t).tag?.map Origin.owner = some o' → ¬touched t := by
    intro t howner ht
    rcases htouched t ht with hnone | howner'
    · rw [hnone] at howner
      cases howner
    · rw [howner, some.injEq] at howner'
      exact hoth howner'
  refine h.frame hframe (fun _ hn => hn) h.unsent
    (fun t ht => hmine t (h.owns _ ht t (.inr rfl))) fun hans => ?_
  exact (h.live hans).frame hframe (fun _ => rfl) (fun _ hn => hn)
    fun t ht => hmine t (h.watched hans ht)

/-- What is known of the last message of a save that awaits its answer. -/
lemma Live.last (h : Live db out o c) (hawaits : Awaits c) :
    (∃ messages connection key, c.sent = messages ++ [.begin connection key] ∧
      c.stage = .beginning ∧ c.changeIndex = 0 ∧ c.versions = [] ∧
      ∀ reply t, out messages.length = some reply → reply.ok = true →
        uint64OfText? reply.insertId = some t →
        (db.status t).tag?.map Origin.owner = some o ∧ (∀ message ∈ c.sent, ¬message.Mentions t) ∧
        ∀ tx, db.status t = .running tx → tx.log = []) ∨
    (∃ messages statement log, Executing db out c messages statement log) ∨
    ∃ messages, c.sent = messages ++ [.commit c.transaction] ∧ c.stage = .committing ∧
      ∀ tx, db.status c.transaction = .running tx → Complete c.job c.versions tx.log := by
  cases h with
  | beginning hstage hindex hvers hsent htoken =>
    exact .inl ⟨_, _, _, hsent, hstage, hindex, hvers, htoken⟩
  | executing hexec => exact .inr (.inl ⟨_, _, _, hexec⟩)
  | committing hstage hsent hcomp _ => exact .inr (.inr ⟨_, hsent, hstage, hcomp⟩)
  | idle hstage =>
    rcases hstage with hstage | hstage <;> simp [Awaits, hstage, Stage.inTransaction] at hawaits
  | creating hstage | failing hstage | replayed hstage =>
    simp [Awaits, hstage, Stage.inTransaction] at hawaits

/-- A message that the save no longer waits for touches nothing that the save watches. -/
lemma SaveInv.stale (h : SaveInv db out o c) (hans : c.answer = none)
    (hmsg : c.sent[n]? = some message) (hunhandled : out n = none)
    (hnotlast : Awaits c → n ≠ c.sent.length - 1)
    (hperf : World.perform db o job token position message = some (result, db'))
    (hwatched : Watches out c t) : ¬message.Touches token t := by
  intro ht
  have howner := h.watched hans hwatched
  rcases touches_cases hperf ht with hnone | ⟨statement, rfl⟩
  · rw [hnone] at howner
    cases howner
  · rcases hwatched with hcommit | ⟨hawaits, htx, s, hlast⟩ | ⟨hstage, reply, hrep, hok, hparse⟩
    · exact h.untouched hmsg hunhandled hperf hcommit rfl
    · rcases (h.live hans).last hawaits with
        ⟨messages, connection, key, hsent, -⟩ | ⟨messages, s', log, hexec⟩ | ⟨messages, hsent, -⟩
      · rw [hsent, List.getLast?_concat] at hlast
        cases hlast
      · have hlen : c.sent.length = messages.length + 1 := by simp [hexec.sent]
        have hbound := (List.getElem?_eq_some_iff.mp hmsg).1
        have hne := hnotlast hawaits
        have hlt : n < messages.length := by omega
        rw [hexec.sent, List.getElem?_append_left hlt, ← htx] at hmsg
        have hhandled := hexec.earlier n statement hmsg
        rw [hunhandled] at hhandled
        cases hhandled
      · rw [hsent, List.getLast?_concat] at hlast
        cases hlast
    · rcases (h.live hans).last (.inl hstage) with
        ⟨messages, connection, key, hsent, -, -, -, htoken⟩ | ⟨messages, s', log, hexec⟩ |
        ⟨messages, -, hcommitting, -⟩
      · have hlen : c.sent.length - 1 = messages.length := by simp [hsent]
        obtain ⟨-, hnew, -⟩ := htoken reply t (hlen ▸ hrep) hok hparse
        exact hnew _ (List.mem_of_getElem? hmsg) (.inl ⟨statement, rfl⟩)
      · have hinside := hexec.progress.inTransaction
        simp [hstage, Stage.inTransaction] at hinside
      · simp [hstage] at hcommitting

/-- The invariant of the database: the commits have a serial order, from empty idempotency tables on,
and each of them is a whole save. -/
structure DbInv (db : SqlDatabase tables) : Prop where
  serial : db.Serial (exec tables)
  empty : ∀ slot, db.start.requests slot = none
  whole : ∀ commit ∈ db.history, Whole commit

lemma Progress.of_replaying (h : Progress c statement log) (hstage : c.stage = .replaying) :
    statement = .loadRequestRecord c.store.idempotencyTable c.request.requestId ∧
      ∃ result : DbResult, log = [(c.job.reserve, result)] ∧ result.affected = 0 := by
  cases h with
  | replaying _ haff => exact ⟨rfl, _, rfl, haff⟩
  | @first change schema log hstage' =>
    rw [hstage', SaveContext.firstStage] at hstage
    split at hstage <;> cases hstage
  | reserving hstage' | creating hstage' | reading hstage' | checking hstage' | recording hstage' =>
    simp [hstage] at hstage'

/-- A reservation that affected no row changed nothing. -/
lemma replay_taken (haff : result.affected = 0) {rows'}
    (h : Transactional.replay (exec tables) [(job.reserve, result)] rows = some rows') :
    rows' = rows := by
  obtain ⟨hres, hrows⟩ := Transactional.replay_cons.mp h
  cases hrows
  cases hrow : rows.requests job.slot with
  | some row =>
    rw [Job.slot] at hrow
    simp only [Job.reserve, exec, hrow]
  | none =>
    rw [Job.slot] at hrow
    simp only [Job.reserve, exec, hrow] at hres
    rw [← hres] at haff
    cases haff

/-- The row that a query of the idempotency table shows. -/
lemma recordRow_load {table requestId data}
    (h : SaveContext.recordRow (exec tables (.loadRequestRecord table requestId) rows).1
      = some (signature, data)) : rows.requests (table, requestId) = some (signature, data) := by
  simp only [exec] at h
  split at h
  · simp [SaveContext.recordRow] at h
  · next signature' data' hrow =>
    simp only [SaveContext.recordRow, some.injEq, Prod.mk.injEq] at h
    rw [hrow, h.1, h.2]

/-- **What a replay reads was committed.** -/
lemma DbInv.record (hdb : DbInv db) {reserved}
    (haff : reserved.affected = 0) (hreplay : Transactional.replay (exec tables)
      (statements (db.history.take position) ++ [(job.reserve, reserved)])
      db.start = some rows) {data} (hrow : SaveContext.recordRow (exec tables
      (.loadRequestRecord job.store.idempotencyTable job.request.requestId) rows).1
        = some (signature, data)) :
    ∃ commit ∈ db.history, commit.tag.job.slot = job.slot ∧ commit.tag.job.signature = signature ∧
      ∃ versions, Complete commit.tag.job versions commit.log ∧ data = encodeVersions versions := by
  obtain ⟨rows₁, hhistory, htaken⟩ := Transactional.replay_append.mp hreplay
  rw [replay_taken haff htaken] at hrow
  obtain ⟨commit, hcommit, hfacts⟩ := history_record
    (fun commit hcommit => hdb.whole commit (List.mem_of_mem_take hcommit)) hhistory hdb.empty
    (recordRow_load hrow)
  exact ⟨commit, List.mem_of_mem_take hcommit, hfacts⟩

lemma Executing.handle (hdb : DbInv db) {messages} (h : Executing db out c messages statement log)
    (hunhandled : out messages.length = none)
    (hperf : db.execute (exec tables) c.transaction position statement = some (result, db'))
    (hrep : reply.ok = true → reply = result) :
    Executing db' (update out messages.length (some reply)) c messages statement log := by
  obtain ⟨tx, rows, hrun, hreplay, rfl, rfl⟩ := execute_cases hperf
  have hlog := h.waiting hunhandled tx hrun
  have hself : update out messages.length (some reply) messages.length = some reply :=
    update_self ..
  refine ⟨h.sent, h.progress, ?_, h.uncommitted, ?_, ?_, ?_⟩
  · intro n s hn
    have hlt : n < messages.length := (List.getElem?_eq_some_iff.mp hn).1
    rw [update_of_ne (by omega)]
    exact h.earlier n s hn
  · intro hnone
    rw [hself] at hnone
    cases hnone
  · intro reply' hrep' hok tx' htx'
    rw [hself, some.injEq] at hrep'
    subst hrep'
    simp only [setStatus, update_self,
      Transactional.Status.running.injEq] at htx'
    rw [← htx', hlog, hrep hok]
  · intro hstage reply' hrep' hok signature data hrow
    rw [hself, some.injEq] at hrep'
    subst hrep'
    obtain ⟨rfl, reserved, rfl, haff⟩ := h.progress.of_replaying hstage
    rw [hlog] at hreplay
    rw [hrep hok] at hrow
    exact hdb.record haff hreplay hrow

/-- An answer that reports a failure says nothing about a transaction. -/
lemma Live.failed (h : Live db out o c) (hawaits : Awaits c) (hrep : reply.ok = false) (hn : n = c.sent.length - 1) :
    Live db (update out n (some reply)) o c := by
  have hfalse : ∀ {reply'}, update out n (some reply) n = some reply' → reply'.ok ≠ true := by
    intro reply' heq
    rw [update_self, some.injEq] at heq
    rw [← heq, hrep]
    simp
  rcases h.last hawaits with
    ⟨messages, connection, key, hsent, hstage, hindex, hvers, -⟩ | ⟨messages, statement, log, hexec⟩ |
    ⟨messages, hsent, hstage, hcomp⟩
  · obtain rfl : n = messages.length := by simp [hn, hsent]
    exact .beginning hstage hindex hvers hsent fun reply' t heq hok => absurd hok (hfalse heq)
  · obtain rfl : n = messages.length := by simp [hn, hexec.sent]
    refine .executing ⟨hexec.sent, hexec.progress, ?_, hexec.uncommitted, ?_,
      fun reply' heq hok => absurd hok (hfalse heq), fun _ reply' heq hok => absurd hok (hfalse heq)⟩
    · intro k s hk
      have hlt : k < messages.length := (List.getElem?_eq_some_iff.mp hk).1
      rw [update_of_ne (by omega)]
      exact hexec.earlier k s hk
    · intro hnone
      rw [update_self] at hnone
      cases hnone
  · obtain rfl : n = messages.length := by simp [hn, hsent]
    exact .committing hstage hsent hcomp fun reply' heq hok => absurd hok (hfalse heq)

/-- **The message that a save waits for is executed**: what the answer says is true. -/
lemma SaveInv.perform_last (hdb : DbInv db) (h : SaveInv db out o c) (hans : c.answer = none)
    (hjobs : ∀ t tx, db.status t = .running tx → tx.tag.owner = o → tx.tag.job = c.job)
    (hawaits : Awaits c) (hn : n = c.sent.length - 1)
    (hmsg : c.sent[n]? = some message) (hunhandled : out n = none)
    (hperf : World.perform db o c.job token position message = some (result, db'))
    (hrep : reply.ok = true → reply = result) :
    Live db' (update out n (some reply)) o c := by
  rcases (h.live hans).last hawaits with
    ⟨messages, connection, key, hsent, hstage, hindex, hvers, -⟩ | ⟨messages, statement, log, hexec⟩ |
    ⟨messages, hsent, hstage, hcomp⟩
  · obtain rfl : n = messages.length := by simp [hn, hsent]
    obtain rfl : message = .begin connection key := by simpa [hsent] using hmsg.symm
    obtain ⟨db₁, hbegin, heq⟩ := map_eq_some_iff.mp hperf
    cases heq
    obtain ⟨hunused, rfl⟩ := begin_cases hbegin
    refine .beginning hstage hindex hvers hsent fun reply' t hrep' hok hparse => ?_
    rw [update_self, some.injEq] at hrep'
    subst hrep'
    rw [hrep hok, uint64OfText_natText, some.injEq] at hparse
    subst hparse
    refine ⟨?_, fun m hm hmentions => ?_, fun tx htx => ?_⟩
    · simp [setStatus, Transactional.Status.tag?]
    · -- a token that is in use belongs to someone
      have howner := h.owns m hm token hmentions
      rw [hunused] at howner
      cases howner
    · simp only [setStatus, update_self,
        Transactional.Status.running.injEq] at htx
      rw [← htx]
  · obtain rfl : n = messages.length := by simp [hn, hexec.sent]
    obtain rfl : message = .execute c.transaction statement := by
      simpa [hexec.sent] using hmsg.symm
    exact .executing (hexec.handle hdb hunhandled hperf hrep)
  · obtain rfl : n = messages.length := by simp [hn, hsent]
    obtain rfl : message = .commit c.transaction := by simpa [hsent] using hmsg.symm
    obtain ⟨db₁, hcommit, heq⟩ := map_eq_some_iff.mp hperf
    cases heq
    obtain ⟨tx, hrun, -, hhistory, hstat, -⟩ := commit_cases hcommit
    refine .committing hstage hsent (fun tx' htx' => ?_) fun reply' _ _ => ?_
    · rw [hstat, update_self] at htx'
      cases htx'
    · have howner := h.owns (.commit c.transaction) (by rw [hsent]; simp) _ (.inr rfl)
      rw [hrun] at howner
      have hjob := hjobs _ tx hrun (some.inj howner)
      have hdone := hcomp tx hrun
      refine ⟨tx, (hhistory tx).mpr (.inl rfl), c.versions, by rw [hjob], by rw [hjob],
        by rw [hjob]; exact hdone, ?_, rfl⟩
      have hlen := hdone.length
      rw [Job.changes, List.length_zip] at hlen
      rw [hlen]
      exact Nat.min_eq_left h.schemas.ge

/-- **A message of the save is handled.** -/
lemma SaveInv.handled (hdb : DbInv db) (h : SaveInv db out o c)
    (hjobs : ∀ t tx, db.status t = .running tx → tx.tag.owner = o → tx.tag.job = c.job) (hmsg : c.sent[n]? = some message) (hunhandled : out n = none) {handling}
    (hanswered : World.answer db o c.job token position message handling = some (reply, db')) :
    SaveInv db' (update out n (some reply)) o c := by
  have hlt : n < c.sent.length := (List.getElem?_eq_some_iff.mp hmsg).1
  have hsome : ∀ m, (out m).isSome → (update out n (some reply) m).isSome := by
    intro m hm
    by_cases heq : m = n
    · subst heq
      rw [update_self]
      rfl
    · rwa [update_of_ne heq]
  have hunsent : ∀ m, c.sent.length ≤ m → update out n (some reply) m = none := by
    intro m hm
    rw [update_of_ne (by omega)]
    exact h.unsent m hm
  by_cases hlast : Awaits c ∧ n = c.sent.length - 1
  · -- the answer that the save waits for
    rcases World.answer_cases hanswered with ⟨hfail, rfl⟩ | ⟨result, hperf, hrep⟩
    · exact h.frame (.refl _ fun _ => False) hsome hunsent (fun _ _ => id)
        fun hans => (h.live hans).failed hlast.1 hfail hlast.2
    · exact h.frame (perform_frame hperf).1 hsome hunsent (fun t => h.untouched hmsg hunhandled hperf)
        fun hans =>
          h.perform_last hdb hans hjobs hlast.1 hlast.2 hmsg hunhandled hperf hrep
  · have hsame : Awaits c → update out n (some reply) (c.sent.length - 1)
        = out (c.sent.length - 1) := by
      intro hawaits
      rw [update_of_ne]
      exact fun heq => hlast ⟨hawaits, heq.symm⟩
    rcases World.answer_cases hanswered with ⟨-, rfl⟩ | ⟨result, hperf, -⟩
    · exact h.frame (.refl _ fun _ => False) hsome hunsent (fun _ _ => id) fun hans =>
        (h.live hans).frame (.refl _ fun _ => False) hsame hsome fun _ _ => id
    · exact h.frame (perform_frame hperf).1 hsome hunsent (fun t => h.untouched hmsg hunhandled hperf)
        fun hans => (h.live hans).frame (perform_frame hperf).1 hsame hsome fun t ht =>
          h.stale hans hmsg hunhandled (fun hawaits hn => hlast ⟨hawaits, hn⟩) hperf ht

end Frame

end Caf.EntityStore.Sql
