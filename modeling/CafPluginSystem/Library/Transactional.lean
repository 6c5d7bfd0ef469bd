import Mathlib

/-!
# A serializable database

A database with atomic, serializable transactions over arbitrary statements, given by what each
statement answers and does in a state.

A transaction is the log of its statements with their results.  The database keeps the committed
transactions in an order in which, run one after another from the start, they give exactly the
results that they gave; a transaction may commit at any place of that order where this stays true.
A statement of a running transaction answers what it would after some of the committed ones and the
transaction's own statements.  So a transaction never sees what another one has not committed, and
what it has seen must fit when it commits, but nothing else is said about the schedule.

* `replay` — runs a log and checks its results.
* `Database` with `begin`, `execute`, `commit` and `endWhere`.
* `begin_cases`, `execute_cases`, `commit_cases` — what each of them can do.
* `Serial` — the committed transactions have a serial order, which every operation keeps.
-/

namespace Transactional

/-! ## Logs -/

section Replay

variable {σ Op Res : Type*} [DecidableEq Res] (exec : Op → σ → Res × σ)

/-- The state after a log, if every statement gives the result that the log says. -/
def replay : List (Op × Res) → σ → Option σ
  | [], s => some s
  | (op, result) :: log, s =>
    if (exec op s).1 = result then replay log (exec op s).2 else none

variable {exec}

lemma replay_cons {op : Op} {result : Res} {log : List (Op × Res)} {s s' : σ} :
    replay exec ((op, result) :: log) s = some s' ↔
      (exec op s).1 = result ∧ replay exec log (exec op s).2 = some s' := by
  rw [replay]
  split
  · next h => simp [h]
  · next h => simp [h]

lemma replay_append {log log' : List (Op × Res)} {s s' : σ} :
    replay exec (log ++ log') s = some s' ↔
      ∃ t, replay exec log s = some t ∧ replay exec log' t = some s' := by
  induction log generalizing s with
  | nil => simp [replay]
  | cons entry log ih =>
    obtain ⟨op, result⟩ := entry
    rw [List.cons_append, replay_cons, ih]
    constructor
    · rintro ⟨h, t, hlog, hlog'⟩
      exact ⟨t, replay_cons.mpr ⟨h, hlog⟩, hlog'⟩
    · rintro ⟨t, hlog, hlog'⟩
      obtain ⟨h, hlog⟩ := replay_cons.mp hlog
      exact ⟨h, t, hlog, hlog'⟩

/-- What each statement of a log keeps, the log keeps. -/
theorem replay_invariant {I : σ → Prop} {log : List (Op × Res)}
    (hexec : ∀ entry ∈ log, ∀ s, I s → I (exec entry.1 s).2) {s s' : σ} (hs : I s)
    (h : replay exec log s = some s') : I s' := by
  induction log generalizing s with
  | nil =>
    cases h
    exact hs
  | cons entry log ih =>
    obtain ⟨op, result⟩ := entry
    obtain ⟨-, hlog⟩ := replay_cons.mp h
    exact ih (fun e he => hexec e (by simp [he])) (hexec (op, result) (by simp) s hs) hlog

end Replay

/-! ## The database -/

/-- A transaction: who it belongs to, and what it did. -/
structure Transaction (Tag Op Res : Type*) where
  tag : Tag
  log : List (Op × Res) := []

/-- What has become of a token. -/
inductive Status (Tag Op Res : Type*) where
  | unused
  | running (transaction : Transaction Tag Op Res)
  | ended (tag : Tag)

/-- Who a token belongs to. -/
def Status.tag? {Tag Op Res : Type*} : Status Tag Op Res → Option Tag
  | .unused => none
  | .running transaction => some transaction.tag
  | .ended tag => some tag

/-- `history` are the committed transactions in their serial order. -/
structure Database (σ Token Tag Op Res : Type*) where
  start : σ
  history : List (Transaction Tag Op Res) := []
  status : Token → Status Tag Op Res := fun _ => .unused

namespace Database

variable {σ Token Tag Op Res : Type*} [DecidableEq Token] [DecidableEq Res]
  (exec : Op → σ → Res × σ) (db : Database σ Token Tag Op Res)

/-- The statements of some transactions, in their order. -/
def statements (transactions : List (Transaction Tag Op Res)) : List (Op × Res) :=
  transactions.flatMap Transaction.log

def setStatus (token : Token) (status : Status Tag Op Res) : Database σ Token Tag Op Res :=
  { db with status := Function.update db.status token status }

/-- A new transaction, under a token that no other one ever had. -/
def begin (token : Token) (tag : Tag) : Option (Database σ Token Tag Op Res) :=
  match db.status token with
  | .unused => some (db.setStatus token (.running { tag }))
  | _ => none

/-- A statement of a running transaction, which sees the first `position` committed ones. -/
def execute (token : Token) (position : ℕ) (op : Op) :
    Option (Res × Database σ Token Tag Op Res) :=
  match db.status token with
  | .running transaction =>
    (replay exec (statements (db.history.take position) ++ transaction.log) db.start).map fun s =>
      ((exec op s).1, db.setStatus token
        (.running { transaction with log := transaction.log ++ [(op, (exec op s).1)] }))
  | _ => none

/-- A transaction commits behind the first `position` committed ones, if all results still fit. -/
def commit (token : Token) (position : ℕ) : Option (Database σ Token Tag Op Res) :=
  match db.status token with
  | .running transaction =>
    let history := db.history.take position ++ transaction :: db.history.drop position
    if (replay exec (statements history) db.start).isSome then
      some ({ db with history }.setStatus token (.ended transaction.tag))
    else none
  | _ => none

/-- Some running transactions end without effect: they are rolled back or lost. -/
def endWhere (p : Token → Tag → Bool) : Database σ Token Tag Op Res :=
  { db with status := fun token =>
    match db.status token with
    | .running transaction =>
      if p token transaction.tag then .ended transaction.tag else .running transaction
    | status => status }

/-- The committed transactions, run one after another, give the results that they gave. -/
def Serial : Prop := ∃ s, replay exec (statements db.history) db.start = some s

variable {exec db} {db' : Database σ Token Tag Op Res} {token : Token} {tag : Tag} {position : ℕ}
  {op : Op} {result : Res}

omit [DecidableEq Res] in
lemma begin_cases (h : db.begin token tag = some db') : db.status token = .unused ∧
    db' = db.setStatus token (.running { tag }) := by
  unfold begin at h
  split at h
  · next hstat =>
    cases h
    exact ⟨hstat, rfl⟩
  · cases h

lemma execute_cases (h : db.execute exec token position op = some (result, db')) :
    ∃ transaction s, db.status token = .running transaction ∧
      replay exec (statements (db.history.take position) ++ transaction.log) db.start = some s ∧
      result = (exec op s).1 ∧
      db' = db.setStatus token
        (.running { transaction with log := transaction.log ++ [(op, result)] }) := by
  unfold execute at h
  split at h
  · next transaction hstat =>
    obtain ⟨s, hreplay, hres⟩ := Option.map_eq_some_iff.mp h
    cases hres
    exact ⟨transaction, s, hstat, hreplay, rfl, rfl⟩
  · cases h

lemma commit_cases (h : db.commit exec token position = some db') :
    ∃ transaction, db.status token = .running transaction ∧ db'.start = db.start ∧
      (∀ other, other ∈ db'.history ↔ other = transaction ∨ other ∈ db.history) ∧
      db'.status = Function.update db.status token (.ended transaction.tag) ∧ db'.Serial exec := by
  unfold commit at h
  split at h
  · next transaction hstat =>
    dsimp only at h
    split at h
    · next hserial =>
      cases h
      refine ⟨transaction, hstat, rfl, fun other => ?_, rfl, Option.isSome_iff_exists.mp hserial⟩
      have hsplit : other ∈ db.history ↔
          other ∈ db.history.take position ∨ other ∈ db.history.drop position := by
        rw [← List.mem_append, List.take_append_drop]
      show other ∈ db.history.take position ++ transaction :: db.history.drop position ↔ _
      rw [List.mem_append, List.mem_cons, hsplit]
      exact or_left_comm
    · cases h
  · cases h

omit [DecidableEq Token] [DecidableEq Res] in
lemma endWhere_running {p : Token → Tag → Bool} {transaction : Transaction Tag Op Res}
    (h : (db.endWhere p).status token = .running transaction) :
    db.status token = .running transaction := by
  simp only [endWhere] at h
  split at h
  · next hstat =>
    split at h
    · cases h
    · exact hstat.trans h
  · exact h

omit [DecidableEq Token] [DecidableEq Res] in
lemma endWhere_tag (p : Token → Tag → Bool) :
    ((db.endWhere p).status token).tag? = (db.status token).tag? := by
  simp only [endWhere]
  split
  · next hstat =>
    split
    · simp [hstat, Status.tag?]
    · simp [hstat]
  · rfl

/-- The first committed transaction, and then the others. -/
lemma replay_statements_cons {tx : Transaction Tag Op Res} {history : List (Transaction Tag Op Res)}
    {s s' : σ} : replay exec (statements (tx :: history)) s = some s' ↔
      ∃ t, replay exec tx.log s = some t ∧ replay exec (statements history) t = some s' := by
  rw [statements, List.flatMap_cons, replay_append]
  rfl

end Database

end Transactional
