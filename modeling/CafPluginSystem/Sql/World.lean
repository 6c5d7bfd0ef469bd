import CafPluginSystem.Sql.Database
import CafPluginSystem.Sql.Store

/-!
# Entity stores over one database

Any number of entity store actors that send their requests to one database.

A request that was sent is handled at most once, at any later time and in any order: it is executed and
answered with what the database says, or executed and answered with a failure, or answered with a
failure without being executed.  Its answer reaches the save only while the save waits for it; the save
may give up at any moment instead, as it does when the request times out.  Transactions may be lost at
any moment.
-/

namespace Caf.EntityStore.Sql

open Database DecimalText

/-- The database under the stores. -/
abbrev SqlDatabase (tables : Tables) :=
  Transactional.Database (Rows tables.State) UInt64 Origin Statement DbResult

/-- The stores, the database, and what it has answered: `outcomes (k, i) n` is the answer to the
`n`-th message of save `i` of store `k`, if that was handled. -/
structure World (tables : Tables) where
  stores : ℕ → Store
  db : SqlDatabase tables
  outcomes : ℕ × ℕ → ℕ → Option DbResult := fun _ _ => none

/-- How a request is answered. -/
inductive Handling where
  /-- It is executed, and answered with its result. -/
  | answered
  /-- It is answered with a failure, and executed nevertheless or not. -/
  | failed (reply : DbResult) (executed : Bool)

/-- What happens. -/
inductive WorldEvent where
  /-- A store accepts a save, fires a timer, exits, or gives up waiting for a reply. -/
  | store (k : ℕ) (event : Event)
  /-- The answer to the last message of a save arrives. -/
  | deliver (k i : ℕ) (clocks : ℕ → Clock)
  /-- A message is handled.  `token` is the handle of a new transaction, `position` what a statement
  sees or where a transaction commits. -/
  | handle (k i n : ℕ) (token : UInt64) (position : ℕ) (handling : Handling)
  /-- Transactions are lost. -/
  | lose (lost : UInt64 → Bool)

/-- The reply that a store event brings is an error. -/
def Event.fromClient : Event → Bool
  | .reply _ (.ok _) _ => false
  | _ => true

namespace World

variable {tables : Tables}
variable {handling : Handling} {k : ℕ}

def context (w : World tables) (o : ℕ × ℕ) : Option SaveContext := (w.stores o.1).contexts o.2

/-- Executing a message of a save, with its truthful answer. -/
def perform (db : SqlDatabase tables) (o : ℕ × ℕ) (job : Job) (token : UInt64) (position : ℕ) :
    Message → Option (DbResult × SqlDatabase tables)
  | .exec _ _ => some ({ ok := true }, db)
  | .begin _ key => (db.begin token ⟨o, job, key⟩).map fun db' =>
    ({ ok := true, insertId := natText token.toNat }, db')
  | .execute transaction statement => db.execute (exec tables) transaction position statement
  | .commit transaction => (db.commit (exec tables) transaction position).map fun db' =>
    ({ ok := true }, db')
  | .rollback key => some ({ ok := true }, db.endWhere fun _ tag => tag.key == key)

/-- The answer to a message, and the database after it. -/
def answer (db : SqlDatabase tables) (o : ℕ × ℕ) (job : Job) (token : UInt64) (position : ℕ)
    (message : Message) : Handling → Option (DbResult × SqlDatabase tables)
  | .answered => perform db o job token position message
  | .failed reply executed =>
    if reply.ok then none
    else if executed then
      (perform db o job token position message).map fun (_, db') => (reply, db')
    else some (reply, db)

def setStore (w : World tables) (k : ℕ) (s : Store) : World tables :=
  { w with stores := Function.update w.stores k s }

def setOutcome (w : World tables) (o : ℕ × ℕ) (n : ℕ) (reply : DbResult) (db : SqlDatabase tables) :
    World tables :=
  { w with db, outcomes := Function.update w.outcomes o (Function.update (w.outcomes o) n (some reply)) }

def step (w : World tables) : WorldEvent → Option (World tables)
  | .store k event =>
    if event.fromClient then ((w.stores k).step event).map (w.setStore k) else none
  | .deliver k i clocks =>
    match w.context (k, i) with
    | none => none
    | some c =>
      match w.outcomes (k, i) (c.sent.length - 1) with
      | none => none
      | some reply => ((w.stores k).step (.reply i (.ok reply) clocks)).map (w.setStore k)
  | .handle k i n token position handling =>
    match w.context (k, i) with
    | none => none
    | some c =>
      match c.sent[n]?, w.outcomes (k, i) n with
      | some message, none =>
        (answer w.db (k, i) c.job token position message handling).map fun (reply, db) =>
          w.setOutcome (k, i) n reply db
      | _, _ => none
  | .lose lost => some { w with db := w.db.endWhere fun token _ => lost token }

/-- Before anything has happened: nothing is in the idempotency tables, and anything in the tables of
the entities. -/
def initial (stores : ℕ → Bytes × ServiceConfig) (entities : tables.State) : World tables where
  stores := fun k => .initial (stores k).1 (stores k).2
  db := { start := { entities } }

/-- What can happen, for a message that is handled. -/
structure Handled (w w' : World tables) (o : ℕ × ℕ) (n : ℕ) (c : SaveContext) (message : Message)
    (token : UInt64) (position : ℕ) (handling : Handling) (reply : DbResult) : Prop where
  context : w.context o = some c
  sent : c.sent[n]? = some message
  unhandled : w.outcomes o n = none
  answer : answer w.db o c.job token position message handling = some (reply, w'.db)
  after : w' = w.setOutcome o n reply w'.db

/-- A message that is answered was executed and answered so, or it was answered with a failure and
executed or not. -/
lemma answer_cases {db db' : SqlDatabase tables} {o : ℕ × ℕ} {job : Job} {token : UInt64}
    {position : ℕ} {message : Message} {reply : DbResult}
    (h : answer db o job token position message handling = some (reply, db')) :
    (reply.ok = false ∧ db' = db) ∨
      ∃ result, perform db o job token position message = some (result, db') ∧
        (reply.ok = true → reply = result) := by
  cases handling with
  | answered => exact .inr ⟨reply, h, fun _ => rfl⟩
  | failed failure executed =>
    simp only [answer] at h
    split at h
    · cases h
    · next hfail =>
      split at h
      · obtain ⟨⟨result, db₁⟩, hperf, heq⟩ := Option.map_eq_some_iff.mp h
        cases heq
        exact .inr ⟨result, hperf, fun hok => absurd hok hfail⟩
      · cases h
        exact .inl ⟨by simpa using hfail, rfl⟩

variable {w' w : World tables}

lemma step_handle {i n token position} (h : w.step (.handle k i n token position handling) = some w') :
    ∃ c message reply, Handled w w' (k, i) n c message token position handling reply := by
  simp only [step] at h
  split at h
  · cases h
  · next c hc =>
    split at h
    · next message hmsg hout =>
      obtain ⟨⟨reply, db⟩, hans, rfl⟩ := Option.map_eq_some_iff.mp h
      exact ⟨c, message, reply, hc, hmsg, hout, hans, rfl⟩
    · cases h

lemma step_deliver {i clocks} (h : w.step (.deliver k i clocks) = some w') :
    ∃ c reply s, w.context (k, i) = some c ∧ w.outcomes (k, i) (c.sent.length - 1) = some reply ∧
      (w.stores k).step (.reply i (.ok reply) clocks) = some s ∧ w' = w.setStore k s := by
  simp only [step] at h
  split at h
  · cases h
  · next c hc =>
    split at h
    · cases h
    · next reply hrep =>
      obtain ⟨s, hs, rfl⟩ := Option.map_eq_some_iff.mp h
      exact ⟨c, reply, s, hc, hrep, hs, rfl⟩

lemma step_store {event} (h : w.step (.store k event) = some w') : event.fromClient = true ∧
      ∃ s, (w.stores k).step event = some s ∧ w' = w.setStore k s := by
  simp only [step] at h
  split at h
  · next hclient =>
    obtain ⟨s, hs, rfl⟩ := Option.map_eq_some_iff.mp h
    exact ⟨hclient, s, hs, rfl⟩
  · cases h

end World

end Caf.EntityStore.Sql
