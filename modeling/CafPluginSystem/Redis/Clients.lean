import CafPluginSystem.Library.Machine
import CafPluginSystem.Redis.Commit

/-!
# Concurrent clients

Any number of calls of `EntityStoreEngine::save`, each with its own engine and request, against
one Redis.  Redis executes every `HMGET` and every `EVAL` of the commit script as one step; between
the steps of one client anything may happen elsewhere.  A command can fail before it is sent, be
answered with an error reply, or be sent and never answered, and a script whose caller has given
up may still be executed later.  The retry loop decides by clock and stop token; those decisions,
like all scheduling and all failures, are part of the events.

* `Invariant`, `step_invariant` — what holds of every client in every reachable state.
* `save_applied_once` — at most one script ever writes the commit record of a request id, it
  applies its request to the hash as it is at that instant, and whoever saves under that id later
  changes nothing and answers ok only for the same contents, with the versions committed first.
* `save_failure_wrote_nothing` — a save that answers with a code other than ok or commit-unknown
  has written nothing.
-/

namespace Caf.EntityStore.Redis

open EntityCodec Fallible Option Machine

variable {reply : Reply} {key record : Bytes} {arguments : List Bytes} {error : EntityError}
  {result : SaveResult}

/-! ## The system -/

/-- Where a call of `save` is.  Attempts count from 1. -/
inductive Phase where
  | called
  | attempt (prepared : Prepared) (n : ℕ)
  | planned (prepared : Prepared) (n : ℕ) (plan : Plan)
  | committing (prepared : Prepared) (n : ℕ) (plan : Plan)
  | answered (result : SaveResult)

structure Client where
  engine : Engine
  request : SaveRequest
  phase : Phase := .called

/-- The `EVAL` of one attempt of one client, as Redis sees it. -/
inductive Eval where
  | unsent
  | pending (key : Bytes) (arguments : List Bytes)
  | answered (reply : Reply)

structure World where
  keyspace : Bytes → Hash
  clients : ℕ → Client
  evals : ℕ → ℕ → Eval

/-- How the snapshot read of an attempt ends: it fails or is refused before it gives a snapshot
(`check_budget`, the connection, a missing reply, an error reply: all unavailable), Redis executes
it, or a `std::exception` is thrown on the way to the commit command. -/
inductive ReadOutcome where
  | failed (text : Bytes)
  | executed
  | fault (text : Bytes)

/-- How sending the commit command ends: not sent (unavailable), sent, or a `std::exception` is
thrown inside `command`, before or after the command was sent. -/
inductive SendOutcome where
  | failed (text : Bytes)
  | sent
  | fault (sent : Bool) (text : Bytes)

/-- The events.  `paused` is what `pause` returns when the retry loop asks it. -/
inductive Event where
  | prepare (i : ℕ) (fault : Option Bytes)
  | read (i : ℕ) (outcome : ReadOutcome) (paused : Bool)
  | send (i : ℕ) (outcome : SendOutcome) (paused : Bool)
  /-- Redis executes a script it was sent. -/
  | execute (i n : ℕ)
  /-- Redis answers a script with an error reply and does not execute it. -/
  | refuse (i n : ℕ) (text : Bytes)
  | receive (i : ℕ) (fault : Option Bytes) (paused : Bool)
  /-- hiredis returns no reply. -/
  | lose (i : ℕ) (text : Bytes)

/-- The client whose save an event belongs to. -/
def Event.client : Event → ℕ
  | prepare i _ => i
  | read i _ _ => i
  | send i _ _ => i
  | execute i _ => i
  | refuse i _ _ => i
  | receive i _ _ => i
  | lose i _ => i

/-- The connection could not do it, and nothing was sent. -/
def unavailable (text : Bytes) : EntityError :=
  { code := .unavailable, message := text, failed := unavailable_ne_ok }

/-- A `std::exception` outside the commit command. -/
def internal (text : Bytes) : EntityError :=
  { code := .internalError, message := text, failed := internalError_ne_ok }

/-- The commit command may have been executed. -/
def commitUnknown (text : Bytes) : EntityError := { code := .commitUnknown, message := text }

namespace Client

variable (p : Platform)

/-- The answer of the outer `catch` blocks. -/
def fail (c : Client) (error : EntityError) : Phase := .answered (failure c.request error)

/-- The inner `catch`: another attempt when the error is `unavailable`, attempts are left and
`pause` agrees. -/
def raise (c : Client) (prepared : Prepared) (n : ℕ) (error : EntityError) (paused : Bool) :
    Phase :=
  if error.code = .unavailable ∧ n < c.engine.settings.saveRetryAttempts ∧ paused then
    .attempt prepared (n + 1)
  else c.fail error

def begin (c : Client) : Option Bytes → Phase
  | some text => c.fail (internal text)
  | none =>
    match prepare p c.engine c.request with
    | .error error => c.fail error
    | .ok prepared => .attempt prepared 1

/-- From the snapshot read to the commit command. -/
def afterRead (c : Client) (prepared : Prepared) (n : ℕ) (reply : Reply) (paused : Bool) : Phase :=
  match planCommit p prepared c.request reply with
  | .error error => c.raise prepared n error paused
  | .ok (.replayed result) => .answered result
  | .ok (.planned plan) => .planned prepared n plan

/-- From the reply of the commit command on. -/
def afterReply (c : Client) (prepared : Prepared) (n : ℕ) (plan : Plan) (reply : Reply)
    (paused : Bool) : Phase :=
  match finishCommit prepared c.request plan reply with
  | .error error => c.raise prepared n error paused
  | .ok (some result) => .answered result
  | .ok none =>
    if n < c.engine.settings.saveRetryAttempts ∧ paused then .attempt prepared (n + 1)
    else c.fail { code := .conflict,
                  message := str "concurrent update; retry with the same request_id",
                  failed := conflict_ne_ok }

end Client

namespace World

def setPhase (w : World) (i : ℕ) (phase : Phase) : World :=
  { w with clients := Function.update w.clients i { w.clients i with phase } }

def setEval (w : World) (i n : ℕ) (eval : Eval) : World :=
  { w with evals := Function.update w.evals i (Function.update (w.evals i) n eval) }

/-- What executing the script of attempt `n` of client `i` writes, and where. -/
def writes (w : World) (i n : ℕ) : Bytes × List (Bytes × Bytes) :=
  match w.evals i n with
  | .pending key arguments => (key, (commitScript (w.keyspace key) arguments).2)
  | _ => ([], [])

/-- One event. -/
def step (p : Platform) (w : World) : Event → Option World
  | .prepare i fault =>
    match (w.clients i).phase with
    | .called => some (w.setPhase i ((w.clients i).begin p fault))
    | _ => none
  | .read i outcome paused =>
    match (w.clients i).phase with
    | .attempt prepared n =>
      match outcome with
      | .failed text =>
        some (w.setPhase i ((w.clients i).raise prepared n (unavailable text) paused))
      | .executed =>
        some (w.setPhase i ((w.clients i).afterRead p prepared n
          (hmget (w.keyspace prepared.hash) prepared.reads) paused))
      | .fault text => some (w.setPhase i ((w.clients i).fail (internal text)))
    | _ => none
  | .send i outcome paused =>
    match (w.clients i).phase with
    | .planned prepared n plan =>
      match outcome with
      | .failed text =>
        some (w.setPhase i ((w.clients i).raise prepared n (unavailable text) paused))
      | .sent =>
        some ((w.setEval i n (.pending prepared.hash (plan.arguments prepared.ledger))).setPhase
          i (.committing prepared n plan))
      | .fault true text =>
        some ((w.setEval i n (.pending prepared.hash (plan.arguments prepared.ledger))).setPhase
          i ((w.clients i).fail (commitUnknown text)))
      | .fault false text => some (w.setPhase i ((w.clients i).fail (commitUnknown text)))
    | _ => none
  | .execute i n =>
    match w.evals i n with
    | .pending key arguments =>
      let (reply, updates) := commitScript (w.keyspace key) arguments
      some { w.setEval i n (.answered reply) with
        keyspace := Function.update w.keyspace key (hset (w.keyspace key) updates) }
    | _ => none
  | .refuse i n text =>
    match w.evals i n with
    | .pending _ _ => some (w.setEval i n (.answered (.error text)))
    | _ => none
  | .receive i fault paused =>
    match (w.clients i).phase with
    | .committing prepared n plan =>
      match w.evals i n with
      | .answered reply =>
        match fault, reply with
        -- nothing is thrown after an acknowledged commit
        | some _, .integer _ => none
        | some text, _ => some (w.setPhase i ((w.clients i).fail (internal text)))
        | none, reply =>
          some (w.setPhase i ((w.clients i).afterReply prepared n plan reply paused))
      | _ => none
    | _ => none
  | .lose i text =>
    match (w.clients i).phase with
    | .committing _ _ _ => some (w.setPhase i ((w.clients i).fail (commitUnknown text)))
    | _ => none

/-- No save has started; the hashes hold anything. -/
structure Initial (w : World) : Prop where
  called : ∀ i, (w.clients i).phase = .called
  unsent : ∀ i n, w.evals i n = .unsent

end World

/-! ## The invariant -/

variable {p : Platform}

/-- The script of the attempt has written nothing and never will. -/
def Eval.Quiet : Eval → Prop
  | unsent => True
  | pending _ _ => False
  | answered reply => ∀ k, reply ≠ .integer k

/-- The plan was computed from some snapshot. -/
def Plans (p : Platform) (prepared : Prepared) (request : SaveRequest) (plan : Plan) : Prop :=
  ∃ old, planCommit p prepared request (hmget old prepared.reads) = .ok (.planned plan)

/-- What a client knows about the script it sent: it is still pending, or its reply tells the
truth about the commit record in the hash. -/
def Sent (hash : Hash) (prepared : Prepared) (plan : Plan) : Eval → Prop
  | .unsent => False
  | .pending key arguments => key = prepared.hash ∧ arguments = plan.arguments prepared.ledger
  | .answered reply =>
    (∀ k, reply = .integer k → hash[prepared.ledger]? = some plan.record) ∧
    ∀ previous, reply = .array [.integer 2, .string previous] →
      hash[prepared.ledger]? = some previous

/-- What holds of a client in each phase. -/
def PhaseInvariant (p : Platform) (w : World) (i : ℕ) : Phase → Prop
  | .called => ∀ m, w.evals i m = .unsent
  | .attempt prepared n =>
    prepare p (w.clients i).engine (w.clients i).request = .ok prepared ∧
    (∀ m < n, (w.evals i m).Quiet) ∧ ∀ m, n ≤ m → w.evals i m = .unsent
  | .planned prepared n plan =>
    prepare p (w.clients i).engine (w.clients i).request = .ok prepared ∧
    Plans p prepared (w.clients i).request plan ∧
    (∀ m < n, (w.evals i m).Quiet) ∧ ∀ m, n ≤ m → w.evals i m = .unsent
  | .committing prepared n plan =>
    prepare p (w.clients i).engine (w.clients i).request = .ok prepared ∧
    Plans p prepared (w.clients i).request plan ∧
    (∀ m < n, (w.evals i m).Quiet) ∧ (∀ m, n < m → w.evals i m = .unsent) ∧
    Sent (w.keyspace prepared.hash) prepared plan (w.evals i n)
  | .answered result =>
    (result.code = .ok → ∃ prepared record,
      prepare p (w.clients i).engine (w.clients i).request = .ok prepared ∧
      (w.keyspace prepared.hash)[prepared.ledger]? = some record ∧
      replay (w.clients i).request prepared.signature record = .ok result) ∧
    (result.code ≠ .ok → result.code ≠ .commitUnknown → ∀ m, (w.evals i m).Quiet)

/-- A pending script is one that its client planned. -/
def PendingInvariant (p : Platform) (w : World) (i n : ℕ) : Prop :=
  ∀ key arguments, w.evals i n = .pending key arguments → ∃ prepared plan,
    prepare p (w.clients i).engine (w.clients i).request = .ok prepared ∧
    Plans p prepared (w.clients i).request plan ∧ key = prepared.hash ∧
    arguments = plan.arguments prepared.ledger

structure Invariant (p : Platform) (w : World) : Prop where
  phase : ∀ i, PhaseInvariant p w i (w.clients i).phase
  pending : ∀ i n, PendingInvariant p w i n

variable {w w' : World} {hash : Hash} {prepared : Prepared} {plan : Plan} {i n : ℕ} {paused : Bool}
  {r field : Bytes} {event : Event}

lemma World.Initial.invariant (h : w.Initial) : Invariant p w where
  phase i := by
    rw [h.called i]
    exact h.unsent i
  pending i n key arguments hpend := by
    rw [h.unsent i n] at hpend
    cases hpend

/-! ### What a step leaves alone -/

/-- Seen from client `i`, nothing has changed but other fields of the hashes. -/
structure SameFor (w w' : World) (i : ℕ) : Prop where
  engine : (w'.clients i).engine = (w.clients i).engine
  request : (w'.clients i).request = (w.clients i).request
  evals : w'.evals i = w.evals i
  records : ∀ key r field record, ledgerField r = .ok field →
    (w.keyspace key)[field]? = some record → (w'.keyspace key)[field]? = some record

lemma Sent.mono {hash' eval} (h : Sent hash prepared plan eval) (hrec : ∀ record,
      hash[prepared.ledger]? = some record → hash'[prepared.ledger]? = some record) :
    Sent hash' prepared plan eval := by
  cases eval with
  | unsent | pending key arguments => exact h
  | answered reply =>
    exact ⟨fun k hk => hrec _ (h.1 k hk), fun previous hp => hrec _ (h.2 previous hp)⟩

lemma SameFor.phase (h : SameFor w w' i) {phase}
    (hphase : PhaseInvariant p w i phase) : PhaseInvariant p w' i phase := by
  cases phase with
  | called =>
    rw [PhaseInvariant, h.evals]
    exact hphase
  | attempt prepared n | planned prepared n plan =>
    rw [PhaseInvariant, h.evals, h.engine, h.request]
    exact hphase
  | committing prepared n plan =>
    obtain ⟨hprep, hplans, hquiet, hunsent, hsent⟩ := hphase
    rw [PhaseInvariant, h.evals, h.engine, h.request]
    exact ⟨hprep, hplans, hquiet, hunsent, hsent.mono fun record =>
      h.records _ _ _ _ (prepare_valid hprep).ledger⟩
  | answered result =>
    obtain ⟨hok, hquiet⟩ := hphase
    rw [PhaseInvariant, h.evals, h.engine, h.request]
    refine ⟨fun hcode => ?_, hquiet⟩
    obtain ⟨prepared, record, hprep, hrec, hreplay⟩ := hok hcode
    exact ⟨prepared, record, hprep,
      h.records _ _ _ _ (prepare_valid hprep).ledger hrec, hreplay⟩

lemma SameFor.pending (h : SameFor w w' i)
    (hpend : PendingInvariant p w i n) : PendingInvariant p w' i n := by
  rw [PendingInvariant, h.evals, h.engine, h.request]
  exact hpend

/-- When a step only concerns client `i`, the invariant has to be checked for `i` alone. -/
lemma Invariant.of_sameFor (h : Invariant p w)
    (hoth : ∀ j, j ≠ i → SameFor w w' j ∧ (w'.clients j).phase = (w.clients j).phase)
    (hphase : PhaseInvariant p w' i (w'.clients i).phase)
    (hpend : ∀ n, PendingInvariant p w' i n) : Invariant p w' where
  phase j := by
    by_cases hj : j = i
    · rw [hj]
      exact hphase
    · obtain ⟨hsame, hsamePhase⟩ := hoth j hj
      rw [hsamePhase]
      exact hsame.phase (h.phase j)
  pending j n := by
    by_cases hj : j = i
    · rw [hj]
      exact hpend n
    · exact (hoth j hj).1.pending (h.pending j n)

namespace World

variable {i : ℕ}

@[simp] lemma setPhase_keyspace (w : World) (i : ℕ) (phase : Phase) :
    (w.setPhase i phase).keyspace = w.keyspace := rfl
@[simp] lemma setPhase_evals (w : World) (i : ℕ) (phase : Phase) :
    (w.setPhase i phase).evals = w.evals := rfl
@[simp] lemma setPhase_phase (w : World) (i : ℕ) (phase : Phase) :
    ((w.setPhase i phase).clients i).phase = phase := by simp [setPhase]
@[simp] lemma setPhase_engine (w : World) (i j : ℕ) (phase : Phase) :
    ((w.setPhase i phase).clients j).engine = (w.clients j).engine := by
  by_cases h : j = i
  · subst h; simp [setPhase]
  · simp [setPhase, h]
@[simp] lemma setPhase_request (w : World) (i j : ℕ) (phase : Phase) :
    ((w.setPhase i phase).clients j).request = (w.clients j).request := by
  by_cases h : j = i
  · subst h; simp [setPhase]
  · simp [setPhase, h]
lemma setPhase_other (w : World) {j} (phase : Phase) (h : j ≠ i) :
    (w.setPhase i phase).clients j = w.clients j := by simp [setPhase, h]

@[simp] lemma setEval_keyspace (w : World) (i n : ℕ) (eval : Eval) :
    (w.setEval i n eval).keyspace = w.keyspace := rfl
@[simp] lemma setEval_clients (w : World) (i n : ℕ) (eval : Eval) :
    (w.setEval i n eval).clients = w.clients := rfl
@[simp] lemma setEval_self (w : World) (i n : ℕ) (eval : Eval) :
    (w.setEval i n eval).evals i n = eval := by simp [setEval]
lemma setEval_attempt (w : World) {n m} (eval : Eval) (h : m ≠ n) :
    (w.setEval i n eval).evals i m = w.evals i m := by simp [setEval, h]
lemma setEval_other (w : World) {j} (n : ℕ) (eval : Eval) (h : j ≠ i) :
    (w.setEval i n eval).evals j = w.evals j := by simp [setEval, h]

end World

/-! ### Steps of one client -/

lemma Eval.Quiet.of_unsent {eval : Eval} (h : eval = .unsent) : eval.Quiet := by
  rw [h]
  trivial

lemma quiet_of_unsent {evals : ℕ → Eval} (hquiet : ∀ m < n, (evals m).Quiet)
    (hunsent : ∀ m, n ≤ m → evals m = .unsent) (m : ℕ) : (evals m).Quiet := by
  rcases Nat.lt_or_ge m n with hlt | hge
  · exact hquiet m hlt
  · exact .of_unsent (hunsent m hge)

/-- Nothing changes for any client when only a phase is set. -/
lemma sameFor_setPhase (w : World) (i : ℕ) (phase : Phase) (j : ℕ) :
    SameFor w (w.setPhase i phase) j where
  engine := w.setPhase_engine i j phase
  request := w.setPhase_request i j phase
  evals := rfl
  records _ _ _ _ _ h := h

lemma Invariant.setPhase (h : Invariant p w) {phase}
    (hphase : PhaseInvariant p w i phase) : Invariant p (w.setPhase i phase) := by
  refine h.of_sameFor (i := i) (fun j hj => ⟨sameFor_setPhase w i phase j, ?_⟩) ?_ fun n =>
    (sameFor_setPhase w i phase i).pending (h.pending i n)
  · rw [w.setPhase_other phase hj]
  · rw [w.setPhase_phase]
    exact (sameFor_setPhase w i phase i).phase hphase

/-- A failed answer is sound when nothing was written, or when it is commit-unknown. -/
lemma fail_invariant (h : error.code ≠ .commitUnknown → ∀ m, (w.evals i m).Quiet) :
    PhaseInvariant p w i ((w.clients i).fail error) :=
  ⟨fun hok => absurd hok error.failed, fun _ hunknown => h hunknown⟩

/-- The inner `catch` is sound when nothing was written so far. -/
lemma raise_invariant (hprep : prepare p (w.clients i).engine (w.clients i).request = .ok prepared)
    (hquiet : ∀ m ≤ n, (w.evals i m).Quiet) (hunsent : ∀ m, n < m → w.evals i m = .unsent) :
    PhaseInvariant p w i ((w.clients i).raise prepared n error paused) := by
  unfold Client.raise
  split
  · exact ⟨hprep, fun m hm => hquiet m (by omega), fun m hm => hunsent m (by omega)⟩
  · refine fail_invariant fun _ m => ?_
    rcases Nat.lt_or_ge n m with hlt | hge
    · exact .of_unsent (hunsent m hlt)
    · exact hquiet m hge

lemma begin_invariant {fault : Option Bytes} (h : PhaseInvariant p w i .called) :
    PhaseInvariant p w i ((w.clients i).begin p fault) := by
  cases fault with
  | some text => exact fail_invariant fun _ m => .of_unsent (h m)
  | none =>
    simp only [Client.begin]
    split
    · exact fail_invariant fun _ m => .of_unsent (h m)
    · next prepared hprep =>
      exact ⟨hprep, fun m _ => .of_unsent (h m), fun m _ => h m⟩

lemma afterRead_invariant (h : PhaseInvariant p w i (.attempt prepared n)) :
    PhaseInvariant p w i ((w.clients i).afterRead p prepared n
      (hmget (w.keyspace prepared.hash) prepared.reads) paused) := by
  obtain ⟨hprep, hquiet, hunsent⟩ := h
  unfold Client.afterRead
  split
  · exact raise_invariant hprep (fun m _ => quiet_of_unsent hquiet hunsent m) fun m hm =>
      hunsent m (by omega)
  · next result hplan =>
    obtain ⟨record, hrec, hreplay⟩ := planCommit_replayed hplan
    exact ⟨fun _ => ⟨prepared, record, hprep, hrec, hreplay⟩, fun _ _ =>
      quiet_of_unsent hquiet hunsent⟩
  · next plan hplan => exact ⟨hprep, ⟨_, hplan⟩, hquiet, hunsent⟩

/-- When `save` takes a reply for success. -/
lemma finishCommit_some {request} (h : finishCommit prepared request plan reply = .ok (some result)) :
    (∃ k, reply = .integer k ∧ result = committedResult request plan.entities) ∨
    ∃ previous, reply = .array [.integer 2, .string previous] ∧
      replay request prepared.signature previous = .ok result := by
  simp only [finishCommit, bind_eq_ok] at h
  obtain ⟨-, -, h⟩ := h
  split at h
  · next k =>
    cases h
    exact .inl ⟨k, rfl, rfl⟩
  · next status rest =>
    split at h
    · next previous =>
      split at h
      · next hstat =>
        simp only [bind_eq_ok] at h
        obtain ⟨bytes, hbytes, result', hreplay, hok⟩ := h
        cases hok
        cases previous with
        | string b =>
          cases hbytes
          exact .inr ⟨bytes, by rw [hstat], hreplay⟩
        | _ => cases hbytes
      · rw [corrupt, guard_eq_ok] at h
        cases h.2
    · rw [corrupt, guard_eq_ok] at h
      cases h.2
  · cases h

/-- An acknowledged commit is never taken for a failure. -/
lemma finishCommit_integer {request k} :
    finishCommit prepared request plan (.integer k)
      = .ok (some (committedResult request plan.entities)) := rfl

lemma afterReply_invariant (h : PhaseInvariant p w i (.committing prepared n plan))
    (hrep : w.evals i n = .answered reply) :
    PhaseInvariant p w i ((w.clients i).afterReply prepared n plan reply paused) := by
  obtain ⟨hprep, ⟨old, hplan⟩, hquiet, hunsent, hsent⟩ := h
  rw [hrep] at hsent
  -- a reply that is not an acknowledgement means that this attempt wrote nothing
  have hle : (∀ k, reply ≠ .integer k) → ∀ m ≤ n, (w.evals i m).Quiet := by
    intro hno m hm
    rcases Nat.lt_or_eq_of_le hm with hlt | rfl
    · exact hquiet m hlt
    · rw [hrep]
      exact hno
  unfold Client.afterReply
  split
  · next error herr =>
    refine raise_invariant hprep (hle ?_) hunsent
    rintro k rfl
    cases herr
  · next result hres =>
    obtain ⟨documents, documents', hplanned⟩ := planCommit_planned hplan
    rcases finishCommit_some hres with ⟨k, hk, rfl⟩ | ⟨previous, hprev, hreplay⟩
    · refine ⟨fun _ => ⟨prepared, plan.record, hprep, hsent.1 k hk,
        hplanned.replay (prepare_valid hprep)⟩, fun hcode => absurd rfl hcode⟩
    · refine ⟨fun _ => ⟨prepared, previous, hprep, hsent.2 previous hprev, hreplay⟩,
        fun hcode => ?_⟩
      simp only [replay, corrupt, bind_eq_ok, error_bind,
        guard_eq_ok] at hreplay
      obtain ⟨_, -, _, -, -, _, -, -, _, -, -, _, -, -, -, hok⟩ := hreplay
      cases hok
      exact absurd rfl hcode
  · next hnone =>
    have hno : ∀ k, reply ≠ .integer k := by
      rintro k rfl
      cases hnone
    split
    · exact ⟨hprep, fun m hm => hle hno m (by omega), fun m hm => hunsent m (by omega)⟩
    · refine fail_invariant fun _ m => ?_
      rcases Nat.lt_or_ge n m with hlt | hge
      · exact .of_unsent (hunsent m hlt)
      · exact hle hno m hge

/-! ### Steps of Redis -/

section

variable {request} (hval : prepared.Valid p request) (hplans : Plans p prepared request plan)
include hval hplans

/-- **Executing a planned script leaves every commit record as it is.** -/
lemma commitScript_records (hfield : ledgerField r = .ok field) (hrec : hash[field]? = some record) :
    (hset hash (commitScript hash (plan.arguments prepared.ledger)).2)[field]? = some record := by
  by_cases hwrites : (commitScript hash (plan.arguments prepared.ledger)).2 = []
  · rw [hwrites, hset, Std.ExtTreeMap.insertMany_nil, hrec]
  · obtain ⟨old, hplan⟩ := hplans
    have happlies := commitScript_applies hval.ledger_not_mem hplan hwrites
    rw [happlies.others _ (hval.ledgerField_not_mem hfield), hrec]
    · -- the record of this request was not there
      rintro rfl
      have hfresh := happlies.fresh
      rw [Std.ExtTreeMap.mem_iff_isSome_getElem?, hrec] at hfresh
      exact hfresh rfl

/-- What a planned script replies is true of the hash after it. -/
lemma commitScript_sent :
    Sent (hset hash (commitScript hash (plan.arguments prepared.ledger)).2) prepared plan
      (.answered (commitScript hash (plan.arguments prepared.ledger)).1) := by
  constructor
  · intro k hk
    have hwrites := commitScript_integer.mp ⟨k, hk⟩
    obtain ⟨old, hplan⟩ := hplans
    obtain ⟨documents, documents', hplanned⟩ := planCommit_planned hplan
    obtain ⟨record, hrec, hstore⟩ :=
      (commitScript_applies hval.ledger_not_mem hplan hwrites).record
    rw [hplanned.record, Except.ok.injEq] at hrec
    rw [hstore, hrec]
  · intro previous hprev
    refine commitScript_records hval hplans hval.ledger ?_
    rw [commitScript_plan] at hprev
    cases hledger : hash[prepared.ledger]? with
    | some found =>
      simp only [hledger, Reply.array.injEq, List.cons.injEq, Reply.string.injEq] at hprev
      rw [hprev.2.1]
    | none =>
      simp only [hledger] at hprev
      split at hprev
      · cases hprev
      · split at hprev <;> simp at hprev

end

section

variable (h : Invariant p w) (hpend : w.evals i n = .pending key arguments)
include h hpend

/-- A client with a pending script is waiting for it or has given up. -/
lemma Invariant.pending_phase :
    (∃ prepared plan, (w.clients i).phase = .committing prepared n plan) ∨
    ∃ result, (w.clients i).phase = .answered result ∧
      (result.code = .ok ∨ result.code = .commitUnknown) := by
  have hphase := h.phase i
  have hnotQuiet : ¬(w.evals i n).Quiet := by
    rw [hpend]
    exact id
  have hsent : w.evals i n ≠ .unsent := by simp [hpend]
  cases hc : (w.clients i).phase with
  | called =>
    rw [hc] at hphase
    exact absurd (hphase n) hsent
  | attempt prepared m =>
    rw [hc] at hphase
    rcases Nat.lt_or_ge n m with hlt | hge
    · exact absurd (hphase.2.1 n hlt) hnotQuiet
    · exact absurd (hphase.2.2 n hge) hsent
  | planned prepared m plan =>
    rw [hc] at hphase
    rcases Nat.lt_or_ge n m with hlt | hge
    · exact absurd (hphase.2.2.1 n hlt) hnotQuiet
    · exact absurd (hphase.2.2.2 n hge) hsent
  | committing prepared m plan =>
    rw [hc] at hphase
    obtain ⟨-, -, hquiet, hunsent, -⟩ := hphase
    rcases lt_trichotomy n m with hlt | rfl | hgt
    · exact absurd (hquiet n hlt) hnotQuiet
    · exact .inl ⟨prepared, plan, rfl⟩
    · exact absurd (hunsent n hgt) hsent
  | answered result =>
    rw [hc] at hphase
    refine .inr ⟨result, rfl, ?_⟩
    by_contra hcode
    rw [not_or] at hcode
    exact hnotQuiet (hphase.2 hcode.1 hcode.2 n)

/-- Answering a pending script keeps the invariant, when the answer is true of the hash and every
commit record stays. -/
lemma Invariant.answer (hcl : w'.clients = w.clients)
    (hevals : w'.evals = (w.setEval i n (.answered reply)).evals)
    (hrecs : ∀ key r field record, ledgerField r = .ok field →
      (w.keyspace key)[field]? = some record → (w'.keyspace key)[field]? = some record)
    (hsent : ∀ prepared plan, prepare p (w.clients i).engine (w.clients i).request = .ok prepared →
      Plans p prepared (w.clients i).request plan → key = prepared.hash →
      arguments = plan.arguments prepared.ledger →
      Sent (w'.keyspace prepared.hash) prepared plan (.answered reply)) :
    Invariant p w' := by
  have hsame : ∀ j, j ≠ i → SameFor w w' j := fun j hj =>
    ⟨by rw [hcl], by rw [hcl], by rw [hevals, w.setEval_other n _ hj], hrecs⟩
  have hself : w'.evals i n = .answered reply := by rw [hevals, w.setEval_self]
  have hatt : ∀ m, m ≠ n → w'.evals i m = w.evals i m := fun m hm => by
    rw [hevals, w.setEval_attempt _ hm]
  refine h.of_sameFor (i := i) (fun j hj => ⟨hsame j hj, by rw [hcl]⟩) ?_ ?_
  · have hphase := h.phase i
    rcases h.pending_phase hpend with ⟨prepared, plan, hc⟩ | ⟨result, hc, hcode⟩
    · rw [hc] at hphase
      obtain ⟨hprep, hplans, hquiet, hunsent, hwas⟩ := hphase
      rw [hpend] at hwas
      rw [hcl, hc, PhaseInvariant, hcl, hself]
      exact ⟨hprep, hplans, fun m hm => by rw [hatt m (by omega)]; exact hquiet m hm,
        fun m hm => by rw [hatt m (by omega)]; exact hunsent m hm,
        hsent prepared plan hprep hplans hwas.1 hwas.2⟩
    · rw [hc] at hphase
      rw [hcl, hc, PhaseInvariant, hcl]
      refine ⟨fun hok => ?_, fun hok hunknown => absurd hcode (not_or.mpr ⟨hok, hunknown⟩)⟩
      obtain ⟨prepared, record, hprep, hrec, hreplay⟩ := hphase.1 hok
      exact ⟨prepared, record, hprep,
        hrecs _ _ _ _ (prepare_valid hprep).ledger hrec, hreplay⟩
  · intro m key' arguments' hpend'
    by_cases hm : m = n
    · rw [hm, hself] at hpend'
      cases hpend'
    · rw [hatt m hm] at hpend'
      rw [hcl]
      exact h.pending i m key' arguments' hpend'

end

/-! ### Every step -/

/-- Sending a planned script keeps the invariant, whatever its client does then. -/
lemma Invariant.send (h : Invariant p w)
    (hc : (w.clients i).phase = .planned prepared n plan) {phase}
    (hphase : PhaseInvariant p
      (w.setEval i n (.pending prepared.hash (plan.arguments prepared.ledger))) i phase) :
    Invariant p ((w.setEval i n (.pending prepared.hash (plan.arguments prepared.ledger))).setPhase
      i phase) := by
  have hplan := h.phase i
  rw [hc] at hplan
  obtain ⟨hprep, hplans, -, -⟩ := hplan
  have hsame := sameFor_setPhase
    (w.setEval i n (.pending prepared.hash (plan.arguments prepared.ledger))) i phase
  refine h.of_sameFor (i := i) (fun j hj => ⟨⟨(hsame j).engine, (hsame j).request, ?_, ?_⟩, ?_⟩) ?_ ?_
  · rw [(hsame j).evals, w.setEval_other n _ hj]
  · exact fun _ _ _ _ _ hrec => hrec
  · rw [World.setPhase_other _ phase hj, w.setEval_clients]
  · rw [World.setPhase_phase]
    exact (hsame i).phase hphase
  · intro m
    refine (hsame i).pending fun key arguments hpend => ?_
    by_cases hm : m = n
    · rw [hm, w.setEval_self] at hpend
      cases hpend
      exact ⟨prepared, plan, hprep, hplans, rfl, rfl⟩
    · rw [w.setEval_attempt _ hm] at hpend
      exact h.pending i m key arguments hpend

/-- What executing a script does. -/
lemma step_execute (h : Invariant p w)
    (hstep : w.step p (.execute i n) = some w') : ∃ prepared plan,
      prepare p (w.clients i).engine (w.clients i).request = .ok prepared ∧
      Plans p prepared (w.clients i).request plan ∧
      w.evals i n = .pending prepared.hash (plan.arguments prepared.ledger) ∧
      w' = { w.setEval i n (.answered (commitScript (w.keyspace prepared.hash)
            (plan.arguments prepared.ledger)).1) with
          keyspace := Function.update w.keyspace prepared.hash (hset (w.keyspace prepared.hash)
            (commitScript (w.keyspace prepared.hash) (plan.arguments prepared.ledger)).2) } := by
  simp only [World.step] at hstep
  split at hstep
  · next key arguments hpend =>
    cases hstep
    obtain ⟨prepared, plan, hprep, hplans, rfl, rfl⟩ := h.pending i n _ _ hpend
    exact ⟨prepared, plan, hprep, hplans, hpend, rfl⟩
  · cases hstep

/-- **What an event can do**: it sets the phase of a client that was not answered, and may send its
script; or it answers a pending script, and only executing one changes a hash. -/
inductive Effect (w : World) (event : Event) : World → Prop
  | phase {i : ℕ} (phase : Phase) (hlive : ∀ result, (w.clients i).phase ≠ .answered result) :
      Effect w event (w.setPhase i phase)
  | sent {i n : ℕ} {prepared : Prepared} {plan : Plan} (eval : Eval) (phase : Phase)
      (hplanned : (w.clients i).phase = .planned prepared n plan) :
      Effect w event ((w.setEval i n eval).setPhase i phase)
  | answered {i n : ℕ} {key : Bytes} {arguments : List Bytes} {keyspace : Bytes → Hash} (eval : Eval)
      (hpending : w.evals i n = .pending key arguments)
      (hkeyspace : (∀ i n, event ≠ .execute i n) → keyspace = w.keyspace) :
      Effect w event { w.setEval i n eval with keyspace }

lemma step_effect (hstep : w.step p event = some w') : Effect w event w' := by
  have hset : ∀ {j} {old} phase, (w.clients j).phase = old →
      (∀ result, old ≠ .answered result) → Effect w event (w.setPhase j phase) :=
    fun phase hold hlive => .phase phase fun result => hold ▸ hlive result
  cases event with
  | execute j n =>
    simp only [World.step] at hstep
    split at hstep
    · next hpend =>
      cases hstep
      exact .answered _ hpend fun hno => absurd rfl (hno j n)
    · cases hstep
  | refuse j n text =>
    simp only [World.step] at hstep
    split at hstep
    · next hpend =>
      cases hstep
      exact .answered _ hpend fun _ => rfl
    · cases hstep
  | send j outcome paused =>
    simp only [World.step] at hstep
    split at hstep
    · next hc =>
      split at hstep
      · cases hstep
        exact hset _ hc (by simp)
      · cases hstep
        exact .sent _ _ hc
      · cases hstep
        exact .sent _ _ hc
      · cases hstep
        exact hset _ hc (by simp)
    · cases hstep
  | _ =>
    simp only [World.step] at hstep
    split at hstep
    · next hc =>
      repeat' split at hstep
      all_goals first
        | cases hstep
          done
        | cases hstep
          exact hset _ hc (by simp)
    · cases hstep

/-- Only executing a script changes a hash, and no client ever changes its engine or request. -/
lemma step_frame (hstep : w.step p event = some w') :
    ((∀ i n, event ≠ .execute i n) → w'.keyspace = w.keyspace) ∧
    ∀ j, (w'.clients j).engine = (w.clients j).engine ∧
      (w'.clients j).request = (w.clients j).request := by
  cases step_effect hstep with
  | phase phase | sent eval phase => exact ⟨fun _ => rfl, fun j => ⟨by simp, by simp⟩⟩
  | answered eval _ hks => exact ⟨hks, fun j => ⟨rfl, rfl⟩⟩

/-- **Commit records are never changed.** -/
lemma step_records (h : Invariant p w) (hstep : w.step p event = some w')
    (hfield : ledgerField r = .ok field) (hrec : (w.keyspace key)[field]? = some record) :
    (w'.keyspace key)[field]? = some record := by
  cases event with
  | execute i n =>
    obtain ⟨prepared, plan, hprep, hplans, -, rfl⟩ := step_execute h hstep
    by_cases hkey : key = prepared.hash
    · subst hkey
      simpa using commitScript_records (prepare_valid hprep) hplans hfield hrec
    · simpa [hkey] using hrec
  | _ =>
    rw [(step_frame hstep).1 (by simp)]
    exact hrec

/-- **Every step preserves the invariant.** -/
theorem step_invariant (w : World) (event : Event) (w' : World) (h : Invariant p w)
    (hstep : w.step p event = some w') : Invariant p w' := by
  cases event with
  | prepare i fault =>
    have hphase := h.phase i
    simp only [World.step] at hstep
    split at hstep
    · next hc =>
      cases hstep
      rw [hc] at hphase
      exact h.setPhase (begin_invariant hphase)
    · cases hstep
  | read i outcome paused =>
    have hphase := h.phase i
    simp only [World.step] at hstep
    split at hstep
    · next prepared n hc =>
      rw [hc] at hphase
      have hquiet := quiet_of_unsent hphase.2.1 hphase.2.2
      cases outcome with
      | failed text =>
        cases hstep
        exact h.setPhase (raise_invariant hphase.1 (fun m _ => hquiet m)
          fun m hm => hphase.2.2 m (by omega))
      | executed =>
        cases hstep
        exact h.setPhase (afterRead_invariant hphase)
      | fault text =>
        cases hstep
        exact h.setPhase (fail_invariant fun _ => hquiet)
    · cases hstep
  | send i outcome paused =>
    have hphase := h.phase i
    simp only [World.step] at hstep
    split at hstep
    · next prepared n plan hc =>
      rw [hc] at hphase
      obtain ⟨hprep, hplans, hquiet, hunsent⟩ := hphase
      split at hstep
      · cases hstep
        exact h.setPhase (raise_invariant hprep (fun m _ => quiet_of_unsent hquiet hunsent m)
          fun m hm => hunsent m (by omega))
      · cases hstep
        refine h.send hc ⟨hprep, hplans, fun m hm => ?_, fun m hm => ?_, ?_⟩
        · rw [w.setEval_attempt _ (by omega)]
          exact hquiet m hm
        · rw [w.setEval_attempt _ (by omega)]
          exact hunsent m (by omega)
        · rw [w.setEval_self]
          exact ⟨rfl, rfl⟩
      · cases hstep
        exact h.send hc (fail_invariant fun hcode => absurd rfl hcode)
      · cases hstep
        exact h.setPhase (fail_invariant fun hcode => absurd rfl hcode)
    · cases hstep
  | execute i n =>
    have hrecs : ∀ key r field record, ledgerField r = .ok field →
        (w.keyspace key)[field]? = some record → (w'.keyspace key)[field]? = some record :=
      fun _ _ _ _ => step_records h hstep
    obtain ⟨prepared, plan, hprep, hplans, hpend, rfl⟩ := step_execute h hstep
    refine h.answer hpend rfl rfl hrecs ?_
    intro prepared' plan' hprep' hplans' hhash harguments
    rw [← hhash, harguments]
    simp only [Function.update_self]
    exact commitScript_sent (prepare_valid hprep') hplans'
  | refuse i n text =>
    simp only [World.step] at hstep
    split at hstep
    · next key arguments hpend =>
      cases hstep
      refine h.answer hpend rfl rfl (fun _ _ _ _ _ hrec => hrec) ?_
      intro prepared plan _ _ _ _
      constructor
      · intro k hk
        cases hk
      · intro previous hprev
        cases hprev
    · cases hstep
  | receive i fault paused =>
    have hphase := h.phase i
    simp only [World.step] at hstep
    split at hstep
    · next prepared n plan hc =>
      rw [hc] at hphase
      split at hstep
      · next reply hrep =>
        split at hstep
        · cases hstep
        · next text hno =>
          cases hstep
          refine h.setPhase (fail_invariant fun _ m => ?_)
          rcases lt_trichotomy m n with hlt | rfl | hgt
          · exact hphase.2.2.1 m hlt
          · rw [hrep]
            exact fun k hk => hno k hk
          · exact .of_unsent (hphase.2.2.2.1 m hgt)
        · cases hstep
          exact h.setPhase (afterReply_invariant hphase hrep)
      · cases hstep
    · cases hstep
  | lose i text =>
    simp only [World.step] at hstep
    split at hstep
    · cases hstep
      exact h.setPhase (fail_invariant fun hcode => absurd rfl hcode)
    · cases hstep

/-! ## Applied at most once, atomically -/

/-- The event is the execution of a script that writes the field of the hash. -/
def World.Writes (w : World) (event : Event) (key field : Bytes) : Prop :=
  match event with
  | .execute i n => (w.writes i n).1 = key ∧ field ∈ (w.writes i n).2.map Prod.fst
  | _ => False

/-- **A script that writes a commit record** is the execution of a planned script for that request
id, whose record was not there. -/
lemma Invariant.writes_ledger (h : Invariant p w) (hfield : ledgerField r = .ok field) (hwrites : w.Writes event key field) :
    ∃ i n prepared plan, event = .execute i n ∧
      prepare p (w.clients i).engine (w.clients i).request = .ok prepared ∧
      Plans p prepared (w.clients i).request plan ∧
      w.evals i n = .pending key (plan.arguments prepared.ledger) ∧
      prepared.hash = key ∧ prepared.ledger = field ∧ (w.clients i).request.requestId = r ∧
      (w.keyspace key)[field]? = none ∧
      (commitScript (w.keyspace key) (plan.arguments prepared.ledger)).2 ≠ [] := by
  cases event with
  | execute i n =>
    obtain ⟨hkey, hmem⟩ := hwrites
    cases hpend : w.evals i n with
    | pending key' arguments =>
      simp only [World.writes, hpend] at hkey hmem
      subst hkey
      obtain ⟨prepared, plan, hprep, hplans, hkey, rfl⟩ := h.pending i n _ _ hpend
      have hval := prepare_valid hprep
      have hne : (commitScript (w.keyspace key') (plan.arguments prepared.ledger)).2 ≠ [] := by
        intro hnil
        simp [hnil] at hmem
      obtain ⟨hfresh, -, hupdates⟩ := commitScript_writes hne
      -- an object is not named like a commit record, so the field is the plan's own record
      have hledger : field = prepared.ledger := by
        rw [hupdates, Plan.updates, List.map_cons, List.mem_cons, List.map_map] at hmem
        obtain ⟨old, hplan⟩ := hplans
        obtain ⟨documents, documents', hplanned⟩ := planCommit_planned hplan
        refine hmem.resolve_right fun hobject => ?_
        exact hval.ledgerField_not_mem hfield (hplanned.mem_fields.mp hobject)
      have hreq := hval.ledger
      rw [← hledger] at hreq hfresh
      exact ⟨i, n, prepared, plan, rfl, hprep, hplans, hpend, hkey.symm, hledger.symm,
        ledgerField_injective hreq hfield, hfresh, hne⟩
    | unsent | answered reply => simp [World.writes, hpend] at hmem
  | _ => exact hwrites.elim

/-- A script for a request whose commit record is there changes nothing. -/
lemma Invariant.later_save (h : Invariant p w) (hprep : prepare p (w.clients event.client).engine
      (w.clients event.client).request = .ok prepared)
    (hrec : (w.keyspace prepared.hash)[prepared.ledger]? = some record)
    (hstep : w.step p event = some w') : w'.keyspace = w.keyspace := by
  cases event with
  | execute i n =>
    obtain ⟨prepared', plan, hprep', -, -, rfl⟩ := step_execute h hstep
    rw [Event.client, hprep', Except.ok.injEq] at hprep
    subst hprep
    have hnothing : (commitScript (w.keyspace prepared'.hash)
        (plan.arguments prepared'.ledger)).2 = [] := by
      rw [commitScript_plan, hrec]
    simp only [hnothing, hset, Std.ExtTreeMap.insertMany_nil, Function.update_eq_self]
  | _ => exact (step_frame hstep).1 (by simp)

/-- **A save is applied at most once, and atomically.**  In any run, take the execution of a script
that writes the commit record of a request id `r` in a hash.  It applies the changes of its request
one after another to the hash as it is at that instant, and touches nothing but the objects of the
request and the record.  From then on no script writes that record again; a save under the same
id changes no hash; and it answers ok only when its request has the same contents, with the
versions committed first. -/
theorem save_applied_once {w₀ w₁ w₁' w₂ : World} {before after : List Event} {event : Event}
    {key r field : Bytes} (hinit : w₀.Initial)
    (hbefore : Machine.run (World.step p) w₀ before = some w₁)
    (hstep : w₁.step p event = some w₁')
    (hafter : Machine.run (World.step p) w₁' after = some w₂)
    (hfield : ledgerField r = .ok field) (hwrites : w₁.Writes event key field) :
    ∃ prepared entities,
      prepare p (w₁.clients event.client).engine (w₁.clients event.client).request = .ok prepared ∧
      prepared.hash = key ∧ (w₁.clients event.client).request.requestId = r ∧
      Applies p prepared (w₁.clients event.client).request (w₁.keyspace key) (w₁'.keyspace key)
        entities ∧
      (∀ other, other ≠ key → w₁'.keyspace other = w₁.keyspace other) ∧
      (∀ later, ¬w₂.Writes later key field) ∧
      ∀ j prepared', prepare p (w₂.clients j).engine (w₂.clients j).request = .ok prepared' →
        prepared'.hash = key → (w₂.clients j).request.requestId = r →
        (∀ later w₃, later.client = j → w₂.step p later = some w₃ → w₃.keyspace = w₂.keyspace) ∧
        ∀ result, (w₂.clients j).phase = .answered result → result.code = .ok →
          (∃ changes, requestContent p (w₁.clients event.client).request = .ok changes ∧
            requestContent p (w₂.clients j).request = .ok changes) ∧
          result.entities.map CommittedEntity.version
            = entities.map CommittedEntity.version := by
  have h₁ : Invariant p w₁ := run_invariant step_invariant hinit.invariant hbefore
  have h₁' : Invariant p w₁' := step_invariant w₁ event w₁' h₁ hstep
  have h₂ : Invariant p w₂ := run_invariant step_invariant h₁' hafter
  obtain ⟨i, n, prepared, plan, rfl, hprep, ⟨old, hplan⟩, hpend, rfl, rfl, hr, -, hne⟩ :=
    h₁.writes_ledger hfield hwrites
  have hval := prepare_valid hprep
  have happlies := commitScript_applies hval.ledger_not_mem hplan hne
  simp only [World.step, hpend, some.injEq] at hstep
  subst hstep
  -- the record is in the hash from the write on
  obtain ⟨record, hrecord, hstore⟩ := happlies.record
  have hkept : (w₂.keyspace prepared.hash)[prepared.ledger]? = some record := by
    refine (run_invariant (I := fun w => Invariant p w ∧
      (w.keyspace prepared.hash)[prepared.ledger]? = some record) ?_ ⟨h₁', ?_⟩ hafter).2
    · rintro w event w' ⟨hw, hrec⟩ hs
      exact ⟨step_invariant w event w' hw hs, step_records hw hs hfield hrec⟩
    · simpa using hstore
  obtain ⟨documents, documents', hplanned⟩ := planCommit_planned hplan
  have hreplay := hplanned.replay hval
  rw [hplanned.record, Except.ok.injEq] at hrecord
  subst hrecord
  refine ⟨prepared, plan.entities, hprep, rfl, hr, ?_, ?_, ?_, ?_⟩
  · simpa [Event.client] using happlies
  · intro other hoth
    simp [hoth]
  · intro later hlater
    obtain ⟨_, _, _, _, _, _, _, _, _, _, _, hfresh, _⟩ := h₂.writes_ledger hfield hlater
    rw [hkept] at hfresh
    cases hfresh
  · intro j prepared' hprep' hkey' hr'
    have hval' := prepare_valid hprep'
    have hledger' : prepared'.ledger = prepared.ledger := by
      have := hval'.ledger
      rw [hr', hfield, Except.ok.injEq] at this
      exact this.symm
    constructor
    · rintro later w₃ rfl hlater
      exact h₂.later_save hprep' (by rw [hkey', hledger']; exact hkept) hlater
    · intro result hres hcode
      have hphase := h₂.phase j
      rw [hres] at hphase
      obtain ⟨prepared'', record', hprep'', hrec', hreplay'⟩ := hphase.1 hcode
      rw [hprep', Except.ok.injEq] at hprep''
      subst hprep''
      rw [hkey', hledger', hkept, some.injEq] at hrec'
      subst hrec'
      have hlen := hval.length_le
      have hlen' := hval'.length_le
      obtain ⟨hsig, hvers⟩ := replay_agree hreplay hreplay' (by omega) (by omega)
      refine ⟨signature_content hval.signature ?_, hvers.symm⟩
      rw [hsig]
      exact hval'.signature

namespace Sample

/-- Every client sends the same request, to an empty Redis. -/
def world : World where
  keyspace _ := ∅
  clients _ := { engine, request := request (str "r1") }
  evals _ _ := .unsent

lemma world_initial : world.Initial := ⟨fun _ => rfl, fun _ _ => rfl⟩

/-- One client up to its commit. -/
def untilCommit : List Event := [.prepare 0 none, .read 0 .executed true, .send 0 .sent true]

/-- The commit is acknowledged; another client finds it. -/
def afterCommit : List Event := [.receive 0 none true, .prepare 1 none, .read 1 .executed true]

end Sample

open Sample Framing in
/-- Two clients with one request: the first commits it, and the second finds the record. -/
theorem save_applied_once_sample : ∃ w₁ w₁' w₂,
    Machine.run (World.step .integral) world untilCommit = some w₁ ∧
    w₁.step .integral (.execute 0 1) = some w₁' ∧
    Machine.run (World.step .integral) w₁' afterCommit = some w₂ ∧
    w₁.Writes (.execute 0 1) (hashKey store) (frame (str "request") ++ frame (str "r1")) ∧
    ∀ later, ¬w₂.Writes later (hashKey store) (frame (str "request") ++ frame (str "r1")) := by
  obtain ⟨w₁, h₁⟩ := isSome_iff_exists.mp
    (show (Machine.run (World.step .integral) world untilCommit).isSome by decide +kernel)
  have hstep : ((Machine.run (World.step .integral) world untilCommit).bind fun w =>
      w.step .integral (.execute 0 1)).isSome := by decide +kernel
  rw [h₁, bind_some] at hstep
  obtain ⟨w₁', h₁'⟩ := isSome_iff_exists.mp hstep
  have hrest : ((Machine.run (World.step .integral) world untilCommit).bind fun w =>
      (w.step .integral (.execute 0 1)).bind fun w' =>
        Machine.run (World.step .integral) w' afterCommit).isSome := by decide +kernel
  rw [h₁, bind_some, h₁', bind_some] at hrest
  obtain ⟨w₂, h₂⟩ := isSome_iff_exists.mp hrest
  have hwrites : (Machine.run (World.step .integral) world untilCommit).all fun w =>
      (w.writes 0 1).1 = hashKey store ∧
        (frame (str "request") ++ frame (str "r1")) ∈ (w.writes 0 1).2.map Prod.fst := by
    decide +kernel
  rw [h₁, all_some, decide_eq_true_eq] at hwrites
  obtain ⟨_, _, _, _, _, _, _, hlater, _⟩ :=
    save_applied_once world_initial h₁ h₁' h₂ (r := str "r1") (by decide +kernel) hwrites
  exact ⟨w₁, w₁', w₂, h₁, h₁', h₂, hwrites, hlater⟩

/-! ## Failures write nothing -/

/-- An answer is final. -/
lemma step_answered (hstep : w.step p event = some w') (h : (w.clients i).phase = .answered result) :
    (w'.clients i).phase = .answered result := by
  have hoth : ∀ {v : World} {j : ℕ} (phase : Phase), v.clients = w.clients → j ≠ i →
      ((v.setPhase j phase).clients i).phase = .answered result := by
    intro v j phase hv hj
    rw [v.setPhase_other phase (Ne.symm hj), hv, h]
  cases step_effect hstep with
  | phase phase hlive =>
    refine hoth phase rfl ?_
    rintro rfl
    exact hlive result h
  | sent eval phase hplan =>
    refine hoth phase rfl ?_
    rintro rfl
    cases hplan.symm.trans h
  | answered => exact h

/-- A script is answered once. -/
lemma step_reply (hw : Invariant p w) (hstep : w.step p event = some w')
    (h : w.evals i n = .answered reply) : w'.evals i n = .answered reply := by
  -- setting another script's state does not matter
  have hset : ∀ j m eval, w.evals j m ≠ .answered reply →
      (w.setEval j m eval).evals i n = .answered reply := by
    intro j m eval hno
    by_cases hj : i = j
    · subst hj
      have hm : n ≠ m := by
        rintro rfl
        exact hno h
      rw [w.setEval_attempt eval hm, h]
    · rw [w.setEval_other m eval hj, h]
  cases step_effect hstep with
  | phase => exact h
  | @sent j m prepared plan eval phase hplan =>
    have hphase := hw.phase j
    rw [hplan] at hphase
    exact hset j m eval (by simp [hphase.2.2.2 m le_rfl])
  | @answered j m key arguments keyspace eval hpend => exact hset j m eval (by simp [hpend])

/-- **A failed save has written nothing.**  When a save answers with a code other than ok or
commit-unknown, no script of any of its attempts writes a field, before the answer or after it. -/
theorem save_failure_wrote_nothing {w₀ w w' : World} {events later : List Event} {i : ℕ}
    {result : SaveResult} (hinit : w₀.Initial)
    (hrun : Machine.run (World.step p) w₀ events = some w)
    (hanswer : (w.clients i).phase = .answered result)
    (hok : result.code ≠ .ok) (hunknown : result.code ≠ .commitUnknown)
    (hlater : Machine.run (World.step p) w later = some w') :
    ∀ before event rest wₑ, events ++ later = before ++ event :: rest →
      Machine.run (World.step p) w₀ before = some wₑ → event.client = i →
      ∀ key field, ¬wₑ.Writes event key field := by
  intro before event rest wₑ hsplit hbefore hclient key field hwrites
  have hₑ : Invariant p wₑ := run_invariant step_invariant hinit.invariant hbefore
  have hwhole : Machine.run (World.step p) w₀ (before ++ event :: rest) = some w' := by
    rw [← hsplit]
    exact run_append.mpr ⟨w, hrun, hlater⟩
  obtain ⟨wₑ', hbefore', hfrom⟩ := run_append.mp hwhole
  rw [hbefore, some.injEq] at hbefore'
  subst hbefore'
  obtain ⟨wₛ, hstep, hrest⟩ := run_cons.mp hfrom
  cases event with
  | execute j n =>
    subst hclient
    obtain ⟨prepared, plan, hprep, hplans, hpend, rfl⟩ := step_execute hₑ hstep
    simp only [World.Writes, World.writes, hpend] at hwrites
    have hne : (commitScript (wₑ.keyspace prepared.hash) (plan.arguments prepared.ledger)).2 ≠ [] := by
      intro hnil
      simp [hnil] at hwrites
    -- the script was acknowledged, and stays so until the end
    obtain ⟨k, hk⟩ := commitScript_integer.mpr hne
    have hacknowledged := run_invariant
      (I := fun v => Invariant p v ∧ v.evals j n = .answered (.integer k))
      (fun v e v' hv hs => ⟨step_invariant v e v' hv.1 hs, step_reply hv.1 hs hv.2⟩)
      ⟨step_invariant _ _ _ hₑ hstep, by simp [hk]⟩ hrest
    have hanswered := run_invariant
      (I := fun v => (v.clients j).phase = .answered result)
      (fun v e v' hv hs => step_answered hs hv) hanswer hlater
    have hphase := hacknowledged.1.phase j
    rw [hanswered] at hphase
    have hquiet := hphase.2 hok hunknown n
    rw [hacknowledged.2] at hquiet
    exact hquiet k rfl
  | _ => exact hwrites

open Sample in
/-- A client whose script is refused by Redis, and that does not try again, has written nothing. -/
theorem save_failure_wrote_nothing_sample : ∃ w result,
    Machine.run (World.step .integral) world
      (untilCommit ++ [.refuse 0 1 (str "OOM"), .receive 0 none false]) = some w ∧
    (w.clients 0).phase = .answered result ∧ result.code = .unavailable ∧
    ∀ before event rest wₑ, untilCommit ++ [.refuse 0 1 (str "OOM"), .receive 0 none false] ++ []
        = before ++ event :: rest →
      Machine.run (World.step .integral) world before = some wₑ → event.client = 0 →
      ∀ key field, ¬wₑ.Writes event key field := by
  obtain ⟨w, h⟩ := isSome_iff_exists.mp (show (Machine.run (World.step .integral) world
    (untilCommit ++ [.refuse 0 1 (str "OOM"), .receive 0 none false])).isSome by decide +kernel)
  have hphase : (Machine.run (World.step .integral) world
      (untilCommit ++ [.refuse 0 1 (str "OOM"), .receive 0 none false])).all fun w =>
        match (w.clients 0).phase with
        | .answered result => result.code = .unavailable
        | _ => false := by decide +kernel
  rw [h, all_some] at hphase
  cases hc : (w.clients 0).phase with
  | answered result =>
    rw [hc] at hphase
    have hcode : result.code = .unavailable := by simpa using hphase
    exact ⟨w, result, h, hc, hcode, save_failure_wrote_nothing world_initial h hc
      (by simp [hcode]) (by simp [hcode]) (run_nil _ _)⟩
  | _ => simp [hc] at hphase

end Caf.EntityStore.Redis
