import CafPluginSystem.Sql.Handling

/-!
# SQL saves take effect exactly once

The invariant of stores over one database, from the invariant of each save.

* `World.step_invariant` — every event keeps it.
* `save_exactly_once` — in every run, committed transactions are whole saves, no two of one request id,
  and a save that is answered ok returns the versions recorded by the one commit of its request id,
  which has its signature.
-/

namespace Caf.EntityStore.Sql

open Database DecimalText Transactional.Database Function Option

variable {tables : Tables}

/-! ## The world -/

namespace World

variable {db : SqlDatabase tables} {c : SaveContext} {o : ℕ × ℕ} {out : ℕ → Option DbResult}
  {message : Message}

/-- The invariant of stores over one database. -/
structure Invariant (w : World tables) : Prop where
  queued : ∀ k, (w.stores k).Queued
  database : DbInv w.db
  /-- Every commit and every transaction belongs to a save, and is about what that save is about. -/
  committed : ∀ commit ∈ w.db.history, ∃ c, w.context commit.tag.owner = some c ∧
    c.job = commit.tag.job
  running : ∀ t tx, w.db.status t = .running tx → ∃ c, w.context tx.tag.owner = some c ∧
    c.job = tx.tag.job
  /-- Nothing is handled for a save that is not there. -/
  unhandled : ∀ o, w.context o = none → ∀ n, w.outcomes o n = none
  saves : ∀ o c, w.context o = some c → SaveInv w.db (w.outcomes o) o c

lemma initial_invariant (stores : ℕ → Bytes × ServiceConfig) (entities : tables.State) :
    (initial stores entities).Invariant where
  queued := fun k => Store.initial_queued _ _
  database := ⟨⟨_, rfl⟩, fun _ => rfl, fun _ hc => by cases hc⟩
  committed := fun _ hc => by cases hc
  running := fun _ _ h => by cases h
  unhandled := fun _ _ _ => rfl
  saves := fun _ _ h => by cases h

variable {w w' : World tables}

lemma context_setStore {k s} (o : ℕ × ℕ) :
    (w.setStore k s).context o = if o.1 = k then s.contexts o.2 else w.context o := by
  by_cases h : o.1 = k
  · subst h
    simp [context, setStore]
  · simp only [context, setStore, if_neg h, update_of_ne h]

/-- A save that is accepted has sent nothing. -/
lemma saveInv_accepted {settings request}
    (h : Accepted settings request c) (hout : ∀ n, out n = none) : SaveInv db out o c where
  unsent := fun n _ => hout n
  schemas := by rw [Fallible.mapM_length h.schemas, h.request]
  owns := fun message hmsg => by simp [h.fresh.sent] at hmsg
  closed := fun t ht => by simp [h.fresh.sent] at ht
  live := fun _ => .idle (.inl h.fresh.stage)
  answered := fun result hres => by simp [h.fresh.answer] at hres

/-- **A store moves on.**  What it is told by the backend must be what the backend answered. -/
lemma Invariant.store (h : w.Invariant) {k event s} (hstep : (w.stores k).step event = some s)
    (hrep : ∀ i reply clocks, event = .reply i (.ok reply) clocks → ∀ c,
      w.context (k, i) = some c → w.outcomes (k, i) (c.sent.length - 1) = some reply) :
    (w.setStore k s).Invariant := by
  have hpersists := Store.step_persists hstep
  -- whatever a commit or a transaction belongs to is still there
  have hkept : ∀ o c, w.context o = some c →
      ∃ c', (w.setStore k s).context o = some c' ∧ c'.job = c.job := by
    intro o c hc
    rw [context_setStore]
    by_cases heq : o.1 = k
    · rw [if_pos heq]
      subst heq
      obtain ⟨c', hc', hsame⟩ := hpersists o.2 c hc
      exact ⟨c', hc', hsame.job⟩
    · rw [if_neg heq]
      exact ⟨c, hc, rfl⟩
  have hforall : s.Forall fun i c => SaveInv w.db (w.outcomes (k, i)) (k, i) c := by
    refine Store.step_forall (h.queued k) hstep (fun i c hc => h.saves (k, i) c hc) ⟨?_, ?_, ?_, ?_, ?_⟩
    · intro i request arrival clocks c _ hnone hacc
      exact saveInv_accepted hacc (h.unhandled (k, i) hnone)
    · intro i c clock key hfresh hc
      exact hc.startSave hfresh.answer _ clock key
    · intro i reply clocks c hevent hc hans hawaits hinv
      refine hinv.respond hans hawaits _ _ fun result hres => ?_
      subst hres
      exact hrep i result clocks hevent c hc
    · intro i backend clocks c _ _ hans _ hinv
      exact hinv.retry hans _ _ backend _
    · intro i c _ _ _ hinv
      exact hinv.exit
  constructor
  · intro k'
    by_cases heq : k' = k
    · subst heq
      simpa only [setStore, update_self] using Store.step_queued (h.queued k') hstep
    · simpa only [setStore, update_of_ne heq] using h.queued k'
  · exact h.database
  · intro commit hcommit
    obtain ⟨c, hc, hjob⟩ := h.committed commit hcommit
    obtain ⟨c', hc', hjob'⟩ := hkept _ c hc
    exact ⟨c', hc', hjob'.trans hjob⟩
  · intro t tx htx
    obtain ⟨c, hc, hjob⟩ := h.running t tx htx
    obtain ⟨c', hc', hjob'⟩ := hkept _ c hc
    exact ⟨c', hc', hjob'.trans hjob⟩
  · intro o hnone n
    cases hc : w.context o with
    | none => exact h.unhandled o hc n
    | some c =>
      obtain ⟨c', hc', -⟩ := hkept o c hc
      rw [hnone] at hc'
      cases hc'
  · intro o c hc
    rw [context_setStore] at hc
    by_cases heq : o.1 = k
    · rw [if_pos heq] at hc
      subst heq
      exact hforall o.2 c hc
    · rw [if_neg heq] at hc
      exact h.saves o c hc

/-- What executing a message of a save adds to the database belongs to that save. -/
structure Adds (db db' : SqlDatabase tables) (o : ℕ × ℕ) (job : Job) : Prop where
  database : DbInv db'
  committed : ∀ commit ∈ db'.history,
    commit ∈ db.history ∨ commit.tag.owner = o ∧ commit.tag.job = job
  running : ∀ t tx, db'.status t = .running tx →
    (∃ tx₀, db.status t = .running tx₀ ∧ tx₀.tag = tx.tag) ∨ tx.tag.owner = o ∧ tx.tag.job = job

lemma Adds.refl (h : DbInv db) (o : ℕ × ℕ) (job : Job) : Adds db db o job :=
  ⟨h, fun _ hc => .inl hc, fun _ tx htx => .inl ⟨tx, htx, rfl⟩⟩

lemma perform_adds {db'} (hdb : DbInv db) (hsave : SaveInv db out o c)
    (hjobs : ∀ t tx, db.status t = .running tx → tx.tag.owner = o → tx.tag.job = c.job) (hmsg : message ∈ c.sent) {token position}
    {result}
    (hperf : perform db o c.job token position message = some (result, db')) :
    Adds db db' o c.job := by
  cases message with
  | exec connection statement =>
    cases hperf
    exact .refl hdb o c.job
  | begin connection key =>
    obtain ⟨db₁, hbegin, heq⟩ := map_eq_some_iff.mp hperf
    cases heq
    obtain ⟨-, rfl⟩ := begin_cases hbegin
    refine ⟨⟨hdb.serial, hdb.empty, hdb.whole⟩, fun _ hc => .inl hc, fun t tx htx => ?_⟩
    by_cases heq : t = token
    · subst heq
      simp only [setStatus, update_self,
        Transactional.Status.running.injEq] at htx
      rw [← htx]
      exact .inr ⟨rfl, rfl⟩
    · simp only [setStatus, update_of_ne heq] at htx
      exact .inl ⟨tx, htx, rfl⟩
  | execute transaction statement =>
    obtain ⟨tx₀, s, hrun, -, -, rfl⟩ := execute_cases hperf
    refine ⟨⟨hdb.serial, hdb.empty, hdb.whole⟩, fun _ hc => .inl hc, fun t tx htx => ?_⟩
    by_cases heq : t = transaction
    · subst heq
      simp only [setStatus, update_self,
        Transactional.Status.running.injEq] at htx
      exact .inl ⟨tx₀, hrun, by rw [← htx]⟩
    · simp only [setStatus, update_of_ne heq] at htx
      exact .inl ⟨tx, htx, rfl⟩
  | commit transaction =>
    obtain ⟨db₁, hcommit, heq⟩ := map_eq_some_iff.mp hperf
    cases heq
    obtain ⟨tx₀, hrun, hstart, hhistory, hstat, hserial⟩ :=
      commit_cases hcommit
    have howner := hsave.owns _ hmsg transaction (.inr rfl)
    rw [hrun] at howner
    have hmine : tx₀.tag.owner = o := some.inj howner
    have hjob := hjobs transaction tx₀ hrun hmine
    refine ⟨⟨hserial, fun slot => ?_, fun commit hc => ?_⟩, fun commit hc => ?_, fun t tx htx => ?_⟩
    · rw [hstart]
      exact hdb.empty slot
    · rcases (hhistory commit).mp hc with rfl | hc
      · obtain ⟨versions, hcomp⟩ := (hsave.closed transaction hmsg).2 commit hrun
        exact ⟨versions, hjob ▸ hcomp⟩
      · exact hdb.whole commit hc
    · rcases (hhistory commit).mp hc with rfl | hc
      · exact .inr ⟨hmine, hjob⟩
      · exact .inl hc
    · rw [hstat] at htx
      by_cases heq : t = transaction
      · subst heq
        rw [update_self] at htx
        cases htx
      · rw [update_of_ne heq] at htx
        exact .inl ⟨tx, htx, rfl⟩
  | rollback key =>
    cases hperf
    refine ⟨⟨hdb.serial, hdb.empty, hdb.whole⟩, fun _ hc => .inl hc, fun t tx htx => ?_⟩
    exact .inl ⟨tx, endWhere_running htx, rfl⟩

/-- **A message is handled.** -/
lemma Invariant.handle (h : w.Invariant) {n}
    {token position handling reply}
    (hhandled : Handled w w' o n c message token position handling reply) : w'.Invariant := by
  obtain ⟨hc, hmsg, hunhandled, hanswered, hafter⟩ := hhandled
  have hsave := h.saves o c hc
  have hstores : w'.stores = w.stores := by
    rw [hafter]
    rfl
  have hctx : ∀ o', w'.context o' = w.context o' := fun o' => by
    rw [context, hstores]
    rfl
  have hself : w'.outcomes o = update (w.outcomes o) n (some reply) := by
    rw [hafter]
    simp [setOutcome]
  have hoth : ∀ o', o' ≠ o → w'.outcomes o' = w.outcomes o' := by
    intro o' hne
    rw [hafter]
    simp [setOutcome, hne]
  have hjobs : ∀ t tx, w.db.status t = .running tx → tx.tag.owner = o → tx.tag.job = c.job := by
    intro t tx htx howner
    obtain ⟨c', hc', hjob⟩ := h.running t tx htx
    rw [howner, hc, some.injEq] at hc'
    rw [hc', hjob]
  have hadds : Adds w.db w'.db o c.job := by
    rcases answer_cases hanswered with ⟨-, heq⟩ | ⟨result, hperf, -⟩
    · rw [heq]
      exact .refl h.database o c.job
    · exact perform_adds h.database hsave hjobs (List.mem_of_getElem? hmsg) hperf
  constructor
  · rw [hstores]
    exact h.queued
  · exact hadds.database
  · intro commit hcommit
    rw [hctx]
    rcases hadds.committed commit hcommit with hold | ⟨howner, hjob⟩
    · exact h.committed commit hold
    · exact ⟨c, howner ▸ hc, hjob.symm⟩
  · intro t tx htx
    rw [hctx]
    rcases hadds.running t tx htx with ⟨tx₀, htx₀, htag⟩ | ⟨howner, hjob⟩
    · rw [← htag]
      exact h.running t tx₀ htx₀
    · exact ⟨c, howner ▸ hc, hjob.symm⟩
  · intro o' hnone m
    rw [hctx] at hnone
    have hne : o' ≠ o := by
      rintro rfl
      rw [hc] at hnone
      cases hnone
    rw [hoth o' hne]
    exact h.unhandled o' hnone m
  · intro o' c' hc'
    rw [hctx] at hc'
    by_cases heq : o' = o
    · subst heq
      obtain rfl : c = c' := some.inj (hc.symm.trans hc')
      rw [hself]
      exact hsave.handled h.database hjobs hmsg hunhandled hanswered
    · rw [hoth o' heq]
      rcases answer_cases hanswered with ⟨-, hsame⟩ | ⟨result, hperf, -⟩
      · rw [hsame]
        exact h.saves o' c' hc'
      · exact (h.saves o' c' hc').elsewhere heq (perform_frame hperf).1 fun t ht =>
          hsave.touched hmsg hperf ht

lemma Invariant.lose (h : w.Invariant) (lost : UInt64 → Bool) :
    Invariant { w with db := w.db.endWhere fun token _ => lost token } := by
  have hframe : Frame w.db (w.db.endWhere fun token _ => lost token) fun _ => False := by
    refine ⟨fun _ hc => hc, fun t tag htag => ?_, fun t _ tx htx => ?_⟩
    · rw [endWhere_tag]
      exact htag
    · exact endWhere_running htx
  refine ⟨h.queued, ⟨h.database.serial, h.database.empty, h.database.whole⟩, h.committed, ?_,
    h.unhandled, ?_⟩
  · intro t tx htx
    have hrun : (w.db.endWhere fun token _ => lost token).status t = .running tx := htx
    exact h.running t tx (endWhere_running hrun)
  · intro o c hc
    have hsave := h.saves o c hc
    exact hsave.frame hframe (fun _ hn => hn) hsave.unsent (fun _ _ => id) fun hans =>
      (hsave.live hans).frame hframe (fun _ => rfl) (fun _ hn => hn) fun _ _ => id

/-- **Every event keeps the invariant.** -/
theorem step_invariant {event} (h : w.Invariant) (hstep : w.step event = some w') :
    w'.Invariant := by
  cases event with
  | store k event =>
    obtain ⟨hclient, s, hs, rfl⟩ := step_store hstep
    refine h.store hs fun i reply clocks hevent => ?_
    subst hevent
    cases hclient
  | deliver k i clocks =>
    obtain ⟨c, reply, s, hc, hrep, hs, rfl⟩ := step_deliver hstep
    refine h.store hs fun i' reply' clocks' hevent c' hc' => ?_
    cases hevent
    obtain rfl : c = c' := some.inj (hc.symm.trans hc')
    exact hrep
  | handle k i n token position handling =>
    obtain ⟨c, message, reply, hhandled⟩ := step_handle hstep
    exact h.handle hhandled
  | lose lost =>
    cases hstep
    exact h.lose lost

/-- **Every run keeps it.** -/
theorem run_invariant {stores entities}
    {events} (hrun : Machine.run step (initial stores entities) events = some w) :
    w.Invariant :=
  Machine.run_invariant (I := Invariant) (fun _ _ _ h hstep => step_invariant h hstep)
    (initial_invariant stores entities) hrun

/-- Of the commits of one request id there is one. -/
lemma Invariant.unique (h : w.Invariant) {commit other} (hcommit : commit ∈ w.db.history)
    (hoth : other ∈ w.db.history) (hslot : other.tag.job.slot = commit.tag.job.slot) :
    other = commit := by
  obtain ⟨rows, hserial⟩ := h.database.serial
  have hdist := history_distinct h.database.whole hserial
  by_contra hne
  have hsymm : Std.Symm fun a b : Commit => a.tag.job.slot ≠ b.tag.job.slot := ⟨fun _ _ => Ne.symm⟩
  exact hdist.forall hoth hcommit hne hslot

end World

/-- **SQL saves take effect exactly once.**  The stores may be any number, and the database may fail to
execute any request, execute it and not answer, answer late, and lose transactions.  In every state:

* every commit is a whole save of the request that it belongs to, and no two commits are of one
  request id; what the database holds is what the commits have done, one after another;
* a save that is answered ok returns the versions that the one commit of its request id has recorded,
  and has the signature of that commit; so whichever saves of one request id are answered ok have one
  signature and return the same versions, and only the one that has committed has changed anything. -/
theorem save_exactly_once (stores : ℕ → Bytes × ServiceConfig) (entities : tables.State)
    {events : List WorldEvent} {w : World tables}
    (hrun : Machine.run World.step (World.initial stores entities) events = some w) :
    w.db.Serial (exec tables) ∧
    (∀ commit ∈ w.db.history, Whole commit ∧
      ∃ c, w.context commit.tag.owner = some c ∧ c.job = commit.tag.job) ∧
    w.db.history.Pairwise (fun a b => a.tag.job.slot ≠ b.tag.job.slot) ∧
    ∀ o c result, w.context o = some c → c.answer = some result → result.code = .ok →
      ∃ commit ∈ w.db.history, ∃ versions,
        commit.tag.job.slot = c.job.slot ∧ Complete commit.tag.job versions commit.log ∧
        (∀ other ∈ w.db.history, other.tag.job.slot = c.job.slot → other = commit) ∧
        ∀ o' c' result', w.context o' = some c' → c'.job.slot = c.job.slot →
          c'.answer = some result' → result'.code = .ok →
          c'.signature = commit.tag.job.signature ∧ result' = savedResult c'.request versions ∧
          versions.length = c'.request.changes.length ∧
          (o' ≠ commit.tag.owner → ∀ other ∈ w.db.history, other.tag.owner ≠ o') := by
  have hinv := World.run_invariant hrun
  obtain ⟨rows, hserial⟩ := hinv.database.serial
  refine ⟨hinv.database.serial, fun commit hcommit => ⟨hinv.database.whole commit hcommit,
    hinv.committed commit hcommit⟩, history_distinct hinv.database.whole hserial, ?_⟩
  intro o c result hc hans hok
  obtain ⟨commit, hcommit, versions, hslot, -, hcomp, -, -⟩ :=
    (hinv.saves o c hc).answered result hans hok
  have hunique : ∀ other ∈ w.db.history, other.tag.job.slot = c.job.slot → other = commit :=
    fun other hoth heq => hinv.unique hcommit hoth (heq.trans hslot.symm)
  refine ⟨commit, hcommit, versions, hslot, hcomp, hunique, ?_⟩
  intro o' c' result' hc' hslot' hans' hok'
  obtain ⟨commit', hcommit', versions', hslot'', hsig, hcomp', hlen, hres⟩ :=
    (hinv.saves o' c' hc').answered result' hans' hok'
  -- both answers rest on the same commit, whose log tells the versions
  obtain rfl := hunique commit' hcommit' (hslot''.trans hslot')
  obtain rfl := hcomp'.versions_eq hcomp
  refine ⟨hsig.symm, hres, hlen, fun hne other hoth howner => hne ?_⟩
  obtain ⟨c'', hc'', hjob⟩ := hinv.committed other hoth
  rw [howner, hc', some.injEq] at hc''
  subst hc''
  have hsame := hunique other hoth (by rw [← hjob, hslot'])
  rw [← howner, hsame]

namespace Sample

/-- Every row is there with version 1. -/
def players : Tables where
  State := Unit
  exec := fun statement _ => match statement with
    | .currentVersion _ _ => ({ ok := true, rows := [[str "1"]] }, ())
    | _ => ({ ok := true, affected := 1 }, ())

/-- A message of the first save of a store is handled and answered. -/
def exchange (k : ℕ) (token : UInt64) (position n : ℕ) : List WorldEvent :=
  [.handle k 0 n token position .answered, .deliver k 0 clocks]

/-- Store 0 commits the save, but the answer to `COMMIT` is lost and the save gives up; store 1 gets the
same request and finds the record. -/
def replayed : List WorldEvent :=
  .store 0 (.save 0 request {} clocks) :: (List.range 6).flatMap (exchange 0 7 0) ++
  [.handle 0 0 6 7 0 (.failed { ok := false } true), .store 0 timedOut,
    .store 1 (.save 0 request {} clocks)] ++ (List.range 5).flatMap (exchange 1 8 1)

def stores (k : ℕ) : Bytes × ServiceConfig :=
  (str "node:" ++ [UInt8.ofNat (48 + k)], settings)

end Sample

open Sample in
/-- A commit whose answer is lost, and a save in another store that returns its versions. -/
theorem save_exactly_once_replayed : ∃ (w : World players) (c : SaveContext) (result : SaveResult),
    Machine.run World.step (World.initial stores ()) replayed = some w ∧
    w.context (1, 0) = some c ∧ c.answer = some result ∧ result.code = .ok ∧
    ∃ commit ∈ w.db.history, commit.tag.owner = (0, 0) ∧ ∃ versions,
      Complete commit.tag.job versions commit.log ∧ result = savedResult c.request versions := by
  have heval : ((Machine.run World.step (World.initial stores () : World players)
      replayed).bind fun w => (w.context (1, 0)).map fun c => (c.answer.map SaveResult.code,
        w.db.history.map fun commit => commit.tag.owner)) = some (some .ok, [(0, 0)]) := by
    decide +kernel
  obtain ⟨w, hrun, hw⟩ := bind_eq_some_iff.mp heval
  obtain ⟨c, hc, hfacts⟩ := map_eq_some_iff.mp hw
  obtain ⟨hcode, howners⟩ := Prod.mk.inj hfacts
  obtain ⟨result, hans, hok⟩ := map_eq_some_iff.mp hcode
  obtain ⟨-, -, -, hanswered⟩ := @save_exactly_once players stores () replayed w hrun
  obtain ⟨commit, hcommit, versions, -, hcomp, -, hall⟩ := hanswered (1, 0) c result hc hans hok
  have howner : commit.tag.owner ∈ w.db.history.map fun commit => commit.tag.owner :=
    List.mem_map_of_mem hcommit
  rw [howners] at howner
  exact ⟨w, c, result, hrun, hc, hans, hok, commit, hcommit, List.mem_singleton.mp howner, versions,
    hcomp, (hall (1, 0) c result hc rfl hans hok).2.1⟩

end Caf.EntityStore.Sql
