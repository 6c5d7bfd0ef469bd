import CafPluginSystem.Library.Journal
import CafPluginSystem.Library.Queues
import CafPluginSystem.Sql.Discovery
import CafPluginSystem.Sql.Load

/-!
# The SQL entity store with its admission, its drain and its start-up

`entity_store_actor` of `include/templates/sql_entity_store_actor.hpp` as a whole, with
`sql_entity_store_recovery.hpp`.  Around the saves of `Store` it has

* the admission of requests (`admission_error`, the counter `in_flight_`),
* the loads,
* the discovery of schemas when the actor starts: a request that arrives in the meantime is deferred, and
  all deferred ones are looked at when the discovery ends (`finish_schema`),
* the drain: a coordinator is told when nothing is left to do (`notify_drained`).

Requests are numbered by the caller.  The journal is what the actor has done for others, in order.  An event
carries what the clock and the registry say while it is handled (`Env`); a request is asked twice, when it is
checked and when it starts, and the two readings need not agree.
-/

namespace Caf.EntityStore.Sql

open DecimalText Database

/-- The members of `service_config` that saves do not depend on; `realOfText` reads a `double`. -/
structure ActorConfig where
  dialect : DialectKind := .sqlite
  maxPendingRequests : ℕ := 1024
  loadRetryAttempts : ℕ := 3
  realOfText : Bytes → Option Double := fun _ => none

/-- A request that the actor has received. -/
inductive Request where
  | load (i : ℕ)
  | save (i : ℕ)
  deriving DecidableEq, Repr

inductive Answer where
  | load (result : LoadResult)
  | save (result : SaveResult)

def Answer.code : Answer → ResultCode
  | .load result => result.code
  | .save result => result.code

def Answer.error : Answer → Bytes
  | .load result => result.error
  | .save result => result.error

abbrev LogEntry := Journal.Entry Request Answer ℕ

/-- An entry of `schema_waiters_`. -/
inductive Waiter where
  | load (i : ℕ) (request : LoadRequest)
  | save (i : ℕ) (request : SaveRequest)

def Waiter.request : Waiter → Request
  | .load i _ => .load i
  | .save i _ => .save i

/-- The answer to a request that is turned down with a code and a text. -/
def Waiter.refusal (code : ResultCode) (error : Bytes) : Waiter → Answer
  | .load _ request => .load (loadError request.target code error)
  | .save _ request => .save (saveError request code error)

/-- What the discovery waits for. -/
inductive Discovery where
  | idle | querying | delayed
  deriving DecidableEq, Repr

/-- What the clock and the registry say to the discovery. -/
structure SchemaView where
  expired : Bool := false
  backend : Bool := true

/-- What the clock and the registry say while one event is handled. -/
structure Env where
  /-- To `load_ready` and `save_ready` of a request. -/
  arrival : Request → Arrival := fun _ => {}
  load : ℕ → LoadView := fun _ => {}
  clocks : ℕ → Clock := fun _ => {}
  schema : SchemaView := {}

/-- The actor.  `readied` are the requests given to `load_ready` and `save_ready`, in order; `applied` is the
metadata that was applied; `replied` counts the replies that each save got. -/
structure Actor where
  config : ActorConfig
  store : Store
  draining : Bool := false
  inFlight : ℕ := 0
  drainWaiters : List ℕ := []
  schemaLoading : Bool := false
  discoveryIndex : ℕ := 0
  discoveryTargets : List SchemaCatalog.Target := []
  discovery : Discovery := .idle
  schemaWaiters : List Waiter := []
  loads : ℕ → Option LoadContext := fun _ => none
  journal : List LogEntry := []
  readied : List Request := []
  applied : List (SchemaCatalog.Target × DbResult) := []
  replied : ℕ → ℕ := fun _ => 0
  exited : Bool := false

namespace Actor

def note (a : Actor) (entries : List LogEntry) : Actor := { a with journal := a.journal ++ entries }

def setLoad (a : Actor) (i : ℕ) (c : LoadContext) : Actor :=
  { a with loads := Function.update a.loads i (some c) }

def setSave (a : Actor) (i : ℕ) (c : SaveContext) : Actor := { a with store := a.store.setContext i c }

def setQueues (a : Actor) (queues : StringMap (List ℕ)) : Actor :=
  { a with store := { a.store with queues } }

def setConfigError (a : Actor) (error : Bytes) : Actor :=
  { a with store := { a.store with settings := { a.store.settings with configError := error } } }

def setCatalog (a : Actor) (catalog : SchemaCatalog) : Actor :=
  { a with store := { a.store with settings := { a.store.settings with catalog } } }

/-! ## Admission and drain -/

def admissionError (a : Actor) : Option Bytes :=
  if a.draining then some (str "entity store is draining")
  else if a.inFlight + a.schemaWaiters.length ≥ a.config.maxPendingRequests then
    some (str "entity store pending request limit reached")
  else none

def notifyDrained (a : Actor) : Actor :=
  if !a.draining ∨ a.inFlight ≠ 0 ∨ a.schemaLoading then a
  else { a.note (a.drainWaiters.map .acknowledged) with drainWaiters := [] }

def operationFinished (a : Actor) : Actor := { a with inFlight := a.inFlight - 1 }.notifyDrained

def drain (a : Actor) (coordinator : ℕ) : Actor :=
  if a.inFlight = 0 ∧ !a.schemaLoading then
    { a.note [.acknowledged coordinator] with draining := true }
  else { a with draining := true, drainWaiters := a.drainWaiters ++ [coordinator] }

/-! ## Loads -/

/-- The load is answered. -/
def finishLoad (a : Actor) (i : ℕ) (c : LoadContext) (result : LoadResult) : Actor :=
  ((a.setLoad i { c with answer := some result }).note
    [.answered (.load i) (.load result)]).operationFinished

/-- The rest of a handler of a load. -/
def settleLoad (a : Actor) (i : ℕ) : LoadNext → Actor
  | .waiting c => a.setLoad i c
  | .finished c result => a.finishLoad i c result

/-- The request is given to its `..._ready` function. -/
def ready (a : Actor) (r : Request) : Actor := { a with readied := a.readied ++ [r] }

def loadReady (env : Env) (a : Actor) (i : ℕ) (request : LoadRequest) : Actor :=
  let a := a.ready (.load i)
  match acceptLoad a.store.settings (env.arrival (.load i)) request with
  | .error result => a.note [.answered (.load i) (.load result)]
  | .ok c =>
    { a.setLoad i c with inFlight := a.inFlight + 1 }.settleLoad i
      (c.startLoad a.config.loadRetryAttempts (env.load i))

/-! ## Saves -/

/-- The queue after its first save has left it; an empty one goes. -/
def popFront (queues : StringMap (List ℕ)) (partition : Bytes) (i : ℕ) : StringMap (List ℕ) :=
  match queues[partition]? with
  | none => queues
  | some queue =>
    let rest := if queue.head? = some i then queue.tail else queue
    if rest = [] then queues.erase partition else queues.insert partition rest

/-- `finish_save` before the next save of the queue starts. -/
def finishSave (a : Actor) (i : ℕ) (c : SaveContext) (result : SaveResult) : Actor :=
  let a := (a.setSave i { c with answer := some result }).note [.answered (.save i) (.save result)]
  (a.setQueues (popFront a.store.queues c.partitionKey i)).operationFinished

/-- `start_save` for the first save of a queue, and for the next one when it is answered at once. -/
def startQueue (env : Env) : List ℕ → Actor → Actor
  | [], a => a
  | i :: rest, a =>
    match a.store.contexts i with
    | none => a
    | some c =>
      let next := c.startSave a.store.settings.saveRetryAttempts (env.clocks i) a.store.nextKey
      let a := { a with store := { a.store with nextTransactionKey := a.store.nextTransactionKey + 1 } }
      match next with
      | .waiting c => a.setSave i c
      | .finished c result => startQueue env rest (a.finishSave i c result)

/-- The rest of a handler of a save. -/
def settleSave (env : Env) (a : Actor) (i : ℕ) : Next → Actor
  | .waiting c => a.setSave i c
  | .finished c result =>
    let a := a.finishSave i c result
    startQueue env (a.store.queueOf c.partitionKey) a

/-- The end of `save_ready`. -/
def enqueue (env : Env) (a : Actor) (i : ℕ) (c : SaveContext) : Actor :=
  let queue := a.store.queueOf c.partitionKey
  let a := (a.setSave i c).setQueues (a.store.queues.insert c.partitionKey (queue ++ [i]))
  let a := { a with inFlight := a.inFlight + 1 }
  if queue = [] then startQueue env [i] a else a

def saveReady (env : Env) (a : Actor) (i : ℕ) (request : SaveRequest) : Actor :=
  let a := a.ready (.save i)
  match accept a.store.settings (env.arrival (.save i)) request with
  | .error result => a.note [.answered (.save i) (.save result)]
  | .ok c => a.enqueue env i c

/-! ## The discovery of schemas -/

/-- A deferred request is looked at. -/
def runWaiter (env : Env) (a : Actor) : Waiter → Actor
  | .load i request => a.loadReady env i request
  | .save i request => a.saveReady env i request

def finishSchema (env : Env) (a : Actor) (error : Bytes) : Actor :=
  let waiters := a.schemaWaiters
  let a := { a with schemaLoading := false, discovery := .idle, schemaWaiters := [] }
  let a := if error = [] then a else a.setConfigError error
  (waiters.foldl (runWaiter env) a).notifyDrained

def discoverNextSchema (env : Env) (a : Actor) : Actor :=
  if a.discoveryIndex = a.discoveryTargets.length then a.finishSchema env []
  else if env.schema.expired then
    a.finishSchema env (str "database schema discovery deadline exceeded")
  else if !env.schema.backend then { a with discovery := .delayed }
  else { a with discovery := .querying }

/-- `initialize_schema`, when the actor starts. -/
def initializeSchema (env : Env) (a : Actor) : Actor :=
  if a.store.settings.configError ≠ [] then a
  else
    let targets := a.store.settings.catalog.discoveryTargets
    if targets = [] then { a with discoveryTargets := targets }
    else { a with discoveryTargets := targets, schemaLoading := true }.discoverNextSchema env

/-- The metadata of a target is applied. -/
def applySchema (env : Env) (a : Actor) (target : SchemaCatalog.Target) (result : DbResult) : Actor :=
  match a.store.settings.catalog.discover a.config.dialect target result with
  | .error error => a.finishSchema env (str "schema discovery failed (" ++ target.store ++ str "/" ++
      target.entity ++ str "): " ++ error)
  | .ok catalog =>
    { a.setCatalog catalog with
      applied := a.applied ++ [(target, result)]
      discoveryIndex := a.discoveryIndex + 1 }.discoverNextSchema env

/-- The handlers of a metadata query. -/
def schemaReply (env : Env) (a : Actor) : Except Bytes DbResult → Actor
  | .error error => a.finishSchema env (str "schema discovery failed: " ++ error)
  | .ok result =>
    if !result.ok ∧ result.code.isConnectionError then
      if env.schema.expired then
        a.finishSchema env (str "database schema discovery deadline exceeded")
      else { a with discovery := .delayed }
    else match a.discoveryTargets[a.discoveryIndex]? with
      | none => a
      | some target => a.applySchema env target result

/-! ## Arrivals and exit -/

/-- `load` and `save`: the request is refused, deferred, or looked at. -/
def receive (env : Env) (a : Actor) (w : Waiter) : Actor :=
  let a := a.note [.opened w.request]
  match a.admissionError with
  | some error => a.note [.answered w.request (w.refusal .unavailable error)]
  | none =>
    if a.schemaLoading then { a with schemaWaiters := a.schemaWaiters ++ [w] }
    else a.runWaiter env w

/-- What `on_exit` answers a queued save with. -/
def exitSave (s : Store) (i : ℕ) : List LogEntry :=
  match s.contexts i with
  | none => []
  | some c => match c.answer, c.exit.answer with
    | none, some result => [.answered (.save i) (.save result)]
    | _, _ => []

/-- `on_exit`. -/
def onExit (env : Env) (a : Actor) : Actor :=
  let waiters := a.schemaWaiters
  let a := { a with draining := true, schemaLoading := false, discovery := .idle, schemaWaiters := [] }
  let a := a.setConfigError (str "entity store exited before request completed")
  let a := waiters.foldl (runWaiter env) a
  let left := a.store.queues.toList.flatMap fun entry => entry.2.flatMap (exitSave a.store)
  { a.note left with
    store := (a.store.step .exit).getD a.store
    drainWaiters := []
    exited := true }

end Actor

/-- What the actor reacts to.  `exit` is an exit message, or `shutdown_atom`, which makes it quit. -/
inductive Actor.Event where
  | receive (w : Waiter) (env : Env)
  | loadReply (i : ℕ) (reply : Except Bytes DbResult) (env : Env)
  | loadTimer (i : ℕ) (env : Env)
  | saveReply (i : ℕ) (reply : Except Bytes DbResult) (env : Env)
  | saveTimer (i : ℕ) (backend : Bool) (env : Env)
  | schemaReply (reply : Except Bytes DbResult) (env : Env)
  | schemaTimer (env : Env)
  | drain (coordinator : ℕ)
  | exit (env : Env)

namespace Actor

/-- One event.  A reply or a timer comes only to who waits for it. -/
def step (a : Actor) (event : Event) : Option Actor :=
  if a.exited then none
  else match event with
    | .receive w env =>
      if w.request ∈ Journal.opened a.journal then none else some (a.receive env w)
    | .loadReply i reply env =>
      match a.loads i with
      | none => none
      | some c =>
        if c.answer.isSome ∨ c.stage ≠ .querying then none
        else some (a.settleLoad i
          (c.respond a.config.loadRetryAttempts (env.load i) a.config.realOfText reply))
    | .loadTimer i env =>
      match a.loads i with
      | none => none
      | some c =>
        if c.answer.isSome ∨ c.stage ≠ .delayed then none
        else some (a.settleLoad i (c.startLoad a.config.loadRetryAttempts (env.load i)))
    | .saveReply i reply env =>
      match a.store.contexts i with
      | none => none
      | some c =>
        if c.answer.isSome ∨ !c.stage.awaitsReply then none
        else
          let a := { a with replied := Function.update a.replied i (a.replied i + 1) }
          some (a.settleSave env i
            (c.respond a.store.settings.saveRetryAttempts (env.clocks i) reply))
    | .saveTimer i backend env =>
      match a.store.contexts i with
      | none => none
      | some c =>
        if c.answer.isSome ∨ c.stage ≠ .delayed then none
        else
          let next := c.retry a.store.settings.saveRetryAttempts (env.clocks i) backend a.store.nextKey
          let a := { a with store := { a.store with
            nextTransactionKey := a.store.nextTransactionKey + if backend then 1 else 0 } }
          some (a.settleSave env i next)
    | .schemaReply reply env =>
      if a.discovery ≠ .querying then none else some (a.schemaReply env reply)
    | .schemaTimer env =>
      if a.discovery ≠ .delayed then none else some (a.discoverNextSchema env)
    | .drain coordinator => some (a.drain coordinator)
    | .exit env => some (a.onExit env)

/-- The actor when it has started. -/
def start (config : ActorConfig) (address : Bytes) (settings : ServiceConfig) (env : Env) : Actor :=
  initializeSchema env { config, store := .initial address settings }

/-! ## What one event can do -/

inductive Steps (a : Actor) : Event → Actor → Prop
  | received {w : Waiter} {env : Env} (hnew : w.request ∉ Journal.opened a.journal) :
      Steps a (.receive w env) (a.receive env w)
  | load {i : ℕ} {e : Event} {c : LoadContext} {next : LoadNext} (hc : a.loads i = some c)
      (hanswer : c.answer = none) (hnext : LoadContext.Unanswered next)
      (hwait : (∃ reply env, e = .loadReply i reply env) ∨ ∃ env, e = .loadTimer i env) :
      Steps a e (a.settleLoad i next)
  | saveReplied {i : ℕ} {reply : Except Bytes DbResult} {env : Env} {c : SaveContext}
      (hc : a.store.contexts i = some c) (hanswer : c.answer = none) (hawaits : c.stage.awaitsReply = true) :
      Steps a (.saveReply i reply env)
        ({ a with replied := Function.update a.replied i (a.replied i + 1) }.settleSave env i
          (c.respond a.store.settings.saveRetryAttempts (env.clocks i) reply))
  | saveRetried {i : ℕ} {backend : Bool} {env : Env} {c : SaveContext}
      (hc : a.store.contexts i = some c) (hanswer : c.answer = none) (hdelayed : c.stage = .delayed) :
      Steps a (.saveTimer i backend env)
        ({ a with store := { a.store with
            nextTransactionKey := a.store.nextTransactionKey + if backend then 1 else 0 } }.settleSave env i
          (c.retry a.store.settings.saveRetryAttempts (env.clocks i) backend a.store.nextKey))
  | schemaReplied {reply : Except Bytes DbResult} {env : Env} (hquerying : a.discovery = .querying) :
      Steps a (.schemaReply reply env) (a.schemaReply env reply)
  | schemaRetried {env : Env} (hdelayed : a.discovery = .delayed) :
      Steps a (.schemaTimer env) (a.discoverNextSchema env)
  | drained {coordinator : ℕ} : Steps a (.drain coordinator) (a.drain coordinator)
  | exited {env : Env} : Steps a (.exit env) (a.onExit env)

lemma step_cases {a b : Actor} {e : Event} (h : a.step e = some b) : a.exited = false ∧ Steps a e b := by
  unfold step at h
  split at h
  · cases h
  next hexited =>
  refine ⟨by simpa using hexited, ?_⟩
  cases e with
  | receive w env =>
    dsimp only at h
    split at h
    · cases h
    · next hnew =>
      cases h
      exact .received hnew
  | loadReply i reply env =>
    dsimp only at h
    split at h
    · cases h
    · next c hc =>
      split at h
      · cases h
      · next hwaits =>
        cases h
        have hans : c.answer = none := by
          rw [not_or] at hwaits
          simpa using hwaits.1
        exact .load hc hans (LoadContext.respond_unanswered hans reply) (.inl ⟨reply, env, rfl⟩)
  | loadTimer i env =>
    dsimp only at h
    split at h
    · cases h
    · next c hc =>
      split at h
      · cases h
      · next hwaits =>
        cases h
        have hans : c.answer = none := by
          rw [not_or] at hwaits
          simpa using hwaits.1
        exact .load hc hans (LoadContext.startLoad_unanswered hans) (.inr ⟨env, rfl⟩)
  | saveReply i reply env =>
    dsimp only at h
    split at h
    · cases h
    · next c hc =>
      split at h
      · cases h
      · next hwaits =>
        cases h
        rw [not_or] at hwaits
        exact .saveReplied hc (by simpa using hwaits.1) (by simpa using hwaits.2)
  | saveTimer i backend env =>
    dsimp only at h
    split at h
    · cases h
    · next c hc =>
      split at h
      · cases h
      · next hwaits =>
        cases h
        rw [not_or, not_not] at hwaits
        exact .saveRetried hc (by simpa using hwaits.1) hwaits.2
  | schemaReply reply env =>
    dsimp only at h
    split at h
    · cases h
    · next hquerying =>
      cases h
      exact .schemaReplied (not_not.mp hquerying)
  | schemaTimer env =>
    dsimp only at h
    split at h
    · cases h
    · next hdelay =>
      cases h
      exact .schemaRetried (not_not.mp hdelay)
  | drain coordinator =>
    cases h
    exact .drained
  | exit env =>
    cases h
    exact .exited

/-! ## What the handling of requests leaves alone -/

structure SameSetup (a b : Actor) : Prop where
  config : b.config = a.config
  settings : b.store.settings = a.store.settings
  draining : b.draining = a.draining
  schemaLoading : b.schemaLoading = a.schemaLoading
  discoveryIndex : b.discoveryIndex = a.discoveryIndex
  discoveryTargets : b.discoveryTargets = a.discoveryTargets
  discovery : b.discovery = a.discovery
  schemaWaiters : b.schemaWaiters = a.schemaWaiters
  applied : b.applied = a.applied
  exited : b.exited = a.exited

namespace SameSetup

variable {a b c : Actor} {env : Env} {i : ℕ}

lemma refl (a : Actor) : SameSetup a a := ⟨rfl, rfl, rfl, rfl, rfl, rfl, rfl, rfl, rfl, rfl⟩

lemma trans (h : SameSetup a b) (h' : SameSetup b c) : SameSetup a c :=
  ⟨h'.config.trans h.config, h'.settings.trans h.settings, h'.draining.trans h.draining,
    h'.schemaLoading.trans h.schemaLoading, h'.discoveryIndex.trans h.discoveryIndex,
    h'.discoveryTargets.trans h.discoveryTargets, h'.discovery.trans h.discovery,
    h'.schemaWaiters.trans h.schemaWaiters, h'.applied.trans h.applied, h'.exited.trans h.exited⟩

lemma notifyDrained : SameSetup a a.notifyDrained := by
  unfold Actor.notifyDrained
  split
  · exact refl a
  · exact ⟨rfl, rfl, rfl, rfl, rfl, rfl, rfl, rfl, rfl, rfl⟩

lemma settleLoad (next : LoadNext) : SameSetup a (a.settleLoad i next) := by
  cases next with
  | waiting c => exact ⟨rfl, rfl, rfl, rfl, rfl, rfl, rfl, rfl, rfl, rfl⟩
  | finished c result =>
    refine trans ?_ notifyDrained
    exact ⟨rfl, rfl, rfl, rfl, rfl, rfl, rfl, rfl, rfl, rfl⟩

lemma finishSave (c : SaveContext) (result : SaveResult) : SameSetup a (a.finishSave i c result) := by
  refine trans ?_ notifyDrained
  exact ⟨rfl, rfl, rfl, rfl, rfl, rfl, rfl, rfl, rfl, rfl⟩

lemma startQueue {queue : List ℕ} : SameSetup a (a.startQueue env queue) := by
  induction queue generalizing a with
  | nil => exact refl a
  | cons i rest ih =>
    rw [Actor.startQueue]
    split
    · exact refl a
    · dsimp only
      split
      · exact ⟨rfl, rfl, rfl, rfl, rfl, rfl, rfl, rfl, rfl, rfl⟩
      · next c _ c' result _ =>
        refine trans (b := { a with store := { a.store with
          nextTransactionKey := a.store.nextTransactionKey + 1 } }) ?_ ((finishSave c' result).trans ih)
        exact ⟨rfl, rfl, rfl, rfl, rfl, rfl, rfl, rfl, rfl, rfl⟩

lemma settleSave (next : Next) : SameSetup a (a.settleSave env i next) := by
  cases next with
  | waiting c => exact ⟨rfl, rfl, rfl, rfl, rfl, rfl, rfl, rfl, rfl, rfl⟩
  | finished c result => exact (finishSave c result).trans startQueue

lemma runWaiter (w : Waiter) : SameSetup a (a.runWaiter env w) := by
  cases w with
  | load j request =>
    unfold Actor.runWaiter loadReady
    dsimp only
    split
    · exact ⟨rfl, rfl, rfl, rfl, rfl, rfl, rfl, rfl, rfl, rfl⟩
    · next c _ =>
      refine trans (b := { (a.ready (.load j)).setLoad j c with inFlight := a.inFlight + 1 }) ?_
        (settleLoad _)
      exact ⟨rfl, rfl, rfl, rfl, rfl, rfl, rfl, rfl, rfl, rfl⟩
  | save j request =>
    unfold Actor.runWaiter saveReady
    dsimp only
    split
    · exact ⟨rfl, rfl, rfl, rfl, rfl, rfl, rfl, rfl, rfl, rfl⟩
    · unfold Actor.enqueue
      dsimp only
      split
      · refine trans ?_ startQueue
        exact ⟨rfl, rfl, rfl, rfl, rfl, rfl, rfl, rfl, rfl, rfl⟩
      · exact ⟨rfl, rfl, rfl, rfl, rfl, rfl, rfl, rfl, rfl, rfl⟩

lemma runWaiters (waiters : List Waiter) : SameSetup a (waiters.foldl (Actor.runWaiter env) a) := by
  induction waiters generalizing a with
  | nil => exact refl a
  | cons w waiters ih => exact (runWaiter w).trans ih

end SameSetup

/-! ## A configuration error -/

/-- With a configuration error every request is refused. -/
lemma runWaiter_configError {a : Actor} (env : Env) (w : Waiter) (herr : a.store.settings.configError ≠ []) :
    a.runWaiter env w = (a.ready w.request).note [.answered w.request
      (w.refusal .invalidRequest a.store.settings.configError)] := by
  cases w with
  | load i request =>
    have href : acceptLoad (a.ready (.load i)).store.settings (env.arrival (.load i)) request =
        .error (loadError request.target .invalidRequest a.store.settings.configError) := if_pos herr
    simp only [runWaiter, loadReady, href]
    rfl
  | save i request =>
    have href : accept (a.ready (.save i)).store.settings (env.arrival (.save i)) request =
        .error (saveError request .invalidRequest a.store.settings.configError) := if_pos herr
    simp only [runWaiter, saveReady, href]
    rfl

lemma runWaiters_configError (env : Env) (waiters : List Waiter) {a : Actor}
    (herr : a.store.settings.configError ≠ []) :
    waiters.foldl (runWaiter env) a = { a with
      readied := a.readied ++ waiters.map Waiter.request
      journal := a.journal ++ waiters.map fun w => .answered w.request
        (w.refusal .invalidRequest a.store.settings.configError) } := by
  induction waiters generalizing a with
  | nil => simp
  | cons w waiters ih =>
    have hrest := ih (a := (a.ready w.request).note [.answered w.request
      (w.refusal .invalidRequest a.store.settings.configError)]) herr
    rw [List.foldl_cons, runWaiter_configError env w herr, hrest]
    simp [note, ready]

end Actor

end Caf.EntityStore.Sql
