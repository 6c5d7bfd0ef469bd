import CafPluginSystem.EntityStore.Contract
import CafPluginSystem.Library.History
import CafPluginSystem.Library.Machine

/-!
# The shutdown coordinator

`GracefulShutdown` of `src/core/graceful_shutdown.cpp`.  On `shutdown_atom` it stops the plugins of a list one
after another: it asks the plugin manager for the plugin's actor, monitors it, sends it `drain_atom`, asks it for
its state, has the state saved by the checkpoint manager, sends it `shutdown_atom` and waits for it to go down.
Then it ends the cluster actors and the components, waits for them, and last the logging service.

A state holds what the actor holds, and what is on its way to it: the requests that are not answered yet
(`pending`), the `plugin_saved_atom` it has sent to itself (`mail`), the running `force_exit_atom` timers and the
actors whose `down_msg` is still to come (`monitored`, one for each call of `monitor`).  The history is what it
has done for others, with the replies it has got.  An error for a request without an error continuation ends the
actor that made the request, which is CAF's rule.
-/

namespace Caf.Shutdown

open EntityStore List

/-- An `actor_addr`. -/
abbrev Address := ℕ

inductive SystemState where
  | initializing | ready | shuttingDown | stopped
  deriving DecidableEq, Repr

def SystemState.rank : SystemState → ℕ
  | .initializing => 0
  | .ready => 1
  | .shuttingDown => 2
  | .stopped => 3

/-- The actors the coordinator is made with; a handle may be null. -/
structure Components where
  pluginMgr : Option Address := none
  registry : Option Address := none
  checkpointMgr : Option Address := none
  loggingService : Option Address := none
  deriving DecidableEq, Repr

/-- The components that `finish_shutdown` ends. -/
def Components.core (components : Components) : List Address :=
  [components.pluginMgr, components.registry, components.checkpointMgr].filterMap id

/-- All of them. -/
def Components.all (components : Components) : List Address :=
  components.core ++ components.loggingService.toList

/-- A request that the coordinator has sent, with what its continuations capture. -/
inductive Request where
  | resolvePlugin (name : Bytes)
  | saveState (name : Bytes) (actor : Address)
  | saveCheckpoint (name : Bytes) (actor : Address) (data : Bytes)
  deriving DecidableEq, Repr

/-- An entry of the history. -/
inductive Act where
  | chainStarted (order : List Bytes)
  | shutdownRegistry
  | requested (request : Request)
  | drain (name : Bytes) (actor : Address)
  | shutdown (name : Bytes) (actor : Address)
  | awaited (actor : Address)
  | exit (actor : Address)
  | quit
  | absent (name : Bytes)
  | unresolved (name : Bytes)
  | stateSaved (name : Bytes) (actor : Address) (data : Bytes)
  | saveFailed (name : Bytes) (actor : Address)
  | checkpointed (name : Bytes) (actor : Address) (data : Bytes)
  | wentDown (name : Bytes) (actor : Address)
  deriving DecidableEq, Repr

structure Coordinator where
  components : Components
  state : SystemState := .initializing
  remainingPlugins : List Bytes := []
  stoppingPlugin : Option Address := none
  stoppingPluginName : Bytes := []
  stoppingPluginSaved : Bool := false
  stoppingComponents : List Address := []
  clusterCtlsPending : ℕ := 0
  clusterCtls : List Address := []
  pending : List Request := []
  mail : List (Bytes × Bool) := []
  timers : ℕ := 0
  monitored : List Address := []
  terminated : Bool := false
  log : List Act := []
  deriving DecidableEq, Repr

def note (c : Coordinator) (acts : List Act) : Coordinator := { c with log := c.log ++ acts }

/-! ## The end of the shutdown -/

/-- `quit` and `notify_shutdown_complete`. -/
def finishQuit (c : Coordinator) : Coordinator := { note c [.quit] with terminated := true }

/-- What is done for each actor whose end is awaited: it is counted, monitored and sent `exit`. -/
def stopComponent (c : Coordinator) (actor : Address) : Coordinator :=
  { c with
    stoppingComponents := c.stoppingComponents ++ [actor]
    monitored := c.monitored ++ [actor]
    log := c.log ++ [.awaited actor, .exit actor] }

def stopCluster (c : Coordinator) (actor : Address) : Coordinator :=
  { c with
    clusterCtlsPending := c.clusterCtlsPending + 1
    monitored := c.monitored ++ [actor]
    log := c.log ++ [.awaited actor, .exit actor] }

def finishLast (c : Coordinator) : Coordinator :=
  match c.components.loggingService with
  | some actor => stopComponent { c with state := .stopped } actor
  | none => finishQuit { c with state := .stopped }

/-- Neither a component nor a cluster actor is awaited. -/
def Coordinator.idle (c : Coordinator) : Bool := c.stoppingComponents.isEmpty && c.clusterCtlsPending == 0

def finishShutdown (c : Coordinator) : Coordinator :=
  let c := c.clusterCtls.foldl stopCluster c
  let c := c.components.core.foldl stopComponent c
  if c.idle then finishLast c else c

/-! ## The plugins -/

def sendRequest (c : Coordinator) (request : Request) : Coordinator :=
  { note c [.requested request] with pending := c.pending ++ [request] }

def sendSaved (c : Coordinator) (name : Bytes) (saved : Bool) : Coordinator :=
  { c with mail := c.mail ++ [(name, saved)] }

/-- The start of `stop_next`: the plugin's actor is asked for. -/
def stopNext (c : Coordinator) (name : Bytes) : Coordinator := sendRequest c (.resolvePlugin name)

/-- `resolve_plugin_atom` is answered: `none` is an error, `some none` is the null actor. -/
def resolved (c : Coordinator) (name : Bytes) : Option (Option Address) → Coordinator
  | none => sendSaved (note c [.unresolved name]) name false
  | some none => sendSaved (note c [.absent name]) name false
  | some (some actor) =>
    sendRequest
      (note { c with
              stoppingPlugin := some actor
              stoppingPluginName := name
              stoppingPluginSaved := false
              monitored := c.monitored ++ [actor] }
        [.drain name actor])
      (.saveState name actor)

/-- `save_state_atom` is answered by the plugin; `none` is an error. -/
def stateSaved (c : Coordinator) (name : Bytes) (actor : Address) : Option Bytes → Coordinator
  | some [] => { note c [.stateSaved name actor [], .shutdown name actor] with stoppingPluginSaved := true }
  | some data => sendRequest (note c [.stateSaved name actor data]) (.saveCheckpoint name actor data)
  | none => note c [.saveFailed name actor, .shutdown name actor]

/-- `save_state_atom` is answered by the checkpoint manager.  There is no error continuation. -/
def checkpointed (c : Coordinator) (name : Bytes) (actor : Address) (data : Bytes) : Option Bool → Coordinator
  | some _ =>
    { note c [.checkpointed name actor data, .shutdown name actor] with stoppingPluginSaved := true }
  | none => { c with terminated := true }

/-! ## The handlers -/

def startChain (c : Coordinator) (order : List Bytes) : Coordinator :=
  { note c [.chainStarted order, .shutdownRegistry] with state := .shuttingDown, remainingPlugins := order }

/-- `shutdown_atom`; `order` is what `get_stop_order` returns. -/
def shutdown (c : Coordinator) (order : List Bytes) : Coordinator :=
  match c.state with
  | .shuttingDown | .stopped => c
  | .initializing => finishShutdown c
  | .ready =>
    match order.getLast? with
    | some name => { stopNext (startChain c order) name with timers := c.timers + 1 }
    | none => finishShutdown (startChain c order)

/-- `plugin_saved_atom`. -/
def pluginSaved (c : Coordinator) (name : Bytes) : Coordinator :=
  let c := { c with remainingPlugins := c.remainingPlugins.filter (· ≠ name) }
  match c.remainingPlugins.getLast? with
  | some next => stopNext c next
  | none => finishShutdown c

/-- The plugin that is being stopped has gone down. -/
def pluginDown (c : Coordinator) (actor : Address) : Coordinator :=
  sendSaved
    { note c [.wentDown c.stoppingPluginName actor] with
      stoppingPlugin := none, stoppingPluginName := [], stoppingPluginSaved := false }
    c.stoppingPluginName c.stoppingPluginSaved

/-- A component or a cluster actor has gone down: when it was the last, the shutdown goes on. -/
def barrier (c : Coordinator) : Coordinator :=
  if c.idle then if c.state = .stopped then finishQuit c else finishLast c else c

/-- `down_msg`. -/
def down (c : Coordinator) (source : Address) : Coordinator :=
  match c.stoppingPlugin with
  | some actor => if actor = source then pluginDown c actor else c
  | none =>
    if source ∈ c.stoppingComponents then
      barrier { c with stoppingComponents := c.stoppingComponents.erase source }
    else if 0 < c.clusterCtlsPending ∧ source ∈ c.clusterCtls then
      barrier { c with clusterCtlsPending := c.clusterCtlsPending - 1 }
    else c

/-- `force_exit_atom`. -/
def forceExit (c : Coordinator) : Coordinator := if c.state = .stopped then c else finishShutdown c

/-- `register_cluster_atom`. -/
def registerCluster (c : Coordinator) : Option Address → Coordinator
  | some ctl => { c with clusterCtls := c.clusterCtls ++ [ctl] }
  | none => c

/-- What the coordinator receives. -/
inductive Event where
  | ready
  | shutdown (order : List Bytes)
  | pluginSaved (name : Bytes) (saved : Bool)
  | down (source : Address)
  | drained (source : Address)
  | forceExit
  | registerCluster (ctl : Option Address)
  | resolved (name : Bytes) (reply : Option (Option Address))
  | stateSaved (name : Bytes) (actor : Address) (reply : Option Bytes)
  | checkpointed (name : Bytes) (actor : Address) (data : Bytes) (reply : Option Bool)
  deriving DecidableEq, Repr

/-- The request that an event is a reply to. -/
def Event.replyTo : Event → Option Request
  | .resolved name _ => some (.resolvePlugin name)
  | .stateSaved name actor _ => some (.saveState name actor)
  | .checkpointed name actor data _ => some (.saveCheckpoint name actor data)
  | _ => none

/-- What the event takes from what was on its way. -/
def take (c : Coordinator) : Event → Coordinator
  | .pluginSaved name saved => { c with mail := c.mail.erase (name, saved) }
  | .down source => { c with monitored := c.monitored.erase source }
  | .forceExit => { c with timers := c.timers - 1 }
  | .resolved name _ => { c with pending := c.pending.erase (.resolvePlugin name) }
  | .stateSaved name actor _ => { c with pending := c.pending.erase (.saveState name actor) }
  | .checkpointed name actor data _ => { c with pending := c.pending.erase (.saveCheckpoint name actor data) }
  | _ => c

def handle (c : Coordinator) : Event → Coordinator
  | .ready => { c with state := .ready }
  | .shutdown order => shutdown c order
  | .pluginSaved name _ => pluginSaved c name
  | .down source => down c source
  | .drained _ => c
  | .forceExit => forceExit c
  | .registerCluster ctl => registerCluster c ctl
  | .resolved name reply => resolved c name reply
  | .stateSaved name actor reply => stateSaved c name actor reply
  | .checkpointed name actor data reply => checkpointed c name actor data reply

/-- One message, reply or error.  A reply has its request; any message may come at any time. -/
def step (c : Coordinator) (e : Event) : Option Coordinator :=
  if c.terminated then none
  else if ∀ request ∈ e.replyTo, request ∈ c.pending then some (handle (take c e) e)
  else none

/-- `health_check_atom`. -/
def healthCheck (c : Coordinator) : SystemState := c.state

/-- The coordinator as it is made. -/
def start (components : Components) : Coordinator := { components }

/-- What the rest of the system can send: the two messages that only the coordinator sends are on their way to
it, and a `down_msg` comes from a monitored actor. -/
def Possible (c : Coordinator) : Event → Prop
  | .pluginSaved name saved => (name, saved) ∈ c.mail
  | .down source => source ∈ c.monitored
  | .forceExit => 0 < c.timers
  | _ => True

instance Possible.decidable (c : Coordinator) : ∀ e, Decidable (Possible c e)
  | .pluginSaved name saved => inferInstanceAs (Decidable ((name, saved) ∈ c.mail))
  | .down source => inferInstanceAs (Decidable (source ∈ c.monitored))
  | .forceExit => inferInstanceAs (Decidable (0 < c.timers))
  | .ready | .shutdown _ | .drained _ | .registerCluster _ | .resolved _ _ | .stateSaved _ _ _
  | .checkpointed _ _ _ _ => isTrue trivial

/-! ## What the handlers do -/

/-- The actors that `finish_shutdown` ends, in this order. -/
def Coordinator.ending (c : Coordinator) : List Address := c.clusterCtls ++ c.components.core

/-- The history of ending some actors. -/
def endActs (actors : List Address) : List Act := actors.flatMap fun a => [.awaited a, .exit a]

lemma endActs_append (as bs : List Address) : endActs (as ++ bs) = endActs as ++ endActs bs :=
  flatMap_append

lemma endActs_cons (a : Address) (as : List Address) :
    endActs (a :: as) = .awaited a :: .exit a :: endActs as := rfl

lemma foldl_stopCluster (ctls : List Address) (c : Coordinator) :
    ctls.foldl stopCluster c =
      { c with
        clusterCtlsPending := c.clusterCtlsPending + ctls.length
        monitored := c.monitored ++ ctls
        log := c.log ++ endActs ctls } := by
  induction ctls generalizing c with
  | nil => simp [endActs]
  | cons a ctls ih =>
    rw [foldl_cons, ih, endActs_cons]
    simp only [stopCluster, length_cons, append_assoc, cons_append, nil_append]
    rw [Nat.add_assoc, Nat.add_comm 1]

lemma foldl_stopComponent (actors : List Address) (c : Coordinator) :
    actors.foldl stopComponent c =
      { c with
        stoppingComponents := c.stoppingComponents ++ actors
        monitored := c.monitored ++ actors
        log := c.log ++ endActs actors } := by
  induction actors generalizing c with
  | nil => simp [endActs]
  | cons a actors ih =>
    rw [foldl_cons, ih, endActs_cons]
    simp [stopComponent]

/-- The state in which everything but the logging service is awaited. -/
def awaitAll (c : Coordinator) : Coordinator :=
  { c with
    stoppingComponents := c.stoppingComponents ++ c.components.core
    clusterCtlsPending := c.clusterCtlsPending + c.clusterCtls.length
    monitored := c.monitored ++ c.ending
    log := c.log ++ endActs c.ending }

variable {c : Coordinator}

lemma idle_iff : c.idle = true ↔ c.stoppingComponents = [] ∧ c.clusterCtlsPending = 0 := by
  simp [Coordinator.idle]

lemma busy_of_component {a : Address} (h : a ∈ c.stoppingComponents) : c.idle = false := by
  refine Bool.eq_false_iff.mpr fun hidle => ?_
  rw [(idle_iff.mp hidle).1] at h
  cases h

lemma busy_of_cluster (h : 0 < c.clusterCtlsPending) : c.idle = false :=
  Bool.eq_false_iff.mpr fun hidle => h.ne' (idle_iff.mp hidle).2

/-- With nobody to wait for, `awaitAll` does nothing. -/
lemma awaitAll_idle (h : (awaitAll c).idle = true) :
    c.idle = true ∧ c.ending = [] ∧ awaitAll c = c := by
  have hempty := idle_iff.mp h
  simp only [awaitAll, append_eq_nil_iff, Nat.add_eq_zero_iff, length_eq_zero_iff] at hempty
  have hending : c.ending = [] := by simp [Coordinator.ending, hempty]
  have hlen : c.clusterCtls.length = 0 := length_eq_zero_iff.mpr hempty.2.2
  refine ⟨idle_iff.mpr ⟨hempty.1.1, hempty.2.1⟩, hending, ?_⟩
  simp [awaitAll, hending, hempty.1.2, hlen, endActs]

/-- The ways in which `finish_last` goes on. -/
inductive FinishesLast (c : Coordinator) : Coordinator → Prop
  | logging (actor : Address) (hlogging : c.components.loggingService = some actor) :
      FinishesLast c (stopComponent { c with state := .stopped } actor)
  | quit (hlogging : c.components.loggingService = none) :
      FinishesLast c (finishQuit { c with state := .stopped })

lemma finishLast_cases (c : Coordinator) : FinishesLast c (finishLast c) := by
  rw [finishLast]
  split
  · exact .logging _ ‹_›
  · exact .quit ‹_›

/-- The ways in which `finish_shutdown` goes on. -/
inductive Finishes (c : Coordinator) : Coordinator → Prop
  | await (hbusy : (awaitAll c).idle = false) : Finishes c (awaitAll c)
  | last (hidle : c.idle = true) (hending : c.ending = []) {c' : Coordinator} (hlast : FinishesLast c c') :
      Finishes c c'

lemma finishShutdown_cases (c : Coordinator) : Finishes c (finishShutdown c) := by
  have heq : finishShutdown c = if (awaitAll c).idle then finishLast (awaitAll c) else awaitAll c := by
    simp [finishShutdown, foldl_stopCluster, foldl_stopComponent, awaitAll, Coordinator.ending, endActs_append]
  rw [heq]
  split
  · rename_i hidle
    obtain ⟨hbefore, hending, hsame⟩ := awaitAll_idle hidle
    rw [hsame]
    exact .last hbefore hending (finishLast_cases c)
  · exact .await (Bool.eq_false_iff.mpr ‹_›)

/-- The ways in which the shutdown goes on when an awaited actor has gone down. -/
inductive Passes (c : Coordinator) : Coordinator → Prop
  | waits (hbusy : c.idle = false) : Passes c c
  | last (hidle : c.idle = true) (hstate : c.state ≠ .stopped) {c' : Coordinator}
      (hlast : FinishesLast c c') : Passes c c'
  | done (hidle : c.idle = true) (hstate : c.state = .stopped) : Passes c (finishQuit c)

lemma barrier_cases (c : Coordinator) : Passes c (barrier c) := by
  rw [barrier]
  split
  · split
    · exact .done ‹_› ‹_›
    · exact .last ‹_› ‹_› (finishLast_cases c)
  · exact .waits (Bool.eq_false_iff.mpr ‹_›)

/-- An entry about the end of a component, of a cluster actor or of the coordinator itself. -/
def Act.ending : Act → Bool
  | .awaited _ | .exit _ | .quit => true
  | _ => false

/-- The end of the shutdown does not touch the plugins. -/
structure Untouched (c c' : Coordinator) : Prop where
  remaining : c'.remainingPlugins = c.remainingPlugins
  stopping : c'.stoppingPlugin = c.stoppingPlugin
  name : c'.stoppingPluginName = c.stoppingPluginName
  pending : c'.pending = c.pending
  mail : c'.mail = c.mail
  log : ∃ acts, c'.log = c.log ++ acts ∧ ∀ act ∈ acts, act.ending = true

lemma endActs_ending {actors : List Address} : ∀ act ∈ endActs actors, act.ending = true := by
  intro act hact
  obtain ⟨a, -, ha⟩ := mem_flatMap.mp hact
  rcases mem_pair.mp ha with rfl | rfl <;> rfl

variable {c' : Coordinator}

lemma FinishesLast.untouched (h : FinishesLast c c') : Untouched c c' := by
  cases h with
  | logging actor hlogging => exact ⟨rfl, rfl, rfl, rfl, rfl, endActs [actor], rfl, endActs_ending⟩
  | quit hlogging => exact ⟨rfl, rfl, rfl, rfl, rfl, [.quit], rfl, by simp [Act.ending]⟩

lemma Finishes.untouched (h : Finishes c c') : Untouched c c' := by
  cases h with
  | await hbusy => exact ⟨rfl, rfl, rfl, rfl, rfl, endActs c.ending, rfl, endActs_ending⟩
  | last hidle hending hlast => exact hlast.untouched

lemma Passes.untouched (h : Passes c c') : Untouched c c' := by
  cases h with
  | waits hbusy => exact ⟨rfl, rfl, rfl, rfl, rfl, [], (append_nil _).symm, by simp⟩
  | last hidle hst hlast => exact hlast.untouched
  | done hidle hst => exact ⟨rfl, rfl, rfl, rfl, rfl, [.quit], rfl, by simp [Act.ending]⟩

/-- **What a message, a reply or an error can do.** -/
inductive Steps (c : Coordinator) : Event → Coordinator → Prop
  | ready : Steps c .ready { c with state := .ready }
  | ignored (order : List Bytes) (hstate : c.state = .shuttingDown ∨ c.state = .stopped) :
      Steps c (.shutdown order) c
  | early (order : List Bytes) (hstate : c.state = .initializing) {c' : Coordinator} (hends : Finishes c c') :
      Steps c (.shutdown order) c'
  | chain (order : List Bytes) (name : Bytes) (hstate : c.state = .ready) (hlast : order.getLast? = some name) :
      Steps c (.shutdown order) { stopNext (startChain c order) name with timers := c.timers + 1 }
  | noPlugins (hstate : c.state = .ready) {c' : Coordinator} (hends : Finishes (startChain c []) c') :
      Steps c (.shutdown []) c'
  | next (name : Bytes) (saved : Bool) (following : Bytes)
      (hlast : (c.remainingPlugins.filter (· ≠ name)).getLast? = some following) :
      Steps c (.pluginSaved name saved)
        (stopNext { c with
          mail := c.mail.erase (name, saved)
          remainingPlugins := c.remainingPlugins.filter (· ≠ name) } following)
  | last (name : Bytes) (saved : Bool) (hnone : c.remainingPlugins.filter (· ≠ name) = []) {c' : Coordinator}
      (hends : Finishes { c with mail := c.mail.erase (name, saved), remainingPlugins := [] } c') :
      Steps c (.pluginSaved name saved) c'
  | pluginDown (actor : Address) (hstopping : c.stoppingPlugin = some actor) :
      Steps c (.down actor) (pluginDown { c with monitored := c.monitored.erase actor } actor)
  | lost (source actor : Address) (hstopping : c.stoppingPlugin = some actor) (hother : actor ≠ source) :
      Steps c (.down source) { c with monitored := c.monitored.erase source }
  | componentDown (source : Address) (hstopping : c.stoppingPlugin = none)
      (hmem : source ∈ c.stoppingComponents) {c' : Coordinator}
      (hpasses : Passes { c with
        monitored := c.monitored.erase source
        stoppingComponents := c.stoppingComponents.erase source } c') :
      Steps c (.down source) c'
  | clusterDown (source : Address) (hstopping : c.stoppingPlugin = none)
      (hnot : source ∉ c.stoppingComponents) (hpending : 0 < c.clusterCtlsPending)
      (hmem : source ∈ c.clusterCtls) {c' : Coordinator}
      (hpasses : Passes { c with
        monitored := c.monitored.erase source
        clusterCtlsPending := c.clusterCtlsPending - 1 } c') :
      Steps c (.down source) c'
  | strangerDown (source : Address) (hstopping : c.stoppingPlugin = none)
      (hnot : source ∉ c.stoppingComponents)
      (hcluster : ¬ (0 < c.clusterCtlsPending ∧ source ∈ c.clusterCtls)) :
      Steps c (.down source) { c with monitored := c.monitored.erase source }
  | drained (source : Address) : Steps c (.drained source) c
  | late (hstate : c.state = .stopped) : Steps c .forceExit { c with timers := c.timers - 1 }
  | forced (hstate : c.state ≠ .stopped) {c' : Coordinator}
      (hends : Finishes { c with timers := c.timers - 1 } c') : Steps c .forceExit c'
  | register (ctl : Address) :
      Steps c (.registerCluster (some ctl)) { c with clusterCtls := c.clusterCtls ++ [ctl] }
  | registerNull : Steps c (.registerCluster none) c
  | unresolved (name : Bytes) (hpending : .resolvePlugin name ∈ c.pending) :
      Steps c (.resolved name none)
        (sendSaved (note { c with pending := c.pending.erase (.resolvePlugin name) } [.unresolved name])
          name false)
  | absent (name : Bytes) (hpending : .resolvePlugin name ∈ c.pending) :
      Steps c (.resolved name (some none))
        (sendSaved (note { c with pending := c.pending.erase (.resolvePlugin name) } [.absent name])
          name false)
  | found (name : Bytes) (actor : Address) (hpending : .resolvePlugin name ∈ c.pending) :
      Steps c (.resolved name (some (some actor)))
        { c with
          pending := c.pending.erase (.resolvePlugin name) ++ [.saveState name actor]
          stoppingPlugin := some actor
          stoppingPluginName := name
          stoppingPluginSaved := false
          monitored := c.monitored ++ [actor]
          log := c.log ++ [.drain name actor] ++ [.requested (.saveState name actor)] }
  | emptyState (name : Bytes) (actor : Address) (hpending : .saveState name actor ∈ c.pending) :
      Steps c (.stateSaved name actor (some []))
        { note { c with pending := c.pending.erase (.saveState name actor) }
            [.stateSaved name actor [], .shutdown name actor] with stoppingPluginSaved := true }
  | state (name : Bytes) (actor : Address) (data : Bytes) (hdata : data ≠ [])
      (hpending : .saveState name actor ∈ c.pending) :
      Steps c (.stateSaved name actor (some data))
        (sendRequest (note { c with pending := c.pending.erase (.saveState name actor) }
            [.stateSaved name actor data]) (.saveCheckpoint name actor data))
  | saveFailed (name : Bytes) (actor : Address) (hpending : .saveState name actor ∈ c.pending) :
      Steps c (.stateSaved name actor none)
        (note { c with pending := c.pending.erase (.saveState name actor) }
          [.saveFailed name actor, .shutdown name actor])
  | checkpointed (name : Bytes) (actor : Address) (data : Bytes) (done : Bool)
      (hpending : .saveCheckpoint name actor data ∈ c.pending) :
      Steps c (.checkpointed name actor data (some done))
        { note { c with pending := c.pending.erase (.saveCheckpoint name actor data) }
            [.checkpointed name actor data, .shutdown name actor] with stoppingPluginSaved := true }
  | checkpointFailed (name : Bytes) (actor : Address) (data : Bytes)
      (hpending : .saveCheckpoint name actor data ∈ c.pending) :
      Steps c (.checkpointed name actor data none)
        { c with pending := c.pending.erase (.saveCheckpoint name actor data), terminated := true }

/-- A step that is taken is the handling of its event. -/
lemma step_eq {e : Event} (h : step c e = some c') :
    c.terminated = false ∧ (∀ request ∈ e.replyTo, request ∈ c.pending) ∧ c' = handle (take c e) e := by
  rw [step] at h
  split at h
  · cases h
  · rename_i hlive
    split at h
    · rename_i hreq
      exact ⟨by simpa using hlive, hreq, (Option.some.inj h).symm⟩
    · cases h

lemma down_cases (c : Coordinator) (source : Address) :
    Steps c (.down source) (down { c with monitored := c.monitored.erase source } source) := by
  obtain hstop | ⟨actor, hstop⟩ := Option.eq_none_or_eq_some c.stoppingPlugin
  · by_cases hmem : source ∈ c.stoppingComponents
    · refine .componentDown source hstop hmem ?_
      simp only [down, hstop, if_pos hmem]
      exact barrier_cases _
    · by_cases hclus : 0 < c.clusterCtlsPending ∧ source ∈ c.clusterCtls
      · refine .clusterDown source hstop hmem hclus.1 hclus.2 ?_
        simp only [down, hstop, if_neg hmem, if_pos hclus]
        exact barrier_cases _
      · have hsame : down { c with monitored := c.monitored.erase source } source =
            { c with monitored := c.monitored.erase source } := by
          simp only [down, hstop, if_neg hmem, if_neg hclus]
        rw [hsame]
        exact .strangerDown source hstop hmem hclus
  · by_cases hsource : actor = source
    · subst hsource
      have heq : down { c with monitored := c.monitored.erase actor } actor =
          pluginDown { c with monitored := c.monitored.erase actor } actor := by
        simp [down, hstop]
      rw [heq]
      exact .pluginDown actor hstop
    · have hsame : down { c with monitored := c.monitored.erase source } source =
          { c with monitored := c.monitored.erase source } := by
        simp only [down, hstop, if_neg hsource]
      rw [hsame]
      exact .lost source actor hstop hsource

lemma forceExit_cases (c : Coordinator) :
    Steps c .forceExit (forceExit { c with timers := c.timers - 1 }) := by
  by_cases hst : c.state = .stopped
  · rw [forceExit, if_pos hst]
    exact .late hst
  · rw [forceExit, if_neg hst]
    exact .forced hst (finishShutdown_cases _)

lemma shutdown_cases (c : Coordinator) (order : List Bytes) : Steps c (.shutdown order) (shutdown c order) := by
  rw [shutdown]
  split
  · exact .ignored order (.inl ‹_›)
  · exact .ignored order (.inr ‹_›)
  · exact .early order ‹_› (finishShutdown_cases c)
  · rename_i hst
    split
    · exact .chain order _ hst ‹_›
    · rename_i hnone
      obtain rfl := getLast?_eq_none_iff.mp hnone
      exact .noPlugins hst (finishShutdown_cases _)

lemma pluginSaved_cases (c : Coordinator) (name : Bytes) (saved : Bool) :
    Steps c (.pluginSaved name saved) (pluginSaved { c with mail := c.mail.erase (name, saved) } name) := by
  simp only [pluginSaved]
  split
  · exact .next name saved _ ‹_›
  · rename_i hnone
    have hrest := getLast?_eq_none_iff.mp hnone
    refine .last name saved hrest ?_
    rw [← hrest]
    exact finishShutdown_cases _

/-- **Inversion of a step.** -/
lemma step_cases {e : Event} (h : step c e = some c') :
    c.terminated = false ∧ Steps c e c' := by
  obtain ⟨hlive, hreq, rfl⟩ := step_eq h
  refine ⟨hlive, ?_⟩
  cases e with
  | ready => exact .ready
  | shutdown order => exact shutdown_cases c order
  | pluginSaved name saved => exact pluginSaved_cases c name saved
  | down source => exact down_cases c source
  | drained source => exact .drained source
  | forceExit => exact forceExit_cases c
  | registerCluster ctl =>
    rcases ctl with _ | ctl
    · exact .registerNull
    · exact .register ctl
  | resolved name reply =>
    have hpend := hreq _ rfl
    rcases reply with _ | _ | actor
    · exact .unresolved name hpend
    · exact .absent name hpend
    · exact .found name actor hpend
  | stateSaved name actor reply =>
    have hpend := hreq _ rfl
    rcases reply with _ | _ | ⟨byte, data⟩
    · exact .saveFailed name actor hpend
    · exact .emptyState name actor hpend
    · exact .state name actor (byte :: data) (by simp) hpend
  | checkpointed name actor data reply =>
    have hpend := hreq _ rfl
    rcases reply with _ | done
    · exact .checkpointFailed name actor data hpend
    · exact .checkpointed name actor data done hpend

end Caf.Shutdown
