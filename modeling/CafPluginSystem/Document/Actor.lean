import CafPluginSystem.EntityStore.Schema
import CafPluginSystem.Library.Journal
import CafPluginSystem.Library.Machine
import CafPluginSystem.Library.Queues

/-!
# The document entity store

The actor in front of the Mongo and Redis workers (`entity_store_actor` of
`include/templates/document_entity_store_actor.hpp`): it forwards loads at once, puts saves into the queue
of their store and partition, of which the first one is with the backend, answers what it has taken in,
and acknowledges a drain when nothing is left.

The operations, which the source shares between its containers and its callbacks, are records found by a
number; a container holds numbers.  What an operation was told by the clock and the registry is in the
event that made the actor look (`View`).  The journal is what the actor has done for others, in order.

* `pump` — the loop over the head of a queue.
* `step` — one event.
-/

namespace Caf.EntityStore.Document

/-- The members of `service_config` that the actor reads. -/
structure ServiceConfig where
  catalog : SchemaCatalog
  maxPendingRequests : ℕ := 1024
  configError : Bytes := []
  backendName : Bytes := str "Document"

/-- The logical store and the partition. -/
abbrev QueueKey := Bytes × Bytes

instance : Ord QueueKey := lexOrd

/-- A load that was taken in.  `awaited` says that its request is with the backend. -/
structure Load where
  input : LoadRequest
  completed : Bool := false
  awaited : Bool := false

structure Save where
  key : QueueKey
  input : SaveRequest
  sent : Bool := false
  completed : Bool := false
  awaited : Bool := false

/-- What the clock and the registry say when a save is looked at: the time that is left, and whether the
write service is there. -/
structure View where
  budget : ℤ := 1
  backend : Bool := true

/-- A request that was taken in. -/
inductive Request where
  | load (id : ℕ)
  | save (key : QueueKey) (i : ℕ)
  deriving DecidableEq

inductive Answer where
  | load (result : LoadResult)
  | save (result : SaveResult)

abbrev Entry := Journal.Entry Request Answer ℕ

def failLoad (input : LoadRequest) (code : ResultCode) (error : Bytes) : LoadResult :=
  { target := input.target, code, error }

def failSave (input : SaveRequest) (code : ResultCode) (error : Bytes) : SaveResult :=
  { requestId := input.requestId, code, error }

/-- The actor.  `loads` are the keys of `loads_`, in their order; `refusals` are the answers to requests
that were not taken in. -/
structure Actor where
  settings : ServiceConfig
  pending : ℕ := 0
  sequence : ℕ := 0
  draining : Bool := false
  loads : List ℕ := []
  saves : Std.ExtTreeMap QueueKey (List ℕ) := ∅
  drainWaiters : List ℕ := []
  loadTable : ℕ → Option Load := fun _ => none
  saveTable : ℕ → Option Save := fun _ => none
  nextSave : ℕ := 0
  journal : List Entry := []
  refusals : List Answer := []
  exited : Bool := false

namespace Actor

def queue (s : Actor) (key : QueueKey) : List ℕ := Queues.queue s.saves key

def admissionError (s : Actor) : Option Bytes :=
  if s.draining then some (str "entity store is draining")
  else if s.pending ≥ s.settings.maxPendingRequests then
    some (str "entity store pending request limit reached")
  else none

def known (s : Actor) (target : EntityRef) : Bool :=
  (s.settings.catalog.findEntity target.store target.entity).isSome

def setLoad (s : Actor) (id : ℕ) (load : Load) : Actor :=
  { s with loadTable := Function.update s.loadTable id (some load) }

def setSave (s : Actor) (i : ℕ) (save : Save) : Actor :=
  { s with saveTable := Function.update s.saveTable i (some save) }

def note (s : Actor) (entries : List Entry) : Actor := { s with journal := s.journal ++ entries }

def refuse (s : Actor) (answer : Answer) : Actor := { s with refusals := s.refusals ++ [answer] }

def notifyDrained (s : Actor) : Actor :=
  if !s.draining ∨ s.pending ≠ 0 then s
  else { s.note (s.drainWaiters.map .acknowledged) with drainWaiters := [] }

/-- The checks of `load` before the request is taken in. -/
def checkLoad (s : Actor) (input : LoadRequest) (backend : Bool) : Except LoadResult Unit := do
  if s.settings.configError ≠ [] then
    .error (failLoad input .invalidRequest s.settings.configError)
  match validateLoad input with
  | .error error => .error (failLoad input .invalidRequest error)
  | .ok () => .ok ()
  if !s.known input.target then
    .error (failLoad input .invalidRequest (str "unknown entity store or entity"))
  match s.admissionError with
  | some denied => .error (failLoad input .unavailable denied)
  | none => .ok ()
  if !backend then
    .error (failLoad input .unavailable (s.settings.backendName ++ str " read service is unavailable"))

def load (s : Actor) (input : LoadRequest) (backend : Bool) : Actor :=
  match s.checkLoad input backend with
  | .error result => s.refuse (.load result)
  | .ok () =>
    let id := s.sequence + 1
    { (s.setLoad id { input, awaited := true }).note [.opened (.load id)] with
      sequence := id
      loads := s.loads ++ [id]
      pending := s.pending + 1 }

def finishLoad (s : Actor) (id : ℕ) (result : LoadResult) : Actor :=
  match s.loadTable id with
  | none => s
  | some current =>
    if current.completed then s
    else
      let s := (s.setLoad id { current with completed := true }).note [.answered (.load id) (.load result)]
      { s with loads := s.loads.erase id, pending := s.pending - 1 }.notifyDrained

/-- `found->second.pop_front()`, and the queue goes when it is empty. -/
def popFront (saves : Std.ExtTreeMap QueueKey (List ℕ)) (key : QueueKey) :
    Std.ExtTreeMap QueueKey (List ℕ) :=
  match saves[key]? with
  | none => saves
  | some queue => if queue.tail = [] then saves.erase key else saves.insert key queue.tail

/-- `finish_save` with `advance = false`. -/
def finishSave (s : Actor) (key : QueueKey) (i : ℕ) (result : SaveResult) : Actor :=
  match s.saveTable i with
  | none => s
  | some current =>
    if current.completed then s
    else
      let s := (s.setSave i { current with completed := true }).note
        [.answered (.save key i) (.save result)]
      { s with saves := popFront s.saves key, pending := s.pending - 1 }.notifyDrained

/-- Why the head of a queue is not sent. -/
def rejection (s : Actor) (view : View) (input : SaveRequest) : Option SaveResult :=
  if view.budget ≤ 0 then
    some (failSave input .unavailable (str "save deadline expired while queued"))
  else if !view.backend then
    some (failSave input .unavailable
      (s.settings.backendName ++ str " write service is unavailable"))
  else none

/-- The loop of `pump`, over what is in the queue: heads that cannot be sent are answered, and the first
one that can is sent. -/
def pump (views : ℕ → View) (key : QueueKey) : List ℕ → Actor → Actor
  | [], s => s
  | i :: rest, s =>
    match s.saveTable i with
    | none => s
    | some current =>
      match s.rejection (views i) current.input with
      | some result => pump views key rest (s.finishSave key i result)
      | none => s.setSave i { current with sent := true, awaited := true }

/-- The checks of `save` before the request is taken in. -/
def checkSave (s : Actor) (input : SaveRequest) : Except SaveResult Unit := do
  if s.settings.configError ≠ [] then
    .error (failSave input .invalidRequest s.settings.configError)
  match validateSave input with
  | .error error => .error (failSave input .invalidRequest error)
  | .ok () => .ok ()
  if input.requestId.length > 255 then
    .error (failSave input .invalidRequest (str "request_id exceeds 255 bytes"))
  if !(input.changes.all fun change => s.known change.target) then
    .error (failSave input .invalidRequest (str "unknown entity store or entity"))
  match s.admissionError with
  | some denied => .error (failSave input .unavailable denied)
  | none => .ok ()

/-- The store and the partition of the first change. -/
def keyOf (input : SaveRequest) : QueueKey :=
  match input.changes with
  | [] => ([], [])
  | change :: _ => (change.target.store, change.target.partition)

/-- The save is put at the end of its queue. -/
def takeIn (s : Actor) (input : SaveRequest) : Actor :=
  { (s.setSave s.nextSave { key := keyOf input, input }).note
      [.opened (.save (keyOf input) s.nextSave)] with
    nextSave := s.nextSave + 1
    saves := s.saves.insert (keyOf input) (s.queue (keyOf input) ++ [s.nextSave])
    pending := s.pending + 1 }

def save (s : Actor) (views : ℕ → View) (input : SaveRequest) : Actor :=
  match s.checkSave input with
  | .error result => s.refuse (.save result)
  | .ok () =>
    let s := s.takeIn input
    let queue := s.queue (keyOf input)
    if queue.length = 1 then pump views (keyOf input) queue s else s

/-- The reply of the backend to a save, or the error of the request. -/
def saveReply (input : SaveRequest) : Except Bytes SaveResult → SaveResult
  | .ok result => result
  | .error error => failSave input .commitUnknown
      (error ++ str "; retry with the same request_id and payload")

def loadReply (input : LoadRequest) : Except Bytes LoadResult → LoadResult
  | .ok result => result
  | .error error => failLoad input .unavailable error

/-- What `on_exit` answers a load with. -/
def exitLoad (s : Actor) (id : ℕ) : Entry :=
  .answered (.load id) (.load (match s.loadTable id with
    | some load => failLoad load.input .unavailable (str "entity store exited before load completed")
    | none => {}))

/-- What `on_exit` answers a save with. -/
def exitSave (s : Actor) (key : QueueKey) (i : ℕ) : Entry :=
  .answered (.save key i) (.save (match s.saveTable i with
    | some save => failSave save.input (if save.sent then .commitUnknown else .unavailable)
        (str "entity store exited; retry with the same request_id and payload")
    | none => {}))

/-- `on_exit`: everything that is left is answered, and no reply arrives any more. -/
def onExit (s : Actor) : Actor :=
  let queued := s.saves.toList.flatMap fun entry => entry.2
  { s.note (s.loads.map s.exitLoad ++
      s.saves.toList.flatMap fun entry => entry.2.map (s.exitSave entry.1)) with
    draining := true
    loadTable := fun id => (s.loadTable id).map fun load =>
      if id ∈ s.loads then { load with completed := true, awaited := false } else load
    saveTable := fun i => (s.saveTable i).map fun save =>
      if i ∈ queued then { save with completed := true, awaited := false } else save
    loads := []
    saves := ∅
    drainWaiters := []
    pending := 0
    exited := true }

end Actor

/-- What the actor reacts to.  `exit` is an exit message, or `shutdown_atom`, which makes it quit. -/
inductive Event where
  | load (input : LoadRequest) (backend : Bool)
  | save (input : SaveRequest) (views : ℕ → View)
  | loadReply (id : ℕ) (reply : Except Bytes LoadResult)
  | saveReply (i : ℕ) (reply : Except Bytes SaveResult) (views : ℕ → View)
  | drain (coordinator : ℕ)
  | exit

namespace Actor

def step (s : Actor) (event : Event) : Option Actor :=
  if s.exited then none
  else match event with
    | .load input backend => some (s.load input backend)
    | .save input views => some (s.save views input)
    | .loadReply id reply =>
      match s.loadTable id with
      | none => none
      | some current =>
        if !current.awaited then none
        else some ((s.setLoad id { current with awaited := false }).finishLoad id
          (loadReply current.input reply))
    | .saveReply i reply views =>
      match s.saveTable i with
      | none => none
      | some current =>
        if !current.awaited then none
        else
          let s := (s.setSave i { current with awaited := false }).finishSave current.key i
            (saveReply current.input reply)
          some (pump views current.key (s.queue current.key) s)
    | .drain coordinator =>
      some { s with draining := true, drainWaiters := s.drainWaiters ++ [coordinator] }.notifyDrained
    | .exit => some s.onExit

/-- The actor when it starts. -/
def initial (settings : ServiceConfig) : Actor := { settings }

end Actor

end Caf.EntityStore.Document
