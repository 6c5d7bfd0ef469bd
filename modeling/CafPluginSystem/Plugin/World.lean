import CafPluginSystem.Library.Machine
import CafPluginSystem.Plugin.Manager

/-!
# The surroundings of the plugin manager

What the handlers of the plugin manager act on: the service registry with its mailbox (`service_registry.cpp`), the
proxies of the services, the plugin actors, and the replies to requests.  All of them live on one node and move on
by themselves, in any order: `Background` has one event for each actor that handles its next message, for a call
of a client, for an actor that ends and for the runtime telling a proxy about it.

Mailboxes are first in, first out; a message is in the mailbox of its receiver when the send returns.  An exit
message is not: it may be handled before what was there already, and what is left in the mailbox of an actor that
has ended is lost.

* `World` — the state; `World.perform` — an operation of the manager; `World.background` — everything else.
* `System` — the manager, the handler it is in, and the world; `System.step` — one step of the whole.
-/

namespace Caf.Plugin

open EntityStore Service

/-- The node everything here lives on. -/
def localNode : ℕ := 0

/-- `VersionedEntry` of the registry. -/
structure VersionedEntry where
  proxy : Address
  impl : Address
  version : ℕ := 1
  plugin : Bytes
deriving DecidableEq, Repr

/-- A message in the mailbox of a proxy, with its origin if the manager caused it and the number of the request. -/
structure ProxyLetter (μ : Type) where
  origin : Option Bytes := none
  request : Option ℕ := none
  msg : ProxyMsg μ
deriving DecidableEq, Repr

/-- A proxy: its state, the plugin its service was registered for, its mailbox and what it has done; whether it was
sent an exit message and whether it is still there. -/
structure ProxyCell (μ : Type) where
  state : ProxyState μ
  owner : Bytes
  mail : List (ProxyLetter μ) := []
  log : List (Effect μ) := []
  doomed : Bool := false
  alive : Bool := true
deriving DecidableEq, Repr

/-- A message to a plugin actor: a call forwarded by a proxy, a lifecycle message, or the request for its state. -/
inductive ActorMsg (μ : Type) where
  | client (proxy : Address) (call : Call μ)
  | lifecycle (msg : LifecycleMsg)
  | saveState (request : ℕ)
deriving DecidableEq, Repr

/-- A plugin actor: every message it has received, in this order, and how many of them it has handled. -/
structure ActorCell (μ : Type) where
  received : List (ActorMsg μ) := []
  handled : ℕ := 0
  doomed : Bool := false
  alive : Bool := true
deriving DecidableEq, Repr

/-- What happens to a service on account of an operation on a plugin. -/
inductive ServiceAct where
  | unregister
  | pause
  | retarget
  | changeAcl
deriving DecidableEq, Repr

/-- An act, the plugin whose operation caused it and the plugin the service was registered for. -/
structure Touch where
  act : ServiceAct
  origin : Bytes
  owner : Bytes
deriving DecidableEq, Repr

structure World (μ : Type) where
  services : StringMap VersionedEntry := ∅
  allowCrossNode : Bool := false
  registryMail : List (Bytes × RegistryMsg) := []
  proxies : Address → Option (ProxyCell μ) := fun _ => none
  actors : Address → Option (ActorCell μ) := fun _ => none
  answers : ℕ → Option Answer := fun _ => none
  /-- the number of the next actor, request or instance -/
  next : ℕ := 0
  destroyed : List ℕ := []
  touched : List Touch := []

namespace World

variable {μ : Type}

/-! ## Sending -/

def setProxy (w : World μ) (p : Address) (cell : ProxyCell μ) : World μ :=
  { w with proxies := Function.update w.proxies p (some cell) }

def setActor (w : World μ) (a : Address) (cell : ActorCell μ) : World μ :=
  { w with actors := Function.update w.actors a (some cell) }

/-- A message to a proxy; what comes after its end is never handled. -/
def toProxy (w : World μ) (p : Address) (letter : ProxyLetter μ) : World μ :=
  match w.proxies p with
  | some cell => w.setProxy p { cell with mail := cell.mail ++ [letter] }
  | none => w

def toActor (w : World μ) (a : Address) (msg : ActorMsg μ) : World μ :=
  match w.actors a with
  | some cell => w.setActor a { cell with received := cell.received ++ [msg] }
  | none => w

/-- A lifecycle message; `exit` does not wait its turn in the mailbox. -/
def tellActor (w : World μ) (a : Address) : LifecycleMsg → World μ
  | .exit =>
    match w.actors a with
    | some cell => w.setActor a { cell with doomed := true }
    | none => w
  | msg => w.toActor a (.lifecycle msg)

def toRegistry (w : World μ) (origin : Bytes) (msg : RegistryMsg) : World μ :=
  { w with registryMail := w.registryMail ++ [(origin, msg)] }

/-- The reply to a request; a second one is dropped. -/
def answer (w : World μ) (request : ℕ) (a : Answer) : World μ :=
  { w with answers := Function.update w.answers request ((w.answers request).or (some a)) }

/-- The address of the next actor. -/
def nextAddress (w : World μ) : Address := ⟨localNode, w.next⟩

def bump (w : World μ) : World μ := { w with next := w.next + 1 }

def touch (w : World μ) (act : ServiceAct) (origin owner : Bytes) : World μ :=
  { w with touched := w.touched ++ [⟨act, origin, owner⟩] }

/-! ## The operations of the manager -/

/-- What the environment decides about an operation: which library a path holds, which state the checkpoint manager
has, and whether a request fails. -/
inductive Choice where
  | go
  | fail
  | library (lib : Option Library)
  | state (data : Bytes)
deriving Repr

/-- An operation and its reply. -/
def perform (w : World μ) : (e : Op) → Choice → Option (e.Reply × World μ)
  | .openLibrary _, .library lib => some (lib, w)
  | .create, .go => some (w.next, w.bump)
  | .destroy entry, .go => some ((), { w with destroyed := w.destroyed ++ [entry] })
  | .resolve origin service, .go => some (w.next, (w.toRegistry origin (.resolve w.next service)).bump)
  | .quiesce origin proxy, .go =>
    some (w.next, (w.toProxy proxy { origin := some origin, request := some w.next, msg := .quiesce }).bump)
  | .saveState actor, .go => some (w.next, (w.toActor actor (.saveState w.next)).bump)
  | .receive _ _, .fail => some (none, w)
  | .receive _ request, .go => (w.answers request).map fun a => (some a, w)
  | .restoreState _, .state data => some (data, w)
  | .spawn _ _, .go => some (w.nextAddress, (w.setActor w.nextAddress {}).bump)
  | .monitor _, .go => some ((), w)
  | .tellRegistry origin msg, .go => some ((), w.toRegistry origin msg)
  | .resume origin proxy target, .go =>
    some ((), w.toProxy proxy { origin := some origin, msg := .resume target })
  | .tell actor msg, .go => some ((), w.tellActor actor msg)
  | _, _ => none

/-! ## The registry -/

def onRegister (w : World μ) (service : Bytes) (impl : Address) (plugin : Bytes) : World μ :=
  if service ∈ w.services then w
  else
    let proxy : Proxy μ := spawnServiceProxy impl w.allowCrossNode
    { (w.setProxy w.nextAddress { state := proxy.state, owner := plugin, log := proxy.log }).bump with
      services := w.services.insert service { proxy := w.nextAddress, impl, plugin } }

def onHotReload (w : World μ) (origin service : Bytes) (newImpl : Address) : World μ :=
  match w.services[service]? with
  | none => w
  | some e =>
    { w with
      services := w.services.insert service { e with version := e.version + 1, impl := newImpl } }.touch
        .retarget origin e.plugin

/-- The registration is erased and its proxy is sent an exit message. -/
def onUnregister (w : World μ) (origin service : Bytes) : World μ :=
  match w.services[service]? with
  | none => w
  | some e =>
    let w := { w with services := w.services.erase service }.touch .unregister origin e.plugin
    match w.proxies e.proxy with
    | none => w
    | some cell => w.setProxy e.proxy { cell with doomed := true }

def onSetServiceAcl (w : World μ) (origin service : Bytes) (allowed : List (Option Address)) : World μ :=
  match w.services[service]? with
  | none => w
  | some e => w.toProxy e.proxy { origin := some origin, msg := .setAcl allowed }

def onResolve (w : World μ) (request : ℕ) (service : Bytes) : World μ :=
  w.answer request (.handle (w.services[service]?.map VersionedEntry.proxy))

def registryHandles (w : World μ) (origin : Bytes) : RegistryMsg → World μ
  | .register service impl plugin => w.onRegister service impl plugin
  | .hotReload service newImpl => w.onHotReload origin service newImpl
  | .unregister service => w.onUnregister origin service
  | .setServiceAcl service allowed => w.onSetServiceAcl origin service allowed
  | .resolve request service => w.onResolve request service

/-! ## The proxies -/

/-- The effect of a proxy on the others: a forwarded call is in the mailbox of its target, an acknowledgement is
the reply to the request. -/
def carryOut (p : Address) (request : Option ℕ) (w : World μ) : Effect μ → World μ
  | .forward target call => w.toActor target (.client p call)
  | .ack =>
    match request with
    | some r => w.answer r (.flag true)
    | none => w
  | _ => w

/-- What the messages of the manager do to a service. -/
def actOf : ProxyMsg μ → Option ServiceAct
  | .quiesce => some .pause
  | .resume _ => some .retarget
  | .setAcl _ => some .changeAcl
  | _ => none

def noteTouch (w : World μ) (letter : ProxyLetter μ) (owner : Bytes) : World μ :=
  match letter.origin, actOf letter.msg with
  | some origin, some act => w.touch act origin owner
  | _, _ => w

/-- The proxy handles the next message of its mailbox. -/
def proxyHandles (w : World μ) (p : Address) (cell : ProxyCell μ) (letter : ProxyLetter μ)
    (rest : List (ProxyLetter μ)) : World μ :=
  let (state, effects) := cell.state.handle localNode letter.msg
  let cell' := { cell with state, mail := rest, log := cell.log ++ effects, alive := state.current.isSome }
  effects.foldl (carryOut p letter.request) ((w.setProxy p cell').noteTouch letter cell.owner)

/-! ## The plugin actors -/

/-- A plugin actor handles a message; its state, when asked for, is whatever `on_save` gives. -/
def actorHandles (w : World μ) (a : Address) (cell : ActorCell μ) (msg : ActorMsg μ) (snapshot : Bytes) :
    World μ :=
  let w := w.setActor a { cell with handled := cell.handled + 1 }
  match msg with
  | .saveState request => w.answer request (.data snapshot)
  | _ => w

/-! ## Everything but the manager -/

inductive Background (μ : Type) where
  | registry
  | proxy (p : Address)
  | actor (a : Address) (snapshot : Bytes)
  | call (p : Address) (call : Call μ)
  | proxyExit (p : Address)
  | actorExit (a : Address)
  | die (a : Address)
  | notify (p a : Address)
deriving DecidableEq, Repr

/-- The proxy is there, monitors the actor, and the actor has ended. -/
def mayNotify (w : World μ) (cell : ProxyCell μ) (a : Address) : Bool :=
  cell.alive &&
    (cell.log.any fun e => match e with
      | .monitor target => target == a
      | _ => false) &&
    ((w.actors a).any fun actor => !actor.alive)

def background (w : World μ) : Background μ → Option (World μ)
  | .registry =>
    match w.registryMail with
    | [] => none
    | (origin, msg) :: rest => some ({ w with registryMail := rest }.registryHandles origin msg)
  | .proxy p =>
    match w.proxies p with
    | none => none
    | some cell =>
      match cell.alive, cell.mail with
      | true, letter :: rest => some (w.proxyHandles p cell letter rest)
      | _, _ => none
  | .actor a snapshot =>
    match w.actors a with
    | none => none
    | some cell =>
      match cell.alive, cell.received[cell.handled]? with
      | true, some msg => some (w.actorHandles a cell msg snapshot)
      | _, _ => none
  | .call p c =>
    match w.proxies p with
    | none => none
    | some cell => if cell.alive then some (w.toProxy p { msg := .client c }) else none
  | .proxyExit p =>
    match w.proxies p with
    | none => none
    | some cell => if cell.alive && cell.doomed then some (w.setProxy p { cell with alive := false }) else none
  | .actorExit a =>
    match w.actors a with
    | none => none
    | some cell => if cell.alive && cell.doomed then some (w.setActor a { cell with alive := false }) else none
  | .die a =>
    match w.actors a with
    | none => none
    | some cell => if cell.alive then some (w.setActor a { cell with alive := false }) else none
  | .notify p a =>
    match w.proxies p with
    | none => none
    | some cell => if w.mayNotify cell a then some (w.toProxy p { msg := .down a }) else none

end World

/-! ## The whole system -/

/-- A message that the manager is handling: the world when it was taken up and what is left of the handler. -/
structure Task (μ : Type) where
  msg : ManagerMsg
  since : World μ
  rest : Program (Outcome × PluginManager)

/-- A message that the manager has handled: the members and the world before it, the outcome, and the members after
it. -/
structure Completed (μ : Type) where
  msg : ManagerMsg
  before : PluginManager
  since : World μ
  outcome : Outcome
  after : PluginManager

/-- The manager, the message it is handling, the world, and what the manager has handled. -/
structure System (μ : Type) where
  manager : PluginManager := {}
  running : Option (Task μ) := none
  world : World μ := {}
  history : List (Completed μ) := []

namespace System

variable {μ : Type}

inductive Event (μ : Type) where
  | receive (msg : ManagerMsg)
  | perform (choice : World.Choice)
  | finish
  | background (event : World.Background μ)
deriving Repr

def step (s : System μ) : Event μ → Option (System μ)
  | .receive msg =>
    match s.running with
    | some _ => none
    | none => some { s with running := some { msg, since := s.world, rest := s.manager.handler msg } }
  | .perform choice =>
    match s.running with
    | some { msg, since, rest := .ask e k } =>
      (s.world.perform e choice).map fun done =>
        { s with running := some { msg, since, rest := k done.1 }, world := done.2 }
    | _ => none
  | .finish =>
    match s.running with
    | some { msg, since, rest := .ret done } =>
      some { s with
        manager := done.2
        running := none
        history := s.history ++
          [{ msg, before := s.manager, since, outcome := done.1, after := done.2 }] }
    | _ => none
  | .background event => (s.world.background event).map fun world => { s with world }

end System

/-- The system at its start: no plugin, and the registrations of the core services on their way to the registry. -/
def startSystem {μ : Type} (core : List (Bytes × Address)) (allowCrossNode : Bool) : System μ where
  world :=
    { allowCrossNode
      registryMail := core.map fun c => (str "@core", .register c.1 c.2 (str "@core"))
      next := core.foldl (fun n c => max n (c.2.id + 1)) 0 }

end Caf.Plugin
