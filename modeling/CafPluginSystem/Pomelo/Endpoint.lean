import CafPluginSystem.Library.Machine
import CafPluginSystem.Pomelo.Session

/-!
# The Pomelo endpoint

`spawn_pomelo_bridge` of `pomelo_bridge.cpp`: the broker with its connections, the table of users, the requests to
services that have not been answered, and the pushes that the actor behind the service `pomelo_push` hands over.  What
happens is recorded in a trace.

* `step` — what the broker receives, and what it does.
* `run_connections`, `run_sessions` — **runs**: what new data and writing keep holds for every open connection.
-/

namespace Caf.Pomelo

open Chunks EntityStore

/-- `caf::io::connection_handle`. -/
abbrev Handle := ℕ

/-- What happens: connections, what their sessions do, and calls of services on account of a package. -/
inductive Action where
  | accepted (h : Handle)
  | closed (h : Handle)
  | on (h : Handle) (e : Effect)
  | envelope (h : Handle) (n : ℕ) (svc function body : Bytes)
deriving DecidableEq, Repr

/-- A request to the registry, or to a service, that has not been answered; it has an id unless it belongs to a
notification. -/
structure Pending where
  handle : Handle
  number : ℕ
  id : Option UInt32
  svc : Bytes
  function : Bytes
  body : Bytes
  calling : Bool := false
deriving DecidableEq, Repr

def Pending.of? (h : Handle) : Effect → Option Pending
  | .dispatch number id svc function body => some { handle := h, number, id, svc, function, body }
  | _ => none

structure Endpoint where
  connections : Std.ExtTreeMap ℕ Connection := ∅
  uidMap : StringMap Handle := ∅
  pending : List Pending := []
  trace : List Action := []

/-- The binding of a user. -/
def bindUid (h : Handle) (uids : StringMap Handle) : Effect → StringMap Handle
  | .bind uid => uids.insert uid h
  | _ => uids

/-- What a session has done since. -/
def newEffects (c c' : Connection) : List Effect := c'.state.log.drop c.state.log.length

/-- The part of `impl` that takes a push apart: the user it is for, if any, and the text. -/
def Config.pushTarget (cfg : Config) (payload : Bytes) : Bytes × Bytes :=
  let field (key : Bytes) : Bytes := (((cfg.json payload).bind (Json.member key)).bind Json.text?).getD []
  let body := field (str "body")
  (field (str "uid"), if body.isEmpty then payload else body)

namespace Endpoint

/-- A session has gone on: its bindings, its requests and what it did are entered. -/
def settle (s : Endpoint) (h : Handle) (c c' : Connection) : Endpoint :=
  let new := newEffects c c'
  { connections := s.connections.insert h c'
    uidMap := new.foldl (bindUid h) s.uidMap
    pending := s.pending ++ new.filterMap (Pending.of? h)
    trace := s.trace ++ new.map (.on h) }

/-- `write_frame` from outside the handler of new data. -/
def writeFrame (s : Endpoint) (h : Handle) (cause : Cause) (frame : Bytes) : Endpoint :=
  match s.connections[h]? with
  | none => s
  | some c => s.settle h c { c with state := c.state.writeFrame cause frame }

/-- The connections that have acknowledged the handshake, in the order of the table. -/
def readyHandles (s : Endpoint) : List Handle :=
  (s.connections.toList.filter fun (_, c) => c.state.ready = some true).map Prod.fst

end Endpoint

/-- How the registry answers. -/
inductive Resolution where
  | found
  | missing
  | failed (text : Bytes)
deriving DecidableEq, Repr

/-- What the broker receives.  `stale` is what the handler of new data finds in a buffer that was removed; an answer
belongs to one of the requests that are pending; an error has become its text. -/
inductive Event where
  | accepted (h : Handle)
  | data (h : Handle) (chunk : Bytes) (stale : List Bytes)
  | closed (h : Handle)
  | resolved (i : ℕ) (r : Resolution)
  | replied (i : ℕ) (text : Bytes)
  | push (function payload : Bytes)
deriving DecidableEq, Repr

/-- A request is answered; a notification has no answer. -/
def Endpoint.respond (s : Endpoint) (p : Pending) (text : Bytes) : Endpoint :=
  match p.id with
  | some id => s.writeFrame p.handle (.reply p.number) (responseFrame id text)
  | none => s

/-- The registry has answered. -/
def onResolved (s : Endpoint) (p : Pending) : Resolution → Endpoint
  | .found =>
    { s with
      pending := s.pending ++ (if p.id.isSome then [{ p with calling := true }] else [])
      trace := s.trace ++ [.envelope p.handle p.number p.svc p.function p.body] }
  | .missing => s.respond p (str "service not found: " ++ p.svc)
  | .failed text => s.respond p text

/-- A push: for a user, or for all. -/
def onPush (cfg : Config) (s : Endpoint) (function payload : Bytes) : Endpoint :=
  if function.isEmpty then s
  else
    let (uid, body) := cfg.pushTarget payload
    let frame := pushFrame function body
    if uid.isEmpty then s.readyHandles.foldl (fun s h => s.writeFrame h .broadcast frame) s
    else
      match s.uidMap[uid]? with
      | none => s
      | some h => s.writeFrame h (.push uid) frame

def step (cfg : Config) (s : Endpoint) : Event → Option Endpoint
  | .accepted h =>
    if h ∈ s.connections then none
    else some { s with connections := s.connections.insert h fresh, trace := s.trace ++ [.accepted h] }
  | .data h chunk stale => (s.connections[h]?).map fun c => s.settle h c (receive cfg c chunk stale)
  | .closed h =>
    if h ∈ s.connections then
      some { s with
        connections := s.connections.erase h
        uidMap := s.uidMap.filter fun _ bound => bound ≠ h
        trace := s.trace ++ [.closed h] }
    else none
  | .resolved i r =>
    match s.pending[i]? with
    | some p => if p.calling then none else some (onResolved { s with pending := s.pending.eraseIdx i } p r)
    | none => none
  | .replied i text =>
    match s.pending[i]? with
    | some p => if p.calling then some ({ s with pending := s.pending.eraseIdx i }.respond p text) else none
    | none => none
  | .push function payload => some (onPush cfg s function payload)

/-! ## The connections of a run -/

namespace Endpoint

variable {P : Connection → Prop} {s s' : Endpoint}

/-- Every open connection has a property. -/
def All (P : Connection → Prop) (s : Endpoint) : Prop := ∀ (h : Handle) (c : Connection), s.connections[h]? = some c → P c

/-- Writing a frame keeps the property. -/
def Silent (P : Connection → Prop) : Prop :=
  ∀ (c : Connection) cause frame, P c → P { c with state := c.state.writeFrame cause frame }

lemma All.settle (hs : s.All P) {h c c'} (hc : P c') : (s.settle h c c').All P := by
  intro h' d hd
  rw [Endpoint.settle, Std.ExtTreeMap.getElem?_insert] at hd
  split at hd
  · obtain rfl : c' = d := by simpa using hd
    exact hc
  · exact hs h' d hd

lemma All.writeFrame (hwrite : Silent P) (hs : s.All P) (h : Handle) (cause : Cause) (frame : Bytes) :
    (s.writeFrame h cause frame).All P := by
  unfold Endpoint.writeFrame
  split
  · exact hs
  · rename_i c hc
    exact hs.settle (hwrite c cause frame (hs h c hc))

lemma All.broadcast (hwrite : Silent P) (frame : Bytes) : ∀ (hs : List Handle) {s : Endpoint}, s.All P →
    (hs.foldl (fun s h => s.writeFrame h .broadcast frame) s).All P := by
  intro hs
  induction hs with
  | nil =>
    intro s h
    exact h
  | cons h hs ih =>
    intro s hall
    exact ih (hall.writeFrame hwrite h .broadcast frame)

lemma All.respond (hwrite : Silent P) (hs : s.All P) (p : Pending) (text : Bytes) : (s.respond p text).All P := by
  unfold Endpoint.respond
  split
  · exact hs.writeFrame hwrite _ _ _
  · exact hs

end Endpoint

/-- One event. -/
lemma step_all {cfg} {P : Connection → Prop} (hfresh : P fresh) (hwrite : Endpoint.Silent P)
    {s s' e} (hs : s.All P)
    (hdata : ∀ h c chunk stale, e = .data h chunk stale → s.connections[h]? = some c → P c →
      P (receive cfg c chunk stale)) (hstep : step cfg s e = some s') : s'.All P := by
  cases e with
  | accepted h =>
    simp only [step] at hstep
    split at hstep
    · simp at hstep
    · obtain rfl := Option.some.inj hstep
      intro h' d hd
      rw [Std.ExtTreeMap.getElem?_insert] at hd
      split at hd
      · obtain rfl : fresh = d := by simpa using hd
        exact hfresh
      · exact hs h' d hd
  | data h chunk stale =>
    obtain ⟨c, hc, rfl⟩ := Option.map_eq_some_iff.mp hstep
    exact hs.settle (hdata h c chunk stale rfl hc (hs h c hc))
  | closed h =>
    simp only [step] at hstep
    split at hstep
    · obtain rfl := Option.some.inj hstep
      intro h' d hd
      rw [Std.ExtTreeMap.getElem?_erase] at hd
      split at hd
      · simp at hd
      · exact hs h' d hd
    · simp at hstep
  | resolved i r =>
    simp only [step] at hstep
    split at hstep
    · split at hstep
      · simp at hstep
      · obtain rfl := Option.some.inj hstep
        have hrest : Endpoint.All P { s with pending := s.pending.eraseIdx i } := hs
        cases r with
        | found => exact hs
        | missing | failed text => exact hrest.respond hwrite _ _
    · simp at hstep
  | replied i text =>
    simp only [step] at hstep
    split at hstep
    · split at hstep
      · obtain rfl := Option.some.inj hstep
        have hrest : Endpoint.All P { s with pending := s.pending.eraseIdx i } := hs
        exact hrest.respond hwrite _ _
      · simp at hstep
    · simp at hstep
  | push function payload =>
    obtain rfl := Option.some.inj hstep
    unfold onPush
    split
    · exact hs
    · dsimp only
      split
      · exact hs.broadcast hwrite _ _
      · split
        · exact hs
        · exact hs.writeFrame hwrite _ _ _

/-- **Runs.**  A property of connections that new connections have, and that writing a frame and new data keep, holds for
every open connection at any time. -/
theorem run_connections {cfg} {P : Connection → Prop} {C : Endpoint → Event → Prop} (hfresh : P fresh)
    (hwrite : Endpoint.Silent P)
    (hdata : ∀ s h c chunk stale, C s (.data h chunk stale) → s.connections[h]? = some c → P c →
      P (receive cfg c chunk stale)) {s es}
    (hobeys : Machine.RunWhere (step cfg) C {} es) (hrun : Machine.run (step cfg) {} es = some s) : s.All P := by
  refine Machine.run_invariant_where (I := Endpoint.All P) (C := C) (fun s e s' hI hC hstep => ?_) ?_ hobeys hrun
  · refine step_all hfresh hwrite hI ?_ hstep
    rintro h c chunk stale rfl hc hP
    exact hdata s h c chunk stale hC hc hP
  · intro h c hc
    simp at hc

/-- What every step of a session keeps, and writing from outside, holds for every open connection at any time. -/
theorem run_sessions {cfg} {P : Session → Prop} (k : Keeps cfg P)
    (hwrite : ∀ {s} cause frame, P s → P (s.writeFrame cause frame)) (hfresh : P {}) {s}
    {es} (hrun : Machine.run (step cfg) {} es = some s) : s.All fun c => P c.state :=
  run_connections (C := fun _ _ => True) hfresh (fun _ cause frame h => hwrite cause frame h)
    (fun _ _ _ chunk stale _ _ h => k.receive h chunk stale) (Machine.RunWhere.of_forall fun _ _ _ => trivial) hrun

end Caf.Pomelo
