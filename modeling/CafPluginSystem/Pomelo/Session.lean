import CafPluginSystem.EntityStore.Schema
import CafPluginSystem.Pomelo.Loops

/-!
# A connection of the Pomelo endpoint

The part of the broker in `pomelo_bridge.cpp` that belongs to one connection.  Its tables (`rx`, `bad`, `ready`,
`transport`, `ws_hs_done`, `ws_frag`) have an entry for each connection; here the entries of one connection are a
`Session` and its receive buffer.  The buffer is removed whenever the connection is marked as bad, and only then.

What a session does is written to its log: packages that are handled, bytes that are written, bindings of a user,
acknowledgements, requests to services.  The handler of new data holds a reference to the receive buffer.  When a
malformed message marks the connection, its loop goes on and reads the buffer that was removed; what it finds there is
up to the environment (`roam`).

* `handlePackage`, `handleFrame` — a package, a WebSocket frame.
* `sessionLoop`, `reader` — the loop of the handler.
* `receive` — the handler of new data.
* `Handling`, `handlePackage_handling` — what the handler of a package can do.
* `Keeps`, `Keeps.receive` — what every step of a session keeps, the handler keeps.
-/

namespace Caf.Pomelo

open Chunks EntityStore

/-! ## Configuration -/

/-- A JSON document, as far as the endpoint looks into it. -/
inductive Json where
  | text (s : Bytes)
  | object (members : List (Bytes × Json))
  | other

def Json.member (key : Bytes) : Json → Option Json
  | .object members => members.lookup key
  | _ => none

def Json.text? : Json → Option Bytes
  | .text s => some s
  | _ => none

/-- The table of routes, and the JSON parser (`caf::json_value::parse`). -/
structure Config where
  routes : StringMap Bytes
  json : Bytes → Option Json

/-- `split_svc_function`. -/
def splitSvcFunction (target : Bytes) : Option (Bytes × Bytes) :=
  match splitText (str ":") target with
  | none => none
  | some (svc, function) => if svc.isEmpty || function.isEmpty then none else some (svc, function)

/-- `user.uid` of a handshake; the empty text if there is none. -/
def Config.uidOf (cfg : Config) (body : Bytes) : Bytes :=
  ((cfg.json body).bind fun doc =>
    (doc.member (str "user")).bind fun user => (user.member (str "uid")).bind Json.text?).getD []

/-- `hs_frame_string`. -/
def hsFrame : Bytes := encodePkg pkgHandshake (str "\x7b\"code\":200,\"sys\":\x7b\"heartbeat\":60\x7d\x7d")

/-! ## Sessions -/

/-- Why something is written: the protocol itself, the endpoint's own answer to a request, the answer of a service to
it, a push for a user, a push for all. -/
inductive Cause where
  | protocol
  | refusal (n : ℕ)
  | reply (n : ℕ)
  | push (uid : Bytes)
  | broadcast
deriving DecidableEq, Repr

/-- What a session does.  Packages are numbered; a request to a service has the number of its package, and its id unless
it is a notification. -/
inductive Effect where
  | package (n : ℕ) (pkg : ParsedPkg)
  | write (cause : Cause) (bytes : Bytes)
  | bind (uid : Bytes)
  | acknowledge
  | mark
  | dangling
  | dispatch (n : ℕ) (id : Option UInt32) (svc function body : Bytes)
deriving DecidableEq, Repr

/-- The entries of a connection, except its buffer; the number of packages so far; whether the loop of the handler holds
on to a buffer that was removed; and the log. -/
structure Session where
  bad : Bool := false
  ready : Option Bool := some false
  transport : Option Transport := none
  wsHsDone : Bool := false
  wsFrag : Bytes := []
  served : ℕ := 0
  dangles : Bool := false
  log : List Effect := []
deriving DecidableEq, Repr

namespace Session

variable (cfg : Config)

def note (s : Session) (e : Effect) : Session := { s with log := s.log ++ [e] }

/-- `write_raw`: there is a buffer unless the connection is marked. -/
def writeRaw (s : Session) (cause : Cause) (bytes : Bytes) : Session :=
  if s.bad then s else s.note (.write cause bytes)

/-- The bytes of a frame on this transport. -/
def wrap (s : Session) (frame : Bytes) : Bytes :=
  if s.transport = some .ws then encodeFrame opBinary frame else frame

/-- `write_frame`. -/
def writeFrame (s : Session) (cause : Cause) (frame : Bytes) : Session :=
  if s.bad then s else s.writeRaw cause (s.wrap frame)

/-- The connection is marked, and its buffer and its place among the ready ones removed. -/
def mark (s : Session) : Session := { s with bad := true, ready := none }.note .mark

/-- A message with a number: requests and notifications are looked up in the table of routes. -/
def handleMessage (s : Session) (n : ℕ) (msg : ParsedMsg) : Session :=
  if msg.type = msgRequest then
    match cfg.routes[msg.route]? with
    | none => s.writeFrame (.refusal n) (responseFrame msg.id (str "unknown route: " ++ msg.route))
    | some target =>
      match splitSvcFunction target with
      | none => s.writeFrame (.refusal n) (responseFrame msg.id (str "bad route target: " ++ target))
      | some (svc, function) => s.note (.dispatch n (some msg.id) svc function msg.body)
  else if msg.type = msgNotify then
    match cfg.routes[msg.route]? with
    | none => s
    | some target =>
      match splitSvcFunction target with
      | none => s
      | some (svc, function) => s.note (.dispatch n none svc function msg.body)
  else s

/-- `handle_package`. -/
def handlePackage (s : Session) (pkg : ParsedPkg) : Session :=
  let n := s.served
  let s := { s with served := n + 1 }.note (.package n pkg)
  if pkg.type = pkgHandshake then
    let uid := cfg.uidOf pkg.body
    let s := if uid.isEmpty then s else s.note (.bind uid)
    s.writeFrame .protocol hsFrame
  else if pkg.type = pkgHandshakeAck then { s with ready := some true }.note .acknowledge
  else if pkg.type = pkgHeartbeat then s.writeFrame .protocol (frameString pkgHeartbeat [])
  else if pkg.type ≠ pkgData then s
  else
    match parseMsg pkg.body with
    | none => s.mark
    | some msg => s.handleMessage cfg n msg

end Session

/-- The packages of a payload: what is left over is ignored. -/
def packagesFrom : ℕ → Bytes → List ParsedPkg
  | 0, _ => []
  | rounds + 1, tmp =>
    match parsePkg tmp with
    | .done n pkg => pkg :: packagesFrom rounds (tmp.drop n)
    | _ => []

def packagesOf (tmp : Bytes) : List ParsedPkg := packagesFrom tmp.length tmp

namespace Session

variable (cfg : Config)

/-- The packages of a payload are handled one after the other. -/
def handlePayload (s : Session) (payload : Bytes) : Session := (packagesOf payload).foldl (handlePackage cfg) s

/-- A WebSocket frame, and whether the loop goes on. -/
def handleFrame (s : Session) (frame : WsFrame) : Session × Bool :=
  if frame.opcode = opPing then (s.writeRaw .protocol (encodeFrame opPong frame.payload), true)
  else if frame.opcode = opPong then (s, true)
  else if frame.opcode = opClose then ((s.writeRaw .protocol (encodeFrame opClose [])).mark, false)
  else if frame.opcode = opBinary ∨ frame.opcode = opText then
    if frame.fin then ({ s with wsFrag := [] }.handlePayload cfg (s.wsFrag ++ frame.payload), true)
    else ({ s with wsFrag := frame.payload }, true)
  else if frame.opcode = opContinuation then
    if s.wsFrag.isEmpty then (s, true)
    else if frame.fin then ({ s with wsFrag := [] }.handlePayload cfg (s.wsFrag ++ frame.payload), true)
    else ({ s with wsFrag := s.wsFrag ++ frame.payload }, true)
  else (s, true)

end Session

/-! ## The loop -/

namespace Session

variable (cfg : Config)

def handleItem (s : Session) : Item → Session × Bool
  | .package pkg => (s.handlePackage cfg pkg, true)
  | .frame frame => s.handleFrame cfg frame

/-- The HTTP head; without a key the connection is marked, and keeps its place in the table of the ready ones. -/
def upgrade (s : Session) (head : Bytes) : Outcome Session :=
  let key := extractWsKey head
  if key.isEmpty then .stop ({ s with bad := true }.note .mark)
  else .goOn { s.writeRaw .protocol (handshakeResponse key) with wsHsDone := true }

/-- An item.  If the connection was marked meanwhile and the loop goes on, it holds on to a buffer that was removed. -/
def takeItem (s : Session) (item : Item) : Outcome Session :=
  let (s, again) := s.handleItem cfg item
  if s.bad then .stop { s with dangles := again } else .goOn s

end Session

/-- The loop of the handler of new data. -/
def sessionLoop (cfg : Config) : Loop Session where
  transport := Session.transport
  upgraded := Session.wsHsDone
  head := Session.upgrade
  error := Session.mark
  item := Session.takeItem cfg

def reader (cfg : Config) : Reader UInt8 Session := (sessionLoop cfg).reader

/-! ## New data -/

/-- A connection: its session, and its buffer unless it is marked. -/
abbrev Connection := Receiver UInt8 Session

/-- A connection that was just accepted. -/
def fresh : Connection := ⟨{}, some []⟩

namespace Session

variable (cfg : Config)

/-- The transport is decided with the first data. -/
def detect (s : Session) (buf : Bytes) : Session :=
  match s.transport with
  | some _ => s
  | none =>
    if looksLikeHttpUpgrade buf then { s with transport := some .ws, wsHsDone := false, wsFrag := [] }
    else { s with transport := some .tcp }

/-- The loop goes on with a buffer that was removed: it finds something there, which the environment chooses anew at
each access, or nothing complete. -/
def roam (s : Session) : List Bytes → Session
  | [] => s.note .dangling
  | found :: later =>
    let s := s.note .dangling
    match parseItem (s.transport.getD .tcp) found with
    | .more => s
    | .bad => s.mark
    | .done _ item =>
      let (s, again) := s.handleItem cfg item
      if again then s.roam later else s

end Session

/-- The handler of new data.  Once the connection is marked, data is ignored. -/
def receive (cfg : Config) (c : Connection) (chunk : Bytes) (stale : List Bytes) : Connection :=
  match c.buffer with
  | none => c
  | some buf =>
    let buf := buf ++ chunk
    let r := (reader cfg).drain (c.state.detect buf) buf
    if r.state.dangles then ⟨{ r.state with dangles := false }.roam cfg stale, r.buffer⟩ else r

/-! ## The packages of a log -/

def Effect.package? : Effect → Option ParsedPkg
  | .package _ pkg => some pkg
  | _ => none

/-- The packages that were handled. -/
def packages (log : List Effect) : List ParsedPkg := log.filterMap Effect.package?

/-- What is not a package leaves them as they are. -/
lemma packages_append {log es : List Effect} (h : ∀ e ∈ es, e.package? = none) : packages (log ++ es) = packages log := by
  rw [packages, List.filterMap_append, List.filterMap_eq_nil_iff.mpr h, List.append_nil]
  rfl

lemma packages_snoc (log : List Effect) (n : ℕ) (pkg : ParsedPkg) :
    packages (log ++ [.package n pkg]) = packages log ++ [pkg] := by
  simp [packages, Effect.package?]

/-! ## What a package does -/

namespace Session

variable {cfg : Config} {s : Session} {pkg : ParsedPkg}

def adds (s : Session) (es : List Effect) : Session := { s with log := s.log ++ es }

/-- A package was taken up. -/
def begun (s : Session) (pkg : ParsedPkg) : Session :=
  { s with served := s.served + 1, log := s.log ++ [.package s.served pkg] }

/-- What `write_frame` writes. -/
def written (s : Session) (cause : Cause) (frame : Bytes) : List Effect :=
  if s.bad then [] else [.write cause (s.wrap frame)]

lemma writeRaw_eq (s : Session) (cause : Cause) (bytes : Bytes) :
    s.writeRaw cause bytes = s.adds (if s.bad then [] else [.write cause bytes]) := by
  unfold writeRaw adds note
  split
  · rw [List.append_nil]
  · rfl

lemma writeFrame_eq (s : Session) (cause : Cause) (frame : Bytes) :
    s.writeFrame cause frame = s.writeRaw cause (s.wrap frame) := by
  unfold writeFrame writeRaw
  split
  · rfl
  · rfl

lemma writeFrame_adds (s : Session) (cause : Cause) (frame : Bytes) :
    s.writeFrame cause frame = s.adds (s.written cause frame) := by
  rw [writeFrame_eq, writeRaw_eq, written]

@[simp] lemma adds_nil (s : Session) : s.adds [] = s := by
  rw [adds, List.append_nil]

lemma adds_adds (s : Session) (es es' : List Effect) : (s.adds es).adds es' = s.adds (es ++ es') := by
  simp [adds]

/-- What the handler of a package can do: answer a handshake and bind its user, take an acknowledgement, answer a
heartbeat, ignore the package, mark the connection for a malformed message, refuse a request, or ask for the service of
a request or a notification. -/
inductive Handling (cfg : Config) (s : Session) (pkg : ParsedPkg) : Session → Prop where
  | handshake (htype : pkg.type = pkgHandshake) : Handling cfg s pkg ((s.begun pkg).adds
      ((if (cfg.uidOf pkg.body).isEmpty then [] else [.bind (cfg.uidOf pkg.body)]) ++ s.written .protocol hsFrame))
  | acknowledge (htype : pkg.type = pkgHandshakeAck) :
      Handling cfg s pkg ({ s.begun pkg with ready := some true }.adds [.acknowledge])
  | heartbeat (htype : pkg.type = pkgHeartbeat) :
      Handling cfg s pkg ((s.begun pkg).adds (s.written .protocol (frameString pkgHeartbeat [])))
  | strange (hno : pkg.type ≠ pkgHandshake ∧ pkg.type ≠ pkgHandshakeAck ∧ pkg.type ≠ pkgData) :
      Handling cfg s pkg (s.begun pkg)
  | malformed (htype : pkg.type = pkgData) (hmsg : parseMsg pkg.body = none) :
      Handling cfg s pkg ({ s.begun pkg with bad := true, ready := none }.adds [.mark])
  | ignored {msg : ParsedMsg} (htype : pkg.type = pkgData) (hmsg : parseMsg pkg.body = some msg)
      (hroute : (msg.type ≠ msgRequest ∧ msg.type ≠ msgNotify) ∨
        msg.type = msgNotify ∧ (cfg.routes[msg.route]?).bind splitSvcFunction = none) :
      Handling cfg s pkg (s.begun pkg)
  | refused {msg : ParsedMsg} (text : Bytes) (htype : pkg.type = pkgData) (hmsg : parseMsg pkg.body = some msg)
      (hrequest : msg.type = msgRequest) (hroute : (cfg.routes[msg.route]?).bind splitSvcFunction = none) :
      Handling cfg s pkg ((s.begun pkg).adds (s.written (.refusal s.served) (responseFrame msg.id text)))
  | dispatched {msg : ParsedMsg} {id : Option UInt32} {svc function : Bytes} (htype : pkg.type = pkgData)
      (hmsg : parseMsg pkg.body = some msg)
      (hid : (msg.type = msgRequest ∧ id = some msg.id) ∨ (msg.type = msgNotify ∧ id = none))
      (hroute : (cfg.routes[msg.route]?).bind splitSvcFunction = some (svc, function)) :
      Handling cfg s pkg ((s.begun pkg).adds [.dispatch s.served id svc function msg.body])

/-- A message that could be read. -/
lemma handleMessage_handling {msg : ParsedMsg} (htype : pkg.type = pkgData) (hmsg : parseMsg pkg.body = some msg) :
    Handling cfg s pkg ((s.begun pkg).handleMessage cfg s.served msg) := by
  unfold handleMessage
  by_cases hreq : msg.type = msgRequest
  · rw [if_pos hreq]
    cases hroute : cfg.routes[msg.route]? with
    | none =>
      rw [writeFrame_adds]
      exact .refused _ htype hmsg hreq (by simp [hroute])
    | some target =>
      cases hsplit : splitSvcFunction target with
      | none =>
        simp only [hsplit]
        rw [writeFrame_adds]
        exact .refused _ htype hmsg hreq (by simp [hroute, hsplit])
      | some parts =>
        simp only [hsplit]
        exact .dispatched htype hmsg (.inl ⟨hreq, rfl⟩) (by simp [hroute, hsplit])
  · rw [if_neg hreq]
    by_cases hnotify : msg.type = msgNotify
    · rw [if_pos hnotify]
      cases hroute : cfg.routes[msg.route]? with
      | none => exact .ignored htype hmsg (.inr ⟨hnotify, by simp [hroute]⟩)
      | some target =>
        cases hsplit : splitSvcFunction target with
        | none =>
          simp only [hsplit]
          exact .ignored htype hmsg (.inr ⟨hnotify, by simp [hroute, hsplit]⟩)
        | some parts =>
          simp only [hsplit]
          exact .dispatched htype hmsg (.inr ⟨hnotify, rfl⟩) (by simp [hroute, hsplit])
    · rw [if_neg hnotify]
      exact .ignored htype hmsg (.inl ⟨hreq, hnotify⟩)

/-- **What the handler of a package does.** -/
theorem handlePackage_handling (cfg : Config) (s : Session) (pkg : ParsedPkg) :
    Handling cfg s pkg (s.handlePackage cfg pkg) := by
  have hbegun : { s with served := s.served + 1 }.note (.package s.served pkg) = s.begun pkg := rfl
  unfold handlePackage
  by_cases hshake : pkg.type = pkgHandshake
  · rw [if_pos hshake, writeFrame_adds]
    have hdone : Handling cfg s pkg _ := .handshake hshake
    rw [← adds_adds] at hdone
    split
    · rename_i huid
      rw [if_pos huid, adds_nil] at hdone
      exact hdone
    · rename_i huid
      rw [if_neg huid] at hdone
      exact hdone
  rw [if_neg hshake]
  by_cases hack : pkg.type = pkgHandshakeAck
  · rw [if_pos hack]
    exact .acknowledge hack
  rw [if_neg hack]
  by_cases hheart : pkg.type = pkgHeartbeat
  · rw [if_pos hheart, writeFrame_adds]
    exact .heartbeat hheart
  rw [if_neg hheart]
  by_cases hdata : pkg.type = pkgData
  · rw [if_neg (by simpa using hdata)]
    split
    · rename_i hmsg
      exact .malformed hdata hmsg
    · rename_i msg hmsg
      exact handleMessage_handling hdata hmsg
  · rw [if_pos hdata]
    exact .strange ⟨hshake, hack, hdata⟩

/-- What `write_frame` writes holds no package. -/
lemma packages_written (s : Session) (cause : Cause) (frame : Bytes) (log : List Effect) :
    packages (log ++ s.written cause frame) = packages log := by
  refine packages_append fun e he => ?_
  unfold written at he
  split at he
  · simp at he
  · obtain rfl : e = _ := by simpa using he
    rfl

end Session

/-- A message that cannot be read. -/
def ParsedPkg.malformed (pkg : ParsedPkg) : Bool := pkg.type = pkgData && (parseMsg pkg.body).isNone

namespace Session

variable {cfg : Config} {s t : Session} {pkg : ParsedPkg}

/-- A session that went on over some packages: they are in its log, and it is marked if one of them was malformed; what
belongs to the transport is unchanged. -/
structure Handled (pkgs : List ParsedPkg) (s t : Session) : Prop where
  transport : t.transport = s.transport
  wsHsDone : t.wsHsDone = s.wsHsDone
  wsFrag : t.wsFrag = s.wsFrag
  dangles : t.dangles = s.dangles
  packages : packages t.log = packages s.log ++ pkgs
  bad : t.bad = (s.bad || pkgs.any ParsedPkg.malformed)

lemma Handling.handled (h : Handling cfg s pkg t) : Handled [pkg] s t := by
  have hbegun : packages (s.begun pkg).log = packages s.log ++ [pkg] := packages_snoc _ _ _
  -- for each kind of package: its effects hold no other package, and whether it is malformed
  cases h with
  | handshake htype =>
    refine ⟨rfl, rfl, rfl, rfl, ?_, by simp [begun, adds, ParsedPkg.malformed, htype, pkgHandshake, pkgData]⟩
    rw [← hbegun]
    show packages ((s.begun pkg).log ++ _) = _
    rw [← List.append_assoc, packages_written]
    exact packages_append (by split <;> simp [Effect.package?])
  | acknowledge htype =>
    refine ⟨rfl, rfl, rfl, rfl, ?_, by simp [begun, adds, ParsedPkg.malformed, htype, pkgHandshakeAck, pkgData]⟩
    rw [← hbegun]
    exact packages_append (by simp [Effect.package?])
  | heartbeat htype =>
    refine ⟨rfl, rfl, rfl, rfl, ?_, by simp [begun, adds, ParsedPkg.malformed, htype, pkgHeartbeat, pkgData]⟩
    rw [← hbegun]
    exact packages_written _ _ _ _
  | strange hno => exact ⟨rfl, rfl, rfl, rfl, hbegun, by simp [begun, ParsedPkg.malformed, hno.2.2]⟩
  | malformed htype hmsg =>
    refine ⟨rfl, rfl, rfl, rfl, ?_, by simp [adds, ParsedPkg.malformed, htype, hmsg]⟩
    rw [← hbegun]
    exact packages_append (by simp [Effect.package?])
  | ignored htype hmsg hroute => exact ⟨rfl, rfl, rfl, rfl, hbegun, by simp [begun, ParsedPkg.malformed, hmsg]⟩
  | refused text htype hmsg hreq hroute =>
    refine ⟨rfl, rfl, rfl, rfl, ?_, by simp [begun, adds, ParsedPkg.malformed, hmsg]⟩
    rw [← hbegun]
    exact packages_written _ _ _ _
  | dispatched htype hmsg hid hroute =>
    refine ⟨rfl, rfl, rfl, rfl, ?_, by simp [begun, adds, ParsedPkg.malformed, hmsg]⟩
    rw [← hbegun]
    exact packages_append (by simp [Effect.package?])

lemma handled_handlePackage (cfg : Config) (s : Session) (pkg : ParsedPkg) : Handled [pkg] s (s.handlePackage cfg pkg) :=
  (handlePackage_handling cfg s pkg).handled

lemma Handled.trans {u : Session} {pkgs pkgs' : List ParsedPkg} (h : Handled pkgs s t) (h' : Handled pkgs' t u) :
    Handled (pkgs ++ pkgs') s u where
  transport := h'.transport.trans h.transport
  wsHsDone := h'.wsHsDone.trans h.wsHsDone
  wsFrag := h'.wsFrag.trans h.wsFrag
  dangles := h'.dangles.trans h.dangles
  packages := by rw [h'.packages, h.packages, List.append_assoc]
  bad := by rw [h'.bad, h.bad, List.any_append, Bool.or_assoc]

lemma handled_foldl (cfg : Config) : ∀ (pkgs : List ParsedPkg) (s : Session),
    Handled pkgs s (pkgs.foldl (handlePackage cfg) s) := by
  intro pkgs
  induction pkgs with
  | nil => exact fun s => ⟨rfl, rfl, rfl, rfl, by simp, by simp⟩
  | cons pkg pkgs ih => exact fun s => (handled_handlePackage cfg s pkg).trans (ih _)

lemma handled_handlePayload (cfg : Config) (s : Session) (payload : Bytes) :
    Handled (packagesOf payload) s (s.handlePayload cfg payload) := handled_foldl cfg _ s

end Session

/-! ## What a session keeps -/

/-- Each thing that a session can do keeps a property. -/
structure Keeps (cfg : Config) (P : Session → Prop) : Prop where
  package : ∀ {s} pkg, P s → P (s.handlePackage cfg pkg)
  arrange : ∀ {s} transport wsHsDone wsFrag dangles, P s → P { s with transport, wsHsDone, wsFrag, dangles }
  write : ∀ {s} bytes, P s → P (s.writeRaw .protocol bytes)
  mark : ∀ {s} ready, ready = none ∨ ready = s.ready → P s → P ({ s with bad := true, ready }.note .mark)
  dangling : ∀ {s}, P s → P (s.note .dangling)

namespace Keeps

variable {cfg : Config} {P : Session → Prop} {s : Session}

variable (k : Keeps cfg P)
include k

lemma handlePayload (h : P s) (payload : Bytes) : P (s.handlePayload cfg payload) := by
  unfold Session.handlePayload
  induction packagesOf payload generalizing s with
  | nil => exact h
  | cons pkg pkgs ih => exact ih (k.package pkg h)

lemma handleItem (h : P s) (item : Item) : P (s.handleItem cfg item).1 := by
  cases item with
  | package pkg => exact k.package pkg h
  | frame frame =>
    have hfrag : ∀ f, P { s with wsFrag := f } := fun f => k.arrange s.transport s.wsHsDone f s.dangles h
    show P (s.handleFrame cfg frame).1
    unfold Session.handleFrame
    split_ifs
    · exact k.write _ h
    · exact h
    · exact k.mark none (.inl rfl) (k.write _ h)
    · exact k.handlePayload (hfrag []) _
    · exact hfrag _
    · exact h
    · exact k.handlePayload (hfrag []) _
    · exact hfrag _
    · exact h

lemma upgrade (head : Bytes) (h : P s) : (s.upgrade head).Meets P P := by
  unfold Session.upgrade
  dsimp only
  split
  · exact k.mark s.ready (.inr rfl) h
  · exact k.arrange _ true _ _ (k.write _ h)

lemma takeItem (item : Item) (h : P s) : (s.takeItem cfg item).Meets P P := by
  have hitem := k.handleItem h item
  unfold Session.takeItem
  dsimp only
  split
  · exact k.arrange _ _ _ _ hitem
  · exact hitem

lemma detect (h : P s) (buf : Bytes) : P (s.detect buf) := by
  unfold Session.detect
  split
  · exact h
  · split
    · exact k.arrange (some .ws) false [] s.dangles h
    · exact k.arrange (some .tcp) s.wsHsDone s.wsFrag s.dangles h

lemma roam : ∀ (stale : List Bytes) {s : Session}, P s → P (s.roam cfg stale) := by
  intro stale
  induction stale with
  | nil =>
    intro s h
    exact k.dangling h
  | cons found later ih =>
    intro s h
    have hs := k.dangling h
    unfold Session.roam
    dsimp only
    split
    · exact hs
    · exact k.mark none (.inl rfl) hs
    · rename_i n item _
      have hitem := k.handleItem hs item
      split
      · exact ih hitem
      · exact hitem

/-- **The handler of new data keeps what every step keeps.** -/
theorem receive {c : Connection} (h : P c.state) (chunk : Bytes) (stale : List Bytes) :
    P (receive cfg c chunk stale).state := by
  unfold Pomelo.receive
  split
  · exact h
  · rename_i buf _
    obtain ⟨hgoing, hstopped⟩ := Loop.drain_invariant (L := sessionLoop cfg) k.upgrade (fun h => k.mark none (.inl rfl) h)
      k.takeItem (c.state.detect (buf ++ chunk)) (buf ++ chunk) (k.detect h _)
    have hdrain : P ((reader cfg).drain (c.state.detect (buf ++ chunk)) (buf ++ chunk)).state := by
      cases hbuf : ((reader cfg).drain (c.state.detect (buf ++ chunk)) (buf ++ chunk)).buffer with
      | none => exact hstopped hbuf
      | some rest => exact hgoing rest hbuf
    dsimp only
    split
    · exact k.roam stale (k.arrange _ _ _ false hdrain)
    · exact hdrain

end Keeps

end Caf.Pomelo
