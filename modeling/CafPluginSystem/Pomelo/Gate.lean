import CafPluginSystem.Library.History
import CafPluginSystem.Pomelo.Endpoint

/-!
# The handshake gate

A connection starts with a handshake and its acknowledgement, and the table of the ready connections says so.  The
handler of packages never looks at this table: a request is handed to its service whether the handshake is over or not.
So the gate holds for a connection exactly if its client keeps to the order by itself.

* `handshake_gate` — for every connection of every run, no service is asked for before the handshake if and only if no
  package that asks for one came before it.
-/

namespace Caf.Pomelo

open EntityStore

/-- The package is a request or a notification with a route to a service. -/
def Config.routed (cfg : Config) (pkg : ParsedPkg) : Bool :=
  pkg.type = pkgData && match parseMsg pkg.body with
    | none => false
    | some msg => (msg.type = msgRequest || msg.type = msgNotify)
        && ((cfg.routes[msg.route]?).bind splitSvcFunction).isSome

def Effect.isDispatch : Effect → Bool
  | .dispatch _ _ _ _ _ => true
  | _ => false

/-- There is a handshake among the packages, and after it an acknowledgement. -/
def Shaken (pkgs : List ParsedPkg) : Prop :=
  ∃ p q, [p, q].Sublist pkgs ∧ p.type = pkgHandshake ∧ q.type = pkgHandshakeAck

/-- No service is asked for before the handshake is over. -/
def Gated (log : List Effect) : Prop :=
  ∀ front e back, log = front ++ e :: back → e.isDispatch = true → Shaken (packages front)

/-- No package asks for a service before the handshake is over. -/
def Patient (cfg : Config) (pkgs : List ParsedPkg) : Prop :=
  ∀ front pkg back, pkgs = front ++ pkg :: back → cfg.routed pkg = true → Shaken front

/-! ## Growing logs -/

lemma gated_snoc {log e} :
    Gated (log ++ [e]) ↔ Gated log ∧ (e.isDispatch = true → Shaken (packages log)) :=
  History.guarded_snoc (g := fun (e : Effect) front => e.isDispatch = true → Shaken (packages front))

lemma patient_snoc {cfg pkgs pkg} :
    Patient cfg (pkgs ++ [pkg]) ↔ Patient cfg pkgs ∧ (cfg.routed pkg = true → Shaken pkgs) :=
  History.guarded_snoc (g := fun (pkg : ParsedPkg) front => cfg.routed pkg = true → Shaken front)

/-- A package of another type leaves the handshake as it is. -/
lemma shaken_snoc {pkgs pkg} (h : pkg.type ≠ pkgHandshakeAck) :
    Shaken (pkgs ++ [pkg]) ↔ Shaken pkgs := by
  constructor
  · rintro ⟨p, q, hsub, hp, hq⟩
    obtain ⟨l₁, l₂, heq, h₁, h₂⟩ := List.sublist_append_iff.mp hsub
    refine ⟨p, q, ?_, hp, hq⟩
    -- the acknowledgement is not the last package
    rcases List.sublist_singleton.mp h₂ with rfl | rfl
    · rw [List.append_nil] at heq
      rwa [heq]
    · have hlast : [p] ++ [q] = l₁ ++ [pkg] := heq
      obtain ⟨-, hqp⟩ := List.append_inj' hlast rfl
      obtain rfl : q = pkg := by simpa using hqp
      exact absurd hq h
  · rintro ⟨p, q, hsub, hp, hq⟩
    exact ⟨p, q, hsub.trans (List.sublist_append_left _ _), hp, hq⟩

/-- Effects that are neither packages nor requests to services. -/
lemma gated_append {log} : ∀ {es : List Effect}, (∀ e ∈ es, e.isDispatch = false) →
    (Gated (log ++ es) ↔ Gated log) := by
  intro es
  induction es using List.reverseRecOn with
  | nil => simp
  | append_singleton es e ih =>
    intro h
    have hes : ∀ e' ∈ es, e'.isDispatch = false := fun e' he' => h e' (List.mem_append_left _ he')
    have he : e.isDispatch = false := h e (by simp)
    rw [← List.append_assoc, gated_snoc, ih hes, he]
    simp

/-! ## The gate -/

/-- The gate holds for the log if and only if the packages are in order. -/
def Even (cfg : Config) (s : Session) : Prop := Gated s.log ↔ Patient cfg (packages s.log)

namespace Even

variable {cfg : Config} {s t : Session} {pkg : ParsedPkg}

/-- Effects without packages and requests. -/
lemma quiet (h : Even cfg s) {es} (hes : ∀ e ∈ es, e.package? = none ∧ e.isDispatch = false)
    (ht : t.log = s.log ++ es) : Even cfg t := by
  rw [Even, ht, gated_append fun e he => (hes e he).2, packages_append fun e he => (hes e he).1]
  exact h

/-- A package that asks for no service. -/
lemma begun (h : Even cfg s) (hrouted : cfg.routed pkg = false) (es : List Effect)
    (hes : ∀ e ∈ es, e.package? = none ∧ e.isDispatch = false) (ht : t.log = (s.begun pkg).log ++ es) : Even cfg t := by
  have hbegun : Even cfg (s.begun pkg) := by
    rw [Even, Session.begun, packages_snoc, patient_snoc, gated_snoc, hrouted]
    simp only [Effect.isDispatch, Bool.false_eq_true, false_implies, and_true]
    exact h
  exact hbegun.quiet hes ht

/-- A package and the request to its service: the package is no acknowledgement, so nothing changes in between. -/
lemma dispatched (h : Even cfg s) (hrouted : cfg.routed pkg = true) (htype : pkg.type = pkgData) (n : ℕ)
    (id : Option UInt32) (svc function body : Bytes)
    (ht : t.log = (s.begun pkg).log ++ [.dispatch n id svc function body]) : Even cfg t := by
  have hack : pkg.type ≠ pkgHandshakeAck := by
    rw [htype]
    decide
  rw [Even, ht, packages_append (by simp [Effect.package?]), gated_snoc, Session.begun, packages_snoc, patient_snoc,
    gated_snoc, shaken_snoc hack]
  simp only [hrouted, Effect.isDispatch, Bool.false_eq_true, false_implies, and_true, forall_const]
  rw [show Gated s.log ↔ Patient cfg (packages s.log) from h]

/-- What `write_frame` writes is neither. -/
lemma written_quiet (s : Session) (cause : Cause) (frame : Bytes) :
    ∀ e ∈ s.written cause frame, e.package? = none ∧ e.isDispatch = false := by
  intro e he
  unfold Session.written at he
  split at he
  · simp at he
  · obtain rfl : e = _ := by simpa using he
    exact ⟨rfl, rfl⟩

/-- A package. -/
lemma handling (h : Even cfg s) (ht : Session.Handling cfg s pkg t) : Even cfg t := by
  cases ht with
  | handshake htype =>
    refine h.begun (by simp [Config.routed, htype, pkgHandshake, pkgData]) _ ?_ rfl
    intro e he
    rcases List.mem_append.mp he with he | he
    · split at he
      · simp at he
      · obtain rfl : e = _ := by simpa using he
        exact ⟨rfl, rfl⟩
    · exact written_quiet _ _ _ e he
  | acknowledge htype =>
    refine h.begun (by simp [Config.routed, htype, pkgHandshakeAck, pkgData]) [.acknowledge] ?_ rfl
    simp [Effect.package?, Effect.isDispatch]
  | heartbeat htype =>
    exact h.begun (by simp [Config.routed, htype, pkgHeartbeat, pkgData]) _ (written_quiet _ _ _) rfl
  | strange hno =>
    exact h.begun (by simp [Config.routed, hno.2.2]) [] (by simp) (List.append_nil _).symm
  | malformed htype hmsg =>
    refine h.begun (by simp [Config.routed, hmsg]) [.mark] ?_ rfl
    simp [Effect.package?, Effect.isDispatch]
  | ignored htype hmsg hroute =>
    refine h.begun ?_ [] (by simp) (List.append_nil _).symm
    rcases hroute with ⟨hreq, hnotify⟩ | ⟨-, hnone⟩
    · simp [Config.routed, hmsg, hreq, hnotify]
    · simp [Config.routed, hmsg, hnone]
  | refused text htype hmsg hreq hroute =>
    exact h.begun (by simp [Config.routed, hmsg, hroute]) _ (written_quiet _ _ _) rfl
  | dispatched htype hmsg hid hroute =>
    refine h.dispatched ?_ htype _ _ _ _ _ rfl
    rcases hid with ⟨hreq, -⟩ | ⟨hnotify, -⟩
    · simp [Config.routed, htype, hmsg, hreq, hroute]
    · simp [Config.routed, htype, hmsg, hnotify, hroute]

lemma writeRaw (h : Even cfg s) (cause : Cause) (bytes : Bytes) : Even cfg (s.writeRaw cause bytes) := by
  rw [Session.writeRaw_eq]
  refine h.quiet (fun e he => ?_) rfl
  split at he
  · simp at he
  · obtain rfl : e = _ := by simpa using he
    exact ⟨rfl, rfl⟩

lemma writeFrame (h : Even cfg s) (cause : Cause) (frame : Bytes) : Even cfg (s.writeFrame cause frame) := by
  rw [Session.writeFrame_eq]
  exact h.writeRaw cause _

lemma keeps (cfg : Config) : Keeps cfg (Even cfg) where
  package := fun pkg h => h.handling (Session.handlePackage_handling _ _ pkg)
  arrange := fun _ _ _ _ h => h
  write := fun bytes h => h.writeRaw .protocol bytes
  mark := fun _ _ h => h.quiet (by simp [Effect.package?, Effect.isDispatch]) rfl
  dangling := fun h => h.quiet (by simp [Effect.package?, Effect.isDispatch]) rfl

end Even

/-- **The handshake gate.**  In every run and for every connection: no service is asked for before the connection has sent
a handshake and then an acknowledgement, if and only if it sent no package that asks for a service before them. -/
theorem handshake_gate {cfg : Config} {es : List Event} {s : Endpoint} (hrun : Machine.run (step cfg) {} es = some s)
    (h : Handle) (c : Connection) (hc : s.connections[h]? = some c) :
    Gated c.state.log ↔ Patient cfg (packages c.state.log) := by
  have hempty : Even cfg {} :=
    ⟨fun _ front pkg back heq => by simp [packages] at heq, fun _ front e back heq => by simp at heq⟩
  exact run_sessions (Even.keeps cfg) (fun cause frame h => h.writeFrame cause frame) hempty hrun h c hc

namespace Sample

/-- One route. -/
def config : Config := { routes := (∅ : StringMap Bytes).insert (str "r") (str "svc:f"), json := fun _ => none }

/-- A request for it. -/
def request : Bytes := encodePkg pkgData (encodeMsg 1 msgRequest (str "r") (str "x"))

/-- A client that keeps to the order. -/
def polite : List Event :=
  [.accepted 0, .data 0 (encodePkg pkgHandshake []) [], .data 0 (encodePkg pkgHandshakeAck []) [], .data 0 request []]

def served : Endpoint := (Machine.run (step config) {} polite).get (by decide +kernel)

/-- A client whose first package is a request. -/
def hasty : List Event := [.accepted 0, .data 0 request []]

def rushed : Endpoint := (Machine.run (step config) {} hasty).get (by decide +kernel)

end Sample

theorem handshake_gate_polite :
    ∃ c, Sample.served.connections[0]? = some c ∧ (Gated c.state.log ↔ Patient Sample.config (packages c.state.log)) := by
  have hrun : Machine.run (step Sample.config) {} Sample.polite = some Sample.served := (Option.some_get _).symm
  have hmem : (Sample.served.connections[0]?).isSome = true := by decide +kernel
  obtain ⟨c, hc⟩ := Option.isSome_iff_exists.mp hmem
  exact ⟨c, hc, handshake_gate hrun 0 c hc⟩

/-- The service is asked for although there was no handshake. -/
theorem gate_open :
    ∃ c, Sample.rushed.connections[0]? = some c ∧
      c.state.log = [.package 0 ⟨pkgData, encodeMsg 1 msgRequest (str "r") (str "x")⟩,
        .dispatch 0 (some 1) (str "svc") (str "f") (str "x")] ∧ ¬ Gated c.state.log := by
  have hlog : (Sample.rushed.connections[0]?).map (fun c => c.state.log) =
      some [.package 0 ⟨pkgData, encodeMsg 1 msgRequest (str "r") (str "x")⟩,
        .dispatch 0 (some 1) (str "svc") (str "f") (str "x")] := by decide +kernel
  obtain ⟨c, hc, heq⟩ := Option.map_eq_some_iff.mp hlog
  refine ⟨c, hc, heq, fun hgated => ?_⟩
  rw [heq] at hgated
  obtain ⟨p, q, hsub, hp, -⟩ := hgated [.package 0 ⟨pkgData, encodeMsg 1 msgRequest (str "r") (str "x")⟩] _ [] rfl rfl
  have hmem : p ∈ packages [.package 0 ⟨pkgData, encodeMsg 1 msgRequest (str "r") (str "x")⟩] :=
    hsub.subset (by simp)
  obtain rfl : p = _ := by simpa [packages, Effect.package?] using hmem
  exact absurd hp (by decide)

end Caf.Pomelo
