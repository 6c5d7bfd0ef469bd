import CafPluginSystem.Pomelo.Content

/-!
# Connections that are marked

Once a connection is marked, nothing should happen on it: no package is handled, it is not ready again, nothing is
written, and its buffer, which was removed, is not touched.  This is so when the mark ends the loop: after a closing
frame, a frame that is too long or a head without a key.  It is not so when a malformed message marks the connection in
the handler of packages, whose callers go on.

* `marked_dead` — **in every run** in which no chunk completes a malformed message, a marked connection is dead.
-/

namespace Caf.Pomelo

open Chunks EntityStore

/-- A sign of life. -/
def Effect.isAlive : Effect → Bool
  | .package _ _ => true
  | .write _ _ => true
  | .acknowledge => true
  | .dangling => true
  | _ => false

/-- After a mark there is no sign of life. -/
def Dead (log : List Effect) : Prop :=
  ∀ front back, log = front ++ .mark :: back → ∀ e ∈ back, e.isAlive = false

/-- No chunk completes a malformed message. -/
def Wholesome (s : Endpoint) : Event → Prop
  | .data h chunk _ => ∀ c ∈ s.connections[h]?, (incoming c chunk).malformed = false
  | _ => True

instance (s : Endpoint) : (e : Event) → Decidable (Wholesome s e)
  | .data h chunk _ =>
    inferInstanceAs (Decidable (∀ c ∈ s.connections[h]?, (incoming c chunk).malformed = false))
  | .accepted _ => isTrue trivial
  | .closed _ => isTrue trivial
  | .resolved _ _ => isTrue trivial
  | .replied _ _ => isTrue trivial
  | .push _ _ => isTrue trivial

/-! ## Sessions -/

/-- A session that is not marked has no mark in its log. -/
def Unmarked (s : Session) : Prop := s.bad = false → Effect.mark ∉ s.log

namespace Unmarked

variable {cfg : Config} {s t : Session} {pkg : ParsedPkg}

/-- Effects without a mark. -/
lemma grow (h : Unmarked s) {es} (hes : Effect.mark ∉ es) (hbad : t.bad = false → s.bad = false)
    (ht : t.log = s.log ++ es) : Unmarked t := by
  intro hgood hmem
  rw [ht] at hmem
  rcases List.mem_append.mp hmem with hmem | hmem
  · exact h (hbad hgood) hmem
  · exact hes hmem

lemma mark_notMem_written (s : Session) (cause : Cause) (frame : Bytes) : Effect.mark ∉ s.written cause frame := by
  unfold Session.written
  split <;> simp

lemma begun (h : Unmarked s) : Unmarked (s.begun pkg) := h.grow (by simp) id rfl

lemma handling (h : Unmarked s) (ht : Session.Handling cfg s pkg t) : Unmarked t := by
  cases ht with
  | handshake htype =>
    refine h.begun.grow ?_ id rfl
    rw [List.mem_append, not_or]
    exact ⟨by split <;> simp, mark_notMem_written _ _ _⟩
  | acknowledge htype => exact h.begun.grow (by simp : Effect.mark ∉ [Effect.acknowledge]) id rfl
  | heartbeat htype | refused text htype hmsg hreq hroute =>
    exact h.begun.grow (mark_notMem_written _ _ _) id rfl
  | strange hno | ignored htype hmsg hroute => exact h.begun
  | malformed htype hmsg => exact fun hgood => absurd hgood (by simp [Session.adds])
  | dispatched htype hmsg hid hroute => exact h.begun.grow (by simp) id rfl

lemma writeRaw (h : Unmarked s) (cause : Cause) (bytes : Bytes) : Unmarked (s.writeRaw cause bytes) := by
  rw [Session.writeRaw_eq]
  exact h.grow (by split <;> simp) id rfl

lemma keeps (cfg : Config) : Keeps cfg Unmarked where
  package := fun pkg h => h.handling (Session.handlePackage_handling _ _ pkg)
  arrange := fun _ _ _ _ h => h
  write := fun bytes h => h.writeRaw .protocol bytes
  mark := fun _ _ _ hgood => by simp [Session.note] at hgood
  dangling := fun h => h.grow (by simp : Effect.mark ∉ [Effect.dangling]) id rfl

end Unmarked

/-- A session that is going on. -/
def Lively (s : Session) : Prop := s.bad = false ∧ Unmarked s

/-- A session whose last act was the mark. -/
def Ended (s : Session) : Prop := s.bad = true ∧ ∃ front, s.log = front ++ [.mark] ∧ Effect.mark ∉ front

/-- The mark comes last. -/
lemma Lively.ends {s} (h : Lively s) {t} (hbad : t.bad = true) (ht : t.log = s.log ++ [.mark]) :
    Ended t :=
  ⟨hbad, s.log, ht, h.2 h.1⟩

lemma Lively.writeRaw {s} (h : Lively s) (cause : Cause) (bytes : Bytes) : Lively (s.writeRaw cause bytes) := by
  refine ⟨?_, h.2.writeRaw cause bytes⟩
  rw [Session.writeRaw_eq]
  exact h.1

/-- The loop over frames stops by itself only at a closing frame. -/
lemma handleFrame_break {cfg} {s : Session} {f} (h : (s.handleFrame cfg f).2 = false) :
    (s.handleFrame cfg f).1 = (s.writeRaw .protocol (encodeFrame opClose [])).mark := by
  unfold Session.handleFrame at h ⊢
  split_ifs at h ⊢
  rfl

/-- An item: the session goes on, or holds on to its buffer, or has ended. -/
lemma Lively.takeItem {cfg : Config} {s : Session} (item : Item) (h : Lively s) :
    (s.takeItem cfg item).Meets Lively fun t => t.dangles = true ∨ Ended t := by
  have hunmarked : Unmarked (s.handleItem cfg item).1 := (Unmarked.keeps cfg).handleItem h.2 item
  unfold Session.takeItem
  dsimp only
  split
  · cases hagain : (s.handleItem cfg item).2 with
    | true => exact .inl rfl
    | false =>
      right
      cases item with
      | package pkg => simp [Session.handleItem] at hagain
      | frame f =>
        have hclose : (s.handleItem cfg (.frame f)).1 = _ := handleFrame_break hagain
        rw [hclose]
        exact (h.writeRaw .protocol (encodeFrame opClose [])).ends rfl rfl
  · rename_i hgood
    exact ⟨by simpa using hgood, hunmarked⟩

lemma Lively.upgrade {s} (head : Bytes) (h : Lively s) :
    (s.upgrade head).Meets Lively fun t => t.dangles = true ∨ Ended t := by
  unfold Session.upgrade
  dsimp only
  split
  · exact .inr (h.ends rfl rfl)
  · exact h.writeRaw .protocol _

/-! ## Connections -/

/-- A connection is going on with its buffer, or it has ended and the buffer is gone. -/
def InOrder (c : Connection) : Prop :=
  c.state.dangles = false ∧ ((c.buffer ≠ none ∧ Lively c.state) ∨ (c.buffer = none ∧ Ended c.state))

/-- New data without a malformed message. -/
lemma InOrder.receive {cfg c} (h : InOrder c) {chunk} (stale : List Bytes)
    (hsound : (incoming c chunk).malformed = false) : InOrder (receive cfg c chunk stale) := by
  obtain ⟨hdangles, ⟨hbuf, hlively⟩ | ⟨hnone, hended⟩⟩ := h
  · obtain ⟨buf, hbuf⟩ := Option.ne_none_iff_exists'.mp hbuf
    have hcalm := (receive_dangles cfg hbuf hlively.1 hdangles chunk).trans hsound
    have hstart : Lively (c.state.detect (buf ++ chunk)) := by
      obtain ⟨hb, -, hlog⟩ := Session.detect_fields c.state (buf ++ chunk)
      refine ⟨hb.trans hlively.1, fun _ => ?_⟩
      rw [hlog]
      exact hlively.2 hlively.1
    obtain ⟨hgoing, hstopped⟩ := Loop.drain_invariant (L := sessionLoop cfg) Lively.upgrade
      (fun h => Or.inr (Lively.ends h rfl rfl)) Lively.takeItem (c.state.detect (buf ++ chunk)) (buf ++ chunk) hstart
    unfold Pomelo.receive
    rw [hbuf]
    simp only [hcalm, Bool.false_eq_true, if_false]
    refine ⟨hcalm, ?_⟩
    cases hrest : ((reader cfg).drain (c.state.detect (buf ++ chunk)) (buf ++ chunk)).buffer with
    | some rest => exact .inl ⟨by simp, hgoing rest hrest⟩
    | none =>
      refine .inr ⟨rfl, ?_⟩
      rcases hstopped hrest with hbad | hended
      · exact absurd (hcalm.symm.trans hbad) (by simp)
      · exact hended
  · have hsame : Pomelo.receive cfg c chunk stale = c := by
      unfold Pomelo.receive
      rw [hnone]
    rw [hsame]
    exact ⟨hdangles, .inr ⟨hnone, hended⟩⟩

/-- A frame that is written from outside: on a connection that has ended it is not. -/
lemma InOrder.writeFrame {c} (h : InOrder c) (cause : Cause) (frame : Bytes) :
    InOrder { c with state := c.state.writeFrame cause frame } := by
  obtain ⟨hdangles, ⟨hbuf, hlively⟩ | ⟨hnone, hended⟩⟩ := h
  · have hwritten := hlively.writeRaw cause (c.state.wrap frame)
    rw [Session.writeFrame_eq]
    refine ⟨?_, .inl ⟨hbuf, hwritten⟩⟩
    rw [Session.writeRaw_eq]
    exact hdangles
  · have hsame : c.state.writeFrame cause frame = c.state := by rw [Session.writeFrame, if_pos hended.1]
    rw [hsame]
    exact ⟨hdangles, .inr ⟨hnone, hended⟩⟩

lemma InOrder.dead {c} (h : InOrder c) : Dead c.state.log := by
  intro front back hlog e he
  rcases h.2 with ⟨-, hlively⟩ | ⟨-, -, front', hfront', hnot⟩
  · exact absurd (hlog ▸ by simp : Effect.mark ∈ c.state.log) (hlively.2 hlively.1)
  · rw [hfront'] at hlog
    -- the only mark is the last effect
    rcases List.eq_nil_or_concat back with rfl | ⟨back', x, rfl⟩
    · simp at he
    · have hsplit : front' ++ [Effect.mark] = (front ++ .mark :: back') ++ [x] := by simpa using hlog
      obtain ⟨rfl, -⟩ := List.append_inj' hsplit rfl
      exact absurd (by simp) hnot

/-- **Marked connections are dead.**  In every run in which no chunk completes a malformed message, after a mark no
package of the connection is handled, it is not ready again, nothing is written to it and its buffer is not read, until
it is closed. -/
theorem marked_dead {cfg : Config} {es : List Event} {s : Endpoint}
    (hobeys : Machine.RunWhere (step cfg) Wholesome {} es) (hrun : Machine.run (step cfg) {} es = some s) (h : Handle)
    (c : Connection) (hc : s.connections[h]? = some c) : Dead c.state.log := by
  refine InOrder.dead (run_connections (P := InOrder) ?_ ?_ ?_ hobeys hrun h c hc)
  · exact ⟨rfl, .inl ⟨by simp [fresh], rfl, fun _ => by simp [fresh]⟩⟩
  · exact fun c cause frame hc => hc.writeFrame cause frame
  · intro s h c chunk stale hwholesome hc hin
    exact hin.receive stale (hwholesome c hc)

namespace Sample

/-- No routes. -/
def bare : Config := { routes := ∅, json := fun _ => none }

/-- The request of a client that speaks WebSocket. -/
def upgrading : Bytes := str "GET / HTTP/1.1\r\nSec-WebSocket-Key: k\r\n\r\n"

/-- A heartbeat, a closing frame and something more. -/
def leaving : List Event :=
  [.accepted 0, .data 0 upgrading [], .data 0 [0x82, 4, 3, 0, 0, 0, 0x88, 0, 0x82, 4, 3, 0, 0, 0] [],
    .data 0 [0x82, 4, 3, 0, 0, 0] [], .push (str "news") (str "x")]

def left : Endpoint := (Machine.run (step bare) {} leaving).get (by decide +kernel)

/-- A message without a flag, and behind it an acknowledgement, in one frame. -/
def stumbling : List Event :=
  [.accepted 0, .data 0 upgrading [], .data 0 [0x82, 8, 4, 0, 0, 0, 2, 0, 0, 0] []]

def stumbled : Endpoint := (Machine.run (step bare) {} stumbling).get (by decide +kernel)

end Sample

theorem marked_dead_leaving :
    ∃ c, Sample.left.connections[0]? = some c ∧ Effect.mark ∈ c.state.log ∧ Dead c.state.log := by
  have hrun : Machine.run (step Sample.bare) {} Sample.leaving = some Sample.left := (Option.some_get _).symm
  have hobeys : Machine.RunWhere (step Sample.bare) Wholesome {} Sample.leaving := by
    decide +kernel
  have hmark : (Sample.left.connections[0]?).any (fun c => Effect.mark ∈ c.state.log) = true := by decide +kernel
  obtain ⟨c, hc, hmem⟩ := (Option.any_eq_true _ _).mp hmark
  exact ⟨c, hc, by simpa using hmem, marked_dead hobeys hrun 0 c hc⟩

/-- The malformed message marks the connection; then the acknowledgement is handled, the connection is ready again, and
the loop reads the buffer that was removed. -/
theorem marked_alive :
    ∃ c, Sample.stumbled.connections[0]? = some c ∧ c.buffer = none ∧ c.state.ready = some true ∧
      c.state.log.drop 1 = [.package 0 ⟨pkgData, []⟩, .mark, .package 1 ⟨pkgHandshakeAck, []⟩, .acknowledge, .dangling] ∧
      ¬ Dead c.state.log := by
  have hst : (Sample.stumbled.connections[0]?).map (fun c => (c.buffer, c.state.ready, c.state.log.drop 1)) =
      some (none, some true, [.package 0 ⟨pkgData, []⟩, .mark, .package 1 ⟨pkgHandshakeAck, []⟩, .acknowledge,
        .dangling]) := by decide +kernel
  obtain ⟨c, hc, heq⟩ := Option.map_eq_some_iff.mp hst
  obtain ⟨hbuf, hready, hlog⟩ : c.buffer = none ∧ c.state.ready = some true ∧ c.state.log.drop 1 = _ := by
    simpa using heq
  refine ⟨c, hc, hbuf, hready, hlog, fun hdead => ?_⟩
  have hsplit : c.state.log = (c.state.log.take 1 ++ [.package 0 ⟨pkgData, []⟩]) ++ .mark ::
      [.package 1 ⟨pkgHandshakeAck, []⟩, .acknowledge, .dangling] := by
    conv_lhs => rw [← List.take_append_drop 1 c.state.log, hlog]
    simp
  exact absurd (hdead _ _ hsplit .dangling (by simp)) (by simp [Effect.isAlive])

end Caf.Pomelo
