import CafPluginSystem.Pomelo.Endpoint

/-!
# The content of a stream

What a byte stream says, without the endpoint: its packages, read directly or from the frames of a WebSocket after the
head of the HTTP request, up to the end of the stream for the endpoint — a frame that closes it, one that is too long, a
head without a key, or a message that cannot be read.

* `drain_follows` — the session of a connection handles exactly the packages of what arrives, and its loop holds on to a
  removed buffer if and only if a malformed message was among them.
* `receive_follows`, `receive_dangles` — the same for the handler of new data.
-/

namespace Caf.Pomelo

open Chunks

/-- What has been read of a stream: the transport, whether the head is over, the fragments of a message that is not
complete, the packages, and whether one of them was malformed. -/
structure Content where
  transport : Transport
  upgraded : Bool := false
  frag : Bytes := []
  packages : List ParsedPkg := []
  malformed : Bool := false
deriving DecidableEq, Repr

namespace Content

/-- A whole message. -/
def message (t : Content) (payload : Bytes) : Content :=
  { t with
    frag := []
    packages := t.packages ++ packagesOf payload
    malformed := (packagesOf payload).any ParsedPkg.malformed }

/-- A frame: a message, a fragment, or nothing. -/
def frame (t : Content) (f : WsFrame) : Content :=
  if f.opcode = opBinary ∨ f.opcode = opText then
    if f.fin then t.message (t.frag ++ f.payload) else { t with frag := f.payload }
  else if f.opcode = opContinuation ∧ t.frag ≠ [] then
    if f.fin then t.message (t.frag ++ f.payload) else { t with frag := t.frag ++ f.payload }
  else t

/-- An item; a malformed message and a closing frame are the end. -/
def item (t : Content) : Item → Outcome Content
  | .package pkg =>
    if pkg.malformed then .stop { t with packages := t.packages ++ [pkg], malformed := true }
    else .goOn { t with packages := t.packages ++ [pkg] }
  | .frame f =>
    if f.opcode = opClose then .stop t
    else if (t.frame f).malformed then .stop (t.frame f)
    else .goOn (t.frame f)

end Content

def contentLoop : Loop Content where
  transport := fun t => some t.transport
  upgraded := Content.upgraded
  head := fun t head => if (extractWsKey head).isEmpty then .stop t else .goOn { t with upgraded := true }
  error := id
  item := Content.item

/-- What a buffer says when so much has been read before. -/
def contentOf (t : Content) (buf : Bytes) : Receiver UInt8 Content := contentLoop.reader.drain t buf

/-! ## Sessions follow the content -/

/-- A session and what it has read, after some packages. -/
structure Follows (before : List ParsedPkg) (s : Session) (t : Content) : Prop where
  transport : s.transport = some t.transport
  upgraded : s.wsHsDone = t.upgraded
  frag : s.wsFrag = t.frag
  packages : packages s.log = before ++ t.packages

/-- The loop goes on. -/
structure Going (before : List ParsedPkg) (s : Session) (t : Content) : Prop extends Follows before s t where
  bad : s.bad = false
  dangles : s.dangles = false
  sound : t.malformed = false

/-- The loop has stopped; after a malformed message it holds on to the buffer. -/
structure Stopped (before : List ParsedPkg) (s : Session) (t : Content) : Prop extends Follows before s t where
  bad : s.bad = true
  dangles : s.dangles = t.malformed

namespace Going

variable {cfg : Config} {before : List ParsedPkg} {s : Session} {t : Content}

lemma mark (h : Going before s t) : Stopped before s.mark t :=
  ⟨⟨h.transport, h.upgraded, h.frag, (packages_append (by simp [Effect.package?])).trans h.packages⟩, rfl,
    h.dangles.trans h.sound.symm⟩

lemma packages_writeRaw (s : Session) (cause : Cause) (bytes : Bytes) :
    packages (s.writeRaw cause bytes).log = packages s.log := by
  rw [Session.writeRaw_eq]
  exact packages_append (by split <;> simp [Effect.package?])

/-- Something is written. -/
lemma writeRaw (h : Going before s t) (cause : Cause) (bytes : Bytes) : Going before (s.writeRaw cause bytes) t := by
  have hpkgs := packages_writeRaw s cause bytes
  rw [Session.writeRaw_eq] at hpkgs ⊢
  exact ⟨⟨h.transport, h.upgraded, h.frag, hpkgs.trans h.packages⟩, h.bad, h.dangles, h.sound⟩

/-- Another fragment. -/
lemma setFrag (h : Going before s t) (frag : Bytes) : Going before { s with wsFrag := frag } { t with frag } :=
  ⟨⟨h.transport, h.upgraded, rfl, h.packages⟩, h.bad, h.dangles, h.sound⟩

/-- The packages of a message were handled, and then the loop comes back to the buffer. -/
lemma message (h : Going before s t) (payload : Bytes) {u}
    (hu : { s with wsFrag := [] }.handlePayload cfg payload = u) :
    (if u.bad then Outcome.stop { u with dangles := true } else .goOn u).Related (Going before) (Stopped before)
      (if (t.message payload).malformed then .stop (t.message payload) else .goOn (t.message payload)) := by
  obtain ⟨htrans, hdone, hfrag, hdangles, hpkgs, hbad⟩ := hu ▸
    Session.handled_handlePayload cfg { s with wsFrag := [] } payload
  have hmalformed : u.bad = (t.message payload).malformed := by
    rw [hbad, h.bad, Bool.false_or]
    rfl
  have hlog : packages u.log = before ++ (t.message payload).packages := by
    rw [hpkgs, h.packages, List.append_assoc]
    rfl
  cases hm : (t.message payload).malformed with
  | true =>
    rw [hmalformed, hm]
    exact ⟨⟨htrans.trans h.transport, hdone.trans h.upgraded, hfrag, hlog⟩, rfl, hm.symm⟩
  | false =>
    rw [hmalformed, hm]
    exact ⟨⟨htrans.trans h.transport, hdone.trans h.upgraded, hfrag, hlog⟩, hmalformed.trans hm,
      hdangles.trans h.dangles, hm⟩

lemma upgrade (head : Bytes) (h : Going before s t) :
    (s.upgrade head).Related (Going before) (Stopped before) (contentLoop.head t head) := by
  unfold Session.upgrade
  show Outcome.Related _ _ _ (if (extractWsKey head).isEmpty then Outcome.stop t else .goOn { t with upgraded := true })
  dsimp only
  split
  · exact ⟨⟨h.transport, h.upgraded, h.frag, (packages_append (by simp [Effect.package?])).trans h.packages⟩, rfl,
      h.dangles.trans h.sound.symm⟩
  · have hwritten := h.writeRaw .protocol (handshakeResponse (extractWsKey head))
    exact ⟨⟨hwritten.transport, rfl, hwritten.frag, hwritten.packages⟩, hwritten.bad, hwritten.dangles, h.sound⟩

/-- Nothing comes of a frame for the content. -/
lemma idle (h : Going before s t) : (if s.bad then Outcome.stop { s with dangles := true } else .goOn s).Related
    (Going before) (Stopped before) (if t.malformed then .stop t else .goOn t) := by
  rw [h.bad, h.sound]
  exact h

lemma handleFrame (h : Going before s t) (f : WsFrame) : (s.takeItem cfg (.frame f)).Related (Going before)
    (Stopped before) (t.item (.frame f)) := by
  show Outcome.Related _ _ (if (s.handleFrame cfg f).1.bad then
    Outcome.stop { (s.handleFrame cfg f).1 with dangles := (s.handleFrame cfg f).2 } else .goOn (s.handleFrame cfg f).1) (if f.opcode = opClose then Outcome.stop t else if (t.frame f).malformed then .stop (t.frame f)
    else .goOn (t.frame f))
  by_cases hping : f.opcode = opPing
  · have hidle := (h.writeRaw .protocol (encodeFrame opPong f.payload)).idle
    simpa [Session.handleFrame, Content.frame, hping, opPing, opClose, opBinary, opText, opContinuation] using hidle
  by_cases hpong : f.opcode = opPong
  · simpa [Session.handleFrame, Content.frame, hpong, opPing, opPong, opClose, opBinary, opText, opContinuation]
      using h.idle
  by_cases hclose : f.opcode = opClose
  · have hmark := (h.writeRaw .protocol (encodeFrame opClose [])).mark
    simp only [Session.handleFrame, if_neg hping, if_neg hpong, if_pos hclose]
    exact ⟨⟨hmark.transport, hmark.upgraded, hmark.frag, hmark.packages⟩, hmark.bad, h.sound.symm⟩
  by_cases hdata : f.opcode = opBinary ∨ f.opcode = opText
  · simp only [Session.handleFrame, Content.frame, if_neg hping, if_neg hpong, if_neg hclose, if_pos hdata]
    cases f.fin with
    | true =>
      simp only [if_true, h.frag]
      exact h.message (t.frag ++ f.payload) rfl
    | false =>
      exact (h.setFrag f.payload).idle
  by_cases hcont : f.opcode = opContinuation
  · simp only [Session.handleFrame, Content.frame, if_neg hping, if_neg hpong, if_neg hclose, if_neg hdata,
      if_pos hcont, h.frag]
    by_cases hempty : t.frag = []
    · simp only [hempty, List.isEmpty_nil, if_true, hcont, ne_eq, not_true_eq_false, and_false, if_false]
      exact h.idle
    · have hnot : t.frag.isEmpty = false := by simpa using hempty
      simp only [hnot, Bool.false_eq_true, if_false, hcont, ne_eq, hempty, not_false_eq_true, and_self, if_true]
      cases f.fin with
      | true =>
        exact h.message (t.frag ++ f.payload) rfl
      | false =>
        exact (h.setFrag (t.frag ++ f.payload)).idle
  · simp only [Session.handleFrame, Content.frame, if_neg hping, if_neg hpong, if_neg hclose, if_neg hdata, hcont, false_and, if_false]
    exact h.idle

lemma handlePackage (h : Going before s t) (pkg : ParsedPkg) : (s.takeItem cfg (.package pkg)).Related (Going before)
    (Stopped before) (t.item (.package pkg)) := by
  obtain ⟨htrans, hdone, hfrag, hdangles, hpkgs, hbad⟩ := Session.handled_handlePackage cfg s pkg
  have hmalformed : (s.handlePackage cfg pkg).bad = pkg.malformed := by
    rw [hbad, h.bad]
    simp
  have hlog : packages (s.handlePackage cfg pkg).log = before ++ (t.packages ++ [pkg]) := by
    rw [hpkgs, h.packages, List.append_assoc]
  show Outcome.Related _ _ (if (s.handlePackage cfg pkg).bad then Outcome.stop _ else .goOn (s.handlePackage cfg pkg))
    (if pkg.malformed then Outcome.stop _ else .goOn _)
  cases hm : pkg.malformed with
  | true =>
    rw [hmalformed, hm]
    exact ⟨⟨htrans.trans h.transport, hdone.trans h.upgraded, hfrag.trans h.frag, hlog⟩, rfl, rfl⟩
  | false =>
    rw [hmalformed, hm]
    exact ⟨⟨htrans.trans h.transport, hdone.trans h.upgraded, hfrag.trans h.frag, hlog⟩, hmalformed.trans hm,
      hdangles.trans h.dangles, h.sound⟩

end Going

/-- **The session follows the content.** -/
theorem drain_follows (cfg : Config) {before s t} (h : Going before s t) (buf : Bytes) :
    Receiver.Related (Going before) (Stopped before) ((reader cfg).drain s buf) (contentOf t buf) := by
  refine Loop.drain_simulates (L := sessionLoop cfg) (M := contentLoop) (fun h => h.transport) (fun h => h.upgraded)
    (fun head h => h.upgrade head) (fun h => h.mark) (fun item h => ?_) s t buf h
  cases item with
  | package pkg => exact h.handlePackage pkg
  | frame f => exact h.handleFrame f

/-! ## New data -/

/-- What a session has read so far, apart from the packages. -/
def Session.content (s : Session) : Content :=
  { transport := s.transport.getD .tcp, upgraded := s.wsHsDone, frag := s.wsFrag }

/-- What a chunk brings, together with what is left in the buffer. -/
def incoming (c : Connection) (chunk : Bytes) : Content :=
  match c.buffer with
  | none => c.state.content
  | some buf => (contentOf (c.state.detect (buf ++ chunk)).content (buf ++ chunk)).state

lemma Session.detect_transport (s : Session) (buf : Bytes) : (s.detect buf).transport ≠ none := by
  unfold Session.detect
  split
  · rename_i h
    simp [h]
  · split <;> simp

lemma Session.detect_fields (s : Session) (buf : Bytes) :
    (s.detect buf).bad = s.bad ∧ (s.detect buf).dangles = s.dangles ∧ (s.detect buf).log = s.log := by
  unfold Session.detect
  split
  · exact ⟨rfl, rfl, rfl⟩
  · split <;> exact ⟨rfl, rfl, rfl⟩

lemma going_start {s} (htrans : s.transport ≠ none) (hbad : s.bad = false) (hdangles : s.dangles = false) :
    Going (packages s.log) s s.content := by
  obtain ⟨transport, htr⟩ := Option.ne_none_iff_exists'.mp htrans
  exact ⟨⟨by simp [Session.content, htr], rfl, rfl, by simp [Session.content]⟩, hbad, hdangles, rfl⟩

/-- **New data**: the connection follows what the chunk brings, until its loop reads a removed buffer. -/
theorem receive_follows (cfg : Config) {c : Connection} (hbad : c.state.bad = false)
    (hdangles : c.state.dangles = false) (buf chunk : Bytes) :
    Receiver.Related (Going (packages c.state.log)) (Stopped (packages c.state.log))
      ((reader cfg).drain (c.state.detect (buf ++ chunk)) (buf ++ chunk))
      (contentOf (c.state.detect (buf ++ chunk)).content (buf ++ chunk)) := by
  obtain ⟨hb, hd, hlog⟩ := Session.detect_fields c.state (buf ++ chunk)
  have hgoing := going_start (Session.detect_transport c.state (buf ++ chunk)) (hb.trans hbad) (hd.trans hdangles)
  rw [hlog] at hgoing
  exact drain_follows cfg hgoing (buf ++ chunk)

/-- Whether the loop holds on to a removed buffer. -/
lemma receive_dangles (cfg : Config) {c buf} (hbuf : c.buffer = some buf)
    (hbad : c.state.bad = false) (hdangles : c.state.dangles = false) (chunk : Bytes) :
    ((reader cfg).drain (c.state.detect (buf ++ chunk)) (buf ++ chunk)).state.dangles = (incoming c chunk).malformed := by
  have hfollows := receive_follows cfg hbad hdangles buf chunk
  have hincoming : incoming c chunk = (contentOf (c.state.detect (buf ++ chunk)).content (buf ++ chunk)).state := by
    rw [incoming, hbuf]
  rw [hincoming]
  by_cases hnone : ((reader cfg).drain (c.state.detect (buf ++ chunk)) (buf ++ chunk)).buffer = none
  · exact (hfollows.stopped hnone).dangles
  · have hgoing := hfollows.going hnone
    rw [hgoing.dangles, hgoing.sound]

end Caf.Pomelo
