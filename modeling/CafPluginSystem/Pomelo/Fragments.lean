import CafPluginSystem.Pomelo.Segments

/-!
# Fragmented messages

A WebSocket message may be sent in one frame or in several, with ping and pong frames in between.  The session keeps the
fragments of a message in `ws_frag`; that it is empty says at the same time that there is no message to be continued.

* `contentOf_frames` — what is read from the frames of a message.
* `fragmentation` — **a message in several frames is handled as in one**, if and only if its first fragment is not empty,
  or there is no package in it, and the limit on the length of frames has the same effect on both.
-/

namespace Caf.Pomelo

open Chunks

variable {opcode : UInt8} {frames fs : List SentFrame} {payload : Bytes}

/-! ## Messages in frames -/

def SentFrame.isControl (f : SentFrame) : Bool := f.opcode == opPing || f.opcode == opPong

/-- Frames with one message: a frame with the opcode and then continuations of it, the last of them final; ping and pong
frames may stand anywhere. -/
def Fragmented (opcode : UInt8) : List SentFrame → Prop
  | [] => False
  | f :: fs =>
    if f.isControl then Fragmented opcode fs
    else f.opcode = opcode ∧ if f.fin then ∀ g ∈ fs, g.isControl = true else Fragmented opContinuation fs

/-- A frame that a client may send: ping and pong frames are short and final. -/
structure SentFrame.Legal (f : SentFrame) : Prop extends f.Sendable where
  control : f.isControl = true → f.fin = true ∧ f.payload.length ≤ 125

/-- The fragments of the message. -/
def pieces (frames : List SentFrame) : List Bytes :=
  (frames.filter fun f => !f.isControl).map SentFrame.payload

/-- A message for the endpoint. -/
structure IsMessage (opcode : UInt8) (frames : List SentFrame) : Prop where
  data : opcode = opBinary ∨ opcode = opText
  legal : ∀ f ∈ frames, f.Legal
  fragmented : Fragmented opcode frames

def stream (frames : List SentFrame) : Bytes := frames.flatMap SentFrame.bytes

lemma stream_cons (f : SentFrame) (fs : List SentFrame) : stream (f :: fs) = f.bytes ++ stream fs := rfl

/-- No fragment is too long, and the first one is not empty unless it is the only one. -/
def Delivered (frames : List SentFrame) : Prop :=
  (∀ piece ∈ pieces frames, piece.length ≤ maxFrame.toNat) ∧ ((pieces frames).length = 1 ∨ (pieces frames).head? ≠ some [])

lemma pieces_control {f} (h : f.isControl = true) (fs : List SentFrame) : pieces (f :: fs) = pieces fs := by
  simp [pieces, h]

lemma pieces_data {f} (h : f.isControl = false) (fs : List SentFrame) :
    pieces (f :: fs) = f.payload :: pieces fs := by
  simp [pieces, h]

lemma pieces_controls (h : ∀ g ∈ fs, g.isControl = true) : pieces fs = [] := by
  simpa [pieces] using h

lemma fragmented_pieces : ∀ {frames : List SentFrame}, Fragmented opcode frames → pieces frames ≠ [] := by
  intro frames
  induction frames with
  | nil => exact fun h => h.elim
  | cons f fs ih =>
    intro h
    rw [Fragmented] at h
    split at h
    · rename_i hctrl
      rw [pieces_control hctrl]
      exact ih h
    · rename_i hdata
      rw [pieces_data (by simpa using hdata)]
      simp

/-! ## What is read from the frames -/

section Reading

variable {t : Content} {f : SentFrame} {rest : Bytes}

/-- The WebSocket of a content is open, and nothing was malformed. -/
structure Open (t : Content) : Prop where
  transport : t.transport = .ws
  upgraded : t.upgraded = true
  sound : t.malformed = false

section

variable (ht : Open t)
include ht

/-- A frame that is too long is the end. -/
lemma contentOf_long (hf : f.Sendable) (hlong : f.payload.length > maxFrame.toNat) :
    contentOf t (f.bytes ++ rest) = ⟨t, none⟩ := by
  refine Reader.drain_stop ?_
  show contentLoop.scan t _ = .stop t
  simp only [Loop.scan, contentLoop, ht.transport, ht.upgraded, if_true, Loop.scanItem, parseItem, parseFrame_sent hf,
    if_pos hlong, Parse.map, id]

/-- A frame that is not too long is an item. -/
lemma contentOf_frame (hf : f.Sendable) (hshort : f.payload.length ≤ maxFrame.toNat)
    (hclose : f.opcode ≠ opClose) : contentOf t (f.bytes ++ rest) =
      if (t.frame f.frame).malformed then ⟨t.frame f.frame, none⟩ else contentOf (t.frame f.frame) rest := by
  have hscan : contentLoop.scan t (f.bytes ++ rest) =
      if (t.frame f.frame).malformed then .stop (t.frame f.frame) else .take f.bytes.length (t.frame f.frame) := by
    simp only [Loop.scan, contentLoop, ht.transport, ht.upgraded, if_true, Loop.scanItem, parseItem, parseFrame_sent hf,
      if_neg (Nat.not_lt.mpr hshort), Parse.map, Content.item]
    rw [if_neg (show f.frame.opcode ≠ opClose from hclose)]
    split <;> rfl
  cases hm : (t.frame f.frame).malformed with
  | true =>
    rw [hm] at hscan
    exact Reader.drain_stop hscan
  | false =>
    rw [hm] at hscan
    refine (Reader.drain_take (R := contentLoop.reader) hscan).trans ?_
    rw [List.drop_left]
    rfl

/-- A ping or pong frame says nothing. -/
lemma contentOf_control (hf : f.Legal) (hctrl : f.isControl = true) :
    contentOf t (f.bytes ++ rest) = contentOf t rest := by
  have hop : f.opcode = opPing ∨ f.opcode = opPong := by simpa [SentFrame.isControl] using hctrl
  have hidle : t.frame f.frame = t := by
    rcases hop with hop | hop
    · simp [Content.frame, SentFrame.frame, hop, opPing, opBinary, opText, opContinuation]
    · simp [Content.frame, SentFrame.frame, hop, opPong, opBinary, opText, opContinuation]
  have hclose : f.opcode ≠ opClose := by
    rcases hop with hop | hop
    · rw [hop]
      decide
    · rw [hop]
      decide
  have hmax : maxFrame.toNat = 67108864 := rfl
  have hshort := (hf.control hctrl).2
  rw [contentOf_frame ht hf.toSendable (by omega) hclose, hidle, ht.sound]
  rfl

lemma contentOf_nil : contentOf t [] = ⟨t, some []⟩ := by
  refine Reader.drain_more ?_
  show contentLoop.scan t [] = .more
  simp only [Loop.scan, contentLoop, ht.transport, ht.upgraded, if_true]
  rfl

lemma contentOf_controls : ∀ {fs : List SentFrame}, (∀ g ∈ fs, g.Legal) → (∀ g ∈ fs, g.isControl = true) →
    contentOf t (stream fs) = ⟨t, some []⟩ := by
  intro fs
  induction fs with
  | nil =>
    intro _ _
    exact contentOf_nil ht
  | cons g fs ih =>
    intro hlegal hctrl
    rw [stream_cons, contentOf_control ht (hlegal g (by simp)) (hctrl g (by simp))]
    exact ih (fun g' h => hlegal g' (by simp [h])) (fun g' h => hctrl g' (by simp [h]))

/-- The message is complete; only ping and pong frames follow. -/
lemma contentOf_last (hf : f.Sendable) (hshort : f.payload.length ≤ maxFrame.toNat)
    (hclose : f.opcode ≠ opClose) (hframe : t.frame f.frame = t.message payload) (hlegal : ∀ g ∈ fs, g.Legal) (hctrl : ∀ g ∈ fs, g.isControl = true) :
    (contentOf t (f.bytes ++ stream fs)).state = t.message payload := by
  rw [contentOf_frame ht hf hshort hclose, hframe]
  split
  · rfl
  · rename_i hsound
    have hopen : Open (t.message payload) := ⟨ht.transport, ht.upgraded, by simpa using hsound⟩
    rw [contentOf_controls hopen hlegal hctrl]

end

/-- Nothing came of the message. -/
def Dropped (t : Content) (r : Receiver UInt8 Content) : Prop :=
  r.state.packages = t.packages ∧ r.state.malformed = false

lemma message_frag (t : Content) (frag payload : Bytes) : { t with frag }.message payload = t.message payload := rfl

/-- **The continuation of a message.**  With an empty fragment there is nothing to be continued. -/
theorem contentOf_continuation : ∀ {fs : List SentFrame} {t : Content}, Open t → (∀ g ∈ fs, g.Legal) →
    Fragmented opContinuation fs →
    (t.frag ≠ [] → (∀ piece ∈ pieces fs, piece.length ≤ maxFrame.toNat) →
      (contentOf t (stream fs)).state = t.message (t.frag ++ (pieces fs).flatten)) ∧
    (t.frag = [] ∨ (∃ piece ∈ pieces fs, piece.length > maxFrame.toNat) → Dropped t (contentOf t (stream fs))) := by
  intro fs
  -- by induction on the frames; each of them is skipped, ends the stream, or moves the fragment on
  induction fs with
  | nil => exact fun _ _ h => h.elim
  | cons f fs ih =>
    intro t ht hlegal hfrag
    have hf := hlegal f (by simp)
    have hlegal' : ∀ g ∈ fs, g.Legal := fun g hg => hlegal g (by simp [hg])
    rw [Fragmented] at hfrag
    rw [stream_cons]
    by_cases hctrl : f.isControl = true
    · rw [if_pos hctrl] at hfrag
      rw [pieces_control hctrl, contentOf_control ht hf hctrl]
      exact ih ht hlegal' hfrag
    rw [if_neg hctrl] at hfrag
    obtain ⟨hop, hnext⟩ := hfrag
    rw [pieces_data (by simpa using hctrl)]
    have hclose : f.opcode ≠ opClose := by
      rw [hop]
      decide
    by_cases hlong : f.payload.length > maxFrame.toNat
    · rw [contentOf_long ht hf.toSendable hlong]
      refine ⟨fun _ hall => ?_, fun _ => ⟨rfl, ht.sound⟩⟩
      exact absurd hlong (Nat.not_lt.mpr (hall _ (by simp)))
    have hshort := Nat.not_lt.mp hlong
    have hex : (∃ piece ∈ f.payload :: pieces fs, piece.length > maxFrame.toNat) ↔
        ∃ piece ∈ pieces fs, piece.length > maxFrame.toNat := by
      simp [Nat.not_lt.mpr hshort]
    rw [hex]
    by_cases hempty : t.frag = []
    · -- the frame is ignored
      have hidle : t.frame f.frame = t := by
        simp [Content.frame, SentFrame.frame, hop, hempty, opBinary, opText, opContinuation]
      refine ⟨fun hne => absurd hempty hne, fun _ => ?_⟩
      rw [contentOf_frame ht hf.toSendable hshort hclose, hidle, ht.sound]
      split at hnext
      · rw [if_neg (by simp), contentOf_controls ht hlegal' hnext]
        exact ⟨rfl, ht.sound⟩
      · exact (ih ht hlegal' hnext).2 (.inl hempty)
    · cases hfin : f.fin with
      | true =>
        rw [if_pos hfin] at hnext
        have hframe : t.frame f.frame = t.message (t.frag ++ f.payload) := by
          simp [Content.frame, SentFrame.frame, hop, hempty, hfin, opBinary, opText, opContinuation]
        have hlast := contentOf_last ht hf.toSendable hshort hclose hframe hlegal' hnext
        refine ⟨fun _ _ => ?_, fun h => ?_⟩
        · rw [pieces_controls hnext]
          simpa using hlast
        · rw [pieces_controls hnext] at h
          exact absurd h (by simp [hempty])
      | false =>
        rw [if_neg (by simp [hfin])] at hnext
        have hframe : t.frame f.frame = { t with frag := t.frag ++ f.payload } := by
          simp [Content.frame, SentFrame.frame, hop, hempty, hfin, opBinary, opText, opContinuation]
        have hopen : Open { t with frag := t.frag ++ f.payload } := ⟨ht.transport, ht.upgraded, ht.sound⟩
        rw [contentOf_frame ht hf.toSendable hshort hclose, hframe, if_neg (by rw [hopen.sound]; simp)]
        obtain ⟨hkept, hdrop⟩ := ih hopen hlegal' hnext
        refine ⟨fun _ hall => ?_, fun h => ?_⟩
        · have hrest := hkept (by simp [hempty]) (fun piece hp => hall piece (by simp [hp]))
          rw [message_frag] at hrest
          simpa using hrest
        · exact hdrop (.inr (h.resolve_left hempty))

/-- **The frames of a message.** -/
theorem contentOf_frames : ∀ {frames : List SentFrame} {t : Content}, Open t → t.frag = [] →
    IsMessage opcode frames →
    (Delivered frames → (contentOf t (stream frames)).state = t.message (pieces frames).flatten) ∧
    (¬ Delivered frames → Dropped t (contentOf t (stream frames))) := by
  intro frames
  induction frames with
  | nil => exact fun _ _ h => h.fragmented.elim
  | cons f fs ih =>
    rintro t ht hempty ⟨hdata, hlegal, hfrag⟩
    have hf := hlegal f (by simp)
    have hlegal' : ∀ g ∈ fs, g.Legal := fun g hg => hlegal g (by simp [hg])
    rw [Fragmented] at hfrag
    rw [stream_cons, Delivered]
    by_cases hctrl : f.isControl = true
    · rw [if_pos hctrl] at hfrag
      rw [pieces_control hctrl, contentOf_control ht hf hctrl]
      exact ih ht hempty ⟨hdata, hlegal', hfrag⟩
    rw [if_neg hctrl] at hfrag
    obtain ⟨hop, hnext⟩ := hfrag
    rw [pieces_data (by simpa using hctrl)]
    have hopcode : f.opcode = opBinary ∨ f.opcode = opText := by
      rw [hop]
      exact hdata
    have hclose : f.opcode ≠ opClose := by
      rcases hopcode with h | h
      · rw [h]
        decide
      · rw [h]
        decide
    by_cases hlong : f.payload.length > maxFrame.toNat
    · rw [contentOf_long ht hf.toSendable hlong]
      refine ⟨fun hall => ?_, fun _ => ⟨rfl, ht.sound⟩⟩
      exact absurd hlong (Nat.not_lt.mpr (hall.1 _ (by simp)))
    have hshort := Nat.not_lt.mp hlong
    cases hfin : f.fin with
    | true =>
      -- the only frame
      rw [if_pos hfin] at hnext
      have hframe : t.frame f.frame = t.message f.payload := by
        simp [Content.frame, SentFrame.frame, hopcode, hfin, hempty]
      have hlast := contentOf_last ht hf.toSendable hshort hclose hframe hlegal' hnext
      rw [pieces_controls hnext]
      refine ⟨fun _ => by simpa using hlast, fun h => absurd ?_ h⟩
      simpa using hshort
    | false =>
      rw [if_neg (by simp [hfin])] at hnext
      have hframe : t.frame f.frame = { t with frag := f.payload } := by
        simp [Content.frame, SentFrame.frame, hopcode, hfin]
      have hopen : Open { t with frag := f.payload } := ⟨ht.transport, ht.upgraded, ht.sound⟩
      rw [contentOf_frame ht hf.toSendable hshort hclose, hframe, if_neg (by rw [hopen.sound]; simp)]
      obtain ⟨hkept, hdrop⟩ := contentOf_continuation hopen hlegal' hnext
      have hmore := fragmented_pieces hnext
      refine ⟨?_, fun h => hdrop ?_⟩
      · rintro ⟨hall, hfirst⟩
        have hne : f.payload ≠ [] := by simpa [hmore] using hfirst
        have hrest := hkept hne (fun piece hp => hall piece (by simp [hp]))
        rw [message_frag] at hrest
        simpa using hrest
      · by_contra hnot
        push Not at hnot
        refine h ⟨?_, .inr (by simpa using hnot.1)⟩
        intro piece hp
        rcases List.mem_cons.mp hp with rfl | hp
        · exact hshort
        · exact hnot.2 piece hp

end Reading

/-! ## Sessions -/

/-- Sessions that read the same way, after the same packages. -/
structure Alike (s s' : Session) : Prop where
  transport : s.transport = s'.transport
  frag : s.wsFrag = s'.wsFrag
  packages : packages s.log = packages s'.log

namespace Alike

variable {cfg : Config} {s s' : Session}

section

variable (h : Alike s s')
include h

lemma note {e} (he : e.package? = none) : Alike (s.note e) (s'.note e) :=
  ⟨h.transport, h.frag, by rw [packages_note he, packages_note he, h.packages]⟩

lemma mark : Alike s.mark s'.mark := by
  have hmarked : Alike { s with bad := true, ready := none } { s' with bad := true, ready := none } :=
    ⟨h.transport, h.frag, h.packages⟩
  exact hmarked.note rfl

lemma writeRaw (cause : Cause) (bytes : Bytes) :
    Alike (s.writeRaw cause bytes) (s'.writeRaw cause bytes) := by
  have hpkgs := (Going.packages_writeRaw s cause bytes).trans
    (h.packages.trans (Going.packages_writeRaw s' cause bytes).symm)
  rw [Session.writeRaw_eq, Session.writeRaw_eq] at hpkgs ⊢
  exact ⟨h.transport, h.frag, hpkgs⟩

lemma handled {pkgs t t'} (ht : Session.Handled pkgs s t)
    (ht' : Session.Handled pkgs s' t') : Alike t t' where
  transport := by rw [ht.transport, ht'.transport, h.transport]
  frag := by rw [ht.wsFrag, ht'.wsFrag, h.frag]
  packages := by rw [ht.packages, ht'.packages, h.packages]

lemma setFrag (frag : Bytes) : Alike { s with wsFrag := frag } { s' with wsFrag := frag } :=
  ⟨h.transport, rfl, h.packages⟩

lemma handleItem (cfg : Config) (item : Item) : Alike (s.handleItem cfg item).1 (s'.handleItem cfg item).1 ∧
    (s.handleItem cfg item).2 = (s'.handleItem cfg item).2 := by
  cases item with
  | package pkg =>
    exact ⟨h.handled (Session.handled_handlePackage cfg s pkg) (Session.handled_handlePackage cfg s' pkg), rfl⟩
  | frame f =>
    have hpay : ∀ payload, Alike ({ s with wsFrag := [] }.handlePayload cfg payload)
        ({ s' with wsFrag := [] }.handlePayload cfg payload) := fun payload =>
      (h.setFrag []).handled (Session.handled_handlePayload cfg _ payload) (Session.handled_handlePayload cfg _ payload)
    show Alike (s.handleFrame cfg f).1 (s'.handleFrame cfg f).1 ∧ (s.handleFrame cfg f).2 = (s'.handleFrame cfg f).2
    unfold Session.handleFrame
    rw [h.frag]
    split_ifs
    · exact ⟨h.writeRaw _ _, rfl⟩
    · exact ⟨h, rfl⟩
    · exact ⟨(h.writeRaw _ _).mark, rfl⟩
    · exact ⟨hpay _, rfl⟩
    · exact ⟨h.setFrag _, rfl⟩
    · exact ⟨h, rfl⟩
    · exact ⟨hpay _, rfl⟩
    · exact ⟨h.setFrag _, rfl⟩
    · exact ⟨h, rfl⟩

end

/-- They find the same in a removed buffer. -/
lemma roam : ∀ (stale : List Bytes) {s s' : Session}, Alike s s' → Alike (s.roam cfg stale) (s'.roam cfg stale) := by
  intro stale
  induction stale with
  | nil => exact fun h => h.note rfl
  | cons found later ih =>
    intro s s' h
    have hnote := h.note (e := .dangling) rfl
    unfold Session.roam
    dsimp only
    rw [hnote.transport]
    split
    · exact hnote
    · exact hnote.mark
    · rename_i n item _
      obtain ⟨hitem, hagain⟩ := hnote.handleItem cfg item
      rw [hagain]
      split
      · exact ih hitem
      · exact hitem

end Alike

/-! ## Fragmentation -/

/-- A connection on which a message can begin. -/
structure OnWebSocket (c : Connection) : Prop where
  transport : c.state.transport = some .ws
  done : c.state.wsHsDone = true
  frag : c.state.wsFrag = []
  bad : c.state.bad = false
  dangles : c.state.dangles = false
  buffer : c.buffer = some []

/-- The whole message in one frame. -/
structure IsWhole (opcode : UInt8) (frames : List SentFrame) (f : SentFrame) : Prop where
  sendable : f.Sendable
  opcode : f.opcode = opcode
  fin : f.fin = true
  payload : f.payload = (pieces frames).flatten

/-- However the frames of the message are cut, the packages are the same as with the whole message in one frame. -/
def Transparent (cfg : Config) (s : Endpoint) (h : Handle) (frames : List SentFrame) (f : SentFrame) : Prop :=
  ∀ chunks chunks' stale, chunks.flatten = stream frames → chunks'.flatten = f.bytes → ∀ t t',
    Machine.run (step cfg) s (talk h (withStale stale chunks)) = some t →
    Machine.run (step cfg) s (talk h (withStale stale chunks')) = some t' →
    (t.connections[h]?).map (fun c => packages c.state.log) = (t'.connections[h]?).map (fun c => packages c.state.log)

/-- The message is in one frame; or it is not too long for one, and its first fragment is not empty unless there is no
package; or it is too long for one, and is dropped in several frames as well. -/
def Faithful (frames : List SentFrame) : Prop :=
  (pieces frames).length = 1 ∨
    (pieces frames).flatten.length ≤ maxFrame.toNat ∧
      ((pieces frames).head? ≠ some [] ∨ packagesOf (pieces frames).flatten = []) ∨
    (pieces frames).flatten.length > maxFrame.toNat ∧
      ((pieces frames).head? = some [] ∨ ∃ piece ∈ pieces frames, piece.length > maxFrame.toNat)

instance (frames : List SentFrame) : Decidable (Faithful frames) := inferInstanceAs (Decidable (_ ∨ _ ∧ _ ∨ _ ∧ _))

/-- So many bytes have a package in them. -/
lemma packagesOf_ne_nil (h : payload.length > maxFrame.toNat) : packagesOf payload ≠ [] := by
  have hmax : maxFrame.toNat = 67108864 := rfl
  obtain ⟨n, hn⟩ : ∃ n, payload.length = n + 1 := ⟨payload.length - 1, by omega⟩
  rw [packagesOf, hn, packagesFrom]
  cases hparse : parsePkg payload with
  | more =>
    have hshort := parsePkg_more_length hparse
    omega
  | bad => exact absurd hparse (parsePkg_ne_bad payload)
  | done m pkg => simp

/-- When the message is delivered in frames and in one frame alike. -/
lemma faithful_iff (h : Fragmented opcode frames) : Faithful frames ↔
    ((Delivered frames ↔ (pieces frames).flatten.length ≤ maxFrame.toNat) ∨ packagesOf (pieces frames).flatten = []) := by
  have hne := fragmented_pieces h
  by_cases hone : (pieces frames).length = 1
  · obtain ⟨piece, hpiece⟩ := List.length_eq_one_iff.mp hone
    refine ⟨fun _ => .inl ?_, fun _ => .inl hone⟩
    rw [Delivered, hpiece]
    simp
  · rw [Faithful, Delivered]
    by_cases hfit : (pieces frames).flatten.length ≤ maxFrame.toNat
    · have hall : ∀ piece ∈ pieces frames, piece.length ≤ maxFrame.toNat :=
        fun piece hp => (List.sublist_flatten_of_mem hp).length_le.trans hfit
      simp only [hone, hfit, Nat.not_lt.mpr hfit, false_or, true_and, or_false, false_and, iff_true]
      exact or_congr ⟨fun h => ⟨hall, h⟩, fun h => h.2⟩ Iff.rfl
    · have hpkgs := packagesOf_ne_nil (Nat.not_le.mp hfit)
      simp only [hone, hfit, Nat.not_le.mp hfit, hpkgs, false_or, true_and, or_false, false_and, iff_false, gt_iff_lt]
      rw [not_and_or, not_not, or_comm]
      push Not
      rfl

/-- What a connection makes of a message. -/
lemma receive_message (cfg : Config) {c} (hc : OnWebSocket c)
    (hm : IsMessage opcode frames) {chunks} (hchunks : chunks.flatten = stream frames)
    (stale : List Bytes) : ∃ r : Connection, receiveAll cfg c (withStale stale chunks) = land cfg stale r ∧
      (Delivered frames → r.state.transport = some .ws ∧ r.state.wsFrag = [] ∧
        packages r.state.log = packages c.state.log ++ packagesOf (pieces frames).flatten ∧
        r.state.dangles = (packagesOf (pieces frames).flatten).any ParsedPkg.malformed) ∧
      (¬ Delivered frames → packages r.state.log = packages c.state.log ∧ r.state.dangles = false) := by
  have htrans : c.state.transport ≠ none := by simp [hc.transport]
  have hdrain : (reader cfg).Drained c := by
    intro buf hbuf
    obtain rfl : [] = buf := by simpa [hc.buffer] using hbuf
    show (sessionLoop cfg).scan c.state [] = .more
    simp only [Loop.scan, sessionLoop, hc.transport, hc.done, if_true]
    rfl
  refine ⟨(reader cfg).drain c.state (stream frames), ?_, ?_⟩
  · rw [receiveAll_withStale cfg stale chunks (by simp [hc.buffer]) ⟨htrans, hc.bad, hc.dangles⟩,
      Reader.feedAll_eq chunks hdrain, hchunks, Reader.feed, hc.buffer]
    rfl
  · have hfollows := drain_follows cfg (going_start htrans hc.bad hc.dangles) (stream frames)
    have hopen : Open c.state.content := ⟨by simp [Session.content, hc.transport], hc.done, rfl⟩
    obtain ⟨hkept, hdrop⟩ := contentOf_frames hopen hc.frag hm
    -- whether or not the loop has stopped, the session is where the content is
    have hst : Follows (packages c.state.log) ((reader cfg).drain c.state (stream frames)).state
          (contentOf c.state.content (stream frames)).state ∧
        ((reader cfg).drain c.state (stream frames)).state.dangles
          = (contentOf c.state.content (stream frames)).state.malformed := by
      by_cases hnone : ((reader cfg).drain c.state (stream frames)).buffer = none
      · have hstopped := hfollows.stopped hnone
        exact ⟨hstopped.toFollows, hstopped.dangles⟩
      · have hgoing := hfollows.going hnone
        exact ⟨hgoing.toFollows, hgoing.dangles.trans hgoing.sound.symm⟩
    obtain ⟨hf, hd⟩ := hst
    refine ⟨fun h => ?_, fun h => ?_⟩
    · have hmsg := hkept h
      rw [hmsg] at hf hd
      refine ⟨hf.transport.trans (congrArg some hopen.transport), hf.frag, hf.packages.trans ?_, hd⟩
      simp [Content.message, Session.content]
    · obtain ⟨hpkgs, hsound⟩ := hdrop h
      refine ⟨hf.packages.trans ?_, hd.trans hsound⟩
      rw [hpkgs]
      simp [Session.content]

/-- **Fragmentation.** -/
theorem fragmentation (cfg : Config) {s : Endpoint} {h : Handle} {c : Connection} (hc : s.connections[h]? = some c)
    (hws : OnWebSocket c) {opcode : UInt8} {frames : List SentFrame} (hm : IsMessage opcode frames) {f : SentFrame}
    (hf : IsWhole opcode frames f) : Transparent cfg s h frames f ↔ Faithful frames := by
  rw [faithful_iff hm.fragmented]
  -- the message in one frame is a message as well
  have hctrl : f.isControl = false := by
    rw [SentFrame.isControl, hf.opcode]
    rcases hm.data with rfl | rfl
    · rfl
    · rfl
  have hpieces : pieces [f] = [(pieces frames).flatten] := by
    rw [pieces_data hctrl, hf.payload]
    rfl
  have hwhole : IsMessage opcode [f] := by
    refine ⟨hm.data, fun g hg => ?_, ?_⟩
    · obtain rfl : g = f := by simpa using hg
      exact ⟨hf.sendable, fun h => by simp [hctrl] at h⟩
    · simp [Fragmented, hctrl, hf.opcode, hf.fin]
  have hdeliv : Delivered [f] ↔ (pieces frames).flatten.length ≤ maxFrame.toNat := by
    rw [Delivered, hpieces]
    simp
  have hstream : stream [f] = f.bytes := by simp [stream]
  rw [← hdeliv]
  -- what a run comes to
  have hrun : ∀ cut, ∃ t, Machine.run (step cfg) s (talk h cut) = some t ∧
      t.connections[h]? = some (receiveAll cfg c cut) := fun cut => run_talk cfg cut hc
  constructor
  · intro htransparent
    obtain ⟨r, hr, hkept, hdrop⟩ := receive_message cfg hws hm (by simp : [stream frames].flatten = _) []
    obtain ⟨r', hr', hkept', hdrop'⟩ := receive_message cfg hws hwhole
      (by simp [hstream] : [f.bytes].flatten = _) []
    obtain ⟨t, ht, hconn⟩ := hrun (withStale [] [stream frames])
    obtain ⟨t', ht', hconn'⟩ := hrun (withStale [] [f.bytes])
    have hsame := htransparent _ _ [] (by simp) (by simp) t t' ht ht'
    rw [hconn, hconn', hr, hr'] at hsame
    have hlogs : packages r.state.log = packages r'.state.log := by
      simpa [(land_nil cfg _).1] using hsame
    rw [hpieces] at hkept'
    by_contra hnot
    push Not at hnot
    obtain ⟨hdiffer, hpkgs⟩ := hnot
    rcases hdiffer with ⟨hd, hd'⟩ | ⟨hd, hd'⟩
    · rw [(hkept hd).2.2.1, (hdrop' hd').1] at hlogs
      exact hpkgs (by simpa using hlogs)
    · rw [(hdrop hd).1, (hkept' hd').2.2.1] at hlogs
      exact hpkgs (by simpa using hlogs)
  · intro hfaithful chunks chunks' stale hchunks hchunks' t t' ht ht'
    obtain ⟨r, hr, hkept, hdrop⟩ := receive_message cfg hws hm hchunks stale
    obtain ⟨r', hr', hkept', hdrop'⟩ := receive_message cfg hws hwhole (hchunks'.trans hstream.symm) stale
    rw [hpieces] at hkept'
    obtain ⟨u, hu, hconn⟩ := hrun (withStale stale chunks)
    obtain ⟨u', hu', hconn'⟩ := hrun (withStale stale chunks')
    obtain rfl : u = t := Option.some.inj (hu.symm.trans ht)
    obtain rfl : u' = t' := Option.some.inj (hu'.symm.trans ht')
    rw [hconn, hconn', hr, hr']
    refine congrArg some ?_
    show packages (land cfg stale r).state.log = packages (land cfg stale r').state.log
    -- without dangling the packages are those of the message
    have hcalm : ∀ {r}, r.state.dangles = false → land cfg stale r = r := by
      intro r hd
      rw [land, hd]
      rfl
    by_cases hd : Delivered frames
    · by_cases hd' : Delivered [f]
      · obtain ⟨htr, hfrag, hp, hdangles⟩ := hkept hd
        obtain ⟨htr', hfrag', hp', hdangles'⟩ := hkept' hd'
        simp only [List.flatten_singleton] at hp' hdangles'
        have halike : Alike { r.state with dangles := false } { r'.state with dangles := false } :=
          ⟨htr.trans htr'.symm, hfrag.trans hfrag'.symm, hp.trans hp'.symm⟩
        rw [land, land, hdangles.trans hdangles'.symm]
        split
        · exact (halike.roam stale).packages
        · exact hp.trans hp'.symm
      · have hnone : packagesOf (pieces frames).flatten = [] :=
          hfaithful.resolve_left (fun hiff => hd' (hiff.mp hd))
        obtain ⟨-, -, hp, hdangles⟩ := hkept hd
        obtain ⟨hp', hdangles'⟩ := hdrop' hd'
        rw [hnone] at hp hdangles
        rw [hcalm hdangles, hcalm hdangles', hp, hp', List.append_nil]
    · by_cases hd' : Delivered [f]
      · have hnone : packagesOf (pieces frames).flatten = [] :=
          hfaithful.resolve_left (fun hiff => hd (hiff.mpr hd'))
        obtain ⟨hp, hdangles⟩ := hdrop hd
        obtain ⟨-, -, hp', hdangles'⟩ := hkept' hd'
        simp only [List.flatten_singleton, hnone] at hp' hdangles'
        rw [hcalm hdangles, hcalm hdangles', hp, hp', List.append_nil]
      · obtain ⟨hp, hdangles⟩ := hdrop hd
        obtain ⟨hp', hdangles'⟩ := hdrop' hd'
        rw [hcalm hdangles, hcalm hdangles', hp, hp']

namespace Sample

/-- A WebSocket on which nothing is pending. -/
def webSocket : Connection := ⟨{ transport := some .ws, wsHsDone := true }, some []⟩

def onWebSocket : Endpoint := { connections := (∅ : Std.ExtTreeMap ℕ Connection).insert 0 webSocket }

def frameOf (fin : Bool) (opcode : UInt8) (payload : Bytes) : SentFrame := ⟨fin, opcode, none, .short, payload⟩

/-- A heartbeat in one frame; in three with a ping in between; and with an empty frame first. -/
def beatFrame : SentFrame := frameOf true opBinary [3, 0, 0, 0]
def beatFrames : List SentFrame :=
  [frameOf false opBinary [3], frameOf true opPing [7], frameOf false opContinuation [], frameOf true opContinuation [0, 0, 0]]
def emptyFirst : List SentFrame := [frameOf false opBinary [], frameOf true opContinuation [3, 0, 0, 0]]

lemma legal_frameOf {fin} (hop : opcode < 16) (hlen : payload.length ≤ 125)
    (hfin : (frameOf fin opcode payload).isControl = true → fin = true) : (frameOf fin opcode payload).Legal :=
  ⟨⟨hop, Nat.lt_succ_of_le hlen⟩, fun h => ⟨hfin h, hlen⟩⟩

lemma isMessage_beatFrames : IsMessage opBinary beatFrames := by
  refine ⟨.inl rfl, fun f hf => ?_, by simp [beatFrames, Fragmented, frameOf, SentFrame.isControl, opPing, opPong,
    opBinary, opContinuation]⟩
  simp only [beatFrames, List.mem_cons, List.not_mem_nil, or_false] at hf
  rcases hf with rfl | rfl | rfl | rfl
  all_goals exact legal_frameOf (by decide) (by decide) (by decide)

lemma isWhole_beatFrames : IsWhole opBinary beatFrames beatFrame := ⟨⟨by decide, (by decide : 4 < 126)⟩, rfl, rfl, by decide⟩

end Sample

theorem fragmentation_beatFrames : Transparent Sample.bare Sample.onWebSocket 0 Sample.beatFrames Sample.beatFrame :=
  (fragmentation Sample.bare (c := Sample.webSocket) (by simp [Sample.onWebSocket]) ⟨rfl, rfl, rfl, rfl, rfl, rfl⟩
    Sample.isMessage_beatFrames Sample.isWhole_beatFrames).mpr (by decide +kernel)

/-- The heartbeat is lost if the first frame is empty. -/
theorem fragmented_lost : ¬ Transparent Sample.bare Sample.onWebSocket 0 Sample.emptyFirst Sample.beatFrame ∧
    ((Machine.run (step Sample.bare) Sample.onWebSocket (talk 0 [(stream Sample.emptyFirst, [])])).bind fun t =>
      (t.connections[0]?).map fun c => packages c.state.log) = some [] ∧
    ((Machine.run (step Sample.bare) Sample.onWebSocket (talk 0 [(Sample.beatFrame.bytes, [])])).bind fun t =>
      (t.connections[0]?).map fun c => packages c.state.log) = some [⟨pkgHeartbeat, []⟩] := by
  have hlost : ((Machine.run (step Sample.bare) Sample.onWebSocket (talk 0 [(stream Sample.emptyFirst, [])])).bind fun t =>
      (t.connections[0]?).map fun c => packages c.state.log) = some [] := by decide +kernel
  have hkept : ((Machine.run (step Sample.bare) Sample.onWebSocket (talk 0 [(Sample.beatFrame.bytes, [])])).bind fun t =>
      (t.connections[0]?).map fun c => packages c.state.log) = some [⟨pkgHeartbeat, []⟩] := by decide +kernel
  refine ⟨fun htransparent => ?_, hlost, hkept⟩
  obtain ⟨t, hrun, ht⟩ := Option.bind_eq_some_iff.mp hlost
  obtain ⟨t', hrun', ht'⟩ := Option.bind_eq_some_iff.mp hkept
  have hsame := htransparent [stream Sample.emptyFirst] [Sample.beatFrame.bytes] [] (by simp) (by simp) t t' hrun hrun'
  rw [ht, ht'] at hsame
  simp at hsame

end Caf.Pomelo
