import CafPluginSystem.Bridge.Retained
import CafPluginSystem.Pomelo.Marked

/-!
# What is kept of a connection

The Pomelo endpoint keeps the buffer of a connection and the fragments of a message.  A package and a frame are limited by
their headers.  The head of the HTTP request and the fragments of a message are not: a head without an end stays in the
buffer, and continuations are appended without a limit.

* `contentOf_moderate` — what is kept after a stream whose head and whose fragmented messages are not longer than a limit.
* `memory_bounded` — **in every run within the limit**, what the bridge and the endpoint keep of a connection is bounded.
* `memory_unbounded` — there is no bound for all streams.
-/

namespace Caf.Pomelo

open Chunks

/-- The bytes that are kept for a connection. -/
def retained (c : Connection) : ℕ := (c.buffer.getD []).length + c.state.wsFrag.length

/-! ## Moderate streams -/

/-- The whole frames of a buffer. -/
def framesFrom : ℕ → Bytes → List WsFrame
  | 0, _ => []
  | rounds + 1, buf =>
    match parseFrame buf with
    | .done n f => f :: framesFrom rounds (buf.drop n)
    | _ => []

def framesOf (buf : Bytes) : List WsFrame := framesFrom buf.length buf

/-- The bytes of a message in fragments that is not complete. -/
def tally (n : ℕ) (f : WsFrame) : ℕ :=
  if f.opcode = opBinary ∨ f.opcode = opText then if f.fin then 0 else f.payload.length
  else if f.opcode = opContinuation then if f.fin then 0 else n + f.payload.length
  else n

/-- The frames that arrive, after the head of the request if it has not been read. -/
def arriving (t : Content) (buf : Bytes) : List WsFrame :=
  match t.transport with
  | .tcp => []
  | .ws =>
    if t.upgraded then framesOf buf
    else
      match splitText crlf2 buf with
      | none => []
      | some (_, rest) => framesOf rest

/-- A head that is not complete, and the fragments of a message that is not complete, are not longer than the limit. -/
def ModerateStream (limit : ℕ) (t : Content) (buf : Bytes) : Prop :=
  (t.transport = .ws → t.upgraded = false → splitText crlf2 buf = none → buf.length ≤ limit) ∧
    ∀ front ∈ (arriving t buf).inits, front.foldl tally t.frag.length ≤ limit

/-- What a connection sends is within the limit, and has no malformed message. -/
def Moderate (limit : ℕ) (s : Endpoint) : Event → Prop
  | .data h chunk _ => ∀ c ∈ s.connections[h]?, ∀ buf ∈ c.buffer,
      ModerateStream limit (c.state.detect (buf ++ chunk)).content (buf ++ chunk) ∧ (incoming c chunk).malformed = false
  | _ => True

instance (limit : ℕ) (t : Content) (buf : Bytes) : Decidable (ModerateStream limit t buf) :=
  inferInstanceAs (Decidable ((_ → _ → _ → _) ∧ ∀ _ ∈ _, _))

instance (limit : ℕ) (s : Endpoint) : (e : Event) → Decidable (Moderate limit s e)
  | .data _ _ _ => inferInstanceAs (Decidable (∀ _ ∈ _, ∀ _ ∈ _, _ ∧ _))
  | .accepted _ | .closed _ | .resolved _ _ | .replied _ _ | .push _ _ => .isTrue trivial

/-! ## Frames -/

lemma framesFrom_eq : ∀ {rounds : ℕ} {buf : Bytes}, buf.length ≤ rounds → framesFrom rounds buf = framesOf buf := by
  intro rounds
  induction rounds using Nat.strong_induction_on with
  | _ rounds ih =>
    intro buf hlen
    cases rounds with
    | zero =>
      obtain rfl : buf = [] := List.eq_nil_of_length_eq_zero (by omega)
      rfl
    | succ rounds =>
      cases hparse : parseFrame buf with
      | more | bad => cases hbuf : buf.length <;> simp [framesOf, framesFrom, hbuf, hparse]
      | done n f =>
        obtain ⟨hpos, hle⟩ := parseFrame_within hparse
        obtain ⟨m, hm⟩ : ∃ m, buf.length = m + 1 := ⟨buf.length - 1, by omega⟩
        have hdrop : (buf.drop n).length ≤ m := by
          rw [List.length_drop]
          omega
        rw [framesOf, hm, framesFrom, framesFrom, hparse]
        show f :: framesFrom rounds (buf.drop n) = f :: framesFrom m (buf.drop n)
        rw [ih rounds (by omega) (by omega), ih m (by omega) hdrop]

/-- A frame at the front. -/
lemma framesOf_done {buf : Bytes} {n : ℕ} {f : WsFrame} (h : parseFrame buf = .done n f) :
    framesOf buf = f :: framesOf (buf.drop n) := by
  obtain ⟨hpos, hle⟩ := parseFrame_within h
  obtain ⟨m, hm⟩ : ∃ m, buf.length = m + 1 := ⟨buf.length - 1, by omega⟩
  rw [framesOf, hm, framesFrom, h]
  refine congrArg (f :: ·) (framesFrom_eq ?_)
  rw [List.length_drop]
  omega

lemma foldl_tally_mono : ∀ (fs : List WsFrame) {n m : ℕ}, n ≤ m → fs.foldl tally n ≤ fs.foldl tally m := by
  intro fs
  induction fs with
  | nil => exact fun h => h
  | cons f fs ih => exact fun h => ih (by unfold tally; split_ifs <;> omega)

/-- The fragments of a content are not more than what was sent. -/
lemma frag_frame (t : Content) (f : WsFrame) : (t.frame f).frag.length ≤ tally t.frag.length f := by
  unfold Content.frame tally
  by_cases hdata : f.opcode = opBinary ∨ f.opcode = opText
  · simp only [if_pos hdata]
    split
    · simp [Content.message]
    · exact le_rfl
  · simp only [if_neg hdata]
    by_cases hcont : f.opcode = opContinuation
    · by_cases hempty : t.frag = []
      · simp [hcont, hempty]
      · simp only [hcont, ne_eq, hempty, not_false_eq_true, and_self, if_true]
        split
        · simp [Content.message]
        · simp
    · simp [hcont]

/-! ## What is kept -/

namespace ModerateStream

variable {limit : ℕ} {t t' : Content} {buf : Bytes} {n : ℕ}

lemma frag (h : ModerateStream limit t buf) : t.frag.length ≤ limit := h.2 [] (by simp)

lemma frame_transport (t : Content) (f : WsFrame) :
    (t.frame f).transport = t.transport ∧ (t.frame f).upgraded = t.upgraded := by
  unfold Content.frame Content.message
  split_ifs <;> exact ⟨rfl, rfl⟩

variable (h : ModerateStream limit t buf)
include h

/-- A frame was taken: the rest is as moderate. -/
lemma frame (htrans : t.transport = .ws) (hupgraded : t.upgraded = true) {f : WsFrame}
    (hparse : parseFrame buf = .done n f) : ModerateStream limit (t.frame f) (buf.drop n) := by
  obtain ⟨htr, hup⟩ := frame_transport t f
  refine ⟨fun _ hnot => by simp [hup, hupgraded] at hnot, fun front hfront => ?_⟩
  have hrest : front <+: framesOf (buf.drop n) := by
    simpa [arriving, htr, htrans, hup, hupgraded] using hfront
  have hwhole := h.2 (f :: front) (by
    simp only [arriving, htrans, hupgraded, if_true, framesOf_done hparse, List.mem_inits]
    exact List.cons_prefix_cons.mpr ⟨rfl, hrest⟩)
  exact (foldl_tally_mono front (frag_frame t f)).trans hwhole

/-- A package was taken. -/
lemma package (htrans : t.transport = .tcp) (pkgs : List ParsedPkg) (rest : Bytes) :
    ModerateStream limit { t with packages := pkgs } rest := by
  refine ⟨fun hws => by simp [htrans] at hws, fun front hfront => ?_⟩
  obtain rfl : front = [] := by simpa [arriving, htrans] using hfront
  exact h.frag

/-- A round of the loop. -/
lemma scan :
    (∀ n t', contentLoop.scan t buf = .take n t' → ModerateStream limit t' (buf.drop n)) ∧
      ∀ t', contentLoop.scan t buf = .stop t' → t'.frag.length ≤ limit := by
  cases htrans : t.transport with
  | tcp =>
    have hscan : contentLoop.scan t buf = contentLoop.scanItem .tcp t buf := by
      simp only [Loop.scan, contentLoop, htrans]
    rw [hscan, Loop.scanItem]
    cases hparse : parseItem .tcp buf with
    | more => simp
    | bad =>
      refine ⟨by simp, fun t' heq => ?_⟩
      obtain rfl : t = t' := by simpa [contentLoop] using heq
      exact h.frag
    | done n item =>
      obtain ⟨pkg, -, rfl⟩ := Parse.map_done hparse
      simp only [contentLoop, Content.item]
      split
      · refine ⟨by simp [Outcome.scan], fun t' heq => ?_⟩
        obtain rfl := Scan.stop.inj heq
        exact h.frag
      · refine ⟨fun m t' heq => ?_, by simp [Outcome.scan]⟩
        obtain ⟨rfl, rfl⟩ := Scan.take.inj heq
        exact h.package htrans _ _
  | ws =>
    cases hupgraded : t.upgraded with
    | true =>
      have hscan : contentLoop.scan t buf = contentLoop.scanItem .ws t buf := by
        simp [Loop.scan, contentLoop, htrans, hupgraded]
      rw [hscan, Loop.scanItem]
      cases hparse : parseItem .ws buf with
      | more => simp
      | bad =>
        refine ⟨by simp, fun t' heq => ?_⟩
        obtain rfl : t = t' := by simpa [contentLoop] using heq
        exact h.frag
      | done n item =>
        obtain ⟨f, hframe, rfl⟩ := Parse.map_done hparse
        have hrest := h.frame htrans hupgraded hframe
        simp only [contentLoop, Content.item]
        split
        · refine ⟨by simp [Outcome.scan], fun t' heq => ?_⟩
          obtain rfl := Scan.stop.inj heq
          exact h.frag
        · split
          · refine ⟨by simp [Outcome.scan], fun t' heq => ?_⟩
            obtain rfl := Scan.stop.inj heq
            exact hrest.frag
          · refine ⟨fun m t' heq => ?_, by simp [Outcome.scan]⟩
            obtain ⟨rfl, rfl⟩ := Scan.take.inj heq
            exact hrest
    | false =>
      have hscan : contentLoop.scan t buf = contentLoop.scanHead t buf := by
        simp [Loop.scan, contentLoop, htrans, hupgraded]
      rw [hscan, Loop.scanHead]
      cases hsplit : splitText crlf2 buf with
      | none => simp
      | some parts =>
        obtain ⟨front, rest⟩ := parts
        simp only [contentLoop]
        split
        · refine ⟨by simp [Outcome.scan], fun t' heq => ?_⟩
          obtain rfl := Scan.stop.inj heq
          exact h.frag
        · refine ⟨fun m t' heq => ?_, by simp [Outcome.scan]⟩
          obtain ⟨rfl, rfl⟩ := Scan.take.inj heq
          -- the frames behind the head are those that arrive
          refine ⟨fun _ hnot => by simp at hnot, fun frames hframes => h.2 frames ?_⟩
          rw [splitText_some hsplit, List.drop_left] at hframes
          simpa [arriving, htrans, hupgraded, hsplit] using hframes

/-- What waits for more. -/
lemma waiting (hscan : contentLoop.scan t buf = .more) :
    buf.length ≤ max limit (14 + maxFrame.toNat) := by
  have hmax : maxFrame.toNat = 67108864 := rfl
  cases htrans : t.transport with
  | tcp =>
    simp only [Loop.scan, contentLoop, htrans, Loop.scanItem] at hscan
    cases hparse : parseItem .tcp buf with
    | more =>
      have hlen := parsePkg_more_length (Parse.map_more hparse)
      omega
    | bad => simp [hparse] at hscan
    | done n item =>
      obtain ⟨pkg, -, rfl⟩ := Parse.map_done hparse
      rw [hparse] at hscan
      simp only [Content.item] at hscan
      split at hscan <;> simp [Outcome.scan] at hscan
  | ws =>
    cases hupgraded : t.upgraded with
    | true =>
      simp only [Loop.scan, contentLoop, htrans, hupgraded, if_true, Loop.scanItem] at hscan
      cases hparse : parseItem .ws buf with
      | more =>
        have hlen := parseFrame_more_length (Parse.map_more hparse)
        omega
      | bad => simp [hparse] at hscan
      | done n item =>
        obtain ⟨f, -, rfl⟩ := Parse.map_done hparse
        rw [hparse] at hscan
        simp only [Content.item] at hscan
        split at hscan
        · simp [Outcome.scan] at hscan
        · split at hscan <;> simp [Outcome.scan] at hscan
    | false =>
      simp only [Loop.scan, contentLoop, htrans, hupgraded, Bool.false_eq_true, if_false, Loop.scanHead] at hscan
      cases hsplit : splitText crlf2 buf with
      | none => exact (h.1 htrans hupgraded hsplit).trans (le_max_left _ _)
      | some parts =>
        rw [hsplit] at hscan
        simp only at hscan
        split at hscan <;> simp [Outcome.scan] at hscan

end ModerateStream

/-- **What is kept after a moderate stream.** -/
theorem contentOf_moderate {limit : ℕ} {t : Content} {buf : Bytes} (h : ModerateStream limit t buf) :
    (contentOf t buf).state.frag.length ≤ limit ∧
      ∀ rest, (contentOf t buf).buffer = some rest → rest.length ≤ max limit (14 + maxFrame.toNat) := by
  have hinv := contentLoop.reader.drain_invariant (P := ModerateStream limit) (Q := fun t => t.frag.length ≤ limit)
    (fun h hscan => h.scan.1 _ _ hscan) (fun h hscan => h.scan.2 _ hscan) t buf h
  refine ⟨?_, fun rest hrest => (hinv.1 rest hrest).waiting (Reader.drain_rest _ _ rest hrest)⟩
  cases hbuf : (contentOf t buf).buffer with
  | none => exact hinv.2 hbuf
  | some rest => exact (hinv.1 rest hbuf).frag

/-! ## Runs -/

/-- The bound that belongs to a limit. -/
def memoryBound (limit : ℕ) : ℕ := limit + max limit (14 + maxFrame.toNat)

/-- A connection within the bound. -/
structure Spare (limit : ℕ) (c : Connection) : Prop where
  bad : c.buffer ≠ none → c.state.bad = false
  dangles : c.state.dangles = false
  bounded : retained c ≤ memoryBound limit

namespace Spare

variable {limit : ℕ} {c : Connection}

lemma fresh : Spare limit fresh := ⟨fun _ => rfl, rfl, by simp [retained, Pomelo.fresh]⟩

lemma silent : Endpoint.Silent (Spare limit) := by
  intro c cause frame h
  have hadds := c.state.writeFrame_adds cause frame
  refine ⟨fun hbuf => ?_, ?_, ?_⟩
  · rw [hadds]
    exact h.bad hbuf
  · rw [hadds]
    exact h.dangles
  · rw [hadds]
    exact h.bounded

/-- New data within the limit. -/
lemma receive (cfg : Config) (h : Spare limit c) (chunk : Bytes) (stale : List Bytes)
    (hmoderate : ∀ buf ∈ c.buffer, ModerateStream limit (c.state.detect (buf ++ chunk)).content (buf ++ chunk) ∧
      (incoming c chunk).malformed = false) : Spare limit (receive cfg c chunk stale) := by
  cases hbuf : c.buffer with
  | none =>
    rw [Pomelo.receive, hbuf]
    exact h
  | some buf =>
    obtain ⟨hstream, hsound⟩ := hmoderate buf hbuf
    have hbad := h.bad (by simp [hbuf])
    have hdangles := (receive_dangles cfg hbuf hbad h.dangles chunk).trans hsound
    have hrecv : Pomelo.receive cfg c chunk stale
        = (reader cfg).drain (c.state.detect (buf ++ chunk)) (buf ++ chunk) := by
      simp [Pomelo.receive, hbuf, hdangles]
    rw [hrecv]
    obtain ⟨hfrag, hrest⟩ := contentOf_moderate hstream
    have hfollows := receive_follows cfg hbad h.dangles buf chunk
    -- the fragments are those of the content, whether or not the loop has stopped
    have hsame : ((reader cfg).drain (c.state.detect (buf ++ chunk)) (buf ++ chunk)).state.wsFrag
        = (contentOf (c.state.detect (buf ++ chunk)).content (buf ++ chunk)).state.frag := by
      by_cases hnone : ((reader cfg).drain (c.state.detect (buf ++ chunk)) (buf ++ chunk)).buffer = none
      · exact (hfollows.stopped hnone).frag
      · exact (hfollows.going hnone).frag
    refine ⟨fun hgoing => (hfollows.going hgoing).bad, hdangles, ?_⟩
    have hbuffer : (((reader cfg).drain (c.state.detect (buf ++ chunk)) (buf ++ chunk)).buffer.getD []).length
        ≤ max limit (14 + maxFrame.toNat) := by
      rw [hfollows.buffer]
      cases hb : (contentOf (c.state.detect (buf ++ chunk)).content (buf ++ chunk)).buffer with
      | none => simp
      | some rest => exact hrest rest hb
    rw [retained, hsame, memoryBound]
    omega

end Spare

/-- **In every run within the limit**, what the bridge and the endpoint keep of a connection is bounded. -/
theorem memory_bounded (limit : ℕ) :
    (∀ (es : List Bridge.Event) (b : Bridge.Broker), Machine.RunWhere Bridge.step (Bridge.ShortLines limit) {} es →
      Machine.run Bridge.step {} es = some b → ∀ h, ∀ r ∈ b.connections h, Bridge.retained r ≤ memoryBound limit) ∧
    ∀ (cfg : Config) (es : List Event) (s : Endpoint), Machine.RunWhere (step cfg) (Moderate limit) {} es →
      Machine.run (step cfg) {} es = some s → ∀ h : Handle, ∀ c ∈ s.connections[h]?, retained c ≤ memoryBound limit := by
  constructor
  · intro es b hshort hrun h r hr
    have hbound := Bridge.retained_le hshort hrun h r hr
    have hmax : maxFrame.toNat = 67108864 := rfl
    have hpay : Bridge.maxPayload = 67108864 := rfl
    rw [memoryBound]
    omega
  · intro cfg es s hmoderate hrun h c hc
    refine (run_connections (P := Spare limit) Spare.fresh Spare.silent ?_ hmoderate hrun h c hc).bounded
    intro s h c chunk stale hC hc hspare
    exact hspare.receive cfg chunk stale (hC c hc)

namespace Sample

/-- A header line and the beginning of a payload; a package and the beginning of another one. -/
def shortLine : List Bridge.Event := [.connected 0, .data 0 (str "RESULT 1 OK 3\na")]
def beatAndMore : List Event := [.accepted 0, .data 0 [3, 0, 0, 0, 4, 0] []]

end Sample

theorem memory_bounded_short :
    (∀ r ∈ ((Machine.run Bridge.step {} Sample.shortLine).get (by decide +kernel)).connections 0,
      Bridge.retained r ≤ memoryBound 16) ∧
    ∀ c ∈ ((Machine.run (step Sample.bare) {} Sample.beatAndMore).get (by decide +kernel)).connections[0]?,
      retained c ≤ memoryBound 16 :=
  ⟨(memory_bounded 16).1 Sample.shortLine _ (by decide +kernel) (Option.some_get _).symm 0,
    (memory_bounded 16).2 Sample.bare Sample.beatAndMore _ (by decide +kernel) (Option.some_get _).symm 0⟩

/-- A head without an end stays in the buffer. -/
lemma retained_head (n : ℕ) :
    ∃ s, Machine.run (step Sample.bare) {} [.accepted 0, .data 0 (str "GET " ++ List.replicate n 65) []] = some s ∧
      ∃ c ∈ s.connections[0]?, retained c = 4 + n := by
  have hsplit : splitText crlf2 (str "GET " ++ List.replicate n 65) = none := by
    cases hs : splitText crlf2 (str "GET " ++ List.replicate n 65) with
    | none => rfl
    | some parts =>
      -- there is no carriage return in it
      have hmem : (13 : UInt8) ∈ str "GET " ++ List.replicate n 65 := by
        rw [splitText_some hs]
        simp [crlf2, str]
      rcases List.mem_append.mp hmem with hmem | hmem
      · exact absurd hmem (by decide)
      · exact absurd (List.eq_of_mem_replicate hmem) (by decide)
  have hdetect : ({} : Session).detect (str "GET " ++ List.replicate n 65) = { transport := some .ws } := by
    have hget : looksLikeHttpUpgrade (str "GET " ++ List.replicate n 65) = true := by
      have hlen : ¬ (str "GET " ++ List.replicate n 65).length < 4 := by
        rw [List.length_append]
        exact Nat.not_lt.mpr (Nat.le_add_right 4 _)
      exact beq_iff_eq.mpr (List.take_left' rfl)
    simp [Session.detect, hget]
  have hdrain : (reader Sample.bare).drain { transport := some .ws } (str "GET " ++ List.replicate n 65)
      = ⟨{ transport := some .ws }, some (str "GET " ++ List.replicate n 65)⟩ := by
    refine Reader.drain_more ?_
    show (sessionLoop Sample.bare).scan { transport := some .ws } _ = .more
    simp [Loop.scan, sessionLoop, Loop.scanHead, hsplit]
  have hrecv : receive Sample.bare fresh (str "GET " ++ List.replicate n 65) []
      = ⟨{ transport := some .ws }, some (str "GET " ++ List.replicate n 65)⟩ := by
    simp [receive, fresh, hdetect, hdrain]
  refine ⟨_, rfl, receive Sample.bare fresh (str "GET " ++ List.replicate n 65) [], ?_, ?_⟩
  · simp [Endpoint.settle]
  · rw [hrecv, retained]
    simp [str]
    omega

/-- **There is no bound for all streams**: a header line without an end exceeds any bound at the bridge, the head of a
request without an end at the endpoint. -/
theorem memory_unbounded :
    (¬ ∃ bound, ∀ n b, Machine.run Bridge.step {} [.connected 0, .data 0 (List.replicate n 65)] = some b →
      ∀ r ∈ b.connections 0, Bridge.retained r ≤ bound) ∧
    ¬ ∃ bound, ∀ n s, Machine.run (step Sample.bare) {} [.accepted 0, .data 0 (str "GET " ++ List.replicate n 65) []] = some s →
      ∀ c ∈ s.connections[0]?, retained c ≤ bound := by
  constructor
  · rintro ⟨bound, hbound⟩
    obtain ⟨b, hb, r, hr, hlen⟩ := Bridge.retained_grows (bound + 1)
    have hle := hbound (bound + 1) b hb r hr
    omega
  · rintro ⟨bound, hbound⟩
    obtain ⟨s, hs, c, hc, hlen⟩ := retained_head bound
    have hle := hbound bound s hs c hc
    omega

end Caf.Pomelo
