import CafPluginSystem.Pomelo.Marked

/-!
# Segmentation

A stream may arrive in any chunks.  What the endpoint makes of it depends on them in two ways: the transport is decided
by the first chunk alone, which may be too short to show the start of an HTTP request; and after a malformed message the
loop reads a buffer that was removed, where it may find anything.

* `receiveAll_eq` — chunk by chunk, a connection comes to what its loop makes of the whole stream, or to what it reads in
  the removed buffer after that.
* `segmentation` — **two ways of cutting a stream lead to the same** if and only if the start of an HTTP request is seen in
  the first chunk by both or by neither, and the stream has no malformed message.
-/

namespace Caf.Pomelo

open Chunks EntityStore Option

variable {c : Connection} {s : Session} {transport : Transport} {chunks : List Bytes}

/-- Chunks, each with what the handler finds in a removed buffer. -/
abbrev Cut := List (Bytes × List Bytes)

/-- A connection receives its chunks. -/
def talk (h : Handle) (cut : Cut) : List Event := cut.map fun (chunk, stale) => .data h chunk stale

def receiveAll (cfg : Config) (c : Connection) (cut : Cut) : Connection :=
  cut.foldl (fun c (chunk, stale) => receive cfg c chunk stale) c

def Effect.written? : Effect → Option Bytes
  | .write _ bytes => some bytes
  | _ => none

/-- What can be seen of a connection: its transport, the packages that were handled, and the bytes that were written. -/
def view (c : Connection) : Option Transport × List ParsedPkg × List Bytes :=
  (c.state.transport, packages c.state.log, c.state.log.filterMap Effect.written?)

/-- The transport that the first chunk decides. -/
def transportOf (chunk : Bytes) : Transport := if looksLikeHttpUpgrade chunk then .ws else .tcp

/-- The same is seen, whatever is found in removed buffers. -/
def Agree (cfg : Config) (s : Endpoint) (h : Handle) (chunks chunks' : List Bytes) : Prop :=
  ∀ cut cut' : Cut, cut.map Prod.fst = chunks → cut'.map Prod.fst = chunks' → ∀ t t',
    Machine.run (step cfg) s (talk h cut) = some t → Machine.run (step cfg) s (talk h cut') = some t' →
    (t.connections[h]?).map view = (t'.connections[h]?).map view

/-- The first chunks show the start of an HTTP request both or not. -/
def SameStart (chunks chunks' : List Bytes) : Prop :=
  (str "GET ").isPrefixOf chunks.flatten = true → (4 ≤ (chunks.headD []).length ↔ 4 ≤ (chunks'.headD []).length)

/-- There is no malformed message in the stream. -/
def Sound (chunks : List Bytes) : Prop :=
  (contentOf { transport := transportOf (chunks.headD []) } chunks.flatten).state.malformed = false

instance (chunks chunks' : List Bytes) : Decidable (SameStart chunks chunks') :=
  inferInstanceAs (Decidable (_ → _))

instance (chunks : List Bytes) : Decidable (Sound chunks) := inferInstanceAs (Decidable (_ = _))

/-! ## The run -/

lemma run_talk (cfg : Config) {h} : ∀ (cut : Cut) {s : Endpoint} {c : Connection}, s.connections[h]? = some c →
    ∃ t, Machine.run (step cfg) s (talk h cut) = some t ∧ t.connections[h]? = some (receiveAll cfg c cut) := by
  intro cut
  induction cut with
  | nil =>
    intro s c hc
    exact ⟨s, rfl, hc⟩
  | cons x cut ih =>
    intro s c hc
    have hnext : (s.settle h c (receive cfg c x.1 x.2)).connections[h]? = some (receive cfg c x.1 x.2) := by
      simp [Endpoint.settle]
    obtain ⟨t, hrun, ht⟩ := ih hnext
    refine ⟨t, ?_, ht⟩
    refine Machine.run_cons.mpr ⟨_, ?_, hrun⟩
    simp [step, hc]

/-! ## Chunk by chunk -/

/-- After a malformed message the loop reads the removed buffer. -/
def land (cfg : Config) (stale : List Bytes) (r : Connection) : Connection :=
  if r.state.dangles then ⟨{ r.state with dangles := false }.roam cfg stale, r.buffer⟩ else r

/-- A session in the middle of its stream. -/
structure Underway (s : Session) : Prop where
  transport : s.transport ≠ none
  bad : s.bad = false
  dangles : s.dangles = false

lemma Session.detect_eq (h : s.transport ≠ none) (buf : Bytes) : s.detect buf = s := by
  obtain ⟨transport, htr⟩ := ne_none_iff_exists'.mp h
  unfold Session.detect
  rw [htr]

section

variable {buf} (cfg : Config) (hbuf : c.buffer = some buf) (h : Underway c.state) (chunk : Bytes)
include cfg hbuf h chunk

lemma receive_eq (stale : List Bytes) : receive cfg c chunk stale = land cfg stale ((reader cfg).feed c chunk) := by
  simp only [receive, Reader.feed, hbuf, Session.detect_eq h.transport]
  rfl

/-- A chunk: the session is still underway, or the buffer is gone. -/
lemma feed_underway : ((reader cfg).feed c chunk).buffer ≠ none → Underway ((reader cfg).feed c chunk).state := by
  intro hrest
  have hfollows := drain_follows cfg (going_start h.transport h.bad h.dangles) (buf ++ chunk)
  simp only [Reader.feed, hbuf] at hrest ⊢
  have hgoing := hfollows.going hrest
  exact ⟨by rw [hgoing.transport]; simp, hgoing.bad, hgoing.dangles⟩

end

lemma receiveAll_none (cfg : Config) (hbuf : c.buffer = none) : ∀ cut : Cut, receiveAll cfg c cut = c := by
  intro cut
  induction cut with
  | nil => rfl
  | cons x cut ih =>
    have hsame : receive cfg c x.1 x.2 = c := by
      unfold receive
      rw [hbuf]
    show receiveAll cfg (receive cfg c x.1 x.2) cut = c
    rw [hsame]
    exact ih

lemma feedAll_none {R : Reader UInt8 Session} (hbuf : c.buffer = none) :
    ∀ chunks, R.feedAll c chunks = c := by
  intro chunks
  induction chunks with
  | nil => rfl
  | cons chunk chunks ih =>
    have hsame : R.feed c chunk = c := by
      unfold Reader.feed
      rw [hbuf]
    show R.feedAll (R.feed c chunk) chunks = c
    rw [hsame]
    exact ih

/-- **Chunk by chunk.**  The connection comes to what its loop makes of the chunks; if the loop holds on to the buffer
then, it goes on with what it finds there. -/
theorem receiveAll_eq (cfg : Config) : ∀ (cut : Cut) {c : Connection}, c.buffer ≠ none → Underway c.state →
    (((reader cfg).feedAll c (cut.map Prod.fst)).state.dangles = false →
      receiveAll cfg c cut = (reader cfg).feedAll c (cut.map Prod.fst)) ∧
    (((reader cfg).feedAll c (cut.map Prod.fst)).state.dangles = true →
      ∃ stale ∈ cut.map Prod.snd, receiveAll cfg c cut = land cfg stale ((reader cfg).feedAll c (cut.map Prod.fst))) := by
  intro cut
  induction cut with
  | nil =>
    intro c _ h
    exact ⟨fun _ => rfl, fun hd => absurd (h.dangles.symm.trans hd) (by simp)⟩
  | cons x cut ih =>
    intro c hbuf h
    obtain ⟨buf, hbuf⟩ := ne_none_iff_exists'.mp hbuf
    have hfeed : (reader cfg).feedAll c ((x :: cut).map Prod.fst)
        = (reader cfg).feedAll ((reader cfg).feed c x.1) (cut.map Prod.fst) := rfl
    have hrecv : receiveAll cfg c (x :: cut) = receiveAll cfg (land cfg x.2 ((reader cfg).feed c x.1)) cut := by
      rw [← receive_eq cfg hbuf h]
      rfl
    rw [hfeed, hrecv]
    by_cases hnone : ((reader cfg).feed c x.1).buffer = none
    · -- the loop has stopped: nothing more is taken in
      have hland : (land cfg x.2 ((reader cfg).feed c x.1)).buffer = none := by
        unfold land
        split
        · exact hnone
        · exact hnone
      rw [feedAll_none hnone, receiveAll_none cfg hland]
      refine ⟨fun hd => ?_, fun _ => ⟨x.2, by simp, rfl⟩⟩
      rw [land, hd]
      rfl
    · have hunder := feed_underway cfg hbuf h x.1 hnone
      have hland : land cfg x.2 ((reader cfg).feed c x.1) = (reader cfg).feed c x.1 := by
        rw [land, hunder.dangles]
        rfl
      rw [hland]
      obtain ⟨hcalm, hloose⟩ := ih hnone hunder
      refine ⟨hcalm, fun hd => ?_⟩
      obtain ⟨stale, hmem, heq⟩ := hloose hd
      exact ⟨stale, by rw [List.map_cons]; exact List.mem_cons_of_mem _ hmem, heq⟩

/-- The same thing is found in every removed buffer. -/
def withStale (stale : List Bytes) (chunks : List Bytes) : Cut := chunks.map fun chunk => (chunk, stale)

lemma map_withStale (stale : List Bytes) (chunks : List Bytes) : (withStale stale chunks).map Prod.fst = chunks := by
  simp [withStale, Function.comp_def]

lemma receiveAll_withStale (cfg : Config) (stale chunks : List Bytes) (hbuf : c.buffer ≠ none) (h : Underway c.state) :
    receiveAll cfg c (withStale stale chunks) = land cfg stale ((reader cfg).feedAll c chunks) := by
  have hall := receiveAll_eq cfg (withStale stale chunks) hbuf h
  rw [map_withStale] at hall
  cases hd : ((reader cfg).feedAll c chunks).state.dangles with
  | false =>
    rw [hall.1 hd, land, hd]
    rfl
  | true =>
    obtain ⟨stale', hmem, heq⟩ := hall.2 hd
    obtain rfl : stale' = stale := by
      obtain ⟨x, hx, rfl⟩ := List.mem_map.mp hmem
      obtain ⟨chunk, -, rfl⟩ := List.mem_map.mp hx
      rfl
    exact heq

/-! ## From the start -/

/-- A connection whose transport is decided. -/
def started (transport : Transport) : Connection := ⟨{ transport := some transport }, some []⟩

lemma detect_fresh (buf : Bytes) : ({} : Session).detect buf = { transport := some (transportOf buf) } := by
  unfold Session.detect transportOf
  dsimp only
  split <;> rfl

/-- The first chunk decides the transport. -/
lemma receiveAll_fresh (cfg : Config) {cut} (hne : cut ≠ []) :
    receiveAll cfg fresh cut = receiveAll cfg (started (transportOf ((cut.map Prod.fst).headD []))) cut := by
  obtain ⟨x, cut, rfl⟩ := List.exists_cons_of_ne_nil hne
  have hfirst : receive cfg fresh x.1 x.2 = receive cfg (started (transportOf x.1)) x.1 x.2 := by
    simp [receive, fresh, started, detect_fresh, Session.detect_eq (s := { transport := some (transportOf x.1) }) (by simp)]
  show receiveAll cfg (receive cfg fresh x.1 x.2) cut
    = receiveAll cfg (receive cfg (started (transportOf x.1)) x.1 x.2) cut
  rw [hfirst]

/-- What the loop makes of a whole stream. -/
def whole (cfg : Config) (transport : Transport) (stream : Bytes) : Connection :=
  (reader cfg).drain { transport := some transport } stream

lemma feedAll_started (cfg : Config) (transport : Transport) (chunks : List Bytes) :
    (reader cfg).feedAll (started transport) chunks = whole cfg transport chunks.flatten := by
  have hdrain : (reader cfg).Drained (started transport) := by
    intro buf hbuf
    obtain rfl : [] = buf := by simpa [started] using hbuf
    cases transport <;> rfl
  rw [Reader.feedAll_eq _ hdrain]
  rfl

/-- How the whole stream ends for the session. -/
lemma whole_follows (cfg : Config) (transport : Transport) (stream : Bytes) :
    (whole cfg transport stream).state.transport = some (contentOf { transport } stream).state.transport ∧
      (whole cfg transport stream).state.dangles = (contentOf { transport } stream).state.malformed ∧
      packages (whole cfg transport stream).state.log = (contentOf { transport } stream).state.packages := by
  have hstart : Going [] { transport := some transport } { transport } :=
    ⟨⟨rfl, rfl, rfl, rfl⟩, rfl, rfl, rfl⟩
  have hfollows := drain_follows cfg hstart stream
  by_cases hnone : (whole cfg transport stream).buffer = none
  · have hstopped := hfollows.stopped hnone
    exact ⟨hstopped.transport, hstopped.dangles, hstopped.packages⟩
  · have hgoing := hfollows.going hnone
    refine ⟨hgoing.transport, ?_, hgoing.packages⟩
    exact hgoing.dangles.trans hgoing.sound.symm

/-- The transport of a stream does not change. -/
lemma content_transport (transport : Transport) (stream : Bytes) :
    (contentOf { transport } stream).state.transport = transport := by
  have hframe : ∀ (t : Content) f, (t.frame f).transport = t.transport := by
    intro t f
    unfold Content.frame Content.message
    split_ifs <;> rfl
  have hinv := Loop.drain_invariant (L := contentLoop) (P := fun t => t.transport = transport)
    (Q := fun t => t.transport = transport) (fun {t} head ht => ?_) (fun ht => ht) (fun {t} item ht => ?_) { transport }
    stream rfl
  · cases hbuf : (contentOf { transport } stream).buffer with
    | none => exact hinv.2 hbuf
    | some rest => exact hinv.1 rest hbuf
  · show Outcome.Meets _ _ (if (extractWsKey head).isEmpty then Outcome.stop t else .goOn { t with upgraded := true })
    split <;> exact ht
  · cases item with
    | package pkg =>
      show Outcome.Meets _ _ (if pkg.malformed then Outcome.stop _ else .goOn _)
      split <;> exact ht
    | frame f =>
      show Outcome.Meets _ _ (if f.opcode = opClose then Outcome.stop t else
        if (t.frame f).malformed then .stop (t.frame f) else .goOn (t.frame f))
      split
      · exact ht
      · split <;> exact (hframe t f).trans ht

/-! ## Removed buffers -/

/-- A heartbeat in a removed buffer; on a WebSocket behind a frame that drops any fragment. -/
def ghost : Transport → List Bytes
  | .tcp => [[3, 0, 0, 0]]
  | .ws => [[0x02, 0], [0x82, 4, 3, 0, 0, 0]]

lemma packages_note {e} (h : e.package? = none) : packages (s.note e).log = packages s.log :=
  packages_append (by simpa using h)

lemma land_nil (cfg : Config) (r : Connection) : packages (land cfg [] r).state.log = packages r.state.log ∧
    (land cfg [] r).state.transport = r.state.transport := by
  unfold land
  split
  · exact ⟨packages_note rfl, rfl⟩
  · exact ⟨rfl, rfl⟩

/-- The heartbeat is found, and handled. -/
lemma roam_ghost (cfg : Config) (h : s.transport = some transport) :
    packages (s.roam cfg (ghost transport)).log = packages s.log ++ [⟨pkgHeartbeat, []⟩] := by
  cases transport with
  | tcp =>
    have hparse : parseItem .tcp [3, 0, 0, 0] = .done 4 (.package ⟨pkgHeartbeat, []⟩) := by decide +kernel
    have hroam : s.roam cfg (ghost .tcp) = (((s.note .dangling).handlePackage cfg ⟨pkgHeartbeat, []⟩).note .dangling) := by
      simp [ghost, Session.roam, Session.note, h, hparse, Session.handleItem]
    rw [hroam, packages_note rfl, (Session.handled_handlePackage cfg _ _).packages, packages_note rfl]
  | ws =>
    have hparse : parseItem .ws [0x02, 0] = .done 2 (.frame ⟨false, opBinary, []⟩) := by decide +kernel
    have hparse' : parseItem .ws [0x82, 4, 3, 0, 0, 0] = .done 6 (.frame ⟨true, opBinary, [3, 0, 0, 0]⟩) := by
      decide +kernel
    have hpkgs : packagesOf [3, 0, 0, 0] = [⟨pkgHeartbeat, []⟩] := by decide +kernel
    have hroam : s.roam cfg (ghost .ws) = ((({ s.note .dangling with wsFrag := [] }.note .dangling).handlePayload cfg
        [3, 0, 0, 0]).note .dangling) := by
      simp [ghost, Session.roam, Session.note, h, hparse, hparse', Session.handleItem, Session.handleFrame, opBinary,
        opPing, opPong, opClose]
    rw [hroam, packages_note rfl, (Session.handled_handlePayload cfg _ _).packages, hpkgs, packages_note rfl]
    exact congrArg (· ++ _) (packages_note rfl)

lemma land_ghost (cfg : Config) {r} (hd : r.state.dangles = true) (h : r.state.transport = some transport) :
    packages (land cfg (ghost transport) r).state.log = packages r.state.log ++ [⟨pkgHeartbeat, []⟩] := by
  rw [land, if_pos hd]
  exact roam_ghost cfg (s := { r.state with dangles := false }) h

/-! ## Segmentation -/

/-- What a fresh connection comes to. -/
lemma receiveAll_fresh_withStale (cfg : Config) (stale : List Bytes) (hne : chunks ≠ []) :
    receiveAll cfg fresh (withStale stale chunks)
      = land cfg stale (whole cfg (transportOf (chunks.headD [])) chunks.flatten) := by
  have hcut : withStale stale chunks ≠ [] := by simpa [withStale] using hne
  rw [receiveAll_fresh cfg hcut, map_withStale, receiveAll_withStale cfg stale chunks (by simp [started])
    ⟨by simp [started], rfl, rfl⟩, feedAll_started]

/-- Without a malformed message it does not matter what is found. -/
lemma receiveAll_sound (cfg : Config) {cut} (hne : cut ≠ []) (hsound : Sound (cut.map Prod.fst)) :
    receiveAll cfg fresh cut
      = whole cfg (transportOf ((cut.map Prod.fst).headD [])) (cut.map Prod.fst).flatten := by
  have hall := receiveAll_eq cfg cut (c := started (transportOf ((cut.map Prod.fst).headD [])))
    (by simp [started]) ⟨by simp [started], rfl, rfl⟩
  rw [feedAll_started] at hall
  rw [receiveAll_fresh cfg hne]
  exact hall.1 ((whole_follows cfg _ _).2.1.trans hsound)

/-- A first chunk shows the start of a request if it is long enough. -/
lemma looksLikeHttpUpgrade_iff (chunk rest : Bytes) : looksLikeHttpUpgrade chunk = true ↔
    (str "GET ").isPrefixOf (chunk ++ rest) = true ∧ 4 ≤ chunk.length := by
  have hlen : (str "GET ").length = 4 := rfl
  unfold looksLikeHttpUpgrade
  by_cases hshort : chunk.length < 4
  · simp only [hshort, if_true, Bool.false_eq_true, false_iff, not_and, not_le]
    exact fun _ => trivial
  · rw [if_neg hshort, beq_iff_eq, List.isPrefixOf_iff_prefix, List.prefix_iff_eq_take, hlen,
      List.take_append_of_le_length (by omega)]
    exact ⟨fun h => ⟨h.symm, by omega⟩, fun h => h.1.symm⟩

lemma transportOf_eq_iff (a ra b rb : Bytes) (hstream : a ++ ra = b ++ rb) : transportOf a = transportOf b ↔
    ((str "GET ").isPrefixOf (a ++ ra) = true → (4 ≤ a.length ↔ 4 ≤ b.length)) := by
  have ha : looksLikeHttpUpgrade a = true ↔ _ := looksLikeHttpUpgrade_iff a ra
  have hb : looksLikeHttpUpgrade b = true ↔ _ := looksLikeHttpUpgrade_iff b rb
  rw [← hstream] at hb
  have heq : transportOf a = transportOf b ↔ (looksLikeHttpUpgrade a = true ↔ looksLikeHttpUpgrade b = true) := by
    unfold transportOf
    cases looksLikeHttpUpgrade a <;> cases looksLikeHttpUpgrade b <;> simp
  rw [heq, ha, hb]
  constructor
  · intro h hget
    simpa [hget] using h
  · intro h
    constructor
    · rintro ⟨hget, hlong⟩
      exact ⟨hget, (h hget).mp hlong⟩
    · rintro ⟨hget, hlong⟩
      exact ⟨hget, (h hget).mpr hlong⟩

/-- The transports agree if and only if the starts do. -/
lemma sameStart_iff {chunks'} (heq : chunks.flatten = chunks'.flatten) :
    SameStart chunks chunks' ↔ transportOf (chunks.headD []) = transportOf (chunks'.headD []) := by
  have hhead : ∀ l : List Bytes, l.headD [] ++ l.tail.flatten = l.flatten := by
    intro l
    cases l <;> rfl
  rw [transportOf_eq_iff _ chunks.tail.flatten _ chunks'.tail.flatten (by rw [hhead, hhead, heq]), hhead]
  rfl

/-- **Segmentation.**  Two ways of cutting a stream into chunks lead to the same transport, the same packages and the same
bytes, if and only if their first chunks show the start of an HTTP request both or not, and the stream has no malformed
message. -/
theorem segmentation (cfg : Config) {s : Endpoint} {h : Handle} (hfresh : s.connections[h]? = some fresh)
    {chunks chunks' : List Bytes} (hne : ∀ chunk ∈ chunks, chunk ≠ []) (hne' : ∀ chunk ∈ chunks', chunk ≠ [])
    (heq : chunks.flatten = chunks'.flatten) :
    Agree cfg s h chunks chunks' ↔ SameStart chunks chunks' ∧ Sound chunks := by
  -- an empty stream is cut in one way only
  by_cases hnil : chunks = []
  · subst hnil
    obtain rfl : chunks' = [] := by
      cases chunks' with
      | nil => rfl
      | cons chunk chunks' =>
        obtain ⟨hempty, -⟩ : chunk = [] ∧ _ := by simpa using heq.symm
        exact absurd hempty (hne' chunk (by simp))
    refine ⟨fun _ => ⟨fun _ => Iff.rfl, rfl⟩, fun _ cut cut' hcut hcut' t t' ht ht' => ?_⟩
    obtain rfl : cut = [] := by simpa using hcut
    obtain rfl : cut' = [] := by simpa using hcut'
    rw [some.inj (ht.symm.trans ht')]
  have hnil' : chunks' ≠ [] := by
    rintro rfl
    obtain ⟨chunk, hchunk⟩ := List.exists_mem_of_ne_nil _ hnil
    exact hne chunk hchunk (List.flatten_eq_nil_iff.mp heq chunk hchunk)
  rw [sameStart_iff heq]
  constructor
  · intro hagree
    -- what is seen with two choices for the removed buffers
    have hviews : ∀ stale stale', view (receiveAll cfg fresh (withStale stale chunks))
        = view (receiveAll cfg fresh (withStale stale' chunks')) := by
      intro stale stale'
      obtain ⟨t, hrun, ht⟩ := run_talk cfg (withStale stale chunks) hfresh
      obtain ⟨t', hrun', ht'⟩ := run_talk cfg (withStale stale' chunks') hfresh
      have hsame := hagree _ _ (map_withStale _ _) (map_withStale _ _) t t' hrun hrun'
      rw [ht, ht'] at hsame
      simpa using hsame
    have hland : ∀ tr stream, (land cfg [] (whole cfg tr stream)).state.transport = some tr := by
      intro tr stream
      rw [(land_nil cfg _).2, (whole_follows cfg tr stream).1, content_transport]
    have hstart : transportOf (chunks.headD []) = transportOf (chunks'.headD []) := by
      have hfirst := congrArg Prod.fst (hviews [] [])
      rw [receiveAll_fresh_withStale cfg [] hnil, receiveAll_fresh_withStale cfg [] hnil'] at hfirst
      simpa [view, hland] using hfirst
    refine ⟨hstart, ?_⟩
    by_contra hbad
    have hmalformed : (contentOf { transport := transportOf (chunks.headD []) } chunks.flatten).state.malformed = true := by
      simpa [Sound] using hbad
    obtain ⟨htrans, hdangles, -⟩ := whole_follows cfg (transportOf (chunks.headD [])) chunks.flatten
    rw [content_transport] at htrans
    rw [hmalformed] at hdangles
    -- a heartbeat in the removed buffer is handled in one of them only
    have hpkgs := congrArg (fun v => v.2.1) (hviews [] (ghost (transportOf (chunks.headD []))))
    rw [receiveAll_fresh_withStale cfg [] hnil, receiveAll_fresh_withStale cfg _ hnil', ← hstart, ← heq] at hpkgs
    simp only [view, (land_nil cfg _).1] at hpkgs
    rw [land_ghost cfg hdangles htrans] at hpkgs
    simpa using congrArg List.length hpkgs
  · rintro ⟨hstart, hsound⟩ cut cut' rfl rfl t t' hrun hrun'
    have hsound' : Sound (cut'.map Prod.fst) := by
      unfold Sound at hsound ⊢
      rw [← hstart, ← heq]
      exact hsound
    obtain ⟨u, hu, hconn⟩ := run_talk cfg cut hfresh
    obtain ⟨u', hu', hconn'⟩ := run_talk cfg cut' hfresh
    obtain rfl : u = t := some.inj (hu.symm.trans hrun)
    obtain rfl : u' = t' := some.inj (hu'.symm.trans hrun')
    have hcut : cut ≠ [] := by
      rintro rfl
      exact hnil rfl
    have hcut' : cut' ≠ [] := by
      rintro rfl
      exact hnil' rfl
    rw [hconn, hconn', receiveAll_sound cfg hcut hsound, receiveAll_sound cfg hcut' hsound', hstart, heq]

namespace Sample

/-- One connection, just accepted. -/
def listening : Endpoint := { connections := (∅ : Std.ExtTreeMap ℕ Connection).insert 0 fresh }

/-- Two heartbeats, in three chunks and at once. -/
def beats : List Bytes := [[3, 0], [0, 0, 3], [0, 0, 0]]
def beatsAtOnce : List Bytes := [[3, 0, 0, 0, 3, 0, 0, 0]]

/-- An HTTP request whose first chunk is too short. -/
def shortStart : List Bytes := [str "GE", str "T / HTTP/1.1\r\nSec-WebSocket-Key: k\r\n\r\n"]

end Sample

theorem segmentation_beats : Agree Sample.bare Sample.listening 0 Sample.beats Sample.beatsAtOnce :=
  (segmentation Sample.bare (by simp [Sample.listening]) (by decide) (by decide) (by decide)).mpr
    ⟨by decide +kernel, by decide +kernel⟩

/-- The request is taken for a stream of packages if its first chunk is too short. -/
theorem segmented_differently :
    Sample.shortStart.flatten = [Sample.upgrading].flatten ∧
      ((Machine.run (step Sample.bare) Sample.listening (talk 0 (withStale [] Sample.shortStart))).bind fun t =>
        (t.connections[0]?).map fun c => c.state.transport) = some (some .tcp) ∧
      ((Machine.run (step Sample.bare) Sample.listening (talk 0 (withStale [] [Sample.upgrading]))).bind fun t =>
        (t.connections[0]?).map fun c => c.state.transport) = some (some .ws) ∧
      ¬ Agree Sample.bare Sample.listening 0 Sample.shortStart [Sample.upgrading] := by
  have htcp : ((Machine.run (step Sample.bare) Sample.listening (talk 0 (withStale [] Sample.shortStart))).bind fun t =>
      (t.connections[0]?).map fun c => c.state.transport) = some (some .tcp) := by decide +kernel
  have hws : ((Machine.run (step Sample.bare) Sample.listening (talk 0 (withStale [] [Sample.upgrading]))).bind fun t =>
      (t.connections[0]?).map fun c => c.state.transport) = some (some .ws) := by decide +kernel
  refine ⟨by decide +kernel, htcp, hws, fun hagree => ?_⟩
  obtain ⟨t, hrun, ht⟩ := bind_eq_some_iff.mp htcp
  obtain ⟨t', hrun', ht'⟩ := bind_eq_some_iff.mp hws
  have hsame := hagree _ _ (map_withStale _ _) (map_withStale _ _) t t' hrun hrun'
  obtain ⟨c, hc, htr⟩ := map_eq_some_iff.mp ht
  obtain ⟨c', hc', htr'⟩ := map_eq_some_iff.mp ht'
  rw [hc, hc'] at hsame
  have hfirst : c.state.transport = c'.state.transport := congrArg Prod.fst (some.inj hsame)
  rw [htr, htr'] at hfirst
  simp at hfirst

end Caf.Pomelo
