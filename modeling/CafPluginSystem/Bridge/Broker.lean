import CafPluginSystem.Bridge.Frames
import CafPluginSystem.Library.Machine

/-!
# The broker of the bridge

The broker of `bridge_actor.cpp` keeps a buffer for each connection and takes frames from it whenever data arrives; a
protocol error marks the connection, which is ignored from then on.  The frames go to the actors behind the bridge, and
their answers are written to the connection that was opened last.

* `reader` — the loop of the broker as a reader of chunks.
* `stream_frames` — **streams**: the frames that are dispatched for a connection, and whether it is marked, depend on the
  bytes that it sent and not on how they were cut; and `RESULT` frames are dispatched as they were written.
-/

namespace Caf.Bridge

open Chunks Option

variable {frames frames' : List ParsedFrame} {buf : Bytes}

/-- `caf::io::connection_handle`. -/
abbrev Handle := ℕ

/-- The loop over `try_parse_frame`: its state are the frames that were dispatched, and it stops at a protocol error. -/
def scanFrame (frames : List ParsedFrame) (buf : Bytes) : Scan (List ParsedFrame) :=
  match tryParseFrame buf with
  | none => .more
  | some (.invalid, _) => .stop frames
  | some (frame, rest) => .take (buf.length - rest.length) (frames ++ [frame])

/-- What the loop does with a frame. -/
lemma scanFrame_eq {rest frame} (h : tryParseFrame buf = some (frame, rest)) (hval : frame ≠ .invalid) :
    scanFrame frames buf = .take (buf.length - rest.length) (frames ++ [frame]) := by
  unfold scanFrame
  rw [h]
  cases frame with
  | invalid => exact absurd rfl hval
  | call id svc proto payload | result id ok payload => rfl

lemma scanFrame_invalid {rest}
    (h : tryParseFrame buf = some (.invalid, rest)) : scanFrame frames buf = .stop frames := by
  unfold scanFrame
  rw [h]

/-- A frame was taken. -/
lemma scanFrame_take {n}
    (h : scanFrame frames buf = .take n frames') : ∃ frame rest, tryParseFrame buf = some (frame, rest) ∧
      frame ≠ .invalid ∧ n = buf.length - rest.length ∧ frames' = frames ++ [frame] := by
  cases hparse : tryParseFrame buf with
  | none => simp [scanFrame, hparse] at h
  | some parsed =>
    obtain ⟨frame, rest⟩ := parsed
    by_cases hval : frame = .invalid
    · rw [scanFrame_invalid (hval ▸ hparse)] at h
      simp at h
    · rw [scanFrame_eq hparse hval] at h
      obtain ⟨rfl, rfl⟩ : buf.length - rest.length = n ∧ frames ++ [frame] = frames' := by simpa using h
      exact ⟨frame, rest, rfl, hval, rfl, rfl⟩

lemma scanFrame_stop (h : scanFrame frames buf = .stop frames') :
    ∃ rest, tryParseFrame buf = some (.invalid, rest) ∧ frames = frames' := by
  cases hparse : tryParseFrame buf with
  | none => simp [scanFrame, hparse] at h
  | some parsed =>
    obtain ⟨frame, rest⟩ := parsed
    by_cases hval : frame = .invalid
    · subst hval
      rw [scanFrame_invalid hparse] at h
      exact ⟨rest, rfl, by simpa using h⟩
    · rw [scanFrame_eq hparse hval] at h
      simp at h

/-- The broker reads frames. -/
def reader : Reader UInt8 (List ParsedFrame) where
  scan := scanFrame
  within := by
    intro frames frames' buf n h
    obtain ⟨frame, rest, hparse, hvalid, rfl, -⟩ := scanFrame_take h
    obtain ⟨taken, rfl, hpos⟩ := tryParseFrame_length hparse hvalid
    rw [List.length_append]
    omega
  take_append := by
    intro frames frames' buf n more h
    obtain ⟨frame, rest, hparse, hvalid, rfl, rfl⟩ := scanFrame_take h
    obtain ⟨rest', hparse', hrest⟩ := tryParseFrame_append hparse more
    rw [scanFrame_eq hparse' hvalid, hrest hvalid]
    congr 1
    rw [List.length_append, List.length_append]
    omega
  stop_append := by
    intro frames frames' buf more h
    obtain ⟨rest, hparse, rfl⟩ := scanFrame_stop h
    obtain ⟨rest', hparse', -⟩ := tryParseFrame_append hparse more
    exact scanFrame_invalid hparse'

/-- The broker: for each open connection the frames that were dispatched for it and its buffer, which is gone once the
connection is marked; the connection that was opened last; and what was written. -/
structure Broker where
  connections : Handle → Option (Receiver UInt8 (List ParsedFrame)) := fun _ => none
  current : Option Handle := none
  written : List (Handle × Bytes) := []

/-- A connection that was just opened. -/
def fresh : Receiver UInt8 (List ParsedFrame) := ⟨[], some []⟩

/-- What the broker receives. -/
inductive Event where
  | connected (h : Handle)
  | data (h : Handle) (chunk : Bytes)
  | closed (h : Handle)
  | write (line : Bytes)
deriving Repr

def step (b : Broker) : Event → Option Broker
  | .connected h => some { b with connections := Function.update b.connections h (some fresh), current := some h }
  | .data h chunk =>
    (b.connections h).map fun r =>
      { b with connections := Function.update b.connections h (some (reader.feed r chunk)) }
  | .closed h => some { b with
      connections := Function.update b.connections h none
      current := if b.current = some h then none else b.current }
  | .write line =>
    match b.current with
    | some h => some { b with written := b.written ++ [(h, line)] }
    | none => some b

/-! ## Streams -/

/-- The event neither opens nor closes the connection. -/
def Event.keeps (h : Handle) : Event → Prop
  | .connected h' => h' ≠ h
  | .closed h' => h' ≠ h
  | _ => True

/-- The chunk that an event brings for the connection. -/
def Event.chunk? (h : Handle) : Event → Option Bytes
  | .data h' chunk => if h' = h then some chunk else none
  | _ => none

/-- The chunks of a connection. -/
def chunksOf (h : Handle) (es : List Event) : List Bytes := es.filterMap (Event.chunk? h)

/-- The bytes that a connection has sent. -/
def streamOf (h : Handle) (es : List Event) : Bytes := (chunksOf h es).flatten

variable {h : Handle}

/-- One event: data of the connection is fed to its receiver, everything else leaves it alone. -/
lemma step_connection {b b' e r} (hr : b.connections h = some r) (hkeeps : e.keeps h) (hs : step b e = some b') :
    b'.connections h = some (reader.feedAll r (e.chunk? h).toList) := by
  cases e with
  | connected h' | closed h' =>
    obtain rfl := some.inj hs
    exact (Function.update_of_ne (Ne.symm hkeeps) _ _).trans hr
  | data h' chunk =>
    by_cases hh : h' = h
    · subst hh
      obtain rfl : _ = b' := by simpa [step, hr] using hs
      simp [Event.chunk?, Reader.feedAll]
    · obtain ⟨r', -, rfl⟩ := map_eq_some_iff.mp hs
      simpa [Event.chunk?, hh, Reader.feedAll, Function.update_of_ne (Ne.symm hh)] using hr
  | write line =>
    simp only [step] at hs
    split at hs
    · obtain rfl := some.inj hs
      exact hr
    · obtain rfl := some.inj hs
      exact hr

/-- A whole run: the receiver of the connection has been fed its chunks. -/
lemma run_connection : ∀ {es : List Event} {b b' : Broker} {r : Receiver UInt8 (List ParsedFrame)},
    b.connections h = some r → (∀ e ∈ es, e.keeps h) → Machine.run step b es = some b' →
    b'.connections h = some (reader.feedAll r (chunksOf h es)) := by
  intro es
  induction es with
  | nil =>
    intro b b' r hr _ hrun
    obtain rfl := some.inj hrun
    exact hr
  | cons e es ih =>
    intro b b' r hr hkeeps hrun
    obtain ⟨t, ht, hrest⟩ := Machine.run_cons.mp hrun
    have hstep := step_connection hr (hkeeps e List.mem_cons_self) ht
    rw [ih hstep (fun e' he' => hkeeps e' (List.mem_cons_of_mem _ he')) hrest]
    unfold chunksOf
    cases hchunk : e.chunk? h with
    | none | some chunk => simp [hchunk, Reader.feedAll]

/-- So what it has come to depends on the stream. -/
lemma run_stream {es b b'} (hfresh : b.connections h = some fresh)
    (hkeeps : ∀ e ∈ es, e.keeps h) (hrun : Machine.run step b es = some b') :
    b'.connections h = some (reader.drain [] (streamOf h es)) := by
  have hdrain : reader.Drained fresh := by
    intro buf hbuf
    obtain rfl : [] = buf := by simpa [fresh] using hbuf
    rfl
  rw [run_connection hfresh hkeeps hrun, Reader.feedAll_eq _ hdrain]
  rfl

/-- A `RESULT` as an external process sends it. -/
structure Result where
  id : ℤ
  ok : Bool
  payload : Bytes
deriving DecidableEq, Repr

/-- The ids are `int`s, and the payload is not too long. -/
structure Result.Sendable (r : Result) : Prop where
  min : -2147483648 ≤ r.id
  max : r.id ≤ 2147483647
  payload : r.payload.length ≤ maxPayload

def Result.bytes (r : Result) : Bytes := resultFrame r.id r.ok r.payload

def Result.frame (r : Result) : ParsedFrame := .result r.id r.ok r.payload

lemma drain_results {results : List Result} (hresults : ∀ r ∈ results, r.Sendable) :
    reader.drain [] (results.flatMap Result.bytes) = ⟨results.map Result.frame, some []⟩ := by
  have hfold : ∀ frames : List ParsedFrame,
      results.foldl (fun frames r => frames ++ [r.frame]) frames = frames ++ results.map Result.frame := by
    clear hresults
    induction results with
    | nil => simp
    | cons r rs ih => simp [ih]
  rw [Reader.drain_flatMap fun frames r => frames ++ [r.frame], hfold, List.nil_append]
  · intro frames r hr rest
    obtain ⟨hmin, hmax, hpay⟩ := hresults r hr
    have hparse : tryParseFrame (r.bytes ++ rest) = some (r.frame, rest) :=
      tryParseFrame_result hmin hmax r.ok hpay rest
    show scanFrame frames (r.bytes ++ rest) = _
    rw [scanFrame_eq hparse (by simp [Result.frame]), List.length_append, Nat.add_sub_cancel]
  · exact fun _ => rfl

/-- **Streams.**  In every run of the broker, with any other connections beside it, the frames that are dispatched for a
connection, and whether it is marked after them, are the same as in any other run in which it sends the same bytes, cut
in any way; and if it sends `RESULT` frames, exactly these are dispatched and the buffer is empty. -/
theorem stream_frames {h : Handle} {es : List Event} {b s : Broker} (hfresh : b.connections h = some fresh)
    (hkeeps : ∀ e ∈ es, e.keeps h) (hrun : Machine.run step b es = some s) :
    (∀ (es' : List Event) (b' s' : Broker), b'.connections h = some fresh → (∀ e ∈ es', e.keeps h) →
      Machine.run step b' es' = some s' → streamOf h es' = streamOf h es → s'.connections h = s.connections h) ∧
    ∀ results : List Result, (∀ r ∈ results, r.Sendable) → streamOf h es = results.flatMap Result.bytes →
      s.connections h = some ⟨results.map Result.frame, some []⟩ := by
  rw [run_stream hfresh hkeeps hrun]
  refine ⟨?_, ?_⟩
  · intro es' b' s' hfresh' hkeeps' hrun' hstream
    rw [run_stream hfresh' hkeeps' hrun', hstream]
  · intro results hresults hstream
    rw [hstream, drain_results hresults]

namespace Sample

/-- Two results in three chunks, with another connection in between. -/
def talking : List Event :=
  [.connected 2, .data 1 (str "RESULT -7 OK 3\na"), .data 2 (str "x"), .data 1 (str "\nc\nRESULT 8 E"),
    .data 1 (str "RR 0\n\n")]

/-- The same bytes at once. -/
def atOnce : List Event := [.data 1 (str "RESULT -7 OK 3\na\nc\nRESULT 8 ERR 0\n\n")]

def connected : Broker := { connections := Function.update (fun _ => none) 1 (some fresh) }

def results : List Result := [⟨-7, true, str "a\nc"⟩, ⟨8, false, []⟩]

end Sample

theorem stream_frames_talking :
    ((Machine.run step Sample.connected Sample.talking).get (by decide +kernel)).connections 1
        = some ⟨Sample.results.map Result.frame, some []⟩ ∧
      ((Machine.run step Sample.connected Sample.atOnce).get (by decide +kernel)).connections 1
        = ((Machine.run step Sample.connected Sample.talking).get (by decide +kernel)).connections 1 := by
  have hframes := stream_frames (h := 1) (b := Sample.connected) rfl
    (by
      intro e he
      simp only [Sample.talking, List.mem_cons, List.not_mem_nil, or_false] at he
      rcases he with rfl | rfl | rfl | rfl | rfl <;> simp [Event.keeps])
    (some_get (x := Machine.run step Sample.connected Sample.talking) (by decide +kernel)).symm
  refine ⟨hframes.2 Sample.results ?_ (by decide +kernel), hframes.1 Sample.atOnce Sample.connected _ rfl ?_
    (some_get _).symm (by decide +kernel)⟩
  · intro r hr
    simp only [Sample.results, List.mem_cons, List.not_mem_nil, or_false] at hr
    rcases hr with rfl | rfl <;> exact ⟨by decide, by decide, by decide⟩
  · intro e he
    obtain rfl : e = _ := by simpa [Sample.atOnce] using he
    trivial

end Caf.Bridge
