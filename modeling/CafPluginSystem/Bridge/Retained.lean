import CafPluginSystem.Bridge.Broker

/-!
# What the bridge keeps of a connection

The buffer of a connection holds what is not a whole frame yet.  The length in a header is limited; the header line itself
is not: without a newline everything stays in the buffer.

* `retained_le` — **in every run whose header lines are not longer than a limit**, the buffers are bounded.
* `retained_grows` — without such a limit they are not.
-/

namespace Caf.Bridge

open Chunks

/-- The bytes that are kept for a connection. -/
def retained (r : Receiver UInt8 (List ParsedFrame)) : ℕ := (r.buffer.getD []).length

/-- The length of the header line at the front, whether it is complete or not. -/
def lineLength (buf : Bytes) : ℕ :=
  match splitFirst newline buf with
  | none => buf.length
  | some (line, _) => line.length

/-- The places at which a frame begins, with all that follows. -/
def startsFrom : ℕ → Bytes → List Bytes
  | 0, buf => [buf]
  | fuel + 1, buf =>
    buf :: match tryParseFrame buf with
      | none => []
      | some (frame, rest) => if frame = .invalid then [] else startsFrom fuel rest

def starts (buf : Bytes) : List Bytes := startsFrom buf.length buf

/-- The header lines of what a connection sends are not longer than the limit. -/
def ShortLines (limit : ℕ) (b : Broker) : Event → Prop
  | .data h chunk =>
    ∀ r ∈ b.connections h, ∀ buf ∈ r.buffer, ∀ start ∈ starts (buf ++ chunk), lineLength start ≤ limit
  | _ => True

instance (limit : ℕ) (b : Broker) : (e : Event) → Decidable (ShortLines limit b e)
  | .data _ _ => inferInstanceAs (Decidable (∀ _ ∈ _, ∀ _ ∈ _, ∀ _ ∈ _, _))
  | .connected _ | .closed _ | .write _ => .isTrue trivial

/-- A buffer that waits for the rest of a frame. -/
lemma length_of_waiting {buf : Bytes} (h : tryParseFrame buf = none) : buf.length ≤ lineLength buf + 1 + maxPayload := by
  unfold lineLength
  cases hsplit : splitFirst newline buf with
  | none =>
    dsimp only
    omega
  | some parts =>
    obtain ⟨line, body⟩ := parts
    obtain ⟨rfl, -⟩ := splitFirst_some hsplit
    simp only [tryParseFrame, hsplit] at h
    cases hheader : parseHeader line with
    | none => simp [hheader] at h
    | some header =>
      have hlen : header.len ≤ maxPayload := by
        unfold parseHeader at hheader
        grind
      simp only [hheader] at h
      split at h
      · simp only [List.length_append, List.length_cons]
        omega
      · split at h <;> simp at h

/-- New data: the buffer ends at the beginning of a frame. -/
lemma retained_feed {limit : ℕ} {frames : List ParsedFrame} {buf : Bytes}
    (h : ∀ start ∈ starts buf, lineLength start ≤ limit) :
    retained (reader.drain frames buf) ≤ limit + 1 + maxPayload := by
  -- the frames that are left begin where frames of the whole buffer begin
  have hinv := reader.drain_invariant
    (P := fun _ rest => ∃ fuel, rest.length ≤ fuel ∧ ∀ start ∈ startsFrom fuel rest, lineLength start ≤ limit)
    (Q := fun _ => True) (fun {s s' rest n} hrest hscan => ?_) (fun _ _ => trivial) frames buf ⟨buf.length, le_rfl, h⟩
  · unfold retained
    cases hbuf : (reader.drain frames buf).buffer with
    | none => simp
    | some rest =>
      obtain ⟨fuel, -, hstarts⟩ := hinv.1 rest hbuf
      have hfirst : lineLength rest ≤ limit := by
        refine hstarts rest ?_
        cases fuel <;> simp [startsFrom]
      have hwaits : tryParseFrame rest = none := by
        have hmore : scanFrame (reader.drain frames buf).state rest = .more := Reader.drain_rest _ _ rest hbuf
        cases hparse : tryParseFrame rest with
        | none => rfl
        | some parsed =>
          obtain ⟨frame, rest'⟩ := parsed
          by_cases hval : frame = .invalid
          · rw [scanFrame_invalid (hval ▸ hparse)] at hmore
            simp at hmore
          · rw [scanFrame_eq hparse hval] at hmore
            simp at hmore
      have hlen := length_of_waiting hwaits
      rw [Option.getD_some]
      omega
  · obtain ⟨fuel, hfuel, hstarts⟩ := hrest
    obtain ⟨frame, rest', hparse, hval, rfl, -⟩ := scanFrame_take hscan
    obtain ⟨taken, rfl, hpos⟩ := tryParseFrame_length hparse hval
    have hdrop : (taken ++ rest').drop ((taken ++ rest').length - rest'.length) = rest' :=
      List.drop_left' (by rw [List.length_append]; omega)
    rw [List.length_append] at hfuel
    obtain ⟨fuel, rfl⟩ : ∃ m, fuel = m + 1 := ⟨fuel - 1, by omega⟩
    rw [hdrop]
    refine ⟨fuel, by omega, fun start hstart => hstarts start ?_⟩
    rw [startsFrom, hparse]
    simp [hval, hstart]

/-- **In every run whose header lines are not longer than the limit**, the buffers are bounded. -/
theorem retained_le {limit : ℕ} {es : List Event} {b : Broker} (hshort : Machine.RunWhere step (ShortLines limit) {} es)
    (hrun : Machine.run step {} es = some b) : ∀ h, ∀ r ∈ b.connections h, retained r ≤ limit + 1 + maxPayload := by
  refine Machine.run_invariant_where (C := ShortLines limit)
    (I := fun b => ∀ h, ∀ r ∈ b.connections h, retained r ≤ limit + 1 + maxPayload) (fun b e b' hI hC hs => ?_) ?_ hshort hrun
  · intro h r hr
    cases e with
    | connected h' =>
      obtain rfl := Option.some.inj hs
      by_cases hh : h = h'
      · subst hh
        obtain rfl : fresh = r := by simpa using hr
        simp [retained, fresh]
      · exact hI h r (by simpa [Function.update_of_ne hh] using hr)
    | data h' chunk =>
      obtain ⟨r', hr', rfl⟩ := Option.map_eq_some_iff.mp hs
      by_cases hh : h = h'
      · subst hh
        obtain rfl : reader.feed r' chunk = r := by simpa using hr
        cases hbuf : r'.buffer with
        | none =>
          rw [Reader.feed, hbuf]
          exact hI h r' hr'
        | some buf =>
          rw [Reader.feed, hbuf]
          exact retained_feed (hC r' hr' buf hbuf)
      · exact hI h r (by simpa [Function.update_of_ne hh] using hr)
    | closed h' =>
      obtain rfl := Option.some.inj hs
      by_cases hh : h = h'
      · subst hh
        simp at hr
      · exact hI h r (by simpa [Function.update_of_ne hh] using hr)
    | write line =>
      simp only [step] at hs
      split at hs
      · obtain rfl := Option.some.inj hs
        exact hI h r hr
      · obtain rfl := Option.some.inj hs
        exact hI h r hr
  · intro h r hr
    simp at hr

/-- A line without an end stays in the buffer. -/
lemma retained_grows (n : ℕ) : ∃ b, Machine.run step {} [.connected 0, .data 0 (List.replicate n 65)] = some b ∧
    ∃ r ∈ b.connections 0, retained r = n := by
  have hparse : tryParseFrame (List.replicate n 65) = none := by
    have hline : splitFirst newline (List.replicate n 65) = none :=
      splitFirst_none.mpr fun h => absurd (List.eq_of_mem_replicate h) (by decide)
    simp [tryParseFrame, hline]
  have hdrain : reader.drain [] (List.replicate n 65) = ⟨[], some (List.replicate n 65)⟩ := by
    refine Reader.drain_more ?_
    show scanFrame [] (List.replicate n 65) = .more
    rw [scanFrame, hparse]
  refine ⟨_, rfl, reader.feed fresh (List.replicate n 65), by simp, ?_⟩
  simp [Reader.feed, fresh, hdrain, retained]

end Caf.Bridge
