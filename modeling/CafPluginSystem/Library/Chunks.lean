import Mathlib

/-!
# Reading a stream that arrives in chunks

A receiver keeps a buffer.  When a chunk arrives it is appended, and the receiver takes one item after the other from
the front, until what is left is no complete item or the stream turns out to be broken; then it stops for good.  The
state of the receiver may decide how the next item is read, and handling an item changes it.

A `Reader` says what is at the front of a buffer.  Its laws: an item is not empty, it lies within the buffer, and what
has been recognised stays so when more symbols arrive.

* `Reader.drain` — all the items of a buffer.
* `Reader.drain_append` — a buffer can be drained in two parts.
* `Reader.feedAll_eq` — **segmentation**: what a receiver comes to depends on the stream, not on the chunks.
* `Reader.drain_rest` — what is left over is no complete item.
* `Reader.drain_invariant` — the invariant rule of the loop.
* `Reader.drain_simulates` — **simulation**: readers that go together come to the same.
* `Reader.drain_flatMap` — **round trip**: items that were written one after the other are all read.
-/

namespace Chunks

variable {β σ : Type}

/-- What is at the front of the buffer: nothing complete, an item of some symbols with the state after it, or the end of
the stream for this receiver. -/
inductive Scan (σ : Type) where
  | more
  | take (n : ℕ) (s : σ)
  | stop (s : σ)

/-- How a receiver reads. -/
structure Reader (β σ : Type) where
  scan : σ → List β → Scan σ
  within : ∀ {s s' buf n}, scan s buf = .take n s' → 0 < n ∧ n ≤ buf.length
  take_append : ∀ {s s' buf n} more, scan s buf = .take n s' → scan s (buf ++ more) = .take n s'
  stop_append : ∀ {s s' buf} more, scan s buf = .stop s' → scan s (buf ++ more) = .stop s'

/-- A receiver between two chunks: its state, and its buffer unless it has stopped. -/
structure Receiver (β σ : Type) where
  state : σ
  buffer : Option (List β)

namespace Reader

variable (R : Reader β σ)

/-- The loop, with a bound on its rounds. -/
def drainFrom : ℕ → σ → List β → Receiver β σ
  | 0, s, buf => ⟨s, some buf⟩
  | fuel + 1, s, buf =>
    match R.scan s buf with
    | .more => ⟨s, some buf⟩
    | .stop s' => ⟨s', none⟩
    | .take n s' => drainFrom fuel s' (buf.drop n)

/-- All the items of a buffer; every round takes a symbol at least. -/
def drain (s : σ) (buf : List β) : Receiver β σ := R.drainFrom (buf.length + 1) s buf

variable {R} {s s' : σ} {buf : List β} {n : ℕ}

lemma drain_more (h : R.scan s buf = .more) : R.drain s buf = ⟨s, some buf⟩ := by
  rw [drain, drainFrom, h]

lemma drain_stop (h : R.scan s buf = .stop s') : R.drain s buf = ⟨s', none⟩ := by
  rw [drain, drainFrom, h]

/-- More rounds than symbols make no difference. -/
lemma drainFrom_eq : ∀ {fuel : ℕ} {s : σ} {buf : List β}, buf.length < fuel → R.drainFrom fuel s buf = R.drain s buf := by
  intro fuel
  induction fuel using Nat.strong_induction_on with
  | _ fuel ih =>
    intro s buf hfuel
    obtain ⟨fuel, rfl⟩ : ∃ m, fuel = m + 1 := ⟨fuel - 1, by omega⟩
    rw [drain, drainFrom, drainFrom]
    split
    · rfl
    · rfl
    · rename_i n s' hscan
      have hn := R.within hscan
      have hlen : (buf.drop n).length < buf.length := by
        rw [List.length_drop]
        omega
      rw [ih fuel (Nat.lt_succ_self _) (by omega)]
      by_cases hlt : buf.length < fuel
      · rw [ih buf.length (by omega) hlen]
      · obtain rfl : buf.length = fuel := by omega
        rw [ih buf.length (Nat.lt_succ_self _) hlen]

lemma drain_take (h : R.scan s buf = .take n s') : R.drain s buf = R.drain s' (buf.drop n) := by
  have hn := R.within h
  rw [drain, drainFrom, h]
  refine drainFrom_eq ?_
  rw [List.length_drop]
  omega

/-- Induction along the items of a buffer: every item shortens it. -/
@[elab_as_elim] lemma drain_induction {motive : σ → List β → Prop} (more : ∀ s buf, R.scan s buf = .more → motive s buf)
    (stop : ∀ s buf s', R.scan s buf = .stop s' → motive s buf)
    (take : ∀ s buf n s', R.scan s buf = .take n s' → n ≤ buf.length → motive s' (buf.drop n) → motive s buf)
    (s : σ) (buf : List β) : motive s buf := by
  induction hlen : buf.length using Nat.strong_induction_on generalizing s buf with
  | _ len ih =>
    subst hlen
    cases hscan : R.scan s buf with
    | more => exact more s buf hscan
    | stop s' => exact stop s buf s' hscan
    | take n s' =>
      obtain ⟨hpos, hle⟩ := R.within hscan
      have hshort : (buf.drop n).length < buf.length := by
        rw [List.length_drop]
        omega
      exact take s buf n s' hscan hle (ih _ hshort s' _ rfl)

/-- The rest of the loop once more has arrived. -/
def feed (R : Reader β σ) (r : Receiver β σ) (chunk : List β) : Receiver β σ :=
  match r.buffer with
  | none => r
  | some buf => R.drain r.state (buf ++ chunk)

/-- **A buffer can be drained in two parts.** -/
theorem drain_append (more : List β) : ∀ (s : σ) (buf : List β),
    R.drain s (buf ++ more) = R.feed (R.drain s buf) more := by
  intro s buf
  induction s, buf using R.drain_induction with
  | more s buf hscan => rw [drain_more hscan, feed]
  | stop s buf s' hscan => rw [drain_stop hscan, drain_stop (R.stop_append more hscan), feed]
  | take s buf n s' hscan hle ih =>
    rw [drain_take hscan, drain_take (R.take_append more hscan), List.drop_append_of_le_length hle]
    exact ih

/-- What is left over is no complete item. -/
theorem drain_rest : ∀ (s : σ) (buf : List β) (rest : List β), (R.drain s buf).buffer = some rest →
    R.scan (R.drain s buf).state rest = .more := by
  intro s buf
  induction s, buf using R.drain_induction with
  | more s buf hscan =>
    intro rest hrest
    rw [drain_more hscan] at hrest ⊢
    obtain rfl : buf = rest := by simpa using hrest
    exact hscan
  | stop s buf s' hscan =>
    intro rest hrest
    rw [drain_stop hscan] at hrest
    simp at hrest
  | take s buf n s' hscan _ ih =>
    rw [drain_take hscan]
    exact ih

/-- **The invariant rule.**  What every item keeps, of the state and of what is left of the buffer, holds as long as the
loop goes on, and what the last item brings about holds once it has stopped. -/
theorem drain_invariant {P : σ → List β → Prop} {Q : σ → Prop}
    (htake : ∀ {s s' buf n}, P s buf → R.scan s buf = .take n s' → P s' (buf.drop n))
    (hstop : ∀ {s s' buf}, P s buf → R.scan s buf = .stop s' → Q s') : ∀ (s : σ) (buf : List β), P s buf →
    (∀ rest, (R.drain s buf).buffer = some rest → P (R.drain s buf).state rest) ∧
      ((R.drain s buf).buffer = none → Q (R.drain s buf).state) := by
  intro s buf
  induction s, buf using R.drain_induction with
  | more s buf hscan =>
    intro hs
    rw [drain_more hscan]
    refine ⟨fun rest hrest => ?_, fun h => by simp at h⟩
    obtain rfl : buf = rest := by simpa using hrest
    exact hs
  | stop s buf s' hscan =>
    intro hs
    rw [drain_stop hscan]
    exact ⟨fun _ h => by simp at h, fun _ => hstop hs hscan⟩
  | take s buf n s' hscan _ ih =>
    intro hs
    rw [drain_take hscan]
    exact ih (htake hs hscan)

end Reader

/-- Two scans of one buffer go together: the states are related while the loops go on, and in another way once they have
stopped. -/
def Scan.Related {τ : Type} (G F : σ → τ → Prop) : Scan σ → Scan τ → Prop
  | .more, .more => True
  | .take n s, .take m t => n = m ∧ G s t
  | .stop s, .stop t => F s t
  | _, _ => False

/-- Two receivers of one stream. -/
structure Receiver.Related {τ : Type} (G F : σ → τ → Prop) (r : Receiver β σ) (r' : Receiver β τ) : Prop where
  buffer : r.buffer = r'.buffer
  going : r.buffer ≠ none → G r.state r'.state
  stopped : r.buffer = none → F r.state r'.state

namespace Reader

variable {R : Reader β σ} {s s' : σ} {buf : List β} {n : ℕ}

/-- **Simulation.**  Readers whose scans go together come to the same buffer and to related states. -/
theorem drain_simulates {τ : Type} {R' : Reader β τ} {G F : σ → τ → Prop}
    (hscan : ∀ {s t} buf, G s t → Scan.Related G F (R.scan s buf) (R'.scan t buf)) :
    ∀ (s : σ) (t : τ) (buf : List β), G s t → Receiver.Related G F (R.drain s buf) (R'.drain t buf) := by
  intro s t buf
  induction s, buf using R.drain_induction generalizing t with
  | more s buf hs =>
    intro hst
    have hrel := hscan buf hst
    cases ht : R'.scan t buf with
    | more =>
      rw [drain_more hs, drain_more ht]
      exact ⟨rfl, fun _ => hst, fun h => by simp at h⟩
    | take m t' | stop t' => simp [hs, ht, Scan.Related] at hrel
  | take s buf n s' hs _ ih =>
    intro hst
    have hrel := hscan buf hst
    cases ht : R'.scan t buf with
    | more | stop t' => simp [hs, ht, Scan.Related] at hrel
    | take m t' =>
      obtain ⟨rfl, hnext⟩ : n = m ∧ G s' t' := by simpa [hs, ht, Scan.Related] using hrel
      rw [drain_take hs, drain_take ht]
      exact ih t' hnext
  | stop s buf s' hs =>
    intro hst
    have hrel := hscan buf hst
    cases ht : R'.scan t buf with
    | more | take m t' => simp [hs, ht, Scan.Related] at hrel
    | stop t' =>
      rw [drain_stop hs, drain_stop ht]
      exact ⟨rfl, fun h => by simp at h, fun _ => by simpa [hs, ht, Scan.Related] using hrel⟩

/-- One chunk after the other. -/
def feedAll (R : Reader β σ) (r : Receiver β σ) (chunks : List (List β)) : Receiver β σ :=
  chunks.foldl R.feed r

/-- The receiver has taken everything it can. -/
def Drained (R : Reader β σ) (r : Receiver β σ) : Prop :=
  ∀ buf, r.buffer = some buf → R.scan r.state buf = .more

/-- **Segmentation.**  A receiver that gets a stream in chunks comes to what it would come to with the whole stream at
once. -/
theorem feedAll_eq (chunks : List (List β)) : ∀ {r : Receiver β σ}, R.Drained r →
    R.feedAll r chunks = R.feed r chunks.flatten := by
  induction chunks with
  | nil =>
    intro r hr
    rw [feedAll, List.foldl_nil, List.flatten_nil, feed]
    split
    · rfl
    · rename_i buf hbuf
      rw [List.append_nil, drain_more (hr buf hbuf), ← hbuf]
  | cons chunk chunks ih =>
    intro r hr
    have hfed : R.Drained (R.feed r chunk) := by
      unfold feed
      split
      · exact hr
      · exact fun rest hrest => drain_rest _ _ rest hrest
    refine (ih hfed).trans ?_
    cases hbuf : r.buffer with
    | none => simp [feed, hbuf]
    | some buf =>
      have happ := drain_append (R := R) chunks.flatten r.state (buf ++ chunk)
      simp only [feed, hbuf, List.flatten_cons, ← List.append_assoc] at happ ⊢
      exact happ.symm

/-- Items that were written one after the other are all read. -/
theorem drain_flatMap {α : Type} {enc : α → List β} (act : σ → α → σ) {xs : List α}
    (hscan : ∀ s, ∀ x ∈ xs, ∀ rest, R.scan s (enc x ++ rest) = .take (enc x).length (act s x))
    (hend : ∀ s, R.scan s [] = .more) : ∀ s : σ, R.drain s (xs.flatMap enc) = ⟨xs.foldl act s, some []⟩ := by
  induction xs with
  | nil => exact fun s => drain_more (hend s)
  | cons x xs ih =>
    intro s
    rw [List.flatMap_cons, drain_take (hscan s x List.mem_cons_self _), List.drop_left]
    exact ih (fun s y hy => hscan s y (List.mem_cons_of_mem _ hy)) (act s x)

end Reader

end Chunks
