import CafPluginSystem.Library.Chunks
import CafPluginSystem.Pomelo.Upgrade

/-!
# The loops of the endpoint

The handler of new data takes packages from the buffer of a connection; on a WebSocket it first takes the head of the
HTTP request and then frames, which hold the packages.  What it does with them is left open here (`Loop`): the session of
a connection is one instance, the bare content of a stream another.

* `Loop.reader` — such a loop is a reader of chunks.
* `Loop.drain_invariant`, `Loop.drain_simulates` — the rules of readers in terms of what is done with an item.
-/

namespace Caf.Pomelo

open Chunks

variable {α β : Type}

inductive Transport where
  | tcp
  | ws
deriving DecidableEq, Repr

/-! ## Items -/

/-- What is taken from the buffer: packages, or frames with packages in them. -/
inductive Item where
  | package (pkg : ParsedPkg)
  | frame (frame : WsFrame)
deriving DecidableEq, Repr

def Parse.map {α β : Type} (f : α → β) : Parse α → Parse β
  | .more => .more
  | .bad => .bad
  | .done n a => .done n (f a)

def parseItem (transport : Transport) (buf : Bytes) : Parse Item :=
  match transport with
  | .tcp => (parsePkg buf).map .package
  | .ws => (parseFrame buf).map .frame

lemma Parse.map_done {f : α → β} {p : Parse α} {n : ℕ} {b : β} (h : p.map f = .done n b) :
    ∃ a, p = .done n a ∧ f a = b := by
  cases p with
  | more | bad => simp [Parse.map] at h
  | done m a =>
    obtain ⟨rfl, rfl⟩ : m = n ∧ f a = b := by simpa [Parse.map] using h
    exact ⟨a, rfl, rfl⟩

lemma Parse.map_bad {f : α → β} {p : Parse α} (h : p.map f = .bad) : p = .bad := by
  cases p with
  | more | done m a => simp [Parse.map] at h
  | bad => rfl

lemma Parse.map_more {f : α → β} {p : Parse α} (h : p.map f = .more) : p = .more := by
  cases p with
  | more => rfl
  | bad | done m a => simp [Parse.map] at h

variable {transport : Transport}

lemma parseItem_within {buf n item} (h : parseItem transport buf = .done n item) : 0 < n ∧ n ≤ buf.length := by
  cases transport with
  | tcp =>
    obtain ⟨pkg, hpkg, -⟩ := Parse.map_done h
    have := parsePkg_within hpkg
    omega
  | ws =>
    obtain ⟨frame, hframe, -⟩ := Parse.map_done h
    exact parseFrame_within hframe

lemma parseItem_append {buf n item}
    (h : parseItem transport buf = .done n item) (more : Bytes) : parseItem transport (buf ++ more) = .done n item := by
  cases transport with
  | tcp =>
    obtain ⟨pkg, hpkg, rfl⟩ := Parse.map_done h
    rw [parseItem, parsePkg_append hpkg more, Parse.map]
  | ws =>
    obtain ⟨frame, hframe, rfl⟩ := Parse.map_done h
    rw [parseItem, parseFrame_append hframe more, Parse.map]

lemma parseItem_bad_append {buf} (h : parseItem transport buf = .bad) (more : Bytes) :
    parseItem transport (buf ++ more) = .bad := by
  cases transport with
  | tcp => exact absurd (Parse.map_bad h) (parsePkg_ne_bad buf)
  | ws => rw [parseItem, parseFrame_bad_append (Parse.map_bad h) more, Parse.map]

/-! ## Loops -/

/-- The loop goes on, or it stops for good and the buffer is gone. -/
inductive Outcome (σ : Type) where
  | goOn (s : σ)
  | stop (s : σ)

/-- What is done with the head of an HTTP request, with a protocol error and with an item. -/
structure Loop (σ : Type) where
  transport : σ → Option Transport
  upgraded : σ → Bool
  head : σ → Bytes → Outcome σ
  error : σ → σ
  item : σ → Item → Outcome σ

variable {σ τ : Type}

def Outcome.scan (n : ℕ) : Outcome σ → Scan σ
  | .goOn s => .take n s
  | .stop s => .stop s

namespace Loop

variable (L : Loop σ)

/-- A round: an item is taken. -/
def scanItem (transport : Transport) (s : σ) (buf : Bytes) : Scan σ :=
  match parseItem transport buf with
  | .more => .more
  | .bad => .stop (L.error s)
  | .done n item => (L.item s item).scan n

/-- The head of the request, up to the empty line. -/
def scanHead (s : σ) (buf : Bytes) : Scan σ :=
  match splitText crlf2 buf with
  | none => .more
  | some (front, _) => (L.head s (front ++ crlf2)).scan (front ++ crlf2).length

def scan (s : σ) (buf : Bytes) : Scan σ :=
  match L.transport s with
  | none => .more
  | some .tcp => L.scanItem .tcp s buf
  | some .ws => if L.upgraded s then L.scanItem .ws s buf else L.scanHead s buf

variable {L} {s s' : σ} {buf : Bytes} {n : ℕ}

/-- The three ways in which a buffer is read. -/
lemma scan_cases (L : Loop σ) (s : σ) : (L.transport s = none ∧ ∀ buf, L.scan s buf = .more) ∨
    (∃ transport, L.transport s = some transport ∧ (transport = .ws → L.upgraded s = true) ∧
      ∀ buf, L.scan s buf = L.scanItem transport s buf) ∨
    (L.transport s = some .ws ∧ L.upgraded s = false ∧ ∀ buf, L.scan s buf = L.scanHead s buf) := by
  unfold scan
  cases L.transport s with
  | none => exact .inl ⟨rfl, fun _ => rfl⟩
  | some transport =>
    cases transport with
    | tcp => exact .inr (.inl ⟨.tcp, rfl, by simp, fun _ => rfl⟩)
    | ws =>
      cases L.upgraded s with
      | false => exact .inr (.inr ⟨rfl, rfl, fun _ => rfl⟩)
      | true => exact .inr (.inl ⟨.ws, rfl, fun _ => rfl, fun _ => rfl⟩)

lemma crlf2_ne_nil : crlf2 ≠ [] := by decide

/-- A scan that finds something finds the same when more arrives. -/
lemma scan_append (hscan : L.scan s buf ≠ .more) (more : Bytes) : L.scan s (buf ++ more) = L.scan s buf := by
  rcases scan_cases L s with ⟨-, heq⟩ | ⟨transport, -, -, heq⟩ | ⟨-, -, heq⟩
  · exact absurd (heq buf) hscan
  · rw [heq] at hscan
    rw [heq, heq, scanItem, scanItem]
    cases hparse : parseItem transport buf with
    | more => exact absurd (by rw [scanItem, hparse]) hscan
    | bad => rw [parseItem_bad_append hparse]
    | done n item => rw [parseItem_append hparse]
  · rw [heq] at hscan
    rw [heq, heq, scanHead, scanHead]
    cases hsplit : splitText crlf2 buf with
    | none => exact absurd (by rw [scanHead, hsplit]) hscan
    | some parts => rw [splitText_append hsplit crlf2_ne_nil more]

lemma scan_within (h : L.scan s buf = .take n s') : 0 < n ∧ n ≤ buf.length := by
  have hlen : ∀ {m : ℕ} {o : Outcome σ}, o.scan m = .take n s' → m = n := by
    intro m o ho
    cases o with
    | goOn t => exact (Scan.take.inj ho).1
    | stop t => simp [Outcome.scan] at ho
  rcases scan_cases L s with ⟨-, heq⟩ | ⟨transport, -, -, heq⟩ | ⟨-, -, heq⟩
  · simp [heq] at h
  · rw [heq, scanItem] at h
    cases hparse : parseItem transport buf with
    | more | bad => simp [hparse] at h
    | done m item =>
      rw [hparse] at h
      obtain rfl := hlen h
      exact parseItem_within hparse
  · rw [heq, scanHead] at h
    cases hsplit : splitText crlf2 buf with
    | none => simp [hsplit] at h
    | some parts =>
      rw [hsplit] at h
      obtain rfl := hlen h
      have hpos : 0 < crlf2.length := List.length_pos_iff.mpr crlf2_ne_nil
      rw [splitText_some hsplit]
      simp only [List.length_append]
      omega

/-- A loop reads chunks. -/
def reader (L : Loop σ) : Reader UInt8 σ where
  scan := L.scan
  within := scan_within
  take_append := fun more h => (scan_append (by rw [h]; simp) more).trans h
  stop_append := fun more h => (scan_append (by rw [h]; simp) more).trans h

end Loop

/-! ## Rules -/

/-- One property while the loop goes on, another one when it stops. -/
def Outcome.Meets (P Q : σ → Prop) : Outcome σ → Prop
  | .goOn s => P s
  | .stop s => Q s

/-- Two outcomes go together. -/
def Outcome.Related (G F : σ → τ → Prop) : Outcome σ → Outcome τ → Prop
  | .goOn s, .goOn t => G s t
  | .stop s, .stop t => F s t
  | _, _ => False

lemma Outcome.Related.scan {G F : σ → τ → Prop} {o : Outcome σ} {o' : Outcome τ} (h : o.Related G F o') (n : ℕ) :
    Scan.Related G F (o.scan n) (o'.scan n) := by
  cases o with
  | goOn s =>
    cases o' with
    | goOn t => exact ⟨rfl, h⟩
    | stop t => exact h.elim
  | stop s =>
    cases o' with
    | goOn t => exact h.elim
    | stop t => exact h

namespace Loop

variable {L : Loop σ} {M : Loop τ}
variable {P Q : σ → Prop}

/-- What comes of a scan that is not left waiting. -/
lemma scan_meets (hhead : ∀ {s} head, P s → (L.head s head).Meets P Q)
    (herr : ∀ {s}, P s → Q (L.error s)) (hitem : ∀ {s} item, P s → (L.item s item).Meets P Q) {s buf}
    (hs : P s) : (∀ n s', L.scan s buf = .take n s' → P s') ∧ ∀ s', L.scan s buf = .stop s' → Q s' := by
  have hout : ∀ {n : ℕ} {o : Outcome σ}, o.Meets P Q →
      (∀ m s', o.scan n = .take m s' → P s') ∧ ∀ s', o.scan n = .stop s' → Q s' := by
    intro n o ho
    cases o with
    | goOn t =>
      refine ⟨fun m s' h => ?_, fun s' h => by simp [Outcome.scan] at h⟩
      obtain ⟨-, rfl⟩ := Scan.take.inj h
      exact ho
    | stop t =>
      refine ⟨fun m s' h => by simp [Outcome.scan] at h, fun s' h => ?_⟩
      obtain rfl := Scan.stop.inj h
      exact ho
  rcases scan_cases L s with ⟨-, heq⟩ | ⟨transport, -, -, heq⟩ | ⟨-, -, heq⟩
  · simp [heq]
  · rw [heq, scanItem]
    cases parseItem transport buf with
    | more => simp
    | bad =>
      refine ⟨by simp, fun s' h => ?_⟩
      obtain rfl := Scan.stop.inj h
      exact herr hs
    | done n item => exact hout (hitem item hs)
  · rw [heq, scanHead]
    cases splitText crlf2 buf with
    | none => simp
    | some parts => exact hout (hhead _ hs)

/-- **The invariant rule.** -/
theorem drain_invariant (hhead : ∀ {s} head, P s → (L.head s head).Meets P Q)
    (herr : ∀ {s}, P s → Q (L.error s)) (hitem : ∀ {s} item, P s → (L.item s item).Meets P Q) (s : σ) (buf : Bytes)
    (hs : P s) : (∀ rest, (L.reader.drain s buf).buffer = some rest → P (L.reader.drain s buf).state) ∧
      ((L.reader.drain s buf).buffer = none → Q (L.reader.drain s buf).state) :=
  L.reader.drain_invariant (P := fun s _ => P s) (fun h hscan => (scan_meets hhead herr hitem h).1 _ _ hscan)
    (fun h hscan => (scan_meets hhead herr hitem h).2 _ hscan) s buf hs

/-- **Simulation.** -/
theorem drain_simulates {G F : σ → τ → Prop} (htrans : ∀ {s t}, G s t → L.transport s = M.transport t)
    (hupgraded : ∀ {s t}, G s t → L.upgraded s = M.upgraded t)
    (hhead : ∀ {s t} head, G s t → (L.head s head).Related G F (M.head t head))
    (herr : ∀ {s t}, G s t → F (L.error s) (M.error t))
    (hitem : ∀ {s t} item, G s t → (L.item s item).Related G F (M.item t item)) (s : σ) (t : τ) (buf : Bytes)
    (hst : G s t) : Receiver.Related G F (L.reader.drain s buf) (M.reader.drain t buf) := by
  refine Reader.drain_simulates (fun {s t} buf hst => ?_) s t buf hst
  have hitems : ∀ transport, Scan.Related G F (L.scanItem transport s buf) (M.scanItem transport t buf) := by
    intro transport
    rw [scanItem, scanItem]
    cases parseItem transport buf with
    | more => trivial
    | bad => exact herr hst
    | done n item => exact (hitem item hst).scan n
  show Scan.Related G F (L.scan s buf) (M.scan t buf)
  unfold scan
  rw [← htrans hst, ← hupgraded hst]
  cases L.transport s with
  | none => trivial
  | some transport =>
    cases transport with
    | tcp => exact hitems .tcp
    | ws =>
      cases L.upgraded s with
      | true => exact hitems .ws
      | false =>
        rw [scanHead, scanHead]
        cases splitText crlf2 buf with
        | none => trivial
        | some parts => exact (hhead _ hst).scan _

end Loop

end Caf.Pomelo
