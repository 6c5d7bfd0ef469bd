import CafPluginSystem.Library.Fallible

/-!
# Framing

Encodings that can be put one after another and still be told apart.  An encoder is
*self-delimiting* up to a size when an encoding of at most that size determines both the encoded
item and where it ends; every encoder with a reader that gives back the item and the untouched
rest is.  The size bound is there for the length fields, which are 64-bit words.
Self-delimiting encoders compose: in sequence, and over counted lists.

* `SelfDelimiting`, `selfDelimiting_of_reader` — the notion and where it comes from.
* `SelfDelimiting.append`, `SelfDelimiting.counted` — composition.
* `Extensible` — readers that leave alone what follows the item they read.
* `Appends`, `Appends.foldlM` — writers that append the encoding of what they are given.
* `bigEndian`, `ofBigEndian` — a 64-bit word as eight bytes, most significant first.
-/

namespace Framing

open List

/-! ## Words -/

/-- The eight bytes of a word, most significant first. -/
def bigEndian (v : UInt64) : List UInt8 :=
  [(56 : UInt64), 48, 40, 32, 24, 16, 8, 0].map fun shift => (v >>> shift).toUInt8

/-- `out = (out << 8) | byte` over some bytes. -/
def ofBigEndian (out : UInt64) (bytes : List UInt8) : UInt64 :=
  bytes.foldl (fun out byte => (out <<< 8) ||| byte.toUInt64) out

@[simp] lemma bigEndian_length (v : UInt64) : (bigEndian v).length = 8 := rfl

/-- Shifting a byte in is multiplying by 256 and adding, while the top byte is clear. -/
lemma shift_byte_toNat (out : UInt64) (byte : UInt8) (h : out.toNat < 2 ^ 56) :
    ((out <<< 8) ||| byte.toUInt64).toNat = 2 ^ 8 * out.toNat + byte.toNat := by
  have hbyte : byte.toNat < 2 ^ 8 := byte.toNat_lt
  have hshift : (out <<< 8).toNat = 2 ^ 8 * out.toNat := by
    rw [UInt64.toNat_shiftLeft, Nat.shiftLeft_eq]
    have hmod : (8 : UInt64).toNat % 64 = 8 := rfl
    rw [hmod, Nat.mod_eq_of_lt (by omega)]
    ring
  rw [UInt64.toNat_or, hshift, UInt8.toNat_toUInt64, Nat.two_pow_add_eq_or_of_lt hbyte]

/-- While the word does not overflow, shifting bytes in reads them as digits of base 256. -/
lemma ofBigEndian_toNat : ∀ (bytes : List UInt8) (out : UInt64),
    (out.toNat + 1) * 2 ^ (8 * bytes.length) ≤ 2 ^ 64 →
      (ofBigEndian out bytes).toNat = bytes.foldl (fun n byte => 2 ^ 8 * n + byte.toNat) out.toNat
  | [], out, _ => rfl
  | byte :: bytes, out, h => by
    have hbyte : byte.toNat < 2 ^ 8 := byte.toNat_lt
    have hsplit : 2 ^ (8 * (bytes.length + 1)) = 2 ^ 8 * 2 ^ (8 * bytes.length) := by ring
    rw [length_cons, hsplit] at h
    have hpos : 0 < 2 ^ (8 * bytes.length) := by positivity
    have hout : out.toNat < 2 ^ 56 := by nlinarith
    have hstep := shift_byte_toNat out byte hout
    rw [foldl_cons, ← hstep]
    refine ofBigEndian_toNat bytes _ ?_
    calc (((out <<< 8) ||| byte.toUInt64).toNat + 1) * 2 ^ (8 * bytes.length)
        ≤ ((out.toNat + 1) * 2 ^ 8) * 2 ^ (8 * bytes.length) :=
          Nat.mul_le_mul_right _ (by rw [hstep]; omega)
      _ ≤ 2 ^ 64 := by rw [mul_assoc]; exact h

/-- **A word reads back from its bytes.** -/
lemma ofBigEndian_bigEndian (v : UInt64) : ofBigEndian 0 (bigEndian v) = v := by
  have hv : v.toNat < 2 ^ 64 := v.toNat_lt
  have hbyte : ∀ s : UInt64, (v >>> s).toUInt8.toNat = v.toNat / 2 ^ (s.toNat % 64) % 2 ^ 8 := by
    intro s
    rw [UInt64.toNat_toUInt8, UInt64.toNat_shiftRight, Nat.shiftRight_eq_div_pow]
  apply UInt64.toNat_inj.mp
  rw [ofBigEndian_toNat _ _ (by simp)]
  simp only [bigEndian, map_cons, map_nil, foldl_cons, foldl_nil, hbyte,
    UInt64.reduceToNat, Nat.reduceMod]
  omega

lemma bigEndian_injective : Function.Injective bigEndian := by
  intro v w h
  rw [← ofBigEndian_bigEndian v, h, ofBigEndian_bigEndian]

/-! ## Self-delimiting encoders -/

variable {α γ ε : Type} {β : Type}

/-- Among encodings of at most `limit` symbols, an encoding determines the item and what follows
it. -/
def SelfDelimiting (limit : ℕ) (enc : α → List β) : Prop :=
  ∀ a b u v, (enc a).length ≤ limit → (enc b).length ≤ limit →
    enc a ++ u = enc b ++ v → a = b ∧ u = v

/-- An encoder with a reader for it is self-delimiting. -/
lemma selfDelimiting_of_reader {limit : ℕ} {enc : α → List β}
    {read : List β → Except ε (α × List β)}
    (h : ∀ a rest, (enc a).length ≤ limit → read (enc a ++ rest) = .ok (a, rest)) :
    SelfDelimiting limit enc := by
  intro a b u v ha hb heq
  have hread : read (enc a ++ u) = read (enc b ++ v) := by rw [heq]
  rw [h a u ha, h b v hb, Except.ok.injEq, Prod.mk.injEq] at hread
  exact hread

namespace SelfDelimiting

variable {limit : ℕ} {enc : α → List β}

/-- An encoder of codes of one length is self-delimiting when it is injective. -/
lemma of_length {n : ℕ} (hlen : ∀ a, (enc a).length = n) (hinj : Function.Injective enc) :
    SelfDelimiting limit enc := by
  intro a b u v _ _ heq
  obtain ⟨hab, huv⟩ := append_inj heq (by rw [hlen, hlen])
  exact ⟨hinj hab, huv⟩

lemma eq_of_encoding_eq (h : SelfDelimiting limit enc) {a b : α} (ha : (enc a).length ≤ limit)
    (heq : enc a = enc b) : a = b :=
  (h a b [] [] ha (heq ▸ ha) (by rw [heq])).1

/-- One encoding after another. -/
lemma append {enc' : γ → List β} (h : SelfDelimiting limit enc) (h' : SelfDelimiting limit enc') :
    SelfDelimiting limit fun x : α × γ => enc x.1 ++ enc' x.2 := by
  rintro ⟨a, c⟩ ⟨b, d⟩ u v ha hb heq
  simp only [length_append] at ha hb
  simp only [append_assoc] at heq
  obtain ⟨rfl, hrest⟩ := h _ _ _ _ (by omega) (by omega) heq
  obtain ⟨rfl, rfl⟩ := h' _ _ _ _ (by omega) (by omega) hrest
  exact ⟨rfl, rfl⟩

/-- Items encoded back to back, when their number is known. -/
lemma flatMap (h : SelfDelimiting limit enc) :
    ∀ {xs ys : List α} {u v : List β}, (xs.flatMap enc).length ≤ limit →
      (ys.flatMap enc).length ≤ limit → xs.length = ys.length →
      xs.flatMap enc ++ u = ys.flatMap enc ++ v → xs = ys ∧ u = v
  | [], [], u, v, _, _, _, heq => ⟨rfl, by simpa using heq⟩
  | x :: xs, y :: ys, u, v, hx, hy, hlen, heq => by
    simp only [flatMap_cons, append_assoc, length_append] at hx hy heq
    obtain ⟨rfl, hrest⟩ := h _ _ _ _ (by omega) (by omega) heq
    obtain ⟨rfl, rfl⟩ := flatMap h (by omega) (by omega) (Nat.succ.inj hlen) hrest
    exact ⟨rfl, rfl⟩

/-- Items encoded back to back, when no encoding is empty. -/
lemma flatMap_injective (h : SelfDelimiting limit enc) (hne : ∀ a, enc a ≠ []) :
    ∀ {xs ys : List α}, (xs.flatMap enc).length ≤ limit → xs.flatMap enc = ys.flatMap enc → xs = ys
  | [], [], _, _ => rfl
  | [], y :: ys, _, heq => by simp [hne] at heq
  | x :: xs, [], _, heq => by simp [hne] at heq
  | x :: xs, y :: ys, hx, heq => by
    have hlen := congrArg List.length heq
    simp only [flatMap_cons, length_append] at hx heq hlen
    obtain ⟨rfl, hrest⟩ := h _ _ _ _ (by omega) (by omega) heq
    rw [flatMap_injective h hne (by omega) hrest]

end SelfDelimiting

/-- A list of encodings behind their number. -/
def counted (enc : α → List UInt8) (xs : List α) : List UInt8 :=
  bigEndian (UInt64.ofNat xs.length) ++ xs.flatMap enc

/-- A counted list is no longer than its encoding, when no item has an empty one. -/
lemma length_le_flatMap {enc : α → List β} (hne : ∀ a, enc a ≠ []) :
    ∀ xs : List α, xs.length ≤ (xs.flatMap enc).length
  | [] => by simp
  | x :: xs => by
    have hx : 0 < (enc x).length := length_pos_iff.mpr (hne x)
    have hxs := length_le_flatMap hne xs
    simp only [flatMap_cons, length_append, length_cons]
    omega

/-- Counted lists are self-delimiting while the count fits into a word. -/
lemma SelfDelimiting.counted {limit : ℕ} {enc : α → List UInt8} (h : SelfDelimiting limit enc)
    (hne : ∀ a, enc a ≠ []) (hlimit : limit < 2 ^ 64) :
    SelfDelimiting limit (counted enc) := by
  intro xs ys u v hx hy heq
  simp only [Framing.counted, length_append, bigEndian_length] at hx hy
  simp only [Framing.counted, append_assoc] at heq
  obtain ⟨hcount, hrest⟩ := append_inj heq (by simp)
  have hxs := length_le_flatMap hne xs
  have hys := length_le_flatMap hne ys
  have hlen : xs.length = ys.length := by
    have := congrArg UInt64.toNat (bigEndian_injective hcount)
    simp only [UInt64.toNat_ofNat'] at this
    omega
  exact h.flatMap (by omega) (by omega) hlen hrest

/-! ## Readers -/

/-- A reader that has read an item reads the same item when more follows. -/
def Extensible (read : List β → Except ε (α × List β)) : Prop :=
  ∀ data a rest, read data = .ok (a, rest) → ∀ more, read (data ++ more) = .ok (a, rest ++ more)

/-- One item after another. -/
lemma Extensible.bind_eq_ok {read : List β → Except ε (α × List β)} (h : Extensible read)
    {next : α × List β → Except ε (γ × List β)} {data rest : List β} {c : γ}
    (hread : read data >>= next = .ok (c, rest)) (more : List β)
    (hnext : ∀ a mid, next (a, mid) = .ok (c, rest) → next (a, mid ++ more) = .ok (c, rest ++ more)) :
    read (data ++ more) >>= next = .ok (c, rest ++ more) := by
  obtain ⟨⟨a, mid⟩, ha, hc⟩ := Fallible.bind_eq_ok.mp hread
  rw [h data a mid ha more, Fallible.ok_bind]
  exact hnext a mid hc

/-- Lists that agree in two ways are equal if their members are. -/
lemma eq_of_map_eq_map {f : α → β} {g : α → γ} (hinj : ∀ x y, f x = f y → g x = g y → x = y) :
    ∀ {xs ys : List α}, xs.map f = ys.map f → xs.map g = ys.map g → xs = ys
  | [], [], _, _ => rfl
  | [], y :: ys, hf, _ => by simp at hf
  | x :: xs, [], hf, _ => by simp at hf
  | x :: xs, y :: ys, hf, hg => by
    simp only [map_cons, List.cons.injEq] at hf hg
    rw [hinj x y hf.1 hg.1, eq_of_map_eq_map hinj hf.2 hg.2]

/-- Two ways in which lists can agree are the same if they are for their members. -/
lemma map_eq_map_congr {f : α → β} {g : α → γ} (h : ∀ x y, f x = f y ↔ g x = g y) :
    ∀ {xs ys : List α}, xs.map f = ys.map f ↔ xs.map g = ys.map g
  | [], [] => by simp
  | [], y :: ys => by simp
  | x :: xs, [] => by simp
  | x :: xs, y :: ys => by simp [h x y, map_eq_map_congr h]

/-! ## Writers -/

/-- `write` appends to what was written the encoding of what `content` makes of its argument. -/
def Appends (write : List β → α → Except ε (List β)) (content : α → Except ε γ)
    (enc : γ → List β) : Prop :=
  ∀ out out' a, write out a = .ok out' → ∃ c, content a = .ok c ∧ out' = out ++ enc c

/-- A loop over a writer appends the encodings one after another. -/
lemma Appends.foldlM {write : List β → α → Except ε (List β)} {content : α → Except ε γ}
    {enc : γ → List β} (h : Appends write content enc) :
    ∀ {xs : List α} {out out' : List β}, xs.foldlM write out = .ok out' →
      ∃ cs, xs.mapM content = .ok cs ∧ out' = out ++ cs.flatMap enc
  | [], out, out', hrun => by
    simp only [foldlM_nil, Fallible.pure_eq_ok, Except.ok.injEq] at hrun
    exact ⟨[], rfl, by simp [hrun]⟩
  | x :: xs, out, out', hrun => by
    rw [foldlM_cons, Fallible.bind_eq_ok] at hrun
    obtain ⟨mid, hx, hxs⟩ := hrun
    obtain ⟨c, hc, rfl⟩ := h _ _ _ hx
    obtain ⟨cs, hcs, rfl⟩ := Appends.foldlM h hxs
    refine ⟨c :: cs, ?_, by simp⟩
    simp [mapM_cons, hc, hcs]

end Framing
