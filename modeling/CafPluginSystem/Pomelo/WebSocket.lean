import CafPluginSystem.Library.Framing
import CafPluginSystem.Pomelo.Codec

/-!
# WebSocket frames

`WsCodec` of `pomelo_ws.cpp`.  A frame has two bytes with its final bit, its opcode, its mask bit and a short length, the
length in two or eight bytes if the short one says so, the key of the mask if there is one, and the payload.

* `parseFrame_append`, `parseFrame_bad_append` — what was recognised stays so when more arrives.
* `parseFrame_sent` — a frame, masked or not, is read as it was meant, in each of the three forms of its length; and
  refused if its payload has more than 64 MiB.
* `frames_readBack` — **the codec**: what `encode_frame` writes and what clients send is read back, and nothing before
  the last byte.
* `parseFrame_more_length` — a buffer that waits for the rest of a frame is bounded.
-/

namespace Caf.Pomelo

open Framing List

def opContinuation : UInt8 := 0x0
def opText : UInt8 := 0x1
def opBinary : UInt8 := 0x2
def opClose : UInt8 := 0x8
def opPing : UInt8 := 0x9
def opPong : UInt8 := 0xA

/-- The largest payload: 64 MiB. -/
def maxFrame : UInt64 := 64 * 1024 * 1024

/-- `WsCodec::ParsedFrame`. -/
structure WsFrame where
  fin : Bool
  opcode : UInt8
  payload : Bytes
deriving DecidableEq, Repr

/-! ## Reading -/

/-- The length of the payload, and how many bytes say it behind the first two; none while they are missing. -/
def frameLength (b1 : UInt8) (tail : Bytes) : Option (UInt64 × ℕ) :=
  let len := b1 &&& 0x7F
  if len = 126 then
    match tail with
    | b2 :: b3 :: _ => some ((b2.toUInt64 <<< 8) ||| b3.toUInt64, 2)
    | _ => none
  else if len = 127 then
    if tail.length < 8 then none else some (ofBigEndian 0 (tail.take 8), 8)
  else some (len.toUInt64, 0)

/-- `v ^= mask_key[i & 3]`. -/
def unmask (key : Fin 4 → UInt8) (bytes : Bytes) : Bytes := bytes.mapIdx fun i v => v ^^^ key (Fin.ofNat 4 i)

/-- The part of a frame behind the length: the key if the frame is masked, and the payload. -/
def parsePayload (masked : Bool) (off len : ℕ) (rest : Bytes) (frame : Bytes → WsFrame) : Parse WsFrame :=
  if masked then
    match rest with
    | k0 :: k1 :: k2 :: k3 :: rest =>
      if rest.length < len then .more
      else .done (off + 4 + len) (frame (unmask ![k0, k1, k2, k3] (rest.take len)))
    | _ => .more
  else if rest.length < len then .more
  else .done (off + len) (frame (rest.take len))

/-- `parse_frame`. -/
def parseFrame : Bytes → Parse WsFrame
  | b0 :: b1 :: tail =>
    match frameLength b1 tail with
    | none => .more
    | some (len, ext) =>
      if len > maxFrame then .bad
      else parsePayload (b1 &&& 0x80 ≠ 0) (2 + ext) len.toNat (tail.drop ext) (⟨b0 &&& 0x80 ≠ 0, b0 &&& 0x0F, ·⟩)
  | _ => .more

/-- `encode_frame`: a final frame without a mask. -/
def encodeFrame (opcode : UInt8) (payload : Bytes) : Bytes :=
  let len : UInt64 := payload.length.toUInt64
  [0x80 ||| (opcode &&& 0x0F)]
    ++ (if len < 126 then [len.toUInt8]
      else if len < 65536 then [126, (len >>> 8).toUInt8, len.toUInt8]
      else [127] ++ bigEndian len)
    ++ payload

/-! ## More data -/

variable {b1 : UInt8} {n : ℕ} {out : WsFrame} {buf : Bytes}

lemma frameLength_within {tail len ext} (h : frameLength b1 tail = some (len, ext)) : ext ≤ tail.length ∧ ext ≤ 8 := by
  simp only [frameLength] at h
  split at h
  · split at h
    · obtain ⟨-, rfl⟩ : _ ∧ 2 = ext := by simpa using h
      simp
    · simp at h
  · split at h
    · split at h
      · simp at h
      · obtain ⟨-, rfl⟩ : _ ∧ 8 = ext := by simpa using h
        omega
    · obtain ⟨-, rfl⟩ : _ ∧ 0 = ext := by simpa using h
      omega

lemma frameLength_append {tail x} (h : frameLength b1 tail = some x)
    (more : Bytes) : frameLength b1 (tail ++ more) = some x := by
  simp only [frameLength] at h ⊢
  split at h
  · rename_i hmedium
    rw [if_pos hmedium]
    split at h
    · exact h
    · simp at h
  · rename_i hmedium
    rw [if_neg hmedium]
    split at h
    · rename_i hlong
      rw [if_pos hlong]
      split at h
      · simp at h
      · rw [if_neg (by rw [length_append]; omega), take_append_of_le_length (by omega)]
        exact h
    · rename_i hlong
      rw [if_neg hlong]
      exact h

section

variable {masked : Bool} {off len : ℕ} {rest : Bytes} {frame : Bytes → WsFrame}
  (h : parsePayload masked off len rest frame = .done n out)
include h

lemma parsePayload_append (more : Bytes) :
    parsePayload masked off len (rest ++ more) frame = .done n out := by
  cases masked with
  | false =>
    simp only [parsePayload, Bool.false_eq_true, if_false] at h ⊢
    split at h
    · simp at h
    · rw [if_neg (by rw [length_append]; omega), take_append_of_le_length (by omega)]
      exact h
  | true =>
    simp only [parsePayload, if_true] at h ⊢
    split at h
    · simp only [cons_append]
      split at h
      · simp at h
      · rw [if_neg (by rw [length_append]; omega), take_append_of_le_length (by omega)]
        exact h
    · simp at h

lemma parsePayload_within : off ≤ n ∧ n ≤ off + rest.length := by
  cases masked with
  | false =>
    simp only [parsePayload, Bool.false_eq_true, if_false] at h
    split at h
    · simp at h
    · obtain ⟨rfl, -⟩ : off + len = n ∧ _ := by simpa using h
      omega
  | true =>
    simp only [parsePayload, if_true] at h
    split at h
    · split at h
      · simp at h
      · obtain ⟨rfl, -⟩ : off + 4 + len = n ∧ _ := by simpa using h
        simp only [length_cons]
        omega
    · simp at h

end

lemma parsePayload_ne_bad (masked : Bool) (off len : ℕ) (rest : Bytes) (frame : Bytes → WsFrame) :
    parsePayload masked off len rest frame ≠ .bad := by
  unfold parsePayload
  split
  · split
    · split <;> simp
    · simp
  · split <;> simp

/-- A frame that was found. -/
lemma parseFrame_done (h : parseFrame buf = .done n out) :
    ∃ b0 b1 tail len ext, buf = b0 :: b1 :: tail ∧ frameLength b1 tail = some (len, ext) ∧ ¬ len > maxFrame ∧
      parsePayload (b1 &&& 0x80 ≠ 0) (2 + ext) len.toNat (tail.drop ext) (⟨b0 &&& 0x80 ≠ 0, b0 &&& 0x0F, ·⟩)
        = .done n out := by
  match buf with
  | b0 :: b1 :: tail =>
    cases hlen : frameLength b1 tail with
    | none => simp [parseFrame, hlen] at h
    | some x =>
      obtain ⟨len, ext⟩ := x
      simp only [parseFrame, hlen] at h
      split at h
      · simp at h
      · rename_i hmax
        exact ⟨b0, b1, tail, len, ext, rfl, hlen, hmax, h⟩
  | [] => simp [parseFrame] at h
  | [_] => simp [parseFrame] at h

/-- A frame lies within the buffer. -/
lemma parseFrame_within (h : parseFrame buf = .done n out) :
    0 < n ∧ n ≤ buf.length := by
  obtain ⟨b0, b1, tail, len, ext, rfl, hlen, -, hpay⟩ := parseFrame_done h
  have hext := frameLength_within hlen
  have hwithin := parsePayload_within hpay
  rw [length_drop] at hwithin
  simp only [length_cons]
  omega

/-- **A frame stays what it was when more arrives.** -/
lemma parseFrame_append (h : parseFrame buf = .done n out) (more : Bytes) :
    parseFrame (buf ++ more) = .done n out := by
  obtain ⟨b0, b1, tail, len, ext, rfl, hlen, hmax, hpay⟩ := parseFrame_done h
  simp only [cons_append, parseFrame, frameLength_append hlen more, if_neg hmax]
  rw [drop_append_of_le_length (frameLength_within hlen).1]
  exact parsePayload_append hpay more

/-- So does a protocol error. -/
lemma parseFrame_bad_append (h : parseFrame buf = .bad) (more : Bytes) :
    parseFrame (buf ++ more) = .bad := by
  match buf with
  | b0 :: b1 :: tail =>
    cases hlen : frameLength b1 tail with
    | none => simp [parseFrame, hlen] at h
    | some x =>
      obtain ⟨len, ext⟩ := x
      simp only [parseFrame, hlen] at h
      simp only [cons_append, parseFrame, frameLength_append hlen more]
      split at h
      · rename_i hmax
        rw [if_pos hmax]
      · exact absurd h (parsePayload_ne_bad _ _ _ _ _)
  | [] => simp [parseFrame] at h
  | [_] => simp [parseFrame] at h

/-- A buffer that waits for the rest of a frame has less than the longest frame. -/
lemma parseFrame_more_length (h : parseFrame buf = .more) : buf.length < 14 + maxFrame.toNat := by
  have hmaxFrame : maxFrame.toNat = 67108864 := rfl
  match buf with
  | b0 :: b1 :: tail =>
    cases hlen : frameLength b1 tail with
    | none =>
      have hshort : tail.length < 8 := by
        simp only [frameLength] at hlen
        split at hlen
        · split at hlen
          · simp at hlen
          · rename_i hnot
            match tail, hnot with
            | [], _ => simp
            | [_], _ => simp
            | b2 :: b3 :: rest, hnot => exact absurd rfl (hnot b2 b3 rest)
        · split at hlen
          · split at hlen
            · assumption
            · simp at hlen
          · simp at hlen
      simp only [length_cons]
      omega
    | some x =>
      obtain ⟨len, ext⟩ := x
      have hext := frameLength_within hlen
      simp only [parseFrame, hlen] at h
      split at h
      · simp at h
      · rename_i hmax
        have hle : len.toNat ≤ maxFrame.toNat := UInt64.le_iff_toNat_le.mp (UInt64.not_lt.mp hmax)
        have hrest : (tail.drop ext).length < 4 + len.toNat := by
          unfold parsePayload at h
          split at h
          · split at h
            · rename_i heq
              split at h
              · rw [heq]
                simp only [length_cons]
                omega
              · simp at h
            · rename_i hnot
              match hdrop : tail.drop ext, hnot with
              | [], _ => simp
              | [_], _ => simp; omega
              | [_, _], _ => simp; omega
              | [_, _, _], _ => simp; omega
              | k0 :: k1 :: k2 :: k3 :: rest, hnot => exact absurd rfl (hnot k0 k1 k2 k3 rest)
          · split at h
            · omega
            · simp at h
        rw [length_drop] at hrest
        simp only [length_cons]
        omega
  | [] => simp
  | [_] => simp; omega

/-! ## Frames as they are sent -/

/-- The three forms of a length. -/
inductive LengthForm where
  | short
  | medium
  | long
deriving DecidableEq, Repr

/-- The form can say the length. -/
def LengthForm.Holds : LengthForm → ℕ → Prop
  | .short, n => n < 126
  | .medium, n => n < 65536
  | .long, n => n < 2 ^ 64

/-- The short length. -/
def LengthForm.code : LengthForm → ℕ → UInt8
  | .short, n => n.toUInt8
  | .medium, _ => 126
  | .long, _ => 127

/-- The length behind it. -/
def LengthForm.bytes : LengthForm → ℕ → Bytes
  | .short, _ => []
  | .medium, n => [(n / 256).toUInt8, n.toUInt8]
  | .long, n => bigEndian n.toUInt64

/-- A frame of a client, with or without a mask. -/
structure SentFrame where
  fin : Bool
  opcode : UInt8
  key : Option (Fin 4 → UInt8)
  form : LengthForm
  payload : Bytes

namespace SentFrame

/-- The opcode has four bits, and the form of the length can say the length. -/
structure Sendable (f : SentFrame) : Prop where
  opcode : f.opcode < 16
  length : f.form.Holds f.payload.length

def bytes (f : SentFrame) : Bytes :=
  [(if f.fin then 0x80 else 0) ||| f.opcode, (if f.key.isSome then 0x80 else 0) ||| f.form.code f.payload.length]
    ++ f.form.bytes f.payload.length
    ++ match f.key with
      | none => f.payload
      | some key => [key 0, key 1, key 2, key 3] ++ unmask key f.payload

/-- What the frame is to be read as. -/
def frame (f : SentFrame) : WsFrame := ⟨f.fin, f.opcode, f.payload⟩

end SentFrame

/-- Masking twice is not masking. -/
lemma unmask_unmask (key : Fin 4 → UInt8) (bytes : Bytes) : unmask key (unmask key bytes) = bytes := by
  refine ext_getElem (by simp [unmask]) ?_
  intro i h₁ h₂
  simp [unmask]

@[simp] lemma length_unmask (key : Fin 4 → UInt8) (bytes : Bytes) : (unmask key bytes).length = bytes.length := by
  simp [unmask]

lemma vec_eta (key : Fin 4 → UInt8) : ![key 0, key 1, key 2, key 3] = key := by
  funext i
  fin_cases i <;> rfl

/-- The bits of the first byte. -/
lemma first_byte (fin : Bool) {opcode : UInt8} (h : opcode < 16) :
    (decide (((if fin then 0x80 else 0) ||| opcode) &&& 0x80 ≠ 0) = fin) ∧
      ((if fin then 0x80 else 0) ||| opcode) &&& 0x0F = opcode := by
  have hall : ∀ fin : Bool, ∀ i : Fin 256, UInt8.ofNat i.val < 16 →
      (decide (((if fin then 0x80 else 0) ||| UInt8.ofNat i.val) &&& 0x80 ≠ 0) = fin) ∧
        ((if fin then 0x80 else 0) ||| UInt8.ofNat i.val) &&& 0x0F = UInt8.ofNat i.val := by decide +kernel
  simpa using hall fin ⟨opcode.toNat, opcode.toNat_lt⟩ (by simpa using h)

/-- The bits of the second byte. -/
lemma second_byte (masked : Bool) {code : UInt8} (h : code < 128) :
    (decide (((if masked then 0x80 else 0) ||| code) &&& 0x80 ≠ 0) = masked) ∧
      ((if masked then 0x80 else 0) ||| code) &&& 0x7F = code := by
  have hall : ∀ masked : Bool, ∀ i : Fin 256, UInt8.ofNat i.val < 128 →
      (decide (((if masked then 0x80 else 0) ||| UInt8.ofNat i.val) &&& 0x80 ≠ 0) = masked) ∧
        ((if masked then 0x80 else 0) ||| UInt8.ofNat i.val) &&& 0x7F = UInt8.ofNat i.val := by decide +kernel
  simpa using hall masked ⟨code.toNat, code.toNat_lt⟩ (by simpa using h)

lemma LengthForm.code_lt {form : LengthForm} (h : form.Holds n) : form.code n < 128 := by
  cases form with
  | short =>
    have hn : n < 126 := h
    show n.toUInt8.toNat < 128
    rw [Nat.toUInt8_eq, UInt8.toNat_ofNat']
    omega
  | medium => exact (by decide : (126 : UInt8) < 128)
  | long => exact (by decide : (127 : UInt8) < 128)

/-- The length is read in the form in which it was written. -/
lemma frameLength_sent {form : LengthForm} (h : form.Holds n) (hb1 : b1 &&& 0x7F = form.code n)
    (rest : Bytes) : ∃ len, frameLength b1 (form.bytes n ++ rest) = some (len, (form.bytes n).length) ∧
      len.toNat = n := by
  simp only [frameLength, hb1]
  cases form with
  | short =>
    have hn : n < 126 := h
    have hcode : (LengthForm.short.code n).toNat = n := by
      show n.toUInt8.toNat = n
      rw [Nat.toUInt8_eq, UInt8.toNat_ofNat']
      omega
    have hne : ∀ k : UInt8, k.toNat ≠ n → LengthForm.short.code n ≠ k := by
      rintro k hk rfl
      exact hk hcode
    rw [if_neg (hne 126 (by show 126 ≠ n; omega)), if_neg (hne 127 (by show 127 ≠ n; omega))]
    exact ⟨_, rfl, by rw [UInt8.toNat_toUInt64, hcode]⟩
  | medium =>
    have hn : n < 65536 := h
    refine ⟨_, rfl, ?_⟩
    have hhigh : ((n / 256).toUInt8).toNat = n / 256 := by
      rw [Nat.toUInt8_eq, UInt8.toNat_ofNat']
      omega
    have hlow : (n.toUInt8).toNat = n % 256 := by
      rw [Nat.toUInt8_eq, UInt8.toNat_ofNat']
    have hword : ((n / 256).toUInt8.toUInt64).toNat = n / 256 := by rw [UInt8.toNat_toUInt64, hhigh]
    rw [shift_byte_toNat _ _ (by rw [hword]; omega), hword, hlow]
    omega
  | long =>
    have hn : n < 2 ^ 64 := h
    have hlen : ¬ ((LengthForm.long.bytes n ++ rest).length < 8) := by
      simp [LengthForm.bytes]
    have htake : (LengthForm.long.bytes n ++ rest).take 8 = bigEndian n.toUInt64 := take_left' rfl
    have hcode : LengthForm.long.code n = 127 := rfl
    rw [hcode, if_neg (by decide), if_pos rfl, if_neg hlen, htake, ofBigEndian_bigEndian]
    refine ⟨_, rfl, ?_⟩
    rw [Nat.toUInt64_eq, UInt64.toNat_ofNat', Nat.mod_eq_of_lt hn]

/-- **A frame is read as it was meant**, masked or not and whatever follows, unless its payload is too long. -/
theorem parseFrame_sent {f : SentFrame} (hf : f.Sendable) (rest : Bytes) :
    parseFrame (f.bytes ++ rest) =
      if f.payload.length > maxFrame.toNat then .bad else .done f.bytes.length f.frame := by
  obtain ⟨fin, opcode, key, form, payload⟩ := f
  obtain ⟨hop, hform⟩ := hf
  obtain ⟨hfin, hopcode⟩ := first_byte fin hop
  obtain ⟨hmasked, hcode⟩ := second_byte key.isSome (LengthForm.code_lt hform)
  -- the payload with its key, as it follows the length
  obtain ⟨body, hbody, hpay⟩ : ∃ body, SentFrame.bytes ⟨fin, opcode, key, form, payload⟩
      = [(if fin then 0x80 else 0) ||| opcode, (if key.isSome then 0x80 else 0) ||| form.code payload.length]
        ++ form.bytes payload.length ++ body ∧
      ∀ off, parsePayload key.isSome off payload.length (body ++ rest) (⟨fin, opcode, ·⟩)
        = .done (off + body.length) ⟨fin, opcode, payload⟩ := by
    cases key with
    | none =>
      refine ⟨payload, rfl, fun off => ?_⟩
      simp only [parsePayload, Option.isSome_none, Bool.false_eq_true, if_false]
      rw [if_neg (by rw [length_append]; omega), take_left]
    | some key =>
      refine ⟨[key 0, key 1, key 2, key 3] ++ unmask key payload, rfl, fun off => ?_⟩
      simp only [parsePayload, Option.isSome_some, if_true, cons_append, nil_append, length_cons,
        length_unmask, vec_eta]
      rw [if_neg (by rw [length_append, length_unmask]; omega), take_left' (length_unmask key payload),
        unmask_unmask]
      congr 1
      omega
  obtain ⟨len, hlen, hnat⟩ := frameLength_sent hform hcode (body ++ rest)
  rw [hbody]
  simp only [cons_append, nil_append, append_assoc, parseFrame, hlen, drop_left, hmasked, hfin,
    hopcode, hnat]
  have hcmp : len > maxFrame ↔ payload.length > maxFrame.toNat := by
    rw [gt_iff_lt, UInt64.lt_iff_toNat_lt, hnat]
  by_cases hmax : payload.length > maxFrame.toNat
  · rw [if_pos (hcmp.mpr hmax), if_pos hmax]
  · rw [if_neg (mt hcmp.mp hmax), if_neg hmax, hpay]
    simp [SentFrame.frame]
    omega

/-! ## The codec -/

/-- The form that `encode_frame` takes. -/
def LengthForm.of (n : ℕ) : LengthForm := if n < 126 then .short else if n < 65536 then .medium else .long

lemma LengthForm.of_holds (h : n < 2 ^ 64) : (LengthForm.of n).Holds n := by
  unfold LengthForm.of
  split
  · assumption
  · split
    · assumption
    · exact h

/-- What the server writes is a frame without a mask. -/
lemma encodeFrame_eq {opcode payload} (hop : opcode < 16) (hlen : payload.length < 2 ^ 64) :
    encodeFrame opcode payload = SentFrame.bytes ⟨true, opcode, none, .of payload.length, payload⟩ := by
  have hnat : payload.length.toUInt64.toNat = payload.length := by
    rw [Nat.toUInt64_eq, UInt64.toNat_ofNat', Nat.mod_eq_of_lt hlen]
  have hshort : payload.length.toUInt64 < 126 ↔ payload.length < 126 := by
    rw [UInt64.lt_iff_toNat_lt, hnat]
    rfl
  have hmedium : payload.length.toUInt64 < 65536 ↔ payload.length < 65536 := by
    rw [UInt64.lt_iff_toNat_lt, hnat]
    rfl
  have hbits : opcode &&& 0x0F = opcode := by simpa using (first_byte false hop).2
  have hlow : payload.length.toUInt64.toUInt8 = payload.length.toUInt8 := UInt8.toNat_inj.mp (by simp)
  have hhigh : (payload.length.toUInt64 >>> 8).toUInt8 = (payload.length / 256).toUInt8 := by
    refine UInt8.toNat_inj.mp ?_
    rw [UInt64.toNat_toUInt8, UInt64.toNat_shiftRight, hnat]
    simp [Nat.shiftRight_eq_div_pow]
  simp only [encodeFrame, SentFrame.bytes, hbits, hshort, hmedium, hlow, hhigh, LengthForm.of]
  by_cases h₁ : payload.length < 126
  · simp [h₁, LengthForm.code, LengthForm.bytes]
  · by_cases h₂ : payload.length < 65536
    · simp [h₁, h₂, LengthForm.code, LengthForm.bytes]
    · simp [h₁, h₂, LengthForm.code, LengthForm.bytes]

/-- A frame is read whole, whatever follows, and not before its last byte. -/
structure FrameReadsBack (bytes : Bytes) (frame : WsFrame) : Prop where
  whole : ∀ rest, parseFrame (bytes ++ rest) = .done bytes.length frame
  part : ∀ part, part <+: bytes → part ≠ bytes → parseFrame part = .more

lemma sent_readBack {f : SentFrame} (hf : f.Sendable) (hmax : f.payload.length ≤ maxFrame.toNat) :
    FrameReadsBack f.bytes f.frame := by
  have hwhole : ∀ rest, parseFrame (f.bytes ++ rest) = .done f.bytes.length f.frame := by
    intro rest
    rw [parseFrame_sent hf, if_neg (Nat.not_lt.mpr hmax)]
  have hitem : parseFrame f.bytes = .done f.bytes.length f.frame := by simpa using hwhole []
  exact ⟨hwhole, fun part hpart hne => parse_part (fun h => (parseFrame_within h).2) parseFrame_append
    parseFrame_bad_append hitem hpart hne⟩

/-- **The codec.**  What the server writes and what a client sends under a mask is read back in each form of the length,
if the payload has at most 64 MiB; a longer one is refused. -/
theorem frames_readBack :
    (∀ opcode payload, opcode < 16 → payload.length ≤ maxFrame.toNat →
      FrameReadsBack (encodeFrame opcode payload) ⟨true, opcode, payload⟩) ∧
    (∀ f : SentFrame, f.Sendable → f.key.isSome → f.payload.length ≤ maxFrame.toNat →
      FrameReadsBack f.bytes f.frame) ∧
    ∀ f : SentFrame, f.Sendable → f.key.isSome → maxFrame.toNat < f.payload.length →
      ∀ rest, parseFrame (f.bytes ++ rest) = .bad := by
  refine ⟨fun opcode payload hop hmax => ?_, fun f hf _ hmax => sent_readBack hf hmax, fun f hf _ hmax rest => ?_⟩
  · have hlen : payload.length < 2 ^ 64 := lt_of_le_of_lt hmax (by decide)
    have hf : SentFrame.Sendable ⟨true, opcode, none, .of payload.length, payload⟩ :=
      ⟨hop, LengthForm.of_holds hlen⟩
    rw [encodeFrame_eq hop hlen]
    exact sent_readBack hf hmax
  · rw [parseFrame_sent hf, if_pos hmax]

theorem frames_readBack_ping :
    SentFrame.Sendable ⟨true, opPing, some fun _ => 7, .long, [1, 2]⟩ ∧
      FrameReadsBack (encodeFrame opPing [1, 2]) ⟨true, opPing, [1, 2]⟩ ∧
      FrameReadsBack [0x89, 0xFF, 0, 0, 0, 0, 0, 0, 0, 2, 7, 7, 7, 7, 6, 5] ⟨true, opPing, [1, 2]⟩ :=
  have hf : SentFrame.Sendable ⟨true, opPing, some fun _ => 7, .long, [1, 2]⟩ :=
    ⟨by decide, show 2 < 2 ^ 64 by norm_num⟩
  ⟨hf, frames_readBack.1 opPing [1, 2] (by decide) (by decide), frames_readBack.2.1 _ hf rfl (by decide)⟩

/-- One byte more than 64 MiB, under a mask and with the long form of the length. -/
theorem longFrame_refused :
    SentFrame.Sendable ⟨true, opBinary, some fun _ => 0, .long, List.replicate 67108865 0⟩ ∧
      parseFrame (SentFrame.bytes ⟨true, opBinary, some fun _ => 0, .long, List.replicate 67108865 0⟩) = .bad := by
  have hf : SentFrame.Sendable ⟨true, opBinary, some fun _ => 0, .long, List.replicate 67108865 0⟩ := by
    refine ⟨by decide, ?_⟩
    show (List.replicate 67108865 (0 : UInt8)).length < 2 ^ 64
    norm_num
  have hread := parseFrame_sent hf []
  rw [append_nil, if_pos (by rw [length_replicate]; decide)] at hread
  exact ⟨hf, hread⟩

end Caf.Pomelo
