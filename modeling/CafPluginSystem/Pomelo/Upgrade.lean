import CafPluginSystem.Pomelo.WebSocket

/-!
# The upgrade to WebSocket

A client that speaks WebSocket starts with an HTTP request; the endpoint answers it with a hash of the key in its head
(`pomelo_ws.cpp`, `extract_ws_key`).  The hash is SHA-1 and it is written in base 64, both by hand.

* `splitText_append` — the end of the head stays where it was found when more arrives.
-/

namespace Caf.Pomelo

open List

/-! ## SHA-1 -/

/-- `Sha1`: the five words, the number of bytes so far, and the bytes of the block that is not full. -/
structure Sha1 where
  h : List UInt32 := [0x67452301, 0xEFCDAB89, 0x98BADCFE, 0x10325476, 0xC3D2E1F0]
  len : UInt64 := 0
  buf : Bytes := []
deriving DecidableEq, Repr

namespace Sha1

def rol (v : UInt32) (n : UInt32) : UInt32 := (v <<< n) ||| (v >>> (32 - n))

/-- Four bytes as a word. -/
def word (b0 b1 b2 b3 : UInt8) : UInt32 :=
  (b0.toUInt32 <<< 24) ||| (b1.toUInt32 <<< 16) ||| (b2.toUInt32 <<< 8) ||| b3.toUInt32

/-- The sixteen words of a block. -/
def words : Bytes → List UInt32
  | b0 :: b1 :: b2 :: b3 :: rest => word b0 b1 b2 b3 :: words rest
  | _ => []

/-- The words after them: `w[i] = rol(w[i - 3] ^ w[i - 8] ^ w[i - 14] ^ w[i - 16], 1)`. -/
def extend (w : List UInt32) : ℕ → List UInt32
  | 0 => w
  | n + 1 =>
    let w := extend w n
    let i := w.length
    w ++ [rol (w.getD (i - 3) 0 ^^^ w.getD (i - 8) 0 ^^^ w.getD (i - 14) 0 ^^^ w.getD (i - 16) 0) 1]

/-- The five variables of a round. -/
structure Vars where
  a : UInt32
  b : UInt32
  c : UInt32
  d : UInt32
  e : UInt32

/-- The function and the constant of round `i`. -/
def mix (i : ℕ) (b c d : UInt32) : UInt32 × UInt32 :=
  if i < 20 then ((b &&& c) ||| (~~~b &&& d), 0x5A827999)
  else if i < 40 then (b ^^^ c ^^^ d, 0x6ED9EBA1)
  else if i < 60 then ((b &&& c) ||| (b &&& d) ||| (c &&& d), 0x8F1BBCDC)
  else (b ^^^ c ^^^ d, 0xCA62C1D6)

def round (v : Vars) (i : ℕ) (w : UInt32) : Vars :=
  let (f, k) := mix i v.b v.c v.d
  { a := rol v.a 5 + f + v.e + k + w, b := v.a, c := rol v.b 30, d := v.c, e := v.d }

/-- `block`: a full block is worked into the five words. -/
def block (h : List UInt32) (p : Bytes) : List UInt32 :=
  match h with
  | [h0, h1, h2, h3, h4] =>
    let w := extend (words p) 64
    let v := (List.range 80).foldl (fun v i => round v i (w.getD i 0)) ⟨h0, h1, h2, h3, h4⟩
    [h0 + v.a, h1 + v.b, h2 + v.c, h3 + v.d, h4 + v.e]
  | _ => h

/-- The loop of `update`: the block takes as many bytes as it has room for, and is worked in when it is full.  Every
round takes a byte at least. -/
def absorb : ℕ → Sha1 → Bytes → Sha1
  | 0, s, _ => s
  | rounds + 1, s, data =>
    if data.isEmpty then s
    else
      let take := min (64 - s.buf.length) data.length
      let buf := s.buf ++ data.take take
      let s := if buf.length = 64 then { s with h := block s.h buf, buf := [] } else { s with buf }
      absorb rounds s (data.drop take)

/-- `update`. -/
def update (s : Sha1) (data : Bytes) : Sha1 :=
  absorb data.length { s with len := s.len + data.length.toUInt64 } data

/-- `finish`: a one bit, zeros up to the last eight bytes of a block, and the number of bits. -/
def finish (s : Sha1) : Bytes :=
  let bits := s.len * 8
  let s := s.update [0x80]
  let remain := 64 - s.buf.length
  let s := if remain < 8 then s.update (List.replicate remain 0) else s
  let remain := if remain < 8 then 64 else remain
  let s := s.update (List.replicate (remain - 8) 0)
  let h := block s.h (s.buf ++ Framing.bigEndian bits)
  h.flatMap fun w : UInt32 => [(w >>> 24).toUInt8, (w >>> 16).toUInt8, (w >>> 8).toUInt8, w.toUInt8]

end Sha1

/-! ## Base 64 -/

/-- `k_b64`. -/
def b64 : Bytes := str "ABCDEFGHIJKLMNOPQRSTUVWXYZabcdefghijklmnopqrstuvwxyz0123456789+/"

/-- `k_b64[(v >> shift) & 0x3F]`. -/
def b64Digit (v : UInt32) (shift : UInt32) : UInt8 := b64.getD ((v >>> shift) &&& 0x3F).toNat 0

/-- `base64`. -/
def base64 : Bytes → Bytes
  | d0 :: d1 :: d2 :: rest =>
    let v := (d0.toUInt32 <<< 16) ||| (d1.toUInt32 <<< 8) ||| d2.toUInt32
    [b64Digit v 18, b64Digit v 12, b64Digit v 6, b64Digit v 0] ++ base64 rest
  | [d0, d1] =>
    let v := (d0.toUInt32 <<< 16) ||| (d1.toUInt32 <<< 8)
    [b64Digit v 18, b64Digit v 12, b64Digit v 6] ++ str "="
  | [d0] =>
    let v := d0.toUInt32 <<< 16
    [b64Digit v 18, b64Digit v 12] ++ str "=="
  | [] => []

/-- `handshake_response`. -/
def handshakeResponse (key : Bytes) : Bytes :=
  let joined := key ++ str "258EAFA5-E914-47DA-95CA-C5AB0DC85B11"
  let accept := base64 (({} : Sha1).update joined).finish
  str "HTTP/1.1 101 Switching Protocols\r\nUpgrade: websocket\r\nConnection: Upgrade\r\nSec-WebSocket-Accept: "
    ++ accept ++ str "\r\n\r\n"

/-- The example of RFC 6455. -/
example : base64 (({} : Sha1).update (str "dGhlIHNhbXBsZSBub25jZQ==258EAFA5-E914-47DA-95CA-C5AB0DC85B11")).finish
    = str "s3pPLMBiTxaQ9kYGzzhZRbK+xOo=" := by decide +kernel

/-! ## The head of the request -/

/-- `find` for a text, with what is before it and what is behind it. -/
def splitText (needle : Bytes) : Bytes → Option (Bytes × Bytes)
  | [] => if needle.isEmpty then some ([], []) else none
  | b :: bs =>
    if needle.isPrefixOf (b :: bs) then some ([], (b :: bs).drop needle.length)
    else (splitText needle bs).map fun (front, back) => (b :: front, back)

/-- The end of a head. -/
def crlf2 : Bytes := str "\r\n\r\n"

/-- `looks_like_http_upgrade`. -/
def looksLikeHttpUpgrade (buf : Bytes) : Bool := if buf.length < 4 then false else buf.take 4 == str "GET "

/-- `extract_ws_key`; the empty text if there is none. -/
def extractWsKey (head : Bytes) : Bytes :=
  match splitText (str "Sec-WebSocket-Key:") head with
  | none => []
  | some (_, rest) =>
    let rest := rest.dropWhile fun c => c == 32 || c == 9
    match splitText (str "\r\n") rest with
    | none => rest
    | some (key, _) => key

variable {needle text front back : Bytes} (h : splitText needle text = some (front, back))
include h

lemma splitText_some :
    text = front ++ needle ++ back := by
  induction text generalizing front with
  | nil =>
    simp only [splitText] at h
    split at h
    · rename_i hempty
      obtain ⟨rfl, rfl⟩ : [] = front ∧ [] = back := by simpa using h
      simpa using hempty.symm
    · simp at h
  | cons b bs ih =>
    simp only [splitText] at h
    split at h
    · rename_i hfront
      obtain ⟨rfl, rfl⟩ : [] = front ∧ (b :: bs).drop needle.length = back := by simpa using h
      obtain ⟨rest, hrest⟩ := List.isPrefixOf_iff_prefix.mp hfront
      rw [← hrest, nil_append, drop_left]
    · obtain ⟨⟨front', back'⟩, hsplit, heq⟩ := Option.map_eq_some_iff.mp h
      obtain ⟨rfl, rfl⟩ : b :: front' = front ∧ back' = back := by simpa using heq
      rw [ih hsplit]
      simp

/-- **The first occurrence stays the first one when more arrives**: one before it would end before it too. -/
lemma splitText_append
    (hne : needle ≠ []) (more : Bytes) : splitText needle (text ++ more) = some (front, back ++ more) := by
  induction text generalizing front with
  | nil => simp [splitText, hne] at h
  | cons b bs ih =>
    simp only [splitText] at h
    simp only [cons_append, splitText]
    split at h
    · rename_i hfront
      obtain ⟨rfl, rfl⟩ : [] = front ∧ (b :: bs).drop needle.length = back := by simpa using h
      obtain ⟨rest, hrest⟩ := List.isPrefixOf_iff_prefix.mp hfront
      have hmore : needle.isPrefixOf (b :: (bs ++ more)) = true := by
        rw [List.isPrefixOf_iff_prefix, ← cons_append, ← hrest, append_assoc]
        exact prefix_append _ _
      rw [if_pos hmore, ← cons_append, ← hrest, append_assoc, drop_left, drop_left]
    · rename_i hfront
      obtain ⟨⟨front', back'⟩, hsplit, heq⟩ := Option.map_eq_some_iff.mp h
      obtain ⟨rfl, rfl⟩ : b :: front' = front ∧ back' = back := by simpa using heq
      -- the rest holds an occurrence, so it is as long as the text that is looked for
      have hlen : needle.length ≤ bs.length := by
        rw [splitText_some hsplit]
        simp only [length_append]
        omega
      have hmore : ¬ needle.isPrefixOf (b :: (bs ++ more)) = true := by
        rw [List.isPrefixOf_iff_prefix, ← cons_append]
        intro hp
        refine hfront (List.isPrefixOf_iff_prefix.mpr ?_)
        exact prefix_of_prefix_length_le hp (prefix_append _ _) (by simp; omega)
      rw [if_neg hmore, ih hsplit]
      rfl

end Caf.Pomelo
