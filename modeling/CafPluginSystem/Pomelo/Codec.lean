import CafPluginSystem.EntityStore.Contract
import CafPluginSystem.Library.Varint

/-!
# Pomelo packages and messages

`pomelo_codec.hpp`.  A package is a type, a length of three bytes and a body.  The body of a `DATA` package is a message:
a flag with its type, the id of a request or a response in groups of seven bits, the route of a request, a notification
or a push behind its length, and the body.

* `parsePkg_encodePkg` — a package is read up to the length that its header could say: modulo `2 ^ 24`.
* `packages_readBack` — **streams of packages**: they are read back if and only if every body has less than `2 ^ 24`
  bytes; `kMaxBody` is one more.
* `parseMsg_encodeMsg`, `message_readBack` — a message with a route that has a length is read as it was written.
* `message_id_exact` — the id is the number that was sent, if that has 32 bits.
* `emitted_decodable` — **frames of the endpoint**: what it writes for a response or a push can be read back if and only
  if the message has less than `2 ^ 24` bytes and its route at most 255.
-/

namespace Caf.Pomelo

open List

variable {buf route : Bytes} {type : UInt8} {n : ℕ}

/-! ## Types and limits -/

def pkgHandshake : UInt8 := 1
def pkgHandshakeAck : UInt8 := 2
def pkgHeartbeat : UInt8 := 3
def pkgData : UInt8 := 4
def pkgKick : UInt8 := 5

def msgRequest : UInt8 := 0
def msgNotify : UInt8 := 1
def msgResponse : UInt8 := 2
def msgPush : UInt8 := 3

/-- `kMaxBody`. -/
def maxBody : UInt32 := 16 * 1024 * 1024

/-- What a parser finds at the front of a buffer: not enough data (0), a protocol error (-1), or an item with the number
of bytes it takes. -/
inductive Parse (α : Type) where
  | more
  | bad
  | done (consumed : ℕ) (out : α)
deriving DecidableEq, Repr

/-- Before its last byte an item is not complete, where what was recognised stays so and lies within the buffer. -/
lemma parse_part {α : Type} {p : Bytes → Parse α} {item part : Bytes} {out : α}
    (hwithin : ∀ {buf n out}, p buf = .done n out → n ≤ buf.length)
    (hdone : ∀ {buf n out}, p buf = .done n out → ∀ more, p (buf ++ more) = .done n out)
    (hbad : ∀ {buf}, p buf = .bad → ∀ more, p (buf ++ more) = .bad)
    (hitem : p item = .done item.length out) (hpart : part <+: item) (hne : part ≠ item) :
    p part = .more := by
  obtain ⟨rest, rfl⟩ := hpart
  cases hp : p part with
  | more => rfl
  | bad => exact absurd (hitem.symm.trans (hbad hp rest)) (by simp)
  | done n out' =>
    have hn := hwithin hp
    obtain ⟨hlen, -⟩ : (part ++ rest).length = n ∧ out = out' := by
      simpa using hitem.symm.trans (hdone hp rest)
    have hrest : rest = [] := length_eq_zero_iff.mp (by rw [length_append] at hlen; omega)
    simp [hrest] at hne

/-! ## Packages -/

structure ParsedPkg where
  type : UInt8
  body : Bytes
deriving DecidableEq, Repr

/-- `encode_pkg`. -/
def encodePkg (type : UInt8) (body : Bytes) : Bytes :=
  let len : UInt32 := body.length.toUInt32
  [type, (len >>> 16).toUInt8, (len >>> 8).toUInt8, len.toUInt8] ++ body

/-- The length in a header. -/
def bodyLength (b1 b2 b3 : UInt8) : UInt32 := (b1.toUInt32 <<< 16) ||| (b2.toUInt32 <<< 8) ||| b3.toUInt32

/-- `parse_pkg`. -/
def parsePkg : Bytes → Parse ParsedPkg
  | type :: b1 :: b2 :: b3 :: rest =>
    let len := bodyLength b1 b2 b3
    if len > maxBody then .bad
    else if rest.length < len.toNat then .more
    else .done (4 + len.toNat) ⟨type, rest.take len.toNat⟩
  | _ => .more

lemma bodyLength_toNat (b1 b2 b3 : UInt8) :
    (bodyLength b1 b2 b3).toNat = b1.toNat * 65536 + b2.toNat * 256 + b3.toNat := by
  have h1 := b1.toNat_lt
  have h2 := b2.toNat_lt
  have h3 := b3.toNat_lt
  have hhigh : (b1.toUInt32 <<< 16).toNat = b1.toNat <<< 16 := by
    rw [UInt32.toNat_shiftLeft, UInt8.toNat_toUInt32]
    exact Nat.mod_eq_of_lt (by simp [Nat.shiftLeft_eq]; omega)
  have hmid : (b2.toUInt32 <<< 8).toNat = b2.toNat <<< 8 := by
    rw [UInt32.toNat_shiftLeft, UInt8.toNat_toUInt32]
    exact Nat.mod_eq_of_lt (by simp [Nat.shiftLeft_eq]; omega)
  have hlow : b2.toNat <<< 8 ||| b3.toNat = b2.toNat * 256 + b3.toNat := by
    rw [← Nat.shiftLeft_add_eq_or_of_lt (by omega), Nat.shiftLeft_eq]
  rw [bodyLength, UInt32.toNat_or, UInt32.toNat_or, hhigh, hmid, UInt8.toNat_toUInt32, Nat.or_assoc, hlow,
    ← Nat.shiftLeft_add_eq_or_of_lt (by omega), Nat.shiftLeft_eq]
  omega

/-- Three bytes cannot say more than the limit. -/
lemma bodyLength_lt (b1 b2 b3 : UInt8) : (bodyLength b1 b2 b3).toNat < 2 ^ 24 := by
  have h1 := b1.toNat_lt
  have h2 := b2.toNat_lt
  have h3 := b3.toNat_lt
  rw [bodyLength_toNat]
  omega

lemma bodyLength_le_maxBody (b1 b2 b3 : UInt8) : ¬ bodyLength b1 b2 b3 > maxBody := by
  have hlen := bodyLength_lt b1 b2 b3
  rw [gt_iff_lt, UInt32.lt_iff_toNat_lt]
  show ¬ 16777216 < _
  omega

lemma parsePkg_header (type b1 b2 b3 : UInt8) (rest : Bytes) :
    parsePkg (type :: b1 :: b2 :: b3 :: rest) =
      if rest.length < (bodyLength b1 b2 b3).toNat then .more
      else .done (4 + (bodyLength b1 b2 b3).toNat) ⟨type, rest.take (bodyLength b1 b2 b3).toNat⟩ := by
  rw [parsePkg, if_neg (bodyLength_le_maxBody b1 b2 b3)]

/-- The limit is never met: there is no protocol error at this level. -/
lemma parsePkg_ne_bad (buf : Bytes) : parsePkg buf ≠ .bad := by
  match buf with
  | type :: b1 :: b2 :: b3 :: rest =>
    rw [parsePkg_header]
    split
    · simp
    · simp
  | [] => simp [parsePkg]
  | [_] => simp [parsePkg]
  | [_, _] => simp [parsePkg]
  | [_, _, _] => simp [parsePkg]

/-- A buffer that waits for the rest of a package has less than the longest package. -/
lemma parsePkg_more_length (h : parsePkg buf = .more) : buf.length < 4 + 2 ^ 24 := by
  match buf with
  | type :: b1 :: b2 :: b3 :: rest =>
    have hlen := bodyLength_lt b1 b2 b3
    rw [parsePkg_header] at h
    split at h
    · simp only [length_cons]
      omega
    · simp at h
  | [] => simp
  | [_] => simp
  | [_, _] => simp
  | [_, _, _] => simp

variable {pkg : ParsedPkg}

/-- What a package that was found looks like. -/
lemma parsePkg_done (h : parsePkg buf = .done n pkg) :
    ∃ b1 b2 b3 rest, buf = pkg.type :: b1 :: b2 :: b3 :: (pkg.body ++ rest) ∧
      pkg.body.length = (bodyLength b1 b2 b3).toNat ∧ n = 4 + pkg.body.length := by
  match buf with
  | type :: b1 :: b2 :: b3 :: rest =>
    rw [parsePkg_header] at h
    split at h
    · simp at h
    · obtain ⟨rfl, rfl⟩ : 4 + (bodyLength b1 b2 b3).toNat = n ∧ _ = pkg := by simpa using h
      have htake : (rest.take (bodyLength b1 b2 b3).toNat).length = (bodyLength b1 b2 b3).toNat := by
        rw [length_take]
        omega
      exact ⟨b1, b2, b3, rest.drop (bodyLength b1 b2 b3).toNat, by rw [take_append_drop], htake, by rw [htake]⟩
  | [] => simp [parsePkg] at h
  | [_] => simp [parsePkg] at h
  | [_, _] => simp [parsePkg] at h
  | [_, _, _] => simp [parsePkg] at h

/-- A header and a body of its length. -/
lemma parsePkg_eq (type b1 b2 b3 : UInt8) {body} (rest : Bytes) (h : body.length = (bodyLength b1 b2 b3).toNat) :
    parsePkg (type :: b1 :: b2 :: b3 :: (body ++ rest)) = .done (4 + body.length) ⟨type, body⟩ := by
  rw [parsePkg_header, ← h, if_neg (by rw [length_append]; omega), take_left]

/-- A package lies within the buffer. -/
lemma parsePkg_within (h : parsePkg buf = .done n pkg) :
    4 ≤ n ∧ n ≤ buf.length := by
  obtain ⟨b1, b2, b3, rest, rfl, -, rfl⟩ := parsePkg_done h
  simp
  omega

/-- A package stays what it was when more arrives. -/
lemma parsePkg_append (h : parsePkg buf = .done n pkg) (more : Bytes) :
    parsePkg (buf ++ more) = .done n pkg := by
  obtain ⟨b1, b2, b3, rest, rfl, hlen, rfl⟩ := parsePkg_done h
  simp only [cons_append, append_assoc]
  exact parsePkg_eq pkg.type b1 b2 b3 (rest ++ more) hlen

/-- The header of an encoding says the length modulo `2 ^ 24`. -/
lemma bodyLength_encodePkg (len : ℕ) :
    (bodyLength (len.toUInt32 >>> 16).toUInt8 (len.toUInt32 >>> 8).toUInt8 len.toUInt32.toUInt8).toNat
      = len % 2 ^ 24 := by
  have h32 : len.toUInt32.toNat = len % 2 ^ 32 := by simp
  rw [bodyLength_toNat]
  simp only [UInt32.toNat_toUInt8, UInt32.toNat_shiftRight, h32]
  simp only [UInt32.reduceToNat, Nat.reduceMod, Nat.shiftRight_eq_div_pow]
  omega

/-- **Packages.**  A package is read with the part of its body that its header announces, whatever follows. -/
theorem parsePkg_encodePkg (type : UInt8) (body rest : Bytes) :
    parsePkg (encodePkg type body ++ rest) =
      .done (4 + body.length % 2 ^ 24) ⟨type, body.take (body.length % 2 ^ 24)⟩ := by
  have hle : body.length % 2 ^ 24 ≤ body.length := Nat.mod_le _ _
  simp only [encodePkg, cons_append, nil_append]
  rw [parsePkg_header, bodyLength_encodePkg, if_neg (by rw [length_append]; omega),
    take_append_of_le_length hle]

@[simp] lemma length_encodePkg (type : UInt8) (body : Bytes) : (encodePkg type body).length = 4 + body.length := by
  simp [encodePkg]
  omega

/-! ## Streams of packages -/

/-- `parse_pkg` again and again, in at most so many rounds: what it finds, and what is left. -/
def parsePkgsIn : ℕ → Bytes → List ParsedPkg × Bytes
  | 0, buf => ([], buf)
  | rounds + 1, buf =>
    match parsePkg buf with
    | .done n pkg => (parsePkgsIn rounds (buf.drop n)).map (pkg :: ·) id
    | _ => ([], buf)

/-- Every round takes bytes. -/
def parsePkgs (buf : Bytes) : List ParsedPkg × Bytes := parsePkgsIn buf.length buf

def ParsedPkg.encode (pkg : ParsedPkg) : Bytes := encodePkg pkg.type pkg.body

/-- The packages are found in what was written, and none of them before its last byte. -/
structure ReadsBack (pkgs : List ParsedPkg) : Prop where
  stream : parsePkgs (pkgs.flatMap ParsedPkg.encode) = (pkgs, [])
  part : ∀ pkg ∈ pkgs, ∀ part, part <+: pkg.encode → part ≠ pkg.encode → parsePkg part = .more

lemma parsePkg_encode (h : pkg.body.length < 2 ^ 24) (rest : Bytes) :
    parsePkg (pkg.encode ++ rest) = .done pkg.encode.length pkg := by
  rw [ParsedPkg.encode, parsePkg_encodePkg, Nat.mod_eq_of_lt h, take_length, length_encodePkg]

lemma parsePkgsIn_encode : ∀ {pkgs : List ParsedPkg} {rounds : ℕ}, pkgs.length ≤ rounds →
    (∀ pkg ∈ pkgs, pkg.body.length < 2 ^ 24) →
    parsePkgsIn rounds (pkgs.flatMap ParsedPkg.encode) = (pkgs, []) := by
  intro pkgs
  induction pkgs with
  | nil =>
    rintro (_ | rounds) - -
    · rfl
    · rfl
  | cons pkg pkgs ih =>
    intro rounds hrounds hlen
    obtain ⟨rounds, rfl⟩ : ∃ m, rounds = m + 1 := ⟨rounds - 1, by simp at hrounds; omega⟩
    have hfirst := parsePkg_encode (hlen pkg mem_cons_self) (pkgs.flatMap ParsedPkg.encode)
    have hrest := ih (Nat.le_of_succ_le_succ hrounds) fun q hq => hlen q (mem_cons_of_mem _ hq)
    simp only [flatMap_cons, parsePkgsIn, hfirst, drop_left, hrest, Prod.map_apply, id_eq]

/-- A package that no header can announce is taken for a shorter one before its end has come. -/
lemma ReadsBack.length_lt {pkgs} (h : ReadsBack pkgs) :
    ∀ pkg ∈ pkgs, pkg.body.length < 2 ^ 24 := by
  intro pkg hpkg
  by_contra hlong
  set len := pkg.body.length % 2 ^ 24 with hmod
  have hlt : len < 2 ^ 24 := Nat.mod_lt _ (by norm_num)
  have hpart := h.part pkg hpkg (pkg.encode.take (4 + len)) (List.take_prefix _ _) fun heq => by
    have hlen := congrArg List.length heq
    rw [length_take, ParsedPkg.encode, length_encodePkg] at hlen
    omega
  -- the part is the header with as much as it announces
  have htake : pkg.encode.take (4 + len) = pkg.type :: (pkg.body.length.toUInt32 >>> 16).toUInt8
      :: (pkg.body.length.toUInt32 >>> 8).toUInt8 :: pkg.body.length.toUInt32.toUInt8
      :: pkg.body.take len := by
    rw [Nat.add_comm]
    rfl
  rw [htake, parsePkg_header, bodyLength_encodePkg, ← hmod, if_neg (by rw [length_take]; omega)] at hpart
  simp at hpart

/-- **Streams of packages.**  The packages are read back, and none of them before its last byte, if and only if each has
a length that its header can say. -/
theorem packages_readBack (pkgs : List ParsedPkg) :
    ReadsBack pkgs ↔ ∀ pkg ∈ pkgs, pkg.body.length < 2 ^ 24 := by
  refine ⟨ReadsBack.length_lt, fun hlen => ⟨parsePkgsIn_encode ?_ hlen, fun pkg hpkg part hpart hne => ?_⟩⟩
  · have hcount := length_le_sum_of_one_le (pkgs.map fun pkg => pkg.encode.length) fun k hk => by
      obtain ⟨pkg, -, rfl⟩ := mem_map.mp hk
      rw [ParsedPkg.encode, length_encodePkg]
      omega
    rwa [length_map, ← length_flatMap] at hcount
  · have hitem : parsePkg pkg.encode = .done pkg.encode.length pkg := by
      simpa using parsePkg_encode (hlen pkg hpkg) []
    exact parse_part (fun h => (parsePkg_within h).2) parsePkg_append (fun h => absurd h (parsePkg_ne_bad _)) hitem
      hpart hne

/-- A body of `kMaxBody` bytes: the header says 0. -/
theorem maxBody_lost :
    (List.replicate (2 ^ 24) (0 : UInt8)).length = maxBody.toNat ∧
      parsePkg (encodePkg pkgData (List.replicate (2 ^ 24) 0)) = .done 4 ⟨pkgData, []⟩ ∧
      ¬ ReadsBack [⟨pkgData, List.replicate (2 ^ 24) 0⟩] := by
  refine ⟨by rw [length_replicate]; rfl, ?_, fun h => ?_⟩
  · have hread := parsePkg_encodePkg pkgData (List.replicate (2 ^ 24) 0) []
    rwa [append_nil, length_replicate, Nat.mod_self, take_zero] at hread
  · have hlen := h.length_lt _ mem_cons_self
    rw [length_replicate] at hlen
    exact lt_irrefl _ hlen

/-! ## Messages -/

structure ParsedMsg where
  id : UInt32 := 0
  type : UInt8
  route : Bytes := []
  body : Bytes
deriving DecidableEq, Repr

/-- The types with an id. -/
abbrev HasId (type : UInt8) : Prop := type = msgRequest ∨ type = msgResponse

/-- The types with a route. -/
abbrev HasRoute (type : UInt8) : Prop := type = msgRequest ∨ type = msgNotify ∨ type = msgPush

/-- `encode_msg`; an id takes at most five bytes. -/
def encodeMsg (id : UInt32) (type : UInt8) (route body : Bytes) : Bytes :=
  let out := [type <<< 1] ++ if HasId type then Varint.write 5 id else []
  if HasRoute type then
    if route.length > 255 then [] else out ++ [route.length.toUInt8] ++ route ++ body
  else out ++ body

/-- The id, if the type has one. -/
def readId (type : UInt8) (rest : Bytes) : Option (UInt32 × Bytes) :=
  if HasId type then Varint.read 5 0 0 rest else some (0, rest)

/-- The route behind its length, if the type has one. -/
def readRoute (type : UInt8) (rest : Bytes) : Option (Bytes × Bytes) :=
  if HasRoute type then
    match rest with
    | [] => none
    | rlen :: rest => if rlen.toNat > rest.length then none else some (rest.take rlen.toNat, rest.drop rlen.toNat)
  else some ([], rest)

/-- `parse_msg`. -/
def parseMsg : Bytes → Option ParsedMsg
  | [] => none
  | flag :: rest =>
    let type := (flag >>> 1) &&& 0x07
    if flag &&& 0x01 ≠ 0 ∨ flag &&& 0x10 ≠ 0 then none
    else if type > msgPush then none
    else (readId type rest).bind fun (id, rest) =>
      (readRoute type rest).map fun (route, body) => { id, type, route, body }

lemma readId_eq (type : UInt8) (id : UInt32) (rest : Bytes) :
    readId type ((if HasId type then Varint.write 5 id else []) ++ rest) = some (if HasId type then id else 0, rest) := by
  by_cases h : HasId type
  · rw [readId, if_pos h, if_pos h, if_pos h, Varint.read_write]
  · rw [readId, if_neg h, if_neg h, if_neg h, nil_append]

lemma readRoute_eq (htype : HasRoute type) (h : route.length ≤ 255) (body : Bytes) :
    readRoute type (route.length.toUInt8 :: (route ++ body)) = some (route, body) := by
  have hlen : route.length.toUInt8.toNat = route.length := by
    rw [Nat.toUInt8_eq, UInt8.toNat_ofNat']
    omega
  rw [readRoute, if_pos htype]
  simp only [hlen]
  rw [if_neg (by rw [length_append]; omega), take_left, drop_left]

/-- The flag of each type. -/
lemma flag_type (h : type ≤ msgPush) :
    (type <<< 1) &&& 0x01 = 0 ∧ (type <<< 1) &&& 0x10 = 0 ∧ ((type <<< 1) >>> 1) &&& 0x07 = type := by
  have hall : ∀ i : Fin 256, UInt8.ofNat i.val ≤ msgPush → (UInt8.ofNat i.val <<< 1) &&& 0x01 = 0 ∧
      (UInt8.ofNat i.val <<< 1) &&& 0x10 = 0 ∧ ((UInt8.ofNat i.val <<< 1) >>> 1) &&& 0x07 = UInt8.ofNat i.val := by
    decide +kernel
  simpa using hall ⟨type.toNat, type.toNat_lt⟩ (by simpa using h)

/-- **Messages.**  A message is read as it was written, if it has no route or the route has a length. -/
theorem parseMsg_encodeMsg (id : UInt32) (htype : type ≤ msgPush) (route body : Bytes)
    (hroute : HasRoute type → route.length ≤ 255) :
    parseMsg (encodeMsg id type route body) = some {
      id := if HasId type then id else 0
      type
      route := if HasRoute type then route else []
      body } := by
  obtain ⟨hcompress, hgzip, hshift⟩ := flag_type htype
  -- the flag is read back, and then part by part
  have hflag : ∀ rest : Bytes, parseMsg ((type <<< 1) :: rest) = (readId type rest).bind fun (id, rest) =>
      (readRoute type rest).map fun (route, body) => { id, type, route, body } := by
    intro rest
    simp only [parseMsg, hcompress, hgzip, hshift]
    rw [if_neg (by simp), if_neg (UInt8.not_lt.mpr htype)]
  by_cases hhas : HasRoute type
  · have hlen := hroute hhas
    rw [encodeMsg, if_pos hhas, if_neg (by omega)]
    simp only [cons_append, nil_append, append_assoc]
    rw [hflag, readId_eq, Option.bind_some]
    simp [readRoute_eq hhas hlen, if_pos hhas]
  · rw [encodeMsg, if_neg hhas]
    simp only [cons_append, nil_append]
    rw [hflag, readId_eq, Option.bind_some]
    simp [readRoute, if_neg hhas]

/-- **Round trip of messages.** -/
theorem message_readBack (id : UInt32) (type : UInt8) (route body : Bytes) (htype : type ≤ msgPush)
    (hroute : route.length ≤ 255) :
    ∃ m, parseMsg (encodeMsg id type route body) = some m ∧ m.type = type ∧ m.body = body ∧
      (HasId type → m.id = id) ∧ (HasRoute type → m.route = route) :=
  ⟨_, parseMsg_encodeMsg id htype route body fun _ => hroute, rfl, rfl, fun h => if_pos h, fun h => if_pos h⟩

theorem message_readBack_request :
    msgRequest ≤ msgPush ∧ (str "chat.send").length ≤ 255 ∧
      ∃ m, parseMsg (encodeMsg 4294967295 msgRequest (str "chat.send") (str "hi")) = some m ∧
        m.type = msgRequest ∧ m.body = str "hi" ∧ (HasId msgRequest → m.id = 4294967295) ∧
        (HasRoute msgRequest → m.route = str "chat.send") :=
  ⟨by decide, by decide +kernel, message_readBack _ _ _ _ (by decide) (by decide +kernel)⟩

/-! ## Ids -/

/-- What an accepted message with an id begins with. -/
lemma parseMsg_read {data m} (h : parseMsg data = some m) (hid : HasId m.type) :
    ∃ rest, Varint.read 5 0 0 data.tail = some (m.id, rest) := by
  cases data with
  | nil => simp [parseMsg] at h
  | cons flag data =>
    simp only [parseMsg] at h
    split at h
    · simp at h
    · split at h
      · simp at h
      · obtain ⟨⟨id, rest⟩, hread, hroute⟩ := Option.bind_eq_some_iff.mp h
        obtain ⟨⟨route, body⟩, -, rfl⟩ := Option.map_eq_some_iff.mp hroute
        rw [readId, if_pos hid] at hread
        exact ⟨rest, hread⟩

/-- **Ids.**  The id of an accepted message is the number that its groups denote, if and only if this has 32 bits: the
bits of the fifth group above them are lost. -/
theorem message_id_exact (data : Bytes) (m : ParsedMsg) (h : parseMsg data = some m) (hid : HasId m.type) :
    m.id.toNat = Varint.value data.tail ↔ Varint.value data.tail < 2 ^ 32 := by
  obtain ⟨rest, hread⟩ := parseMsg_read h hid
  have hval := Varint.read_value hread
  constructor
  · intro heq
    rw [← heq]
    exact m.id.toNat_lt
  · intro hlt
    rw [hval, Nat.mod_eq_of_lt hlt]

theorem message_id_exact_response :
    parseMsg [4, 0xAC, 0x02, 104] = some ⟨300, msgResponse, [], [104]⟩ ∧ HasId msgResponse ∧
      ((300 : UInt32).toNat = Varint.value [0xAC, 0x02, 104] ↔ Varint.value [0xAC, 0x02, 104] < 2 ^ 32) :=
  ⟨by decide +kernel, by decide, message_id_exact [4, 0xAC, 0x02, 104] ⟨300, msgResponse, [], [104]⟩ (by decide +kernel)
    (by decide)⟩

/-- A request whose id would need 35 bits is accepted with another one. -/
theorem message_id_truncated :
    parseMsg [0, 0xFF, 0xFF, 0xFF, 0xFF, 0x7F, 0] = some ⟨0xFFFFFFFF, msgRequest, [], []⟩ ∧
      Varint.value [0xFF, 0xFF, 0xFF, 0xFF, 0x7F, 0] = 2 ^ 35 - 1 := by
  decide +kernel

/-! ## Frames of the endpoint -/

/-- `frame_string`. -/
def frameString (pkgType : UInt8) (msg : Bytes) : Bytes := encodePkg pkgType msg

/-- `response_frame`. -/
def responseFrame (id : UInt32) (body : Bytes) : Bytes := frameString pkgData (encodeMsg id msgResponse [] body)

/-- The frame of a push. -/
def pushFrame (route body : Bytes) : Bytes := frameString pkgData (encodeMsg 0 msgPush route body)

/-- What the endpoint turns into frames. -/
inductive Emission where
  | response (id : UInt32) (body : Bytes)
  | push (route body : Bytes)
deriving DecidableEq, Repr

namespace Emission

/-- The message inside. -/
def msg : Emission → Bytes
  | .response id body => encodeMsg id msgResponse [] body
  | .push route body => encodeMsg 0 msgPush route body

/-- The frame that is written; a push with an empty route is ignored. -/
def frame? : Emission → Option Bytes
  | .response id body => some (responseFrame id body)
  | .push route body => if route.isEmpty then none else some (pushFrame route body)

/-- A message says what was to be sent. -/
def Means : Emission → ParsedMsg → Prop
  | .response id body, m => m.type = msgResponse ∧ m.id = id ∧ m.body = body
  | .push route body, m => m.type = msgPush ∧ m.route = route ∧ m.body = body

/-- If a frame is written, it is one package with the message. -/
def Decodable (e : Emission) : Prop :=
  ∀ frame, e.frame? = some frame → ∃ pkg, parsePkg frame = .done frame.length pkg ∧ pkg.type = pkgData ∧
    ∃ m, parseMsg pkg.body = some m ∧ e.Means m

/-- The message has a length that a header can say, and its route too. -/
def Fits : Emission → Prop
  | .response id body => 1 + (Nat.log 128 id.toNat + 1) + body.length < 2 ^ 24
  | .push route body => route = [] ∨ (route.length ≤ 255 ∧ 2 + route.length + body.length < 2 ^ 24)

/-- What is written is a package. -/
lemma frame_eq {e : Emission} {frame : Bytes} (h : e.frame? = some frame) : frame = encodePkg pkgData e.msg := by
  cases e with
  | response id body =>
    obtain rfl : responseFrame id body = frame := by simpa [frame?] using h
    rfl
  | push route body =>
    obtain ⟨-, rfl⟩ : route ≠ [] ∧ pushFrame route body = frame := by simpa [frame?] using h
    rfl

/-- A frame is one package if and only if its header says the length. -/
lemma parsePkg_frame (msg : Bytes) :
    parsePkg (encodePkg pkgData msg) = .done (encodePkg pkgData msg).length pkg ↔
      msg.length < 2 ^ 24 ∧ pkg = ⟨pkgData, msg⟩ := by
  have hread := parsePkg_encodePkg pkgData msg []
  rw [append_nil] at hread
  rw [hread, length_encodePkg, Parse.done.injEq]
  constructor
  · rintro ⟨hlen, rfl⟩
    have hmod : msg.length % 2 ^ 24 = msg.length := by omega
    refine ⟨?_, by rw [hmod, take_length]⟩
    rw [← hmod]
    exact Nat.mod_lt _ (by norm_num)
  · rintro ⟨hlen, rfl⟩
    rw [Nat.mod_eq_of_lt hlen, take_length]
    exact ⟨rfl, rfl⟩

/-- How long the message is, and whether it can be read. -/
lemma length_response (id : UInt32) (body : Bytes) :
    (encodeMsg id msgResponse [] body).length = 1 + (Nat.log 128 id.toNat + 1) + body.length := by
  have hid : (Varint.write 5 id).length = Nat.log 128 id.toNat + 1 :=
    Varint.write_length (by norm_num) (lt_of_lt_of_le id.toNat_lt (by norm_num))
  have hnot : ¬ HasRoute msgResponse := by decide
  rw [encodeMsg, if_neg hnot, if_pos (by decide : HasId msgResponse)]
  simp [hid]
  omega

lemma length_push (h : route.length ≤ 255) (body : Bytes) :
    (encodeMsg 0 msgPush route body).length = 2 + route.length + body.length := by
  rw [encodeMsg, if_pos (by decide : HasRoute msgPush), if_neg (by omega), if_neg (by decide : ¬ HasId msgPush)]
  simp
  omega

end Emission

/-- **Frames of the endpoint.**  What is written for a response or a push is one package with the message that was meant,
if and only if the message fits: otherwise the header says another length, or the message is missing. -/
theorem emitted_decodable (e : Emission) : e.Decodable ↔ e.Fits := by
  cases e with
  | response id body =>
    have hread := parseMsg_encodeMsg id (by decide : msgResponse ≤ msgPush) [] body (by simp)
    have hlen := Emission.length_response id body
    constructor
    · intro h
      obtain ⟨pkg, hpkg, -⟩ := h _ rfl
      have hfits := ((Emission.parsePkg_frame _).mp hpkg).1
      rwa [hlen] at hfits
    · intro h frame hframe
      obtain rfl := Emission.frame_eq hframe
      exact ⟨_, (Emission.parsePkg_frame _).mpr ⟨hlen ▸ h, rfl⟩, rfl, _, hread, rfl, rfl, rfl⟩
  | push route body =>
    by_cases hempty : route = []
    · subst hempty
      exact ⟨fun _ => .inl rfl, fun _ frame hframe => by simp [Emission.frame?] at hframe⟩
    have hwritten : (Emission.push route body).frame? = some (pushFrame route body) := by
      simp [Emission.frame?, hempty]
    by_cases hroute : route.length ≤ 255
    · have hread := parseMsg_encodeMsg 0 (by decide : msgPush ≤ msgPush) route body fun _ => hroute
      have hlen := Emission.length_push hroute body
      constructor
      · intro h
        obtain ⟨pkg, hpkg, -⟩ := h _ hwritten
        have hfits := ((Emission.parsePkg_frame _).mp hpkg).1
        rw [hlen] at hfits
        exact .inr ⟨hroute, hfits⟩
      · rintro (hnil | ⟨-, hfits⟩) frame hframe
        · exact absurd hnil hempty
        · obtain rfl := Emission.frame_eq hframe
          exact ⟨_, (Emission.parsePkg_frame _).mpr ⟨hlen ▸ hfits, rfl⟩, rfl, _, hread, rfl, rfl, rfl⟩
    · constructor
      · intro h
        -- the message is empty, and there is no message without a flag
        obtain ⟨pkg, hpkg, -, m, hm, -⟩ := h _ hwritten
        obtain ⟨-, rfl⟩ := (Emission.parsePkg_frame _).mp hpkg
        rw [encodeMsg, if_pos (by decide : HasRoute msgPush), if_pos (by omega)] at hm
        simp [parseMsg] at hm
      · rintro (hnil | ⟨hle, -⟩)
        · exact absurd hnil hempty
        · exact absurd hle hroute

/-- A push with a route of 256 bytes: a frame with an empty body is written, which holds no message. -/
theorem push_undecodable :
    (Emission.push (List.replicate 256 97) (str "hi")).frame? = some [4, 0, 0, 0] ∧
      parsePkg [4, 0, 0, 0] = .done 4 ⟨pkgData, []⟩ ∧ parseMsg [] = none ∧
      ¬ (Emission.push (List.replicate 256 97) (str "hi")).Decodable := by
  have hframe : (Emission.push (List.replicate 256 97) (str "hi")).frame? = some [4, 0, 0, 0] := by decide +kernel
  refine ⟨hframe, by decide +kernel, rfl, fun h => ?_⟩
  obtain ⟨pkg, hpkg, -, m, hm, -⟩ := h _ hframe
  obtain rfl : ⟨pkgData, []⟩ = pkg := by
    have hread : parsePkg [4, 0, 0, 0] = .done 4 ⟨pkgData, []⟩ := by decide +kernel
    simpa using hread.symm.trans hpkg
  simp [parseMsg] at hm

end Caf.Pomelo
