import CafPluginSystem.EntityStore.Contract

/-!
# Checkpoint files

The file format of `CheckpointManager` (`src/core/checkpoint_manager.cpp`): a header of 28 bytes with its numbers in little
endian, the name of the plugin and the data, which a CRC in the header guards.

A handler that reads such a file allocates a vector as long as the header says before it knows how much there is to read.
`Platform.vectorMax` is the size up to which a vector can be had; a larger one raises an exception, which leaves the
handler.

* `restoreFile_fileOf` — a complete file is read back.
* `restoreFile_safe_iff` — reading any file is safe **if and only if a header that is accepted does not promise more data
  than the file has bytes**.
* `restoreFile_unsafe` — otherwise 28 bytes are enough for an exception.
-/

namespace Caf.Checkpoint

open List Option

variable {file rest : Bytes}

/-! ## The checksum -/

/-- One of the eight rounds behind an entry of `crc32_table`. -/
def tableRound (crc : UInt32) : UInt32 := (crc >>> 1) ^^^ (0xEDB88320 &&& -(crc &&& 1))

def crc32Table (i : UInt8) : UInt32 := tableRound^[8] i.toUInt32

/-- One round of `compute_crc32`. -/
def crcByte (crc : UInt32) (b : UInt8) : UInt32 := crc32Table (crc ^^^ b.toUInt32).toUInt8 ^^^ (crc >>> 8)

def computeCrc32 (data : Bytes) : UInt32 := data.foldl crcByte 0xFFFFFFFF ^^^ 0xFFFFFFFF

/-! ## Numbers -/

/-- `write_le` for a number of `n` bytes. -/
def writeLe : ℕ → ℕ → Bytes
  | 0, _ => []
  | n + 1, value => UInt8.ofNat value :: writeLe n (value / 256)

/-- `read_le` for a number of `n` bytes, with what is left of the stream; the bits of the bytes do not overlap, so that
adding them is putting them together. -/
def readLe : ℕ → Bytes → Option (ℕ × Bytes)
  | 0, rest => some (0, rest)
  | _ + 1, [] => none
  | n + 1, c :: rest =>
    match readLe n rest with
    | none => none
    | some (value, rest) => some (c.toNat + 256 * value, rest)

/-- A number is read back where it was written. -/
lemma readLe_writeLe (n : ℕ) : ∀ (value : ℕ) (rest : Bytes),
    readLe n (writeLe n value ++ rest) = some (value % 256 ^ n, rest) := by
  induction n with
  | zero =>
    intro value rest
    simp [readLe, writeLe, Nat.mod_one]
  | succ n ih =>
    intro value rest
    have hsplit : value % 256 ^ (n + 1) = value % 256 + 256 * (value / 256 % 256 ^ n) := by
      rw [pow_succ', Nat.mod_mul]
    rw [writeLe, cons_append, readLe, ih, hsplit]
    simp

/-- What is left of a stream is the end of it. -/
lemma readLe_suffix (n : ℕ) : ∀ {file rest : Bytes} {value : ℕ}, readLe n file = some (value, rest) → rest <:+ file := by
  induction n with
  | zero =>
    intro file rest value h
    simp only [readLe, some.injEq, Prod.mk.injEq] at h
    exact h.2 ▸ suffix_refl file
  | succ n ih =>
    intro file rest value h
    cases file with
    | nil => simp [readLe] at h
    | cons c file =>
      rw [readLe] at h
      cases hrest : readLe n file with
      | none => simp [hrest] at h
      | some found =>
        obtain ⟨value', rest'⟩ := found
        simp only [hrest, some.injEq, Prod.mk.injEq] at h
        exact h.2 ▸ (ih hrest).trans (suffix_cons c file)

/-! ## Files -/

/-- `CheckpointHeader`; the magic is the same in all of them. -/
structure Header where
  version : UInt16 := 1
  nameLen : UInt16 := 0
  timestamp : Int64 := 0
  crc32 : UInt32 := 0
  dataLen : UInt64 := 0
deriving DecidableEq, Repr

def magic : Bytes := str "CKPT"

def Header.write (hdr : Header) : Bytes :=
  magic ++ (writeLe 2 hdr.version.toNat ++ (writeLe 2 hdr.nameLen.toNat ++ (writeLe 8 hdr.timestamp.toUInt64.toNat
    ++ (writeLe 4 hdr.crc32.toNat ++ writeLe 8 hdr.dataLen.toNat))))

/-- The header of a file, if it has a complete one, and what is left of the stream. -/
def readHeader (file : Bytes) : Option (Header × Bytes) :=
  if file.take 4 ≠ magic then none
  else do
    let (version, rest) ← readLe 2 (file.drop 4)
    let (nameLen, rest) ← readLe 2 rest
    let (timestamp, rest) ← readLe 8 rest
    let (crc32, rest) ← readLe 4 rest
    let (dataLen, rest) ← readLe 8 rest
    some ({ version := UInt16.ofNat version, nameLen := UInt16.ofNat nameLen,
            timestamp := (UInt64.ofNat timestamp).toInt64, crc32 := UInt32.ofNat crc32,
            dataLen := UInt64.ofNat dataLen }, rest)

/-- What `save_state_atom` writes for a plugin. -/
structure Save where
  name : Bytes
  data : Bytes
  timestamp : Int64 := 0
deriving DecidableEq, Repr

/-- The header of a save.  The length of a long name loses its upper bits. -/
def Save.header (s : Save) : Header where
  nameLen := UInt16.ofNat s.name.length
  timestamp := s.timestamp
  crc32 := computeCrc32 s.data
  dataLen := UInt64.ofNat s.data.length

/-- The complete file of a save. -/
def fileOf (s : Save) : Bytes := s.header.write ++ (s.name.take s.header.nameLen.toNat ++ s.data)

/-- The largest vector of bytes that can be had. -/
structure Platform where
  vectorMax : ℕ
  fits : vectorMax < 2 ^ 63

/-- What reading a file comes to: the vector that is returned, none for an exception, and the size of the vector that was
allocated for the data. -/
structure Restoring where
  result : Option Bytes
  allocated : ℕ := 0
deriving DecidableEq, Repr

/-- `restore_state_atom` from the point where the file is open.  A stream that ends inside the name fails, and nothing is
read from it after that: nothing is left behind the name either way. -/
def restoreFile (p : Platform) (file : Bytes) : Restoring :=
  match readHeader file with
  | none => { result := some [] }
  | some (hdr, rest) =>
    if hdr.version ≠ 1 then { result := some [] }
    else if hdr.dataLen.toNat > p.vectorMax then { result := none }
    else
      let data := (rest.drop hdr.nameLen.toNat).take hdr.dataLen.toNat
      if data.length ≠ hdr.dataLen.toNat then { result := some [], allocated := hdr.dataLen.toNat }
      else if computeCrc32 data ≠ hdr.crc32 then { result := some [], allocated := hdr.dataLen.toNat }
      else { result := some data, allocated := hdr.dataLen.toNat }

/-! ## Complete files -/

/-- A header is read back. -/
lemma readHeader_write (hdr : Header) (rest : Bytes) : readHeader (hdr.write ++ rest) = some (hdr, rest) := by
  have htake : (hdr.write ++ rest).take 4 = magic := by
    rw [Header.write, append_assoc]
    exact take_left' rfl
  have hdrop : (hdr.write ++ rest).drop 4 = writeLe 2 hdr.version.toNat ++ (writeLe 2 hdr.nameLen.toNat
      ++ (writeLe 8 hdr.timestamp.toUInt64.toNat ++ (writeLe 4 hdr.crc32.toNat
      ++ (writeLe 8 hdr.dataLen.toNat ++ rest)))) := by
    rw [Header.write, append_assoc, drop_left' (by rfl)]
    simp only [append_assoc]
  have hver : hdr.version.toNat % 256 ^ 2 = hdr.version.toNat := Nat.mod_eq_of_lt hdr.version.toNat_lt
  have hnameLen : hdr.nameLen.toNat % 256 ^ 2 = hdr.nameLen.toNat := Nat.mod_eq_of_lt hdr.nameLen.toNat_lt
  have htimestamp : hdr.timestamp.toUInt64.toNat % 256 ^ 8 = hdr.timestamp.toUInt64.toNat :=
    Nat.mod_eq_of_lt hdr.timestamp.toUInt64.toNat_lt
  have hcrc : hdr.crc32.toNat % 256 ^ 4 = hdr.crc32.toNat := Nat.mod_eq_of_lt hdr.crc32.toNat_lt
  have hdataLen : hdr.dataLen.toNat % 256 ^ 8 = hdr.dataLen.toNat := Nat.mod_eq_of_lt hdr.dataLen.toNat_lt
  simp only [readHeader, htake, hdrop, ne_eq, not_true_eq_false, if_false, readLe_writeLe, bind_eq_bind,
    bind_some, hver, hnameLen, htimestamp, hcrc, hdataLen, UInt16.ofNat_toNat, UInt32.ofNat_toNat,
    UInt64.ofNat_toNat]
  rfl

/-- **A complete file is read back.** -/
lemma restoreFile_fileOf (p : Platform) {s : Save} (h : s.data.length ≤ p.vectorMax) :
    (restoreFile p (fileOf s)).result = some s.data := by
  have hfits := p.fits
  have hlen : s.header.dataLen.toNat = s.data.length := by
    show (UInt64.ofNat s.data.length).toNat = s.data.length
    exact Nat.mod_eq_of_lt (by omega)
  have hname : s.header.nameLen.toNat ≤ s.name.length := by
    show (UInt16.ofNat s.name.length).toNat ≤ s.name.length
    exact Nat.mod_le _ _
  have hdata : ((s.name.take s.header.nameLen.toNat ++ s.data).drop s.header.nameLen.toNat).take s.data.length
      = s.data := by
    rw [drop_left' (by rw [length_take]; exact Nat.min_eq_left hname), take_length]
  have hver : s.header.version = 1 := rfl
  have hcrc : s.header.crc32 = computeCrc32 s.data := rfl
  rw [restoreFile, fileOf, readHeader_write]
  simp only [hdata, hver, hcrc, hlen, ne_eq, not_true_eq_false, if_false]
  rw [if_neg (by omega)]

/-! ## Any files -/

variable {hdr : Header}

/-- What is left of a file behind its header is the end of it. -/
lemma readHeader_suffix (h : readHeader file = some (hdr, rest)) : rest <:+ file := by
  unfold readHeader at h
  split_ifs at h with hmagic
  simp only [bind_eq_bind, bind_eq_some_iff, some.injEq, Prod.mk.injEq, Prod.exists] at h
  obtain ⟨_, r₁, h₁, _, r₂, h₂, _, r₃, h₃, _, r₄, h₄, _, r₅, h₅, -, rfl⟩ := h
  have hrest : r₅ <:+ file.drop 4 := (readLe_suffix 8 h₅).trans <| (readLe_suffix 4 h₄).trans <|
    (readLe_suffix 8 h₃).trans <| (readLe_suffix 2 h₂).trans (readLe_suffix 2 h₁)
  exact hrest.trans (drop_suffix 4 file)

/-- A contiguous region of the file, as long as its header says and with the checksum it says. -/
def Region (file data : Bytes) : Prop :=
  ∃ hdr rest, readHeader file = some (hdr, rest) ∧ data <:+: file ∧ computeCrc32 data = hdr.crc32 ∧
    data.length = hdr.dataLen.toNat

/-- Reading a file is safe: it comes to an end without an exception, with nothing or a region of the file, and allocates
no more bytes for the data than the file has. -/
structure Safe (p : Platform) (file : Bytes) : Prop where
  completes : ∃ data, (restoreFile p file).result = some data ∧ (data = [] ∨ Region file data)
  bounded : (restoreFile p file).allocated ≤ file.length

/-- The header promises no more data than the file has bytes, if the version is one that is read. -/
def Promises (file : Bytes) : Prop :=
  ∀ h ∈ readHeader file, h.1.version = 1 → h.1.dataLen.toNat ≤ file.length

instance (file : Bytes) : Decidable (Promises file) :=
  inferInstanceAs (Decidable (∀ h ∈ readHeader file, h.1.version = 1 → h.1.dataLen.toNat ≤ file.length))

variable {p : Platform}

section

variable (hheader : readHeader file = some (hdr, rest)) (hver : hdr.version = 1)
  (hmax : ¬ hdr.dataLen.toNat > p.vectorMax)
include hheader hver hmax

/-- The vector is allocated if the header is accepted and it can be had. -/
lemma restoreFile_allocated : (restoreFile p file).allocated = hdr.dataLen.toNat := by
  rw [restoreFile, hheader]
  dsimp only
  rw [if_neg (not_not_intro hver), if_neg hmax]
  split_ifs
  · rfl
  · rfl
  · rfl

/-- What comes out if the header is accepted and the vector can be had. -/
lemma restoreFile_completes :
    ∃ data, (restoreFile p file).result = some data ∧ (data = [] ∨ Region file data) := by
  have hregion : (rest.drop hdr.nameLen.toNat).take hdr.dataLen.toNat <:+: file := by
    refine List.IsInfix.trans ?_ ((drop_suffix hdr.nameLen.toNat rest).trans (readHeader_suffix hheader)).isInfix
    exact ⟨[], _, by rw [nil_append, take_append_drop]⟩
  rw [restoreFile, hheader]
  dsimp only
  rw [if_neg (not_not_intro hver), if_neg hmax]
  split_ifs with hlen hcrc
  · exact ⟨[], rfl, .inl rfl⟩
  · exact ⟨[], rfl, .inl rfl⟩
  · exact ⟨_, rfl, .inr ⟨hdr, rest, hheader, hregion, not_not.mp hcrc, not_not.mp hlen⟩⟩

end

/-- Nothing is read and nothing allocated if the header is not accepted. -/
lemma safe_of_refused (h : restoreFile p file = { result := some [] }) : Safe p file :=
  ⟨⟨[], by rw [h], .inl rfl⟩, by simp [h]⟩

/-- **Reading a file is safe if and only if an accepted header does not promise too much data.**  A vector as long as the
file can be had. -/
theorem restoreFile_safe_iff (p : Platform) {file : Bytes} (hfile : file.length ≤ p.vectorMax) :
    Safe p file ↔ Promises file := by
  cases hheader : readHeader file with
  | none =>
    refine ⟨fun _ h hh => ?_, fun _ => safe_of_refused (by simp [restoreFile, hheader])⟩
    rw [hheader] at hh
    cases hh
  | some found =>
    obtain ⟨hdr, rest⟩ := found
    have hpromises : Promises file ↔ (hdr.version = 1 → hdr.dataLen.toNat ≤ file.length) := by
      simp [Promises, hheader]
    rw [hpromises]
    by_cases hver : hdr.version = 1
    · constructor
      · rintro ⟨⟨data, hdata, -⟩, hbound⟩ -
        have hmax : ¬ hdr.dataLen.toNat > p.vectorMax := by
          intro hmax
          simp [restoreFile, hheader, hver, hmax] at hdata
        rwa [restoreFile_allocated hheader hver hmax] at hbound
      · intro hpromise
        have hlen := hpromise hver
        have hmax : ¬ hdr.dataLen.toNat > p.vectorMax := by omega
        refine ⟨restoreFile_completes hheader hver hmax, ?_⟩
        rwa [restoreFile_allocated hheader hver hmax]
    · exact ⟨fun _ h => absurd h hver, fun _ => safe_of_refused (by simp [restoreFile, hheader, hver])⟩

namespace Sample

def platform : Platform := ⟨2 ^ 62, by norm_num⟩

/-- The state of a plugin `p`. -/
def saved : Save := { name := str "p", data := [1, 2, 3], timestamp := 5 }

/-- Nothing but a header, which promises 2^64 - 1 bytes of data. -/
def promising : Bytes := ({ dataLen := 0xFFFFFFFFFFFFFFFF } : Header).write

end Sample

/-- Reading a complete file is safe. -/
theorem restoreFile_safe_saved : Safe Sample.platform (fileOf Sample.saved) :=
  (restoreFile_safe_iff Sample.platform (by decide +kernel)).mpr (by decide +kernel)

/-- Twenty-eight bytes for which a vector cannot be had: the exception leaves the handler. -/
theorem restoreFile_unsafe : Sample.promising.length = 28 ∧ (restoreFile Sample.platform Sample.promising).result = none ∧
    ¬ Safe Sample.platform Sample.promising := by
  have hnone : (restoreFile Sample.platform Sample.promising).result = none := by decide +kernel
  refine ⟨by decide +kernel, hnone, ?_⟩
  rintro ⟨⟨data, hdata, -⟩, -⟩
  cases hdata

end Caf.Checkpoint
