import Mathlib

/-!
# Numbers in groups of seven bits

A number is written as its groups of seven bits, lowest first; every byte but the last has its high bit set.  The reader
puts the groups together by shifting and stops after the bytes it may read.

* `read_write` — a number is read as it was written, whatever follows.
* `read_value` — what is read is the number that the groups denote, in 32 bits.
* `write_length` — how many bytes it takes.
-/

namespace Varint

/-- The groups of a number, in at most so many bytes. -/
def write : ℕ → UInt32 → List UInt8
  | 0, _ => []
  | n + 1, v =>
    let tmp := (v % 128).toUInt8
    if v / 128 ≠ 0 then (tmp ||| 0x80) :: write n (v / 128) else [tmp]

/-- The number at the front, and what is behind it.  None if the bytes end or there are more groups than may be read. -/
def read : ℕ → UInt32 → UInt32 → List UInt8 → Option (UInt32 × List UInt8)
  | 0, _, _, _ => none
  | _ + 1, _, _, [] => none
  | n + 1, shift, id, m :: rest =>
    let id := id ||| ((m &&& 0x7f).toUInt32 <<< shift)
    if m &&& 0x80 = 0 then some (id, rest) else read n (shift + 7) id rest

/-- The number that the groups at the front denote, whatever its size. -/
def value : List UInt8 → ℕ
  | [] => 0
  | m :: rest => (m &&& 0x7f).toNat + if m &&& 0x80 = 0 then 0 else 128 * value rest

/-! ## Bytes -/

lemma group_toNat (v : UInt32) : ((v % 128).toUInt8).toNat = v.toNat % 128 := by
  have hmod : (v % 128).toNat = v.toNat % 128 := by simp
  rw [UInt32.toNat_toUInt8, hmod]
  omega

/-- The last byte. -/
lemma last_byte {tmp : UInt8} (h : tmp.toNat < 128) : tmp &&& 0x80 = 0 ∧ tmp &&& 0x7f = tmp := by
  have hall : ∀ i : Fin 256, i.val < 128 →
      UInt8.ofNat i.val &&& 0x80 = 0 ∧ UInt8.ofNat i.val &&& 0x7f = UInt8.ofNat i.val := by decide +kernel
  simpa using hall ⟨tmp.toNat, tmp.toNat_lt⟩ h

/-- The bytes before it. -/
lemma earlier_byte {tmp : UInt8} (h : tmp.toNat < 128) :
    (tmp ||| 0x80) &&& 0x80 ≠ 0 ∧ (tmp ||| 0x80) &&& 0x7f = tmp := by
  have hall : ∀ i : Fin 256, i.val < 128 → (UInt8.ofNat i.val ||| 0x80) &&& 0x80 ≠ 0 ∧
      (UInt8.ofNat i.val ||| 0x80) &&& 0x7f = UInt8.ofNat i.val := by decide +kernel
  simpa using hall ⟨tmp.toNat, tmp.toNat_lt⟩ h

/-- A group above what was read so far is added to it, in 32 bits. -/
lemma or_shift_mod {id shift : UInt32} (m : UInt8) (hid : id.toNat < 2 ^ shift.toNat) (hshift : shift.toNat < 32) :
    (id ||| (m.toUInt32 <<< shift)).toNat = (id.toNat + m.toNat * 2 ^ shift.toNat) % 2 ^ 32 := by
  have hwidth : 2 ^ 32 = 2 ^ (32 - shift.toNat) * 2 ^ shift.toNat := by
    rw [← pow_add]
    congr 1
    omega
  -- what is left of the group is a multiple of the position too
  have hgrp : (m.toUInt32 <<< shift).toNat
      = (m.toNat % 2 ^ (32 - shift.toNat)) <<< shift.toNat := by
    rw [UInt32.toNat_shiftLeft, UInt8.toNat_toUInt32, Nat.mod_eq_of_lt hshift, Nat.shiftLeft_eq,
      Nat.shiftLeft_eq, hwidth, Nat.mul_mod_mul_right]
  have hor : (id ||| (m.toUInt32 <<< shift)).toNat
      = id.toNat + m.toNat * 2 ^ shift.toNat % 2 ^ 32 := by
    rw [UInt32.toNat_or, hgrp, Nat.or_comm, ← Nat.shiftLeft_add_eq_or_of_lt hid, Nat.shiftLeft_eq,
      hwidth, Nat.mul_mod_mul_right, Nat.add_comm]
  have hlt := (id ||| (m.toUInt32 <<< shift)).toNat_lt
  omega

/-! ## What is read -/

lemma group_lt (m : UInt8) : (m &&& 0x7f).toNat < 128 := by
  exact Nat.lt_of_le_of_lt Nat.and_le_right (by decide)

/-- At any position: what was read so far lies below it, and there is room for the groups but the last. -/
lemma read_value_at {w : UInt32} {rest : List UInt8} : ∀ {n : ℕ} {shift id : UInt32} {bytes : List UInt8},
    shift.toNat + 7 * n ≤ 35 → id.toNat < 2 ^ shift.toNat → read n shift id bytes = some (w, rest) →
    w.toNat = (id.toNat + value bytes * 2 ^ shift.toNat) % 2 ^ 32 := by
  intro n
  induction n with
  | zero =>
    intro shift id bytes _ _ h
    simp [read] at h
  | succ n ih =>
    intro shift id bytes hn hid h
    cases bytes with
    | nil => simp [read] at h
    | cons m bytes =>
      have hnext := or_shift_mod (m &&& 0x7f) hid (by omega)
      simp only [read] at h
      split at h
      · rename_i hlast
        obtain ⟨rfl, -⟩ : id ||| ((m &&& 0x7f).toUInt32 <<< shift) = w ∧ bytes = rest := by simpa using h
        rw [hnext, value, if_pos hlast, Nat.add_zero]
      · rename_i hlast
        -- a group follows, so this one is not the fifth
        have hpos : 0 < n := by
          by_contra hzero
          obtain rfl : n = 0 := by omega
          simp [read] at h
        have hpow : 2 ^ (shift.toNat + 7) = 2 ^ shift.toNat * 128 := by rw [pow_add]; rfl
        have hshift : (shift + 7).toNat = shift.toNat + 7 := by
          exact Nat.mod_eq_of_lt (by simp; omega)
        have hroom : (m &&& 0x7f).toNat * 2 ^ shift.toNat ≤ 127 * 2 ^ shift.toNat :=
          Nat.mul_le_mul_right _ (Nat.le_of_lt_succ (group_lt m))
        have hwidth : 2 ^ (shift.toNat + 7) ≤ 2 ^ 32 := Nat.pow_le_pow_right (by norm_num) (by omega)
        rw [Nat.mod_eq_of_lt (by omega)] at hnext
        rw [ih (by omega) (by rw [hshift, hpow]; omega) h, hnext, hshift, hpow, value, if_neg hlast]
        congr 1
        ring

/-- **What is read** from five bytes at most: the number that they denote, in 32 bits. -/
theorem read_value {w : UInt32} {bytes rest : List UInt8} (h : read 5 0 0 bytes = some (w, rest)) :
    w.toNat = value bytes % 2 ^ 32 := by
  simpa using read_value_at (by decide) (by decide) h

/-! ## What is written -/

/-- Induction along the groups that are written, where there is room for them. -/
@[elab_as_elim] lemma write_induction {motive : ℕ → UInt32 → Prop} {n : ℕ} {v : UInt32} (hn : 0 < n)
    (hv : v.toNat < 128 ^ n)
    (last : ∀ n v, v.toNat < 128 → write (n + 1) v = [(v % 128).toUInt8] → motive (n + 1) v)
    (more : ∀ n v, 128 ≤ v.toNat → (v / 128).toNat = v.toNat / 128 →
      write (n + 1) v = ((v % 128).toUInt8 ||| 0x80) :: write n (v / 128) → motive n (v / 128) →
      motive (n + 1) v) :
    motive n v := by
  induction n generalizing v with
  | zero => omega
  | succ n ih =>
    have hdiv : (v / 128).toNat = v.toNat / 128 := by simp
    by_cases hlast : v / 128 = 0
    · have hzero : v.toNat / 128 = 0 := by
        rw [← hdiv, hlast]
        rfl
      exact last n v (by omega) (by simp [write, hlast])
    · have hbig : 128 ≤ v.toNat := by
        by_contra hsmall
        refine hlast (UInt32.toNat_inj.mp ?_)
        show v.toNat / 128 = 0
        omega
      have hn : 0 < n := by
        by_contra hzero
        obtain rfl : n = 0 := by omega
        omega
      have hquot : (v / 128).toNat < 128 ^ n := by
        rw [hdiv, Nat.div_lt_iff_lt_mul (by norm_num)]
        rwa [pow_succ] at hv
      exact more n v hbig hdiv (by simp [write, hlast]) (ih hn hquot)

/-- What is written is accepted and denotes the number. -/
lemma read_write_value (rest : List UInt8) {n : ℕ} {v : UInt32} (hn : 0 < n) (hv : v.toNat < 128 ^ n) :
    (∀ shift id, ∃ w, read n shift id (write n v ++ rest) = some (w, rest)) ∧
      value (write n v ++ rest) = v.toNat := by
  refine write_induction hn hv (fun n v hsmall hwrite => ?_) fun n v hbig hdiv hwrite ih => ?_
  · have hgrp := group_toNat v
    have hlt : ((v % 128).toUInt8).toNat < 128 := by omega
    obtain ⟨hbit, hbyte⟩ := last_byte hlt
    rw [hwrite]
    refine ⟨fun shift id => ⟨_, by simp [read, hbit]; rfl⟩, ?_⟩
    simp only [List.cons_append, value, hbit, hbyte, if_true]
    omega
  · have hgrp := group_toNat v
    have hlt : ((v % 128).toUInt8).toNat < 128 := by omega
    obtain ⟨hbit, hbyte⟩ := earlier_byte hlt
    rw [hwrite]
    refine ⟨fun shift id => ?_, ?_⟩
    · obtain ⟨w, hread⟩ := ih.1 (shift + 7) (id ||| ((v % 128).toUInt8.toUInt32 <<< shift))
      exact ⟨w, by simpa only [List.cons_append, read, hbit, hbyte, if_false] using hread⟩
    · simp only [List.cons_append, value, hbit, hbyte, if_false, ih.2, hdiv]
      omega

/-- **Round trip.**  Five bytes are enough for a 32-bit number. -/
theorem read_write (v : UInt32) (rest : List UInt8) : read 5 0 0 (write 5 v ++ rest) = some (v, rest) := by
  have hv := v.toNat_lt
  obtain ⟨hread, hval⟩ := read_write_value rest (n := 5) (v := v) (by norm_num) (lt_of_lt_of_le hv (by norm_num))
  obtain ⟨w, hw⟩ := hread 0 0
  have hnat := read_value hw
  rw [hval, Nat.mod_eq_of_lt hv] at hnat
  rw [hw, UInt32.toNat_inj.mp hnat]

/-- How many bytes a number takes. -/
theorem write_length {n : ℕ} {v : UInt32} (hn : 0 < n) (hv : v.toNat < 128 ^ n) :
    (write n v).length = Nat.log 128 v.toNat + 1 := by
  refine write_induction hn hv (fun n v hsmall hwrite => ?_) fun n v hbig hdiv hwrite ih => ?_
  · rw [hwrite, Nat.log_of_lt hsmall]
    rfl
  · rw [hwrite, Nat.log_of_one_lt_of_le (by norm_num) hbig, ← hdiv, ← ih]
    rfl

end Varint
