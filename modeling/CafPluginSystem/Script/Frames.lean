import CafPluginSystem.EntityStore.Contract

/-!
# The frames of script states

A script host saves the states of its scripts as one byte string, a frame after the other:
`[4B name_len][name][4B data_len][data]` (`append_frame` and `parse_frames` of
`lua_host_plugin.cpp`).  The lengths are written in the byte order of the process, which is the
one they are read in; here it is little endian.

* `parseFrom_take` — one round of the loop, wherever the blob is cut off.
* `parseFrames_flatMap` — **the round trip**: the frames of a list of names and states, each
  shorter than 2^32 bytes, are read back as that list.
* `parseFrames_initial` — and from a blob that was cut off, the frames that are complete; no read
  ever leaves the blob.
-/

namespace Caf.Script

open List

/-- The bytes of a `uint32_t`; a longer length loses its upper bits, as in the cast. -/
def u32 (n : ℕ) : Bytes :=
  [UInt8.ofNat n, UInt8.ofNat (n / 2 ^ 8), UInt8.ofNat (n / 2 ^ 16), UInt8.ofNat (n / 2 ^ 24)]

/-- `memcpy` of a `uint32_t` out of the blob. -/
def loadU32 (blob : Bytes) (off : ℕ) : ℕ :=
  match (blob.drop off).take 4 with
  | [a, b, c, d] => a.toNat + b.toNat * 2 ^ 8 + c.toNat * 2 ^ 16 + d.toNat * 2 ^ 24
  | _ => 0

def appendFrame (buf name data : Bytes) : Bytes :=
  buf ++ u32 name.length ++ name ++ u32 data.length ++ data

/-- The loop of `parse_frames` from offset `off` on; each round moves the offset by eight at least,
so the length of the blob is enough fuel. -/
def parseFrom (blob : Bytes) : ℕ → ℕ → List (Bytes × Bytes)
  | 0, _ => []
  | fuel + 1, off =>
    let n := blob.length
    if off + 4 ≤ n then
      let nl := loadU32 blob off
      let off := off + 4
      if off + nl > n then []
      else
        let name := (blob.drop off).take nl
        let off := off + nl
        if off + 4 > n then []
        else
          let dl := loadU32 blob off
          let off := off + 4
          if off + dl > n then []
          else (name, (blob.drop off).take dl) :: parseFrom blob fuel (off + dl)
    else []

def parseFrames (blob : Bytes) : List (Bytes × Bytes) := parseFrom blob blob.length 0

/-- The reads of `parse_frames` from offset `off` on, each an offset and a number of bytes. -/
def readsFrom (blob : Bytes) : ℕ → ℕ → List (ℕ × ℕ)
  | 0, _ => []
  | fuel + 1, off =>
    let n := blob.length
    if off + 4 ≤ n then
      let nl := loadU32 blob off
      if off + 4 + nl > n then [(off, 4)]
      else if off + 4 + nl + 4 > n then [(off, 4), (off + 4, nl)]
      else
        let dl := loadU32 blob (off + 4 + nl)
        (off, 4) :: (off + 4, nl) :: (off + 4 + nl, 4)
          :: if off + 4 + nl + 4 + dl > n then []
            else (off + 4 + nl + 4, dl) :: readsFrom blob fuel (off + 4 + nl + 4 + dl)
    else []

/-! ## One frame -/

/-- One frame. -/
def frame (e : Bytes × Bytes) : Bytes := appendFrame [] e.1 e.2

lemma frame_eq (e : Bytes × Bytes) :
    frame e = u32 e.1.length ++ (e.1 ++ (u32 e.2.length ++ e.2)) := by
  simp [appendFrame, frame]

@[simp] lemma u32_length (n : ℕ) : (u32 n).length = 4 := rfl

lemma frame_length (e : Bytes × Bytes) : (frame e).length = 8 + e.1.length + e.2.length := by
  simp [frame_eq]
  omega

lemma loadU32_append (front back : Bytes) (off : ℕ) :
    loadU32 (front ++ back) (front.length + off) = loadU32 back off := by
  rw [loadU32, loadU32, drop_length_add_append]

lemma loadU32_take {k off : ℕ} (h : off + 4 ≤ k) (bytes : Bytes) :
    loadU32 (bytes.take k) off = loadU32 bytes off := by
  rw [loadU32, loadU32, drop_take, take_take, Nat.min_eq_left (by omega)]

/-- A length is read back where it was written. -/
lemma loadU32_u32 {n : ℕ} (h : n < 2 ^ 32) (front back : Bytes) :
    loadU32 (front ++ (u32 n ++ back)) front.length = n := by
  rw [← add_zero front.length, loadU32_append]
  simp only [loadU32, u32, drop_zero, cons_append, nil_append, take_succ_cons, take_zero, UInt8.toNat_ofNat']
  omega

/-- The loop does not look back. -/
lemma parseFrom_append (front back : Bytes) (fuel off : ℕ) :
    parseFrom (front ++ back) fuel (front.length + off) = parseFrom back fuel off := by
  induction fuel generalizing off with
  | zero => rfl
  | succ fuel ih =>
    simp only [parseFrom, loadU32_append, add_assoc, length_append, drop_length_add_append, ih,
      Nat.add_le_add_iff_left, gt_iff_lt, Nat.add_lt_add_iff_left]

/-- **One round** of the loop reads one frame, if the blob goes so far, and is the last otherwise. -/
lemma parseFrom_take (fuel k : ℕ) (rest : Bytes) {e : Bytes × Bytes} (h : e.1.length < 2 ^ 32 ∧ e.2.length < 2 ^ 32) :
    parseFrom ((frame e ++ rest).take k) (fuel + 1) 0
      = if (frame e).length ≤ k then e :: parseFrom (rest.take (k - (frame e).length)) fuel 0
        else [] := by
  obtain ⟨name, data⟩ := e
  have hsize : (frame (name, data)).length = 8 + name.length + data.length := frame_length _
  have hnl (rest : Bytes) : loadU32 (frame (name, data) ++ rest) 0 = name.length := by
    simpa [frame_eq] using loadU32_u32 h.1 [] (name ++ (u32 data.length ++ (data ++ rest)))
  have hdl (rest : Bytes) : loadU32 (frame (name, data) ++ rest) (4 + name.length) = data.length := by
    simpa [frame_eq] using loadU32_u32 h.2 (u32 name.length ++ name) (data ++ rest)
  split_ifs with hk
  · rw [take_append, take_of_length_le hk, parseFrom]
    generalize rest.take (k - (frame (name, data)).length) = rest
    have hname : ((frame (name, data) ++ rest).drop 4).take name.length = name := by
      simp [frame_eq, u32]
    have hdata : ((frame (name, data) ++ rest).drop (4 + name.length + 4)).take data.length = data := by
      rw [← drop_drop, ← drop_drop]
      simp [frame_eq, u32]
    have hnext : 4 + name.length + 4 + data.length = (frame (name, data)).length + 0 := by omega
    simp only [zero_add, hnl, hdl, hname, hdata, length_append]
    rw [if_pos (by omega), if_neg (by omega), if_neg (by omega), if_neg (by omega), hnext, parseFrom_append]
  · have hlen : ((frame (name, data) ++ rest).take k).length = k := by
      rw [length_take, length_append]
      omega
    rw [parseFrom]
    simp only [zero_add, hlen]
    split_ifs with h₁ h₂ h₃ h₄
    · rfl
    · rfl
    · rfl
    · rw [loadU32_take h₁, hnl] at h₃ h₄
      rw [loadU32_take (by omega), hdl] at h₄
      omega
    · rfl

/-! ## All frames -/

/-- The frames of the first `m` entries are those that `k` bytes hold. -/
structure Complete (entries : List (Bytes × Bytes)) (k m : ℕ) : Prop where
  bound : m ≤ entries.length
  inside : ((entries.take m).flatMap frame).length ≤ k
  cut : m < entries.length → k < ((entries.take (m + 1)).flatMap frame).length

section Entries

variable {entries : List (Bytes × Bytes)} (hsmall : ∀ e ∈ entries, e.1.length < 2 ^ 32 ∧ e.2.length < 2 ^ 32)
include hsmall

lemma parseFrom_flatMap (fuel k : ℕ) (hfuel : ((entries.flatMap frame).take k).length ≤ fuel) :
    ∃ m, Complete entries k m ∧ parseFrom ((entries.flatMap frame).take k) fuel 0 = entries.take m := by
  induction entries generalizing fuel k with
  | nil =>
    refine ⟨0, ⟨le_rfl, Nat.zero_le k, fun h => absurd h (lt_irrefl 0)⟩, ?_⟩
    cases fuel <;> simp [parseFrom]
  | cons e entries ih =>
    have hpos := frame_length e
    rw [flatMap_cons, length_take, length_append] at hfuel
    by_cases hk : (frame e).length ≤ k
    · obtain ⟨fuel, rfl⟩ : ∃ n, fuel = n + 1 := ⟨fuel - 1, by omega⟩
      obtain ⟨m, ⟨hm, hin, hcut⟩, hparse⟩ := ih (fun x hx => hsmall x (mem_cons_of_mem _ hx)) fuel
        (k - (frame e).length) (by rw [length_take]; omega)
      refine ⟨m + 1, ⟨Nat.succ_le_succ hm, ?_, fun hlt => ?_⟩, ?_⟩
      · rw [take_succ_cons, flatMap_cons, length_append]
        omega
      · have hnext := hcut (Nat.lt_of_succ_lt_succ hlt)
        rw [take_succ_cons, flatMap_cons, length_append]
        omega
      · rw [flatMap_cons, parseFrom_take fuel k _ (hsmall e mem_cons_self), if_pos hk, hparse, take_succ_cons]
    · refine ⟨0, ⟨Nat.zero_le _, Nat.zero_le k, fun _ => by simpa using hk⟩, ?_⟩
      cases fuel with
      | zero => rfl
      | succ fuel =>
        rw [flatMap_cons, parseFrom_take fuel k _ (hsmall e mem_cons_self), if_neg hk]
        rfl

lemma parseFrames_cut {blob : Bytes} (h : blob <+: entries.flatMap frame) :
    ∃ m, Complete entries blob.length m ∧ parseFrames blob = entries.take m := by
  have hrun := parseFrom_flatMap hsmall blob.length blob.length
  rw [← prefix_iff_eq_take.mp h] at hrun
  exact hrun le_rfl

/-- **The round trip.** -/
theorem parseFrames_flatMap : parseFrames (entries.flatMap frame) = entries := by
  obtain ⟨m, hm, hparse⟩ := parseFrames_cut hsmall (prefix_refl _)
  rcases hm.bound.eq_or_lt with rfl | hlt
  · rwa [take_length] at hparse
  · have hcut := hm.cut hlt
    have hle := ((List.take_prefix (m + 1) entries).flatMap frame).length_le
    omega

end Entries

lemma reads_inside (blob : Bytes) (fuel off : ℕ) : ∀ r ∈ readsFrom blob fuel off, r.1 + r.2 ≤ blob.length := by
  induction fuel generalizing off with
  | zero => simp [readsFrom]
  | succ fuel ih =>
    rw [readsFrom]
    dsimp only
    split_ifs with h₁ h₂ h₃ h₄
    · simpa using h₁
    · simp
      omega
    · simp
      omega
    · simp only [forall_mem_cons]
      exact ⟨by omega, by omega, by omega, by omega, ih _⟩
    · simp

/-- **The frames that a blob holds are read, and nothing outside it.** -/
theorem parseFrames_initial {entries : List (Bytes × Bytes)}
    (hsmall : ∀ e ∈ entries, e.1.length < 2 ^ 32 ∧ e.2.length < 2 ^ 32) :
    parseFrames (entries.flatMap frame) = entries ∧
      (∀ blob, blob <+: entries.flatMap frame →
        ∃ m, Complete entries blob.length m ∧ parseFrames blob = entries.take m) ∧
      ∀ blob, ∀ r ∈ readsFrom blob blob.length 0, r.1 + r.2 ≤ blob.length :=
  ⟨parseFrames_flatMap hsmall, fun _ => parseFrames_cut hsmall, fun _ => reads_inside _ _ _⟩

/-- Two frames, and the first of them with most of the second. -/
theorem parseFrames_initial_pair :
    parseFrames ([(str "a", str "12"), (str "b", str "3")].flatMap frame)
        = [(str "a", str "12"), (str "b", str "3")] ∧
      parseFrames (([(str "a", str "12"), (str "b", str "3")].flatMap frame).take 20) = [(str "a", str "12")] :=
  ⟨(parseFrames_initial (by decide)).1, by decide +kernel⟩

end Caf.Script
