import CafPluginSystem.Redis.Numerals

/-!
# Increments of signed fields in Mongo

`EntityCodec::append_increment` turns the delta of an increment into the `int64` that is sent for a
signed field.  A decimal goes through the text that the driver prints of it: the exponent and the
places behind the point become zeros to strip from the digits or to append to them.

* `magnitude_eq_ok` — the digits are read as the integer that they denote with their exponent.
* `signedDelta_exact` — **a decimal gives the `int64` that it denotes, or the increment fails**.
-/

namespace Caf.EntityStore.Mongo

open DecimalText Fallible Redis Redis.Decimal

/-! ## The code -/

/-- What stands before the first `e` or `E`. -/
def beforeExponent (c : UInt8) : Bool := c != 101 && c != 69

/-- The exponent that `parse_unsigned` reads from an `e` or `E` on, an `int`. -/
def parseExponent : Bytes → Except EntityError ℤ
  | [] => .ok 0
  | _ :: suffix =>
    match intOfText? (if suffix.head? = some 43 then suffix.tail else suffix) with
    | none => corrupt (str "invalid integer exponent")
    | some exponent =>
      if -(2 ^ 31) ≤ exponent ∧ exponent < 2 ^ 31 then .ok exponent
      else corrupt (str "invalid integer exponent")

/-- The end of `parse_unsigned`: digits with an exponent. -/
def magnitude (ds : List Digit) (exponent : ℤ) : Except EntityError ℕ :=
  let (kept, scale) := stripZeros (-exponent).toNat ds
  if kept.all (· == 0) then .ok 0
  else if 0 < scale ∨ 20 < exponent then corrupt (str "BSON unsigned integer out of range")
  else
    let result := value (kept ++ List.replicate exponent.toNat 0)
    if result < 2 ^ 64 then .ok result else corrupt (str "BSON unsigned integer out of range")

/-- `parse_unsigned`. -/
def parseUnsigned (text : Bytes) : Except EntityError ℕ := do
  let exponent ← parseExponent (text.dropWhile beforeExponent)
  let text := text.takeWhile beforeExponent
  let text := if text.head? = some 43 then text.tail else text
  let fraction := (text.dropWhile (· != 46)).tail
  match readDigits (text.takeWhile (· != 46) ++ fraction) with
  | none | some [] => corrupt (str "invalid BSON unsigned integer")
  | some ds => magnitude ds (exponent - fraction.length)

/-- The delta of a decimal that is printed as the text. -/
def decimalDelta (text : Bytes) : Except EntityError Int64 :=
  let negative : Bool := text.head? = some 45
  match parseUnsigned (if negative then text.tail else text) with
  | .error _ => invalid (str "increment delta is not an exact signed int64")
  | .ok magnitude =>
    if magnitude > 2 ^ 63 - 1 + (if negative then 1 else 0) then
      invalid (str "increment delta exceeds signed int64")
    else if negative ∧ magnitude = 2 ^ 63 then .ok Int64.minValue
    else .ok (Int64.ofInt (if negative then -magnitude else magnitude))

/-- What the codec takes from the driver and from the arithmetic of doubles. -/
structure Driver where
  /-- `decimal128{text}.to_string()`. -/
  decimalText : Bytes → Bytes
  /-- The integer that a finite double without fraction is. -/
  integer? : Double → Option ℤ

/-- The delta that `append_increment` appends for a signed field. -/
def signedDelta (driver : Driver) (input : Value) : Except EntityError Int64 :=
  match input.kind with
  | .signedInteger => .ok input.signedValue
  | .unsignedInteger =>
    if input.unsignedValue.toNat > 2 ^ 63 - 1 then
      invalid (str "increment delta exceeds signed int64")
    else .ok (Int64.ofInt input.unsignedValue.toNat)
  | .real =>
    match driver.integer? input.realValue with
    | none => invalid (str "increment delta is not an exact signed int64")
    | some i =>
      if i < -(2 ^ 63) ∨ 2 ^ 63 ≤ i then invalid (str "increment delta is not an exact signed int64")
      else .ok (Int64.ofInt i)
  | .decimal => decimalDelta (driver.decimalText input.textValue)
  | _ => invalid (str "increment requires numeric input and schema field")

/-- What `to_string` returns of a Decimal128, and the number that it denotes: a numeral without a
plus sign in front and with the exponents of the format, or something that is not a number. -/
inductive Printed : Bytes → Option ℚ → Prop
  | number (n : Numeral) (hsign : n.sign ≠ some false) (hlow : -6176 ≤ n.power - n.places)
      (hhigh : n.power ≤ 6144) : Printed n.text (some n.number)
  | special {text : Bytes} (h : text ∈ [str "NaN", str "-NaN", str "Infinity", str "-Infinity"]) :
      Printed text none

/-! ## Reading digits with an exponent -/

variable {ds : List Digit} {exponent : ℤ} {m : ℕ}

lemma value_eq_zero_iff : value ds = 0 ↔ ds.all (· == 0) = true := by
  induction ds with
  | nil => exact iff_of_true rfl rfl
  | cons d ds ih =>
    rw [value_cons, List.all_cons, Bool.and_eq_true, ← ih, Nat.add_eq_zero_iff, Nat.mul_eq_zero,
      or_iff_left (by positivity), Fin.val_eq_zero_iff, beq_iff_eq]

/-- The digits that are kept and the zeros that are appended make up the same number. -/
lemma stripped_value : (value ds * 10 ^ exponent : ℚ) =
    value (stripZeros (-exponent).toNat ds).1 * 10 ^ exponent.toNat /
      10 ^ (stripZeros (-exponent).toNat ds).2 := by
  rcases Int.le_total 0 exponent with hexp | hexp
  · obtain ⟨k, rfl⟩ := Int.eq_ofNat_of_zero_le hexp
    have hzero : (-(k : ℤ)).toNat = 0 := by omega
    simp [hzero, stripZeros]
  · obtain ⟨k, hk⟩ := Int.eq_ofNat_of_zero_le (neg_nonneg.mpr hexp)
    obtain rfl : exponent = -k := by omega
    have hstrip := signed_stripZeros false k ds
    simp only [signed, Bool.false_eq_true, if_false, one_mul] at hstrip
    have hzero : (-(k : ℤ)).toNat = 0 := by omega
    rw [zpow_neg, zpow_natCast, ← div_eq_mul_inv, ← hstrip, hzero]
    simp

/-- **Digits with an exponent are read as what they denote**, if that is an integer of 64 bits. -/
lemma magnitude_eq_ok :
    magnitude ds exponent = .ok m ↔ (m : ℚ) = value ds * 10 ^ exponent ∧ m < 2 ^ 64 := by
  have htrailing := stripZeros_trailing (-exponent).toNat ds
  have hscale := (stripZeros_le (-exponent).toNat ds).2
  rw [stripped_value, magnitude]
  generalize stripZeros (-exponent).toNat ds = stripped at htrailing hscale
  obtain ⟨kept, scale⟩ := stripped
  simp only at htrailing hscale ⊢
  by_cases hzero : kept.all (· == 0) = true
  · rw [if_pos hzero, value_eq_zero_iff.mpr hzero, Except.ok.injEq]
    simp only [Nat.cast_zero, zero_mul, zero_div, Nat.cast_eq_zero]
    omega
  have hpos : 0 < value kept := Nat.pos_of_ne_zero (mt value_eq_zero_iff.mp hzero)
  rw [if_neg hzero]
  by_cases hs : 0 < scale
  · -- the last digit is behind the point and not zero
    rw [if_pos (Or.inl hs)]
    refine iff_of_false (fun h => by cases h) fun h => ?_
    have hexp : exponent.toNat = 0 := by omega
    have heq : (m : ℚ) * 10 ^ scale = value kept := by
      rw [h.1, hexp, pow_zero, mul_one, div_mul_cancel₀ _ (by positivity)]
    have hdvd : 10 ∣ value kept := by
      rw [← (by exact_mod_cast heq : m * 10 ^ scale = value kept)]
      exact (dvd_pow_self 10 hs.ne').mul_left m
    have hne : kept ≠ [] := by
      rintro rfl
      simp at hzero
    exact htrailing hs (getLast?_of_dvd hne hdvd)
  obtain rfl : scale = 0 := by omega
  have hdenoted : (m : ℚ) = value kept * 10 ^ exponent.toNat / 10 ^ 0 ↔
      value kept * 10 ^ exponent.toNat = m := by
    rw [pow_zero, div_one, eq_comm]
    exact_mod_cast Iff.rfl
  rw [hdenoted]
  by_cases hlarge : 20 < exponent
  · -- a number with so many zeros is out of range
    rw [if_pos (Or.inr hlarge)]
    refine iff_of_false (fun h => by cases h) fun h => ?_
    have hpow : 10 ^ 21 ≤ 10 ^ exponent.toNat := Nat.pow_le_pow_right (by norm_num) (by omega)
    have hle := Nat.mul_le_mul hpos hpow
    omega
  rw [if_neg (by omega), value_append, value_zeros, List.length_replicate, add_zero]
  split_ifs with hlt
  · rw [Except.ok.injEq]
    omega
  · refine iff_of_false (fun h => by cases h) fun h => ?_
    omega

/-! ## Reading a numeral -/

variable {n : Numeral}

lemma parseExponent_tail (hlow : -(2 ^ 31) ≤ n.power) (hhigh : n.power < 2 ^ 31) :
    parseExponent n.tail = .ok n.power := by
  unfold Numeral.tail
  unfold Numeral.power at hlow hhigh ⊢
  cases hexp : n.exponent with
  | none => rfl
  | some x =>
    rw [hexp] at hlow hhigh
    rw [Option.elim_some, Exponent.text, parseExponent, x.intOfText_text]
    exact if_pos ⟨hlow, hhigh⟩

/-- A numeral without sign is read by its digits and its exponent. -/
lemma parseUnsigned_numeral (hlow : -(2 ^ 31) ≤ n.power) (hhigh : n.power < 2 ^ 31) :
    parseUnsigned (n.mantissa ++ n.tail) = magnitude n.digits (n.power - n.places) := by
  have hfront : ∀ c ∈ n.mantissa, beforeExponent c = true := fun c hc => by
    simpa [beforeExponent] using front_ne none n.whole n.fraction c hc
  have htail : n.tail.takeWhile beforeExponent = [] ∧ n.tail.dropWhile beforeExponent = n.tail := by
    have hends := n.ends_tail
    cases htail : n.tail with
    | nil => exact ⟨rfl, rfl⟩
    | cons c rest =>
      rw [htail] at hends
      have hc : beforeExponent c = false := by
        rcases hends c rfl with rfl | rfl <;> rfl
      simp [hc]
  have hplus : n.mantissa.head? ≠ some 43 := by
    obtain ⟨c, rest, hc, -, hne⟩ := n.exists_start
    intro hhead
    obtain ⟨l, hl⟩ := List.head?_eq_some_iff.mp hhead
    rw [hl] at hc
    exact hne (List.cons.inj hc).1.symm
  have hpoint : ∀ c ∈ n.whole.map digitByte, (c != 46) = true := by
    intro c hc
    obtain ⟨d, -, rfl⟩ := List.mem_map.mp hc
    simpa using digitByte_ne (by decide) d
  have hfraction : (pointText n.fraction).takeWhile (· != 46) = [] ∧
      ((pointText n.fraction).dropWhile (· != 46)).tail = (n.fraction.getD []).map digitByte := by
    cases n.fraction with
    | none => exact ⟨rfl, rfl⟩
    | some ds => simp [pointText]
  rw [parseUnsigned, List.dropWhile_append_of_pos hfront, List.takeWhile_append_of_pos hfront,
    htail.1, htail.2, parseExponent_tail hlow hhigh, ok_bind, List.append_nil]
  simp only [if_neg hplus]
  rw [Numeral.mantissa, List.dropWhile_append_of_pos hpoint, List.takeWhile_append_of_pos hpoint,
    hfraction.1, hfraction.2, List.append_nil, ← List.map_append, readDigits_map, List.length_map]
  split
  · next h => cases h
  · next h => exact absurd (Option.some.inj h) n.digits_ne
  · next h =>
    cases h
    rfl

/-! ## Deltas -/

/-- The delta of a numeral is its number. -/
lemma decimalDelta_numeral {delta : Int64} (hsign : n.sign ≠ some false)
    (hlow : -(2 ^ 31) ≤ n.power) (hhigh : n.power < 2 ^ 31) :
    decimalDelta n.text = .ok delta ↔ n.number = delta.toInt := by
  obtain ⟨hnegative, hrest⟩ : decide (n.text.head? = some 45) = n.negative ∧
      (if n.negative then n.text.tail else n.text) = n.mantissa ++ n.tail := by
    obtain ⟨c, rest, hc, hminus, -⟩ := n.exists_start
    rw [Numeral.text, hc, Numeral.negative]
    rcases hs : n.sign with _ | _ | _
    · simp [signText, hminus]
    · exact absurd hs hsign
    · simp [signText]
  simp only [decimalDelta, hnegative, hrest, parseUnsigned_numeral hlow hhigh]
  rw [Numeral.number, mul_assoc]
  generalize n.negative = negative
  have hlo := Int64.le_toInt delta
  have hhi := Int64.toInt_lt delta
  cases hread : magnitude n.digits (n.power - n.places) with
  | error e =>
    refine iff_of_false (fun h => by cases h) fun h => ?_
    have hok : magnitude n.digits (n.power - n.places) = .ok delta.toInt.natAbs := by
      have hx : (0 : ℚ) ≤ value n.digits * 10 ^ (n.power - n.places) := by positivity
      refine magnitude_eq_ok.mpr ⟨?_, by omega⟩
      rw [Nat.cast_natAbs, Int.cast_abs, ← h, abs_mul, abs_of_nonneg hx]
      cases negative <;> simp
    rw [hread] at hok
    cases hok
  | ok m =>
    have hnumber : (if negative then -1 else 1) * (value n.digits * 10 ^ (n.power - n.places) : ℚ) =
        delta.toInt ↔ (if negative then -m else m : ℤ) = delta.toInt := by
      rw [← (magnitude_eq_ok.mp hread).1]
      cases negative <;> simp <;> norm_cast
    have hrange : ¬m > 2 ^ 63 - 1 + (if negative then 1 else 0) ↔
        -(2 ^ 63) ≤ (if negative then -m else m : ℤ) ∧ (if negative then -m else m : ℤ) < 2 ^ 63 := by
      split_ifs <;> omega
    -- the least integer is no exception
    have hleast : (if negative = true ∧ m = 2 ^ 63 then .ok Int64.minValue
        else .ok (Int64.ofInt (if negative then -m else m)) : Except EntityError Int64) =
          .ok (Int64.ofInt (if negative then -m else m)) := by
      refine ite_eq_right_iff.mpr ?_
      rintro ⟨rfl, rfl⟩
      rfl
    simp only [hleast]
    rw [hnumber, invalid, guard_eq_ok, hrange, Except.ok.injEq]
    constructor
    · rintro ⟨hfits, rfl⟩
      rw [Int64.toInt_ofInt_of_le hfits.1 hfits.2]
    · intro h
      rw [h, Int64.ofInt_toInt]
      exact ⟨⟨hlo, hhi⟩, rfl⟩

/-- **Decimal increments of signed fields are exact**: whatever the driver prints of the decimal,
the delta is the integer that it denotes, and there is none if it denotes no `int64`. -/
theorem signedDelta_exact (driver : Driver) {input : Value} (hkind : input.kind = .decimal)
    {q : Option ℚ} (hprinted : Printed (driver.decimalText input.textValue) q) (delta : Int64) :
    signedDelta driver input = .ok delta ↔ q = some (delta.toInt : ℚ) := by
  simp only [signedDelta, hkind]
  generalize driver.decimalText input.textValue = text at hprinted
  cases hprinted with
  | number n hsign hlow hhigh =>
    rw [decimalDelta_numeral hsign (by omega) (by omega), Option.some.injEq]
  | special h =>
    refine iff_of_false (fun hok => ?_) fun hq => by cases hq
    have hrefused : decimalDelta text = invalid (str "increment delta is not an exact signed int64") := by
      simp only [List.mem_cons, List.not_mem_nil, or_false] at h
      rcases h with rfl | rfl | rfl | rfl <;> rfl
    rw [hrefused] at hok
    cases hok

namespace Sample

/-- The numeral `-1.50E+2`. -/
def hundreds : Numeral where
  sign := some true
  whole := [1]
  fraction := some [5, 0]
  exponent := some ⟨69, some false, [2], .inr rfl, by simp⟩
  digits_ne := by simp

def driver : Driver := ⟨fun _ => hundreds.text, fun _ => none⟩

end Sample

theorem signedDelta_exact_hundreds : Sample.hundreds.text = str "-1.50E+2" ∧
    signedDelta Sample.driver { kind := .decimal } = .ok (-150) ∧
    (signedDelta Sample.driver { kind := .decimal } = .ok (-150) ↔
      some Sample.hundreds.number = some ((-150 : Int64).toInt : ℚ)) :=
  ⟨by decide +kernel, by decide +kernel, signedDelta_exact Sample.driver rfl
    (.number Sample.hundreds (by decide) (by decide +kernel) (by decide +kernel)) _⟩

end Caf.EntityStore.Mongo
