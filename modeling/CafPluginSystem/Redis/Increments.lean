import CafPluginSystem.Redis.Numerals
import CafPluginSystem.Redis.Refusals

/-!
# Integer increments

`EntityCodec::increment` prints the stored integer and the delta, adds them as decimals, prints the
sum and reads it as a 64-bit integer.  Nothing is lost on the way: integers have the scale zero, so
their sum is exact, and a sum in the range of the field is far from the limits of decimals.

* `scale_eq_zero_iff` — the decimals without scale are the integers.
* `add_eq_ok` — two short integers have a sum.
* `increment_eq_ok_iff` — **an increment returns the exact sum if the delta is an integer and the
  sum in range, and is refused otherwise**.
-/

namespace Caf.EntityStore.Redis

open DecimalText Fallible

namespace Decimal

variable {x y z d : Decimal} {i : ℤ}

/-! ## Integers -/

lemma toRat_of_scale (h : d.scale = 0) :
    d.toRat = ((if d.negative then -value d.digits else value d.digits : ℤ) : ℚ) := by
  rw [toRat, signed, h]
  cases d.negative <;> simp

/-- **The decimals without scale are the integers.** -/
lemma scale_eq_zero_iff : d.scale = 0 ↔ ∃ i : ℤ, d.toRat = i := by
  refine ⟨fun h => ⟨_, toRat_of_scale h⟩, ?_⟩
  rintro ⟨i, hi⟩
  by_contra hscale
  have hval : (value d.digits : ℤ) = (if d.negative then -i else i) * 10 ^ d.scale := by
    have hpow : (10 : ℚ) ^ d.scale ≠ 0 := by positivity
    rw [toRat, signed, div_eq_iff hpow] at hi
    have hcast : (value d.digits : ℚ) = (if d.negative then -i else i : ℤ) * 10 ^ d.scale := by
      cases hneg : d.negative <;> simp [hneg] at hi ⊢ <;> linarith
    exact_mod_cast hcast
  have hten : (10 : ℤ) ∣ value d.digits := by
    rw [hval]
    exact (dvd_pow_self 10 hscale).mul_left _
  exact d.normal.trailing (Nat.pos_of_ne_zero hscale)
    (getLast?_of_dvd d.normal.nonempty (by exact_mod_cast hten))

/-- An integer below `2 ^ 65` has at most twenty digits. -/
lemma length_le_of_natAbs (hd : d.toRat = i) (h : i.natAbs < 2 ^ 65) : d.digits.length ≤ 20 := by
  have hval : value d.digits = i.natAbs := by
    rw [toRat_of_scale (scale_eq_zero_iff.mpr ⟨i, hd⟩), Int.cast_inj] at hd
    split_ifs at hd <;> omega
  by_cases hhead : d.digits.head? = some 0
  · rw [(d.normal.leading hhead).1]
    decide
  · by_contra hlong
    have hlarge := value_lt_of_length_lt (a := List.replicate 20 9) (by simpa using hlong) hhead
    have hnines : value (List.replicate 20 (9 : Digit)) = 10 ^ 20 - 1 := by decide
    omega

lemma digits_length_le {n : ℕ} (h : n < 2 ^ 64) : (DecimalText.digits n).length ≤ 20 := by
  have hlen : (Nat.digits 10 n).length ≤ 20 :=
    (Nat.digits_length_le_iff (by norm_num) n).mpr (h.trans (by norm_num))
  unfold DecimalText.digits
  split_ifs <;> simp [hlen]

/-- A printed 64-bit integer is read as this integer. -/
lemma exists_ofText_intText (hi : i.natAbs < 2 ^ 64) :
    ∃ d, ofText (intText i) = .ok d ∧ d.toRat = i := by
  have hlen := digits_length_le hi
  have hlimit : limit = 4096 := rfl
  let n : Numeral := ⟨if i < 0 then some true else none, DecimalText.digits i.natAbs, none, none,
    by simpa using digits_ne_nil _⟩
  have htext : n.text = intText i := by
    rw [intText]
    split_ifs with hneg <;>
      simp [n, hneg, Numeral.text, Numeral.mantissa, Numeral.tail, pointText, signText, natText]
  have hnum : n.number = i := by
    by_cases hneg : i < 0
    · simp [n, hneg, Numeral.number, Numeral.negative, Numeral.digits, Numeral.power,
        Numeral.places, abs_of_neg]
    · simp [n, hneg, Numeral.number, Numeral.negative, Numeral.digits, Numeral.power,
        Numeral.places, abs_of_nonneg (not_lt.mp hneg)]
  have hsize : n.text.length ≤ limit := by
    rw [htext, intText]
    split_ifs <;> simp [natText] <;> omega
  rcases normalize_toRat n.digits n.places n.negative with ⟨-, hlong⟩ | ⟨d, hd, -⟩
  · simp [n, Numeral.digits, Numeral.places] at hlong
    omega
  · rw [← n.ofText_text rfl hsize] at hd
    exact ⟨d, htext ▸ hd, (n.toRat_eq_number hd).trans hnum⟩

/-! ## Sums -/

lemma addCarry_length (ys : List Digit) : ∀ carry, (addCarry ys carry).length ≤ ys.length + 1 := by
  induction ys with
  | nil =>
    intro carry
    rw [addCarry]
    split_ifs <;> simp
  | cons y ys ih =>
    intro carry
    exact Nat.succ_le_succ (ih _)

lemma addDigits_length (xs : List Digit) : ∀ (ys : List Digit) (carry : ℕ),
    (addDigits xs ys carry).length ≤ max xs.length ys.length + 1 := by
  induction xs with
  | nil =>
    intro ys carry
    exact (addCarry_length ys carry).trans (by simp)
  | cons x xs ih =>
    intro ys carry
    have htail := ih ys.tail ((carry + x.val + (ys.headD 0).val) / 10)
    rw [List.length_tail] at htail
    rw [addDigits, List.length_cons, List.length_cons]
    omega

/-- Two short integers have a sum. -/
lemma exists_add (hx : x.scale = 0) (hy : y.scale = 0) (hxs : x.digits.length ≤ 20)
    (hys : y.digits.length ≤ 20) : ∃ z, x.add y = .ok z := by
  have hlimit : limit = 4096 := rfl
  have hnormal : ∀ {ds} {negative}, ds.length ≤ 21 →
      ∃ z, normalize ds 0 negative = .ok z := by
    intro ds negative hds
    rcases normalize_toRat ds 0 negative with ⟨-, hno⟩ | ⟨z, hz, -⟩
    · omega
    · exact ⟨z, hz⟩
  have hxd : x.scaled 0 = x.digits := by simp [scaled]
  have hyd : y.scaled 0 = y.digits := by simp [scaled]
  have hadd := addDigits_length x.digits.reverse y.digits.reverse 0
  simp only [List.length_reverse] at hadd
  rw [add_eq x y (by simp [hx, hy] : 0 = max x.scale y.scale), hxd, hyd, if_neg (by omega)]
  split_ifs
  · exact hnormal (by rw [List.length_reverse]; omega)
  · exact hnormal (by simp [subDigits_length]; omega)
  · exact hnormal (by simp [subDigits_length]; omega)

/-- The sum of two integers is exact. -/
lemma toRat_add (hx : x.scale = 0) (hy : y.scale = 0) (h : x.add y = .ok z) :
    z.toRat = x.toRat + y.toRat := by
  have hno : ∀ {a b}, b.scale = 0 → ¬Misjudged a b := by
    rintro a b hb ⟨-, -, hlen, -⟩
    exact b.normal.nonempty (List.length_eq_zero_iff.mp (by omega))
  have hexact := (add_exact_iff x y).mpr ⟨hno hy, hno hx⟩
  rw [h] at hexact
  exact hexact.1

/-! ## Reading the sum -/

lemma str_of_scale (h : z.scale = 0) :
    z.str = if z.negative then 45 :: z.digits.map digitByte else z.digits.map digitByte := by
  have hmagnitude : z.magnitude = z.digits.map digitByte := by
    rw [magnitude, if_neg (by omega)]
  rw [str, hmagnitude]

lemma int64OfText_str (hz : z.toRat = i) : int64OfText? z.str =
    if -(2 ^ 63) ≤ i ∧ i < 2 ^ 63 then some (Int64.ofInt i) else none := by
  have hscale : z.scale = 0 := scale_eq_zero_iff.mpr ⟨i, hz⟩
  have hread : intOfText? z.str = some i := by
    rw [toRat_of_scale hscale, Int.cast_inj] at hz
    rw [str_of_scale hscale, ← hz]
    split_ifs
    · exact intOfText_neg_map z.normal.nonempty
    · exact intOfText_map z.normal.nonempty
  rw [int64OfText?, hread, Option.bind_some]

lemma uint64OfText_str (hz : z.toRat = i) : uint64OfText? z.str =
    if 0 ≤ i ∧ i < 2 ^ 64 then some (UInt64.ofNat i.toNat) else none := by
  have hscale : z.scale = 0 := scale_eq_zero_iff.mpr ⟨i, hz⟩
  have hnegative := negative_iff z
  rw [hz, Int.cast_lt_zero] at hnegative
  rw [toRat_of_scale hscale, Int.cast_inj] at hz
  rw [str_of_scale hscale, uint64OfText?]
  cases hsign : z.negative with
  | true =>
    have hneg := hnegative.mp hsign
    rw [if_pos rfl, if_neg (by omega)]
    rfl
  | false =>
    rw [hsign] at hz
    simp only [Bool.false_eq_true, if_false] at hz ⊢
    rw [natOfText_map z.normal.nonempty, Option.bind_some, ← hz]
    simp

end Decimal

namespace EntityCodec

open Decimal

/-! ## Increments -/

/-- The integer that a signed or an unsigned value holds. -/
def number (v : Value) : ℤ :=
  if v.kind = .signedInteger then v.signedValue.toInt else v.unsignedValue.toNat

/-- What a field of a 64-bit kind can hold. -/
def InRange : ValueKind → ℤ → Prop
  | .signedInteger, i => -(2 ^ 63) ≤ i ∧ i < 2 ^ 63
  | .unsignedInteger, i => 0 ≤ i ∧ i < 2 ^ 64
  | _, _ => False

def ofNumber (kind : ValueKind) (i : ℤ) : Value :=
  if kind = .signedInteger then .signedInteger (Int64.ofInt i)
  else .unsignedInteger (UInt64.ofNat i.toNat)

/-- The number by which a delta changes a field. -/
def Changes (delta : Value) (q : ℚ) : Prop :=
  match delta.kind with
  | .signedInteger | .unsignedInteger => q = number delta
  | .decimal => ∃ d, ofText delta.textValue = .ok d ∧ q = d.toRat
  | _ => False

variable {p : Platform} {before delta : Value} {kind : ValueKind} {q : ℚ}

lemma number_natAbs_lt (v : Value) : (number v).natAbs < 2 ^ 64 := by
  unfold number
  split_ifs
  · have hlow := v.signedValue.le_toInt
    have hhigh := v.signedValue.toInt_lt
    omega
  · have := v.unsignedValue.toNat_lt
    omega

/-- What leads from one 64-bit integer to another has at most twenty digits. -/
lemma length_le_of_inRange {d : Decimal} {i : ℤ} (hd : d.toRat = i)
    (hrange : InRange kind (number before + i)) : d.digits.length ≤ 20 := by
  refine length_le_of_natAbs hd ?_
  have hbefore := number_natAbs_lt before
  unfold InRange at hrange
  split at hrange
  · omega
  · omega
  · exact hrange.elim

/-- Integers are printed as such. -/
lemma numericText_number (h : before.kind = .signedInteger ∨ before.kind = .unsignedInteger) :
    numericText p before = .ok (intText (number before)) := by
  rcases h with h | h
  · simp [numericText, number, h]
  · simp [numericText, number, h, intText]

/-- The sum that a field can hold, or nothing. -/
lemma incrementSum_eq_ok {change : Decimal} {i : ℤ} {v : Value}
    (hkind : kind = .signedInteger ∨ kind = .unsignedInteger) (hbefore : before.kind = kind)
    (hchg : change.toRat = i) : incrementSum p before change kind = .ok v ↔
      InRange kind (number before + i) ∧ v = ofNumber kind (number before + i) := by
  obtain ⟨augend, haugend, hval⟩ := exists_ofText_intText (number_natAbs_lt before)
  have hscale : change.scale = 0 := scale_eq_zero_iff.mpr ⟨i, hchg⟩
  have hscale' : augend.scale = 0 := scale_eq_zero_iff.mpr ⟨_, hval⟩
  rw [incrementSum, numericText_number (hbefore ▸ hkind), ok_bind, haugend, ok_bind]
  cases hsum : augend.add change with
  | error e =>
    refine iff_of_false (fun h => by cases h) fun h => ?_
    obtain ⟨z, hz⟩ := exists_add hscale' hscale (length_le_of_natAbs hval (by
      have := number_natAbs_lt before
      omega)) (length_le_of_inRange hchg h.1)
    rw [hsum] at hz
    cases hz
  | ok z =>
    have hz : z.toRat = (number before + i : ℤ) := by
      rw [toRat_add hscale' hscale hsum, hval, hchg, Int.cast_add]
    have hinteger : z.integer = .ok z.str := by
      rw [integer, if_neg (by simpa using scale_eq_zero_iff.mpr ⟨_, hz⟩)]
    rcases hkind with rfl | rfl
    · rw [ok_bind, if_neg (by decide), hinteger, ok_bind, if_pos rfl, int64OfText_str hz]
      by_cases hrange : -(2 ^ 63) ≤ number before + i ∧ number before + i < 2 ^ 63
      · rw [if_pos hrange]
        exact ⟨fun h => ⟨hrange, (Except.ok.inj h).symm⟩, fun h => congrArg _ h.2.symm⟩
      · rw [if_neg hrange]
        exact iff_of_false (fun h => by cases h) fun h => hrange h.1
    · rw [ok_bind, if_neg (by decide), hinteger, ok_bind, if_neg (by decide), uint64OfText_str hz]
      by_cases hrange : 0 ≤ number before + i ∧ number before + i < 2 ^ 64
      · rw [if_pos hrange]
        exact ⟨fun h => ⟨hrange, (Except.ok.inj h).symm⟩, fun h => congrArg _ h.2.symm⟩
      · rw [if_neg hrange]
        exact iff_of_false (fun h => by cases h) fun h => hrange h.1

/-- An increment by a decimal that was read from the text of the delta. -/
lemma incrementExact_eq_ok {text : Bytes} {change : Decimal} {v : Value}
    (hkind : kind = .signedInteger ∨ kind = .unsignedInteger) (hbefore : before.kind = kind)
    (htext : numericText p delta = .ok text) (hchg : ofText text = .ok change) :
    incrementExact p before delta kind = .ok v ↔ ∃ i : ℤ, (i : ℚ) = change.toRat ∧
      InRange kind (number before + i) ∧ v = ofNumber kind (number before + i) := by
  have hdecimal : kind ≠ .decimal := by rcases hkind with rfl | rfl <;> decide
  rw [incrementExact, htext, ok_bind, hchg, ok_bind, if_neg hdecimal, integer]
  by_cases hscale : change.scale = 0
  · obtain ⟨i, hi⟩ := scale_eq_zero_iff.mp hscale
    rw [if_neg (by simpa using hscale), ok_bind, incrementSum_eq_ok hkind hbefore hi, hi]
    simp
  · rw [if_pos hscale]
    refine iff_of_false (fun h => by cases h) ?_
    rintro ⟨i, hi, -⟩
    exact hscale (scale_eq_zero_iff.mpr ⟨i, hi.symm⟩)

/-- **Integer increments are exact.**  The sum is returned if the delta is an integer and the field
can hold the sum; otherwise the increment is refused as an invalid request. -/
theorem increment_eq_ok_iff (hkind : kind = .signedInteger ∨ kind = .unsignedInteger)
    (hbefore : before.kind = kind) (hdelta : Changes delta q) :
    (∀ v, increment p before delta kind = .ok v ↔ ∃ i : ℤ, (i : ℚ) = q ∧
      InRange kind (number before + i) ∧ v = ofNumber kind (number before + i)) ∧
    ∀ e, increment p before delta kind = .error e → e.code = .invalidRequest := by
  refine ⟨fun v => ?_, increment_refuses before delta kind⟩
  have hnum : delta.kind.isNumber := by
    unfold Changes at hdelta
    split at hdelta <;> simp_all [ValueKind.isNumber]
  have hfield : kind.isNumber ∧ kind ≠ .real := by rcases hkind with rfl | rfl <;> decide
  have hexact : increment p before delta kind = incrementExact p before delta kind := by
    simp [increment, hnum, hbefore, hfield]
  rw [hexact]
  unfold Changes at hdelta
  split at hdelta
  · next hsigned =>
    obtain ⟨change, hchg, hval⟩ := exists_ofText_intText (number_natAbs_lt delta)
    rw [hdelta, ← hval]
    exact incrementExact_eq_ok hkind hbefore (numericText_number (.inl hsigned)) hchg
  · next hunsigned =>
    obtain ⟨change, hchg, hval⟩ := exists_ofText_intText (number_natAbs_lt delta)
    rw [hdelta, ← hval]
    exact incrementExact_eq_ok hkind hbefore (numericText_number (.inr hunsigned)) hchg
  · next hdecimal =>
    obtain ⟨d, hd, rfl⟩ := hdelta
    have htext : numericText p delta = .ok d.str := by simp [numericText, hdecimal, hd]
    by_cases hlen : d.str.length ≤ limit
    · exact incrementExact_eq_ok hkind hbefore htext (ofText_str d hlen)
    · -- a text that cannot be read back is not the one of an integer in range
      rw [incrementExact, htext, ok_bind, ofText_str_oversized d (not_le.mp hlen)]
      refine iff_of_false (fun h => by cases h) ?_
      rintro ⟨i, hi, hrange, -⟩
      have hshort := length_le_of_inRange hi.symm hrange
      have hscale : d.scale = 0 := scale_eq_zero_iff.mpr ⟨i, hi.symm⟩
      have hlimit : limit = 4096 := rfl
      rw [str_length, printed, hscale] at hlen
      split_ifs at hlen <;> omega
  · exact hdelta.elim

theorem increment_eq_ok_iff_level :
    increment .integral (.signedInteger 7) (.decimal (Caf.str "-1e1")) .signedInteger
      = .ok (.signedInteger (-3)) := by
  obtain ⟨d, hd, hval⟩ := Fallible.map_eq_ok.mp (by decide +kernel :
    (ofText (Caf.str "-1e1")).map (fun d => (d.digits, d.scale, d.negative)) = .ok ([1, 0], 0, true))
  have hq : d.toRat = (-10 : ℤ) := by
    simp only [Prod.mk.injEq] at hval
    rw [toRat, hval.1, hval.2.1, hval.2.2]
    simp [signed, value]
  have hdelta : Changes (.decimal (Caf.str "-1e1")) d.toRat := ⟨d, hd, rfl⟩
  exact ((increment_eq_ok_iff (.inl rfl) rfl hdelta).1 _).mpr
    ⟨-10, hq.symm, ⟨by decide, by decide⟩, by decide⟩

end EntityCodec

end Caf.EntityStore.Redis
