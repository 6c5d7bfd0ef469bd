import CafPluginSystem.Redis.Addition

/-!
# What a decimal text denotes

Decimal numerals by their grammar, apart from the reader: an optional sign, digits with at most one
point, and an optional exponent.  The constructor of `Decimal` reads numerals as the numbers they
denote and keeps one normal form for each number.  It reads one text more: it skips a plus sign
before the exponent and leaves the rest to `std::from_chars`, which takes a minus sign.

* `Denotes` — a text is a numeral of a number.
* `toRat_injective` — a number has one normal form.
* `ofText_exact_iff` — **an accepted text denotes the decimal it is read as, unless its exponent has
  two signs; equal numbers have equal texts; and the text of a decimal is accepted unless it is
  longer than the limit**.
* `ofText_inexact` — "1e+-5" is read as 0.00001; the text of "1e-4096" is refused.
-/

namespace Caf.EntityStore.Redis.Decimal

open DecimalText Fallible List

/-! ## Numerals -/

/-- An optional sign; `true` stands for the minus sign. -/
def signText : Option Bool → Bytes
  | none => []
  | some true => [45]
  | some false => [43]

/-- The point and the digits after it. -/
def pointText : Option (List Digit) → Bytes
  | none => []
  | some ds => 46 :: ds.map digitByte

/-- The letter of an exponent, an optional sign and digits. -/
structure Exponent where
  letter : UInt8
  sign : Option Bool
  digits : List Digit
  letter_eq : letter = 101 ∨ letter = 69
  digits_ne : digits ≠ []

namespace Exponent

def text (e : Exponent) : Bytes := e.letter :: (signText e.sign ++ e.digits.map digitByte)

def number (e : Exponent) : ℤ := if e.sign = some true then -value e.digits else value e.digits

/-- Behind its letter an exponent is read as its number, a plus sign aside. -/
lemma intOfText_text (e : Exponent) :
    intOfText? (if (signText e.sign ++ e.digits.map digitByte).head? = some 43 then
      (signText e.sign ++ e.digits.map digitByte).tail
      else signText e.sign ++ e.digits.map digitByte) = some e.number := by
  match hsign : e.sign with
  | none =>
    have hplus : (e.digits.map digitByte).head? ≠ some 43 := by
      rw [head?_map, Ne, Option.map_eq_some_iff]
      rintro ⟨d, -, hd⟩
      exact digitByte_ne (by decide) d hd
    rw [signText, nil_append, if_neg hplus, intOfText_map e.digits_ne]
    simp [number, hsign]
  | some true =>
    rw [signText, if_neg (by simp), singleton_append, intOfText_neg_map e.digits_ne]
    simp [number, hsign]
  | some false =>
    rw [signText, if_pos (by simp), singleton_append, tail_cons,
      intOfText_map e.digits_ne]
    simp [number, hsign]

end Exponent

/-- A decimal numeral; it has a digit before or after the point. -/
structure Numeral where
  sign : Option Bool
  whole : List Digit
  fraction : Option (List Digit)
  exponent : Option Exponent
  digits_ne : whole ++ fraction.getD [] ≠ []

namespace Numeral

variable (n : Numeral)

def mantissa : Bytes := n.whole.map digitByte ++ pointText n.fraction

def tail : Bytes := n.exponent.elim [] Exponent.text

def text : Bytes := signText n.sign ++ (n.mantissa ++ n.tail)

def digits : List Digit := n.whole ++ n.fraction.getD []

/-- The number of digits after the point. -/
def places : ℕ := (n.fraction.getD []).length

def power : ℤ := n.exponent.elim 0 Exponent.number

def negative : Bool := n.sign == some true

/-- The number that a numeral stands for. -/
def number : ℚ := (if n.negative then -1 else 1) * value n.digits * 10 ^ (n.power - n.places)

end Numeral

/-- The text is a numeral of the number. -/
def Denotes (text : Bytes) (q : ℚ) : Prop := ∃ n : Numeral, n.text = text ∧ n.number = q

/-- What follows the first `e` or `E`. -/
def exponentText (text : Bytes) : Bytes := (text.dropWhile fun c => c != 101 && c != 69).tail

/-- The exponent starts with a plus and a minus sign. -/
def DoublySigned (text : Bytes) : Prop := (exponentText text).take 2 = [43, 45]

instance (text : Bytes) : Decidable (DoublySigned text) := inferInstanceAs (Decidable (_ = _))

/-! ## The reader takes numerals -/

/-- Digits are taken over one by one, and counted once the dot was seen. -/
lemma readMantissa_digits (dot : Bool) (tail : Bytes) :
    ∀ (ds : List Digit) (acc : List Digit) (fraction : ℕ),
      readMantissa dot acc fraction (ds.map digitByte ++ tail)
        = readMantissa dot (acc ++ ds) (if dot then fraction + ds.length else fraction) tail
  | [], acc, fraction => by simp
  | d :: ds, acc, fraction => by
    have he : digitByte d ≠ 101 := digitByte_ne (by decide) d
    have hE : digitByte d ≠ 69 := digitByte_ne (by decide) d
    have hdot : digitByte d ≠ 46 := digitByte_ne (by decide) d
    rw [map_cons, cons_append, readMantissa, if_neg (by simp [he, hE]),
      if_neg (by simp [hdot]), byteDigit_digitByte]
    simp only
    rw [readMantissa_digits dot tail ds]
    cases dot with
    | false => simp
    | true =>
      have hcount : fraction + 1 + ds.length = fraction + (d :: ds).length := by
        simp only [length_cons]
        omega
      simp only [if_true, hcount, append_assoc, singleton_append]

/-- What ends the mantissa: the end of the text, or an exponent. -/
def Ends (tail : Bytes) : Prop := ∀ c ∈ tail.head?, c = 101 ∨ c = 69

lemma readMantissa_ends {tail} (h : Ends tail) (dot : Bool) (ds : List Digit) (places : ℕ) :
    readMantissa dot ds places tail = .ok (ds, places, tail) := by
  cases tail with
  | nil => rfl
  | cons c rest => rw [readMantissa, if_pos (h c rfl)]

/-- No sign, digit or point is the letter of an exponent. -/
lemma exponentText_append {front tail} (h : Ends tail)
    (hfront : ∀ c ∈ front, c ≠ 101 ∧ c ≠ 69) : exponentText (front ++ tail) = tail.tail := by
  rw [exponentText, dropWhile_append_of_pos (by simpa using hfront)]
  cases tail with
  | nil => rfl
  | cons c rest => rw [dropWhile_cons_of_neg (by simpa [or_iff_not_imp_left] using h c rfl)]

lemma front_ne (sign : Option Bool) (whole : List Digit) (fraction : Option (List Digit)) :
    ∀ c ∈ signText sign ++ (whole.map digitByte ++ pointText fraction), c ≠ 101 ∧ c ≠ 69 := by
  have hdigit : ∀ d, digitByte d ≠ 101 ∧ digitByte d ≠ 69 := fun d =>
    ⟨digitByte_ne (by decide) d, digitByte_ne (by decide) d⟩
  intro c hc
  rw [mem_append, mem_append] at hc
  rcases hc with hc | hc | hc
  · match sign with
    | some true => simp_all [signText]
    | some false => simp_all [signText]
  · obtain ⟨d, -, rfl⟩ := mem_map.mp hc
    exact hdigit d
  · cases fraction with
    | none => cases hc
    | some ds =>
      rcases mem_cons.mp hc with rfl | hc
      · decide
      · obtain ⟨d, -, rfl⟩ := mem_map.mp hc
        exact hdigit d

namespace Numeral

variable {n : Numeral}

lemma ends_tail : Ends n.tail := by
  unfold tail
  cases n.exponent with
  | none => simp [Ends]
  | some e => simpa [Ends, Exponent.text] using e.letter_eq

/-- A numeral goes on with a digit or a point behind its sign. -/
lemma exists_start : ∃ c rest, n.mantissa ++ n.tail = c :: rest ∧ c ≠ 45 ∧ c ≠ 43 := by
  have hne := n.digits_ne
  unfold mantissa
  cases hw : n.whole with
  | cons d ds => exact ⟨_, _, rfl, digitByte_ne (by decide) d, digitByte_ne (by decide) d⟩
  | nil =>
    cases hf : n.fraction with
    | none => simp [hw, hf] at hne
    | some ds => exact ⟨46, _, rfl, by decide, by decide⟩

lemma readSign_text : readSign n.text = (n.negative, n.mantissa ++ n.tail) := by
  obtain ⟨c, rest, hc, hminus, hplus⟩ := n.exists_start
  rw [text, hc, negative]
  match n.sign with
  | none =>
    unfold readSign
    split
    · next heq => exact absurd (List.cons.inj heq).1 hminus
    · next heq => exact absurd (List.cons.inj heq).1 hplus
    · rfl
  | some true => rfl
  | some false => rfl

lemma readMantissa_text :
    readMantissa false [] 0 (n.mantissa ++ n.tail) = .ok (n.digits, n.places, n.tail) := by
  rw [mantissa, append_assoc, readMantissa_digits]
  cases hf : n.fraction with
  | none => simp [pointText, readMantissa_ends ends_tail, digits, places, hf]
  | some ds =>
    rw [pointText, cons_append, readMantissa, if_neg (by decide), if_pos (by decide),
      readMantissa_digits, readMantissa_ends ends_tail]
    simp [digits, places, hf]

lemma readExponent_tail {e} (h : readExponent n.tail = .ok e) : e = n.power := by
  unfold tail at h
  unfold power
  cases hexp : n.exponent with
  | none =>
    rw [hexp] at h
    exact (Except.ok.inj h).symm
  | some x =>
    rw [hexp] at h
    rw [Option.elim_some, Exponent.text, readExponent, x.intOfText_text] at h
    rw [invalid, guard_eq_ok] at h
    exact (Except.ok.inj h.2).symm

lemma not_doublySigned : ¬DoublySigned n.text := by
  rw [DoublySigned, text, mantissa, ← append_assoc,
    exponentText_append ends_tail (front_ne n.sign n.whole n.fraction)]
  have hdigit : ∀ d, digitByte d ≠ 43 ∧ digitByte d ≠ 45 := fun d =>
    ⟨digitByte_ne (by decide) d, digitByte_ne (by decide) d⟩
  unfold tail
  cases n.exponent with
  | none => simp
  | some x =>
    obtain ⟨d, ds, hds⟩ := exists_cons_of_ne_nil x.digits_ne
    simp only [Option.elim_some, Exponent.text, tail_cons, hds]
    match x.sign with
    | none => simp [signText, hdigit]
    | some true => simp [signText]
    | some false => simp [signText, hdigit]

/-- The digits with the scale that the constructor gives them. -/
lemma number_eq_signed : n.number =
    if (n.places : ℤ) - n.power < 0 then
      signed (n.digits ++ List.replicate (-(n.places - n.power : ℤ)).toNat 0) 0 n.negative
    else signed n.digits (n.places - n.power : ℤ).toNat n.negative := by
  split_ifs with hneg
  · obtain ⟨k, hk⟩ : ∃ k : ℕ, n.power - n.places = k := ⟨_, (Int.toNat_of_nonneg (by omega)).symm⟩
    have hzeros : (-(n.places - n.power : ℤ)).toNat = k := by omega
    rw [number, signed, hk, hzeros, zpow_natCast, value_append, value_zeros, length_replicate]
    push_cast
    ring
  · obtain ⟨k, hk⟩ : ∃ k : ℕ, n.places - n.power = (k : ℤ) :=
      ⟨_, (Int.toNat_of_nonneg (by omega)).symm⟩
    have hpower : n.power - n.places = -(k : ℤ) := by omega
    rw [number, signed, hk, hpower, Int.toNat_natCast, zpow_neg, zpow_natCast, div_eq_mul_inv]

/-- A short numeral without exponent has only to be brought to its normal form. -/
lemma ofText_text (hexp : n.exponent = none) (hlen : n.text.length ≤ limit) :
    ofText n.text = normalize n.digits n.places n.negative := by
  have hne : n.text ≠ [] := by
    obtain ⟨c, rest, hc, -⟩ := n.exists_start
    simp [text, hc]
  have hdig : n.digits ≠ [] := n.digits_ne
  rw [ofText, if_neg (by simp [hne, hlen]), readSign_text]
  simp only [readMantissa_text, ok_bind]
  rw [if_neg hdig, tail, hexp]
  simp [readExponent]

/-- **A numeral that is accepted is read as its number.** -/
lemma toRat_eq_number {d} (h : ofText n.text = .ok d) : d.toRat = n.number := by
  rw [ofText, readSign_text] at h
  simp only [readMantissa_text, ok_bind] at h
  rw [invalid, guard_eq_ok, invalid, guard_eq_ok, bind_eq_ok] at h
  obtain ⟨-, -, e, he, h⟩ := h
  obtain rfl := readExponent_tail he
  rw [number_eq_signed]
  split_ifs at h ⊢
  · exact toRat_of_normalize h
  · exact toRat_of_normalize h

end Numeral

/-! ## The reader takes little else -/

lemma exists_sign (text : Bytes) : ∃ sign, text = signText sign ++ (readSign text).2 := by
  unfold readSign
  split
  · exact ⟨some true, rfl⟩
  · exact ⟨some false, rfl⟩
  · exact ⟨none, rfl⟩

/-- What the mantissa loop has read.  The induction is on the text; behind the dot there is no other
one. -/
lemma readMantissa_eq_ok {ds tail places} : ∀ {text : Bytes} {dot : Bool}
    {acc : List Digit} {fraction : ℕ}, readMantissa dot acc fraction text = .ok (ds, places, tail) →
    Ends tail ∧ ∃ whole rest, text = whole.map digitByte ++ pointText rest ++ tail ∧
      ds = acc ++ (whole ++ rest.getD []) ∧ (dot → rest = none)
  | [], dot, acc, fraction, h => by
    cases h
    exact ⟨by simp [Ends], [], none, rfl, by simp, fun _ => rfl⟩
  | c :: text, dot, acc, fraction, h => by
    rw [readMantissa] at h
    by_cases hletter : c = 101 ∨ c = 69
    · rw [if_pos hletter] at h
      cases h
      exact ⟨by simpa [Ends] using hletter, [], none, rfl, by simp, fun _ => rfl⟩
    rw [if_neg hletter] at h
    by_cases hdot : c = 46 ∧ !dot
    · rw [if_pos hdot] at h
      obtain ⟨hends, whole, rest, rfl, rfl, hrest⟩ := readMantissa_eq_ok h
      obtain rfl := hrest rfl
      refine ⟨hends, [], some whole, ?_, by simp, fun hyes => by simp [hyes] at hdot⟩
      simp [pointText, hdot.1]
    rw [if_neg hdot] at h
    cases hd : byteDigit c with
    | none =>
      rw [hd] at h
      cases h
    | some d =>
      rw [hd] at h
      obtain ⟨hends, whole, rest, rfl, rfl, hrest⟩ := readMantissa_eq_ok h
      refine ⟨hends, d :: whole, rest, ?_, by simp, hrest⟩
      rw [eq_digitByte hd, map_cons, cons_append, cons_append]

lemma exists_exponent {tail e} (hends : Ends tail) (h : readExponent tail = .ok e)
    (hsigns : tail.tail.take 2 ≠ [43, 45]) :
    ∃ x : Option Exponent, tail = x.elim [] Exponent.text := by
  match tail with
  | [] => exact ⟨none, rfl⟩
  | letter :: rest =>
    have hletter := hends letter rfl
    rw [readExponent] at h
    split at h
    · cases h
    · next i hread =>
      obtain ⟨ds, hne, htext⟩ := intOfText_eq_some hread
      split_ifs at htext with hplus
      · obtain ⟨rest, rfl⟩ := head?_eq_some_iff.mp hplus
        rcases htext with htext | htext
        · refine ⟨some ⟨letter, some false, ds, hletter, hne⟩, ?_⟩
          simp [Exponent.text, signText, ← htext]
        · rw [tail_cons] at htext
          simp [htext] at hsigns
      · rcases htext with rfl | rfl
        · exact ⟨some ⟨letter, none, ds, hletter, hne⟩, rfl⟩
        · exact ⟨some ⟨letter, some true, ds, hletter, hne⟩, rfl⟩

/-- **What is accepted is a numeral**, unless its exponent has two signs. -/
lemma exists_numeral {text d} (h : ofText text = .ok d)
    (hsigns : ¬DoublySigned text) : ∃ n : Numeral, n.text = text := by
  rw [ofText, invalid, guard_eq_ok, bind_eq_ok] at h
  obtain ⟨-, ⟨ds, places, tail⟩, hmant, h⟩ := h
  rw [invalid, guard_eq_ok, bind_eq_ok] at h
  obtain ⟨hds, e, he, -⟩ := h
  obtain ⟨sign, hsign⟩ := exists_sign text
  obtain ⟨hends, whole, fraction, hwhole, hdig, -⟩ := readMantissa_eq_ok hmant
  rw [hwhole] at hsign
  have htail : exponentText text = tail.tail := by
    rw [hsign, ← append_assoc]
    exact exponentText_append hends (front_ne sign whole fraction)
  rw [DoublySigned, htail] at hsigns
  obtain ⟨exponent, hexp⟩ := exists_exponent hends he hsigns
  refine ⟨⟨sign, whole, fraction, exponent, ?_⟩, ?_⟩
  · rwa [hdig, nil_append] at hds
  · rw [hsign, hexp]
    rfl

/-! ## The text of a decimal reads back -/

lemma padded_length (d : Decimal) : d.padded.length = max d.digits.length (d.scale + 1) := by
  unfold padded
  split_ifs
  · simp
    omega
  · omega

lemma padded_eq (d : Decimal) : ∃ k, d.padded = List.replicate k 0 ++ d.digits := by
  unfold padded
  split_ifs
  · exact ⟨_, rfl⟩
  · exact ⟨0, rfl⟩

/-- The numeral that `str()` prints. -/
def numeral (d : Decimal) : Numeral where
  sign := if d.negative then some true else none
  whole := d.padded.take (d.padded.length - d.scale)
  fraction := if 0 < d.scale then some (d.padded.drop (d.padded.length - d.scale)) else none
  exponent := none
  digits_ne := by
    have hlength := d.padded_length
    refine List.append_ne_nil_of_left_ne_nil (List.ne_nil_of_length_pos ?_) _
    rw [List.length_take]
    omega

lemma numeral_text (d : Decimal) : d.numeral.text = d.str := by
  have hmant : d.numeral.mantissa = d.magnitude := by
    unfold Numeral.mantissa numeral magnitude
    by_cases hscale : 0 < d.scale
    · simp [hscale, pointText]
    · have hlen := length_pos_of_ne_nil d.normal.nonempty
      have hpadded : d.padded = d.digits := by rw [padded, if_neg (by omega)]
      simp [hpadded, pointText, Nat.eq_zero_of_not_pos hscale]
  rw [Numeral.text, hmant, str]
  cases hneg : d.negative <;> simp [numeral, hneg, signText, Numeral.tail]

lemma numeral_digits (d : Decimal) : d.numeral.digits = d.padded := by
  by_cases hscale : 0 < d.scale
  · simp [Numeral.digits, numeral, hscale]
  · simp [Numeral.digits, numeral, Nat.eq_zero_of_not_pos hscale]

lemma numeral_places (d : Decimal) : d.numeral.places = d.scale := by
  have hlen := d.padded_length
  by_cases hscale : 0 < d.scale
  · simp [Numeral.places, numeral, hscale]
    omega
  · simp [Numeral.places, numeral, Nat.eq_zero_of_not_pos hscale]

lemma numeral_negative (d : Decimal) : d.numeral.negative = d.negative := by
  unfold numeral Numeral.negative
  cases d.negative <;> rfl

/-- **The canonical text reads back**, as long as it is short enough to be read at all. -/
theorem ofText_str (d : Decimal) (hlen : d.str.length ≤ limit) : ofText d.str = .ok d := by
  obtain ⟨k, hk⟩ := d.padded_eq
  rw [← numeral_text] at hlen ⊢
  rw [Numeral.ofText_text rfl hlen, numeral_digits, numeral_places, numeral_negative, hk,
    normalize_normal]

/-- A decimal whose canonical text is longer than the limit has a text the constructor refuses. -/
theorem ofText_str_oversized (d : Decimal) (hlen : limit < d.str.length) :
    ofText d.str = invalid (Caf.str "invalid/oversized decimal") := by
  rw [ofText, if_pos (Or.inr hlen)]

/-- Different decimals have different texts, readable or not. -/
theorem str_injective : Function.Injective str := by
  intro d e h
  obtain ⟨k, hd⟩ := d.padded_eq
  obtain ⟨l, he⟩ := e.padded_eq
  rw [← numeral_text, ← numeral_text] at h
  have hsign := congrArg readSign h
  rw [Numeral.readSign_text, Numeral.readSign_text, Prod.mk.injEq] at hsign
  have hread := congrArg (readMantissa false [] 0) hsign.2
  rw [Numeral.readMantissa_text, Numeral.readMantissa_text, numeral_digits, numeral_digits,
    numeral_places, numeral_places, Except.ok.injEq, Prod.mk.injEq, Prod.mk.injEq, hd, he] at hread
  have hnormal := normalize_normal d k
  rw [hread.1, hread.2.1, ← numeral_negative, hsign.1, numeral_negative, normalize_normal] at hnormal
  exact (Except.ok.inj hnormal).symm

/-! ## Normal forms -/

lemma negative_iff (d : Decimal) : d.negative = true ↔ d.toRat < 0 := by
  refine ⟨toRat_neg, fun h => ?_⟩
  by_contra hpos
  rw [Bool.not_eq_true] at hpos
  rw [toRat, hpos] at h
  exact absurd h (not_lt.mpr (signed_nonneg _ _))

/-- A number that ten divides ends in a zero. -/
lemma getLast?_of_dvd {ds} (hne : ds ≠ []) (h : 10 ∣ value ds) :
    ds.getLast? = some 0 := by
  rw [← dropLast_append_getLast hne, value_append] at h
  have hlast : value [ds.getLast hne] = (ds.getLast hne).val := by simp [value]
  have hlt := (ds.getLast hne).isLt
  rw [hlast, length_singleton] at h
  rw [getLast?_eq_some_getLast hne, Option.some.injEq]
  exact Fin.ext (by simp; omega)

/-- A normal form has no digits to spare. -/
lemma scale_le_of_value {d e : Decimal}
    (h : value d.digits * 10 ^ e.scale = value e.digits * 10 ^ d.scale) : e.scale ≤ d.scale := by
  by_contra hlt
  obtain ⟨k, hk⟩ := Nat.exists_eq_add_of_lt (not_le.mp hlt)
  have hval : value e.digits = value d.digits * 10 ^ (k + 1) := by
    have hpos : 0 < 10 ^ d.scale := by positivity
    refine Nat.eq_of_mul_eq_mul_right hpos ?_
    rw [← h, hk]
    ring
  refine e.normal.trailing (by omega) (getLast?_of_dvd e.normal.nonempty ?_)
  rw [hval, pow_succ]
  exact ⟨value d.digits * 10 ^ k, by ring⟩

lemma eq_of_value_eq {xs ys} (hlen : xs.length = ys.length)
    (h : value xs = value ys) : xs = ys := by
  rcases lt_trichotomy xs ys with hlt | heq | hlt
  · have := (lt_iff_value_lt hlen).mp hlt
    omega
  · exact heq
  · have := (lt_iff_value_lt hlen.symm).mp hlt
    omega

/-- **A number has one normal form.** -/
lemma toRat_injective : Function.Injective toRat := by
  intro d e h
  have hneg : d.negative = e.negative := by
    rw [Bool.eq_iff_iff, negative_iff, negative_iff, h]
  have hval : value d.digits * 10 ^ e.scale = value e.digits * 10 ^ d.scale := by
    have hsign : (if e.negative = true then (-1 : ℚ) else 1) ≠ 0 := by split_ifs <;> norm_num
    rw [toRat, toRat, signed, signed, hneg, mul_div_assoc, mul_div_assoc,
      mul_right_inj' hsign, div_eq_div_iff (by positivity) (by positivity)] at h
    exact_mod_cast h
  have hscale : d.scale = e.scale := le_antisymm (scale_le_of_value hval.symm)
    (scale_le_of_value hval)
  -- padded to one length, the digits are the same
  have hdig : List.replicate e.digits.length 0 ++ d.digits
      = List.replicate d.digits.length 0 ++ e.digits := by
    refine eq_of_value_eq (by simp [Nat.add_comm]) ?_
    rw [hscale, Nat.mul_right_cancel_iff (by positivity)] at hval
    simp [value_append, value_zeros, hval]
  have hd := normalize_normal d e.digits.length
  rw [hdig, hscale, hneg, normalize_normal e] at hd
  exact (Except.ok.inj hd).symm

/-! ## Accepted texts -/

/-- The number of characters that `str()` prints: the digits, at least one before the point, the
point and the sign. -/
def printed (d : Decimal) : ℕ :=
  (if d.negative then 1 else 0) +
    if 0 < d.scale then max d.digits.length (d.scale + 1) + 1 else d.digits.length

lemma str_length (d : Decimal) : d.str.length = d.printed := by
  have hpadded := d.padded_length
  unfold str printed magnitude
  split_ifs <;> simp [hpadded] <;> omega

/-- **Reading is exact.**  The text denotes the decimal that it is read as, unless its exponent has
two signs; texts are printed alike exactly when they have the same value; what is printed reads back
unless it is longer than the limit. -/
theorem ofText_exact_iff {text : Bytes} {d : Decimal} (h : ofText text = .ok d) :
    (∀ q, Denotes text q ↔ q = d.toRat ∧ ¬DoublySigned text) ∧
    (∀ text' d', ofText text' = .ok d' → (d.str = d'.str ↔ d.toRat = d'.toRat)) ∧
    (ofText d.str = .ok d ↔ d.printed ≤ limit) := by
  refine ⟨fun q => ⟨?_, ?_⟩, fun text' d' _ => ?_, ?_⟩
  · rintro ⟨n, rfl, rfl⟩
    exact ⟨(n.toRat_eq_number h).symm, n.not_doublySigned⟩
  · rintro ⟨rfl, hsigns⟩
    obtain ⟨n, rfl⟩ := exists_numeral h hsigns
    exact ⟨n, rfl, (n.toRat_eq_number h).symm⟩
  · rw [str_injective.eq_iff, toRat_injective.eq_iff]
  · rw [← str_length]
    refine ⟨fun hread => ?_, ofText_str d⟩
    by_contra hlong
    rw [ofText_str_oversized d (not_le.mp hlong)] at hread
    cases hread

theorem ofText_exact_iff_price : ∃ d, ofText (Caf.str "-12.50e1") = .ok d ∧
    Denotes (Caf.str "-12.50e1") d.toRat ∧ ofText d.str = .ok d := by
  have hread : (ofText (Caf.str "-12.50e1")).map (fun d => (d.str, d.printed))
      = .ok (Caf.str "-125", 4) := by
    decide +kernel
  obtain ⟨d, hd, hprinted⟩ := map_eq_ok.mp hread
  obtain ⟨hdenotes, -, hback⟩ := ofText_exact_iff hd
  exact ⟨d, hd, (hdenotes _).mpr ⟨rfl, by decide⟩,
    hback.mpr (by rw [(Prod.mk.inj hprinted).2]; decide)⟩

/-- A plus and a minus sign before an exponent are read; a small number is printed as a text that is
refused. -/
theorem ofText_inexact :
    ((ofText (Caf.str "1e+-5")).map str = .ok (Caf.str "0.00001") ∧
      ∀ q, ¬Denotes (Caf.str "1e+-5") q) ∧
    ((ofText (Caf.str "1e-4096")).bind fun d => ofText d.str).map str
      = invalid (Caf.str "invalid/oversized decimal") := by
  refine ⟨⟨by decide +kernel, ?_⟩, by decide +kernel⟩
  rintro q ⟨n, htext, -⟩
  have hsigns := n.not_doublySigned
  rw [htext] at hsigns
  exact hsigns (by decide)

end Caf.EntityStore.Redis.Decimal
