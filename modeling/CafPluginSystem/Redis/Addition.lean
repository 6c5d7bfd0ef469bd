import CafPluginSystem.Redis.Decimal

/-!
# Adding decimals

`Decimal::add` brings two numbers to one scale, adds their digits or takes the smaller from the larger number, and
normalises.  It tells the larger number by the length of its digits, which is right for numbers without leading zeros.
Zero has one digit, and gets more of them when it is brought to a larger scale: then it is taken for the larger number
next to a number below one.

* `addDigits_low`, `subDigits_low` — what the carry and the borrow loop compute.
* `normalize_toRat` — the normal form has the value of the digits.
* `add_exact_iff` — a sum is exact, or the precision limit is reported, **unless zero and a negative number between -1 and
  0 are added**.
* `add_misjudged` — zero and -0.05 are 9.95.
-/

namespace Caf.EntityStore.Redis.Decimal

open DecimalText List

variable {scale : ℕ} {ds a b : List Digit} {negative : Bool}

/-! ## Digits, least significant first -/

/-- The number that digits denote, least significant first. -/
def low : List Digit → ℕ
  | [] => 0
  | d :: ds => d.val + 10 * low ds

lemma value_reverse (ds : List Digit) : value ds.reverse = low ds := by
  induction ds with
  | nil => rfl
  | cons d ds ih =>
    rw [reverse_cons, value_append, ih]
    simp only [value, low, foldl_cons, foldl_nil, length_singleton]
    ring

lemma low_reverse (ds : List Digit) : low ds.reverse = value ds := by
  rw [← value_reverse, reverse_reverse]

lemma low_lt (ds : List Digit) : low ds < 10 ^ ds.length := by
  induction ds with
  | nil => simp [low]
  | cons d ds ih =>
    have hd := d.isLt
    rw [low, length_cons, pow_succ]
    omega

lemma value_lt (ds : List Digit) : value ds < 10 ^ ds.length := by
  have h := low_lt ds.reverse
  rwa [low_reverse, length_reverse] at h

/-- The first digit counted apart from the rest. -/
lemma low_head_tail (ys : List Digit) : low ys = (ys.headD 0).val + 10 * low ys.tail := by
  cases ys with
  | nil => simp [low]
  | cons y ys => rfl

/-- The carry loop over one number. -/
lemma addCarry_low (ys : List Digit) : ∀ carry ≤ 1, low (addCarry ys carry) = low ys + carry := by
  induction ys with
  | nil =>
    intro carry hcarry
    by_cases hzero : carry = 0
    · simp [addCarry, low, hzero]
    · have hmod : carry % 10 = carry := by omega
      simp [addCarry, low, hzero, hmod]
  | cons y ys ih =>
    intro carry hcarry
    have hy := y.isLt
    rw [addCarry, low, low, ih _ (by omega), Fin.val_ofNat]
    omega

/-- **The carry loop adds.** -/
lemma addDigits_low (xs : List Digit) : ∀ (ys : List Digit), ∀ carry ≤ 1,
    low (addDigits xs ys carry) = low xs + low ys + carry := by
  induction xs with
  | nil =>
    intro ys carry hcarry
    rw [addDigits, addCarry_low ys carry hcarry, low, Nat.zero_add]
  | cons x xs ih =>
    intro ys carry hcarry
    have hx := x.isLt
    have hy := (ys.headD 0).isLt
    rw [addDigits, low, low, ih ys.tail _ (by omega), Fin.val_ofNat, low_head_tail ys]
    omega

lemma subDigits_length (xs : List Digit) : ∀ (ys : List Digit) (borrow : ℤ),
    (subDigits xs ys borrow).length = xs.length := by
  induction xs with
  | nil =>
    intro ys borrow
    rfl
  | cons x xs ih =>
    intro ys borrow
    rw [subDigits]
    split_ifs with h
    · simp [ih]
    · simp [ih]

/-- **The borrow loop subtracts**, up to what is borrowed from beyond the first number. -/
lemma subDigits_low (xs : List Digit) : ∀ (ys : List Digit), ys.length ≤ xs.length → ∀ borrow ≤ 1,
    ∃ beyond, low (subDigits xs ys (borrow : ℕ)) + low ys + borrow = low xs + beyond * 10 ^ xs.length := by
  induction xs with
  | nil =>
    intro ys hlength borrow hborrow
    obtain rfl : ys = [] := length_eq_zero_iff.mp (Nat.le_zero.mp hlength)
    exact ⟨borrow, by simp [subDigits, low]⟩
  | cons x xs ih =>
    intro ys hlength borrow hborrow
    have hx := x.isLt
    have hy := (ys.headD 0).isLt
    have htail : ys.tail.length ≤ xs.length := by
      rw [length_tail]
      exact Nat.sub_le_of_le_add hlength
    rw [low_head_tail ys]
    by_cases hneg : (x.val : ℤ) - (borrow : ℕ) - ((ys.headD 0).val : ℕ) < 0
    · obtain ⟨beyond, hrest⟩ := ih ys.tail htail 1 (le_refl 1)
      refine ⟨beyond, ?_⟩
      simp only [subDigits, if_pos hneg, low, Fin.val_ofNat, length_cons, pow_succ]
      have hdigit : ((x.val : ℤ) - (borrow : ℕ) - ((ys.headD 0).val : ℕ) + 10).toNat % 10
          = x.val + 10 - borrow - (ys.headD 0).val := by omega
      push_cast at hrest ⊢
      have hscaled : 10 * (low (subDigits xs ys.tail 1) + low ys.tail + 1)
          = 10 * low xs + beyond * (10 ^ xs.length * 10) := by
        rw [hrest]
        ring
      omega
    · obtain ⟨beyond, hrest⟩ := ih ys.tail htail 0 (Nat.zero_le 1)
      refine ⟨beyond, ?_⟩
      simp only [subDigits, if_neg hneg, low, Fin.val_ofNat, length_cons, pow_succ]
      have hdigit : ((x.val : ℤ) - (borrow : ℕ) - ((ys.headD 0).val : ℕ)).toNat % 10
          = x.val - borrow - (ys.headD 0).val := by omega
      push_cast at hrest ⊢
      have hscaled : 10 * (low (subDigits xs ys.tail 0) + low ys.tail + 0)
          = 10 * low xs + beyond * (10 ^ xs.length * 10) := by
        rw [hrest]
        ring
      omega

/-- Nothing is borrowed from beyond the first number if it is not the smaller one. -/
lemma subDigits_value (hlength : b.length ≤ a.length) (hle : value b ≤ value a) :
    value (subDigits a.reverse b.reverse 0).reverse + value b = value a := by
  obtain ⟨beyond, h⟩ := subDigits_low a.reverse b.reverse (by simpa using hlength) 0 (Nat.zero_le 1)
  have hlt := low_lt (subDigits a.reverse b.reverse 0)
  rw [subDigits_length] at hlt
  push_cast at h
  rw [low_reverse, low_reverse, length_reverse] at h
  rw [length_reverse] at hlt
  rw [value_reverse]
  have hbeyond : beyond = 0 := by
    by_contra hne
    have : 10 ^ a.length ≤ beyond * 10 ^ a.length := Nat.le_mul_of_pos_left _ (Nat.pos_of_ne_zero hne)
    omega
  simpa [hbeyond] using h

/-! ## Comparing -/

/-- Digits of one length are compared like the numbers they denote. -/
lemma lt_iff_value_lt : ∀ {a b : List Digit}, a.length = b.length → (a < b ↔ value a < value b) := by
  intro a
  induction a with
  | nil =>
    intro b hlength
    obtain rfl : b = [] := length_eq_zero_iff.mp hlength.symm
    simp
  | cons x xs ih =>
    intro b hlength
    cases b with
    | nil => simp at hlength
    | cons y ys =>
      have hlen' : xs.length = ys.length := by simpa using hlength
      have hxs := value_lt xs
      have hys := value_lt ys
      rw [cons_lt_cons_iff, ih hlen', value_cons, value_cons, hlen', Fin.lt_def, Fin.ext_iff]
      rw [hlen'] at hxs
      constructor
      · rintro (hlt | ⟨heq, hlt⟩)
        · have : (x.val + 1) * 10 ^ ys.length ≤ y.val * 10 ^ ys.length := Nat.mul_le_mul_right _ hlt
          rw [Nat.add_one_mul] at this
          omega
        · rw [heq]
          omega
      · intro hlt
        rcases Nat.lt_trichotomy x.val y.val with h | h | h
        · exact .inl h
        · rw [h] at hlt
          exact .inr ⟨h, by omega⟩
        · have : (y.val + 1) * 10 ^ ys.length ≤ x.val * 10 ^ ys.length := Nat.mul_le_mul_right _ h
          rw [Nat.add_one_mul] at this
          omega

/-- A number whose first digit is not zero is larger than one with fewer digits. -/
lemma value_lt_of_length_lt (hlength : a.length < b.length) (hhead : b.head? ≠ some 0) :
    value a < value b := by
  cases b with
  | nil => simp at hlength
  | cons y ys =>
    have ha := value_lt a
    have hy : 1 ≤ y.val := by
      by_contra hzero
      have hy0 : y = 0 := Fin.ext (by simpa using hzero)
      simp [hy0] at hhead
    have hpow : 10 ^ a.length ≤ 10 ^ ys.length :=
      Nat.pow_le_pow_right (by norm_num) (Nat.lt_succ_iff.mp (by simpa using hlength))
    have hdigit : 10 ^ ys.length ≤ y.val * 10 ^ ys.length := Nat.le_mul_of_pos_left _ hy
    rw [value_cons]
    omega

/-! ## Values -/

/-- The number that digits, a scale and a sign denote. -/
def signed (ds : List Digit) (scale : ℕ) (negative : Bool) : ℚ :=
  (if negative then -1 else 1) * value ds / 10 ^ scale

/-- The rational value of a decimal. -/
def toRat (d : Decimal) : ℚ := signed d.digits d.scale d.negative

lemma value_zeros (k : ℕ) : value (List.replicate k (0 : Digit)) = 0 := by
  induction k with
  | zero => rfl
  | succ k ih =>
    rw [replicate_succ, value_cons, ih]
    simp

/-- Zeros at the end are made up for by the scale. -/
lemma signed_append_zeros (ds : List Digit) (scale k : ℕ) (negative : Bool) :
    signed (ds ++ List.replicate k 0) (scale + k) negative = signed ds scale negative := by
  have hne : (10 : ℚ) ^ k ≠ 0 := by positivity
  rw [signed, signed, value_append, value_zeros, length_replicate, pow_add]
  push_cast
  rw [add_zero, ← mul_assoc, mul_div_mul_right _ _ hne]

/-- The scale of a decimal may be raised. -/
lemma toRat_scaled (d : Decimal) (h : d.scale ≤ scale) :
    signed (d.digits ++ List.replicate (scale - d.scale) 0) scale d.negative = d.toRat := by
  have hscale : scale = d.scale + (scale - d.scale) := by omega
  nth_rewrite 2 [hscale]
  exact signed_append_zeros _ _ _ _

/-- Zeros before the first digit do not count. -/
lemma value_dropWhile (ds : List Digit) : value (ds.dropWhile (· == 0)) = value ds := by
  induction ds with
  | nil => rfl
  | cons d ds ih =>
    by_cases hzero : d = 0
    · rw [dropWhile_cons_of_pos (by simp [hzero]), ih, value_cons]
      simp [hzero]
    · rw [dropWhile_cons_of_neg (by simp [hzero])]

lemma signed_stripZeros (negative : Bool) (scale : ℕ) : ∀ ds : List Digit,
    signed (stripZeros scale ds).1 (stripZeros scale ds).2 negative = signed ds scale negative := by
  induction scale with
  | zero =>
    intro ds
    rfl
  | succ s ih =>
    intro ds
    rw [stripZeros]
    split_ifs with hlast
    · rw [ih ds.dropLast]
      have hds : ds = ds.dropLast ++ List.replicate 1 0 := (dropLast_append_getLast? 0 hlast).symm
      conv_rhs => rw [hds]
      exact (signed_append_zeros _ s 1 negative).symm
    · rfl

lemma stripZeros_le (scale : ℕ) : ∀ ds : List Digit,
    (stripZeros scale ds).1.length ≤ ds.length ∧ (stripZeros scale ds).2 ≤ scale := by
  induction scale with
  | zero =>
    intro ds
    exact ⟨le_refl _, le_refl _⟩
  | succ s ih =>
    intro ds
    rw [stripZeros]
    split_ifs with hlast
    · have h := ih ds.dropLast
      rw [length_dropLast] at h
      omega
    · exact ⟨le_refl _, le_refl _⟩

lemma toRat_zero : zero.toRat = 0 := by
  simp [toRat, signed, zero, value]

/-- The report of the precision limit. -/
def precisionError : EntityError :=
  { code := .invalidRequest, message := Caf.str "decimal precision exceeds 4096 digits", failed := invalidRequest_ne_ok }

/-- **The normal form has the value of the digits**; the only error is the limit, which is not reached by digits and a
scale within it. -/
lemma normalize_toRat (ds : List Digit) (scale : ℕ) (negative : Bool) :
    (normalize ds scale negative = .error precisionError ∧ ¬(ds.length ≤ limit ∧ scale ≤ limit)) ∨
      ∃ z, normalize ds scale negative = .ok z ∧ z.toRat = signed ds scale negative := by
  have hval := value_dropWhile ds
  have hlength := (ds.dropWhile_suffix (· == 0)).length_le
  unfold normalize
  split
  · next hdrop =>
    refine .inr ⟨zero, rfl, ?_⟩
    rw [hdrop] at hval
    rw [toRat_zero, signed, ← hval]
    simp [value]
  · next first rest hdrop =>
    rw [hdrop] at hval hlength
    have hle := stripZeros_le scale (first :: rest)
    split_ifs with hlimit
    · refine .inl ⟨rfl, ?_⟩
      rintro ⟨hds, hscale⟩
      omega
    · refine .inr ⟨_, rfl, ?_⟩
      rw [toRat, signed_stripZeros, signed, signed, hval]

lemma toRat_of_normalize {d : Decimal}
    (h : normalize ds scale negative = .ok d) : d.toRat = signed ds scale negative := by
  rcases normalize_toRat ds scale negative with ⟨herr, -⟩ | ⟨z, hz, hval⟩
  · rw [herr] at h
    cases h
  · rw [hz] at h
    cases h
    exact hval

/-! ## Addition -/

/-- What a sum should be: the precision limit is reported, or the sum is exact and in normal form. -/
def Exact (x y : Decimal) : Except EntityError Decimal → Prop
  | .error e => e = precisionError
  | .ok z => z.toRat = x.toRat + y.toRat ∧ Normal z.digits z.scale z.negative

/-- Zero, which has more digits on the common scale than a negative number above -1. -/
def Misjudged (x y : Decimal) : Prop :=
  x.digits = [0] ∧ y.negative = true ∧ y.digits.length ≤ y.scale ∧ y.scale < limit

instance (x y : Decimal) : Decidable (Misjudged x y) := inferInstanceAs (Decidable (_ ∧ _))

variable {x y : Decimal}

lemma scale_zero (h : x.digits.head? = some 0) : x = zero := by
  obtain ⟨hdig, hscale, hneg⟩ := x.normal.leading h
  exact Decimal.ext hdig hscale hneg

lemma toRat_neg (h : y.negative = true) : y.toRat < 0 := by
  have hpos : 0 < value y.digits := by
    have hhead : y.digits.head? ≠ some 0 := by
      intro hzero
      rw [(y.normal.leading hzero).2.2] at h
      cases h
    exact value_lt_of_length_lt (a := []) (length_pos_of_ne_nil y.normal.nonempty) hhead
  have hquotient : 0 < (value y.digits : ℚ) / 10 ^ y.scale := by positivity
  rw [toRat, signed, h, if_pos rfl, neg_one_mul, neg_div]
  linarith

lemma signed_nonneg (ds : List Digit) (scale : ℕ) : 0 ≤ signed ds scale false := by
  rw [signed, if_neg (by simp), one_mul]
  positivity

/-- What comes out of `normalize` is exact if the digits are. -/
lemma exact_normalize (h : signed ds scale negative = x.toRat + y.toRat) : Exact x y (normalize ds scale negative) := by
  rcases normalize_toRat ds scale negative with ⟨herr, -⟩ | ⟨z, hz, hval⟩
  · rw [herr]
    rfl
  · rw [hz]
    exact ⟨hval.trans h, z.normal⟩

/-- What comes out of `normalize` with a positive sign is not a negative sum. -/
lemma not_exact_normalize (hds : ds.length ≤ limit) (hscale : scale ≤ limit)
    (h : x.toRat + y.toRat < 0) : ¬ Exact x y (normalize ds scale false) := by
  rcases normalize_toRat ds scale false with ⟨-, hlimit⟩ | ⟨z, hz, hval⟩
  · exact absurd ⟨hds, hscale⟩ hlimit
  · rw [hz]
    rintro ⟨hsum, -⟩
    have := signed_nonneg ds scale
    linarith

/-- The sum of two numbers of one sign. -/
lemma signed_add (a b : List Digit) (scale : ℕ) (negative : Bool) :
    signed (addDigits a.reverse b.reverse 0).reverse scale negative
      = signed a scale negative + signed b scale negative := by
  rw [signed, value_reverse, addDigits_low _ _ 0 (Nat.zero_le 1), low_reverse, low_reverse, signed, signed]
  push_cast
  ring

/-- The difference of two numbers, with the sign of the larger one. -/
lemma signed_sub (hlength : b.length ≤ a.length) (hle : value b ≤ value a) (scale : ℕ)
    (negative : Bool) : signed (subDigits a.reverse b.reverse 0).reverse scale negative
      = signed a scale negative + signed b scale (!negative) := by
  have h := subDigits_value hlength hle
  have hcast : (value (subDigits a.reverse b.reverse 0).reverse : ℚ) = value a - value b := by
    rw [← h]
    push_cast
    ring
  rw [signed, hcast, signed, signed]
  cases negative with
  | true =>
    simp only [if_true, Bool.not_true, Bool.false_eq_true, if_false]
    ring
  | false =>
    simp only [if_true, Bool.not_false, Bool.false_eq_true, if_false]
    ring

/-- The digits of a number on a larger scale. -/
def scaled (d : Decimal) (scale : ℕ) : List Digit := d.digits ++ List.replicate (scale - d.scale) 0

lemma scaled_length (d : Decimal) (scale : ℕ) : (d.scaled scale).length = d.digits.length + (scale - d.scale) := by
  simp [scaled]

lemma scaled_head (d : Decimal) (scale : ℕ) : (d.scaled scale).head? = d.digits.head? := by
  cases hd : d.digits with
  | nil => exact absurd hd d.normal.nonempty
  | cons first rest => simp [scaled, hd]

section Longer

variable (hsign : x.negative ≠ y.negative)
  (hlength : (y.scaled (max x.scale y.scale)).length < (x.scaled (max x.scale y.scale)).length)
  (hlimit : (x.scaled (max x.scale y.scale)).length ≤ limit)

include hsign hlength hlimit

/-- If more digits do not make the larger number, it is zero next to a negative number above -1. -/
lemma misjudged_of_length (hhead : x.digits.head? = some 0) : Misjudged x y := by
  obtain rfl := scale_zero hhead
  have hscale : max (zero.scale) y.scale = y.scale := Nat.zero_max _
  rw [hscale, scaled_length, scaled_length] at hlength
  rw [hscale, scaled_length] at hlimit
  have hone : zero.digits.length = 1 := rfl
  have hnone : zero.scale = 0 := rfl
  refine ⟨rfl, ?_, by omega, by omega⟩
  cases hy : y.negative with
  | true => rfl
  | false => exact absurd hy.symm hsign

/-- The number with more digits is the larger one, but for zero. -/
lemma value_le_of_length (hmis : ¬ Misjudged x y) :
    value (y.scaled (max x.scale y.scale)) ≤ value (x.scaled (max x.scale y.scale)) := by
  refine (value_lt_of_length_lt hlength ?_).le
  rw [scaled_head]
  exact fun hhead => hmis (misjudged_of_length hsign hlength hlimit hhead)

end Longer

/-- `add` on the digits on the common scale. -/
lemma add_eq (x y : Decimal) (hscale : scale = max x.scale y.scale) : x.add y =
    if (x.scaled scale).length > limit ∨ (y.scaled scale).length > limit then .error precisionError
    else if x.negative = y.negative then
      normalize (addDigits (x.scaled scale).reverse (y.scaled scale).reverse 0).reverse scale x.negative
    else if (x.scaled scale).length < (y.scaled scale).length ∨
        ((x.scaled scale).length = (y.scaled scale).length ∧ x.scaled scale < y.scaled scale) then
      normalize (subDigits (y.scaled scale).reverse (x.scaled scale).reverse 0).reverse scale y.negative
    else normalize (subDigits (x.scaled scale).reverse (y.scaled scale).reverse 0).reverse scale x.negative := by
  subst hscale
  rfl

/-- The sum of zero and a negative number above -1 comes out positive. -/
lemma not_exact_of_misjudged (h : Misjudged x y) : ¬ Exact x y (x.add y) ∧ ¬ Exact y x (y.add x) := by
  obtain ⟨hdig, hneg, hlength, hscale⟩ := h
  obtain rfl : x = zero := scale_zero (by rw [hdig]; rfl)
  have hsum : y.toRat < 0 := toRat_neg hneg
  have hmax : y.scale = max zero.scale y.scale := (Nat.zero_max _).symm
  have hmax' : y.scale = max y.scale zero.scale := (Nat.max_zero _).symm
  have hx : (zero.scaled y.scale).length = y.scale + 1 := by
    rw [scaled_length]
    exact Nat.add_comm 1 y.scale
  have hy : (y.scaled y.scale).length = y.digits.length := by
    rw [scaled_length, Nat.sub_self, Nat.add_zero]
  have hsign : zero.negative = false := rfl
  have hdifference : (subDigits (zero.scaled y.scale).reverse (y.scaled y.scale).reverse 0).reverse.length ≤ limit := by
    rw [length_reverse, subDigits_length, length_reverse, hx]
    exact hscale
  constructor
  · rw [add_eq zero y hmax, if_neg (by omega), if_neg (by rw [hsign, hneg]; simp), if_neg (by omega), hsign]
    exact not_exact_normalize hdifference hscale.le (by rwa [toRat_zero, zero_add])
  · rw [add_eq y zero hmax', if_neg (by omega), if_neg (by rw [hsign, hneg]; simp), if_pos (by omega), hsign]
    exact not_exact_normalize hdifference hscale.le (by rwa [toRat_zero, add_zero])

/-- **Sums are exact, unless zero and a negative number between -1 and 0 are added.** -/
theorem add_exact_iff (x y : Decimal) : Exact x y (x.add y) ↔ ¬ Misjudged x y ∧ ¬ Misjudged y x := by
  constructor
  · intro h
    exact ⟨fun hmis => (not_exact_of_misjudged hmis).1 h, fun hmis => (not_exact_of_misjudged hmis).2 h⟩
  rintro ⟨hxy, hyx⟩
  have hvx := toRat_scaled x (Nat.le_max_left x.scale y.scale)
  have hvy := toRat_scaled y (Nat.le_max_right x.scale y.scale)
  have hx := value_le_of_length (x := x) (y := y)
  have hy := value_le_of_length (x := y) (y := x)
  rw [Nat.max_comm] at hy
  rw [add_eq x y rfl]
  generalize max x.scale y.scale = scale at *
  change signed (x.scaled scale) scale x.negative = x.toRat at hvx
  change signed (y.scaled scale) scale y.negative = y.toRat at hvy
  split_ifs with hlimit hsign hswap
  · rfl
  · apply exact_normalize
    rw [signed_add, hvx, hsign, hvy]
  · -- the second number is the larger one
    push Not at hlimit
    have hle : value (x.scaled scale) ≤ value (y.scaled scale) := by
      rcases hswap with hlength | ⟨hlength, hlt⟩
      · exact hy (Ne.symm hsign) hlength hlimit.2 hyx
      · exact ((lt_iff_value_lt hlength).mp hlt).le
    have hnot : (!y.negative) = x.negative := by
      cases hxn : x.negative <;> cases hyn : y.negative <;> simp_all
    apply exact_normalize
    rw [signed_sub (by omega) hle, hnot, hvy, hvx, add_comm]
  · push Not at hlimit
    rw [not_or, not_and, not_lt] at hswap
    have hle : value (y.scaled scale) ≤ value (x.scaled scale) := by
      rcases Nat.lt_or_eq_of_le hswap.1 with hlength | hlength
      · exact hx hsign hlength hlimit.1 hxy
      · exact Nat.not_lt.mp fun hlt => hswap.2 hlength.symm ((lt_iff_value_lt hlength.symm).mpr hlt)
    have hnot : (!x.negative) = y.negative := by
      cases hxn : x.negative <;> cases hyn : y.negative <;> simp_all
    apply exact_normalize
    rw [signed_sub hswap.1 hle, hnot, hvx, hvy]

/-- Zero and -0.05 are 9.95. -/
theorem add_misjudged : ((ofText (Caf.str "0")).bind fun x => (ofText (Caf.str "-0.05")).bind fun y =>
    (x.add y).map str) = .ok (Caf.str "9.95") := by
  decide +kernel

end Caf.EntityStore.Redis.Decimal
