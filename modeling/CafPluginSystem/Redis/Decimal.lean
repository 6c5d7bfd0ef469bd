import CafPluginSystem.EntityStore.Contract
import CafPluginSystem.Library.DecimalText
import CafPluginSystem.Library.Fallible

/-!
# Bounded decimals

The class `Decimal` of `plugins/redis/redis_entity_codec.hpp`: exact base-10 numbers with at most
4096 digits and at most 4096 places after the point, read from text with an optional exponent.

`normalize` is the only way a `Decimal` comes into being, so the normal form — no leading zeros,
no trailing fractional zeros, zero without sign or scale, both limits kept — is a field of the
structure, and `normalize` leaves it alone (`normalize_normal`).
-/

namespace Caf.EntityStore.Redis

open DecimalText

/-- `EntityError`: an exception that carries the result code to answer with, which is never
`ok`. -/
structure EntityError where
  code : ResultCode
  message : Bytes
  failed : code ≠ .ok := by decide
  deriving DecidableEq, Repr

lemma invalidRequest_ne_ok : ResultCode.invalidRequest ≠ .ok := by decide

lemma conflict_ne_ok : ResultCode.conflict ≠ .ok := by decide

lemma unavailable_ne_ok : ResultCode.unavailable ≠ .ok := by decide

lemma internalError_ne_ok : ResultCode.internalError ≠ .ok := by decide

/-- `invalid(message)`. -/
def invalid {α : Type} (message : Bytes) : Except EntityError α :=
  .error { code := .invalidRequest, message }

/-- `corrupt(message)`. -/
def corrupt {α : Type} (message : Bytes) : Except EntityError α :=
  .error { code := .internalError, message, failed := internalError_ne_ok }

namespace Decimal

/-- `Decimal::limit`. -/
def limit : ℕ := 4096

/-- What `normalize` establishes. -/
structure Normal (digits : List Digit) (scale : ℕ) (negative : Bool) : Prop where
  nonempty : digits ≠ []
  leading : digits.head? = some 0 → digits = [0] ∧ scale = 0 ∧ negative = false
  trailing : 0 < scale → digits.getLast? ≠ some 0
  length_le : digits.length ≤ limit
  scale_le : scale ≤ limit

end Decimal

/-- The value `±digits / 10 ^ scale`, in normal form. -/
@[ext] structure Decimal where
  digits : List Digit
  scale : ℕ
  negative : Bool
  normal : Decimal.Normal digits scale negative

namespace Decimal

def zero : Decimal where
  digits := [0]
  scale := 0
  negative := false
  normal := ⟨by simp, by simp, by simp, by simp [limit], by simp⟩

/-! ## Normalisation -/

/-- The loop `while (scale_ > 0 && digits_.back() == '0')`. -/
def stripZeros : ℕ → List Digit → List Digit × ℕ
  | 0, ds => (ds, 0)
  | s + 1, ds => if ds.getLast? = some 0 then stripZeros s ds.dropLast else (ds, s + 1)

/-- Stripping trailing zeros keeps a leading digit that is not zero. -/
lemma stripZeros_head {d : Digit} (hd : d ≠ 0) :
    ∀ (s : ℕ) (ds : List Digit), ds.head? = some d → (stripZeros s ds).1.head? = some d
  | 0, ds, h => h
  | s + 1, ds, h => by
    rw [stripZeros]
    split
    · next hlast =>
      refine stripZeros_head hd s ds.dropLast ?_
      match ds, h, hlast with
      | [x], h, hlast =>
        simp only [List.head?_cons, Option.some.injEq] at h
        simp only [List.getLast?_singleton, Option.some.injEq] at hlast
        exact absurd (h.symm.trans hlast) hd
      | x :: y :: rest, h, _ => simpa using h
    · exact h

lemma stripZeros_trailing : ∀ (s : ℕ) (ds : List Digit),
    0 < (stripZeros s ds).2 → (stripZeros s ds).1.getLast? ≠ some 0
  | 0, ds, h => by simp [stripZeros] at h
  | s + 1, ds, h => by
    rw [stripZeros] at h ⊢
    split at h
    · next hlast =>
      rw [if_pos hlast]
      exact stripZeros_trailing s ds.dropLast h
    · next hlast =>
      rw [if_neg hlast]
      exact hlast

/-- Nothing is stripped when the last digit is not zero. -/
lemma stripZeros_of_trailing {s : ℕ} {ds : List Digit} (h : 0 < s → ds.getLast? ≠ some 0) :
    stripZeros s ds = (ds, s) := by
  cases s with
  | zero => rfl
  | succ s => rw [stripZeros, if_neg (h (Nat.succ_pos s))]

lemma normal_stripZeros {first : Digit} {rest : List Digit} {scale : ℕ} (negative : Bool)
    (hfirst : first ≠ 0)
    (hlimit : ¬((stripZeros scale (first :: rest)).1.length > limit ∨
      (stripZeros scale (first :: rest)).2 > limit)) :
    Normal (stripZeros scale (first :: rest)).1 (stripZeros scale (first :: rest)).2 negative := by
  have hhead := stripZeros_head hfirst scale (first :: rest) rfl
  simp only [not_or, not_lt] at hlimit
  refine ⟨?_, ?_, stripZeros_trailing _ _, hlimit.1, hlimit.2⟩
  · intro hnil
    simp [hnil] at hhead
  · intro hzero
    rw [hhead, Option.some.injEq] at hzero
    exact absurd hzero hfirst

/-- `normalize()` applied to the members `digits_`, `scale_` and `negative_`. -/
def normalize (digits : List Digit) (scale : ℕ) (negative : Bool) : Except EntityError Decimal :=
  match h : digits.dropWhile (· == 0) with
  | [] => .ok zero
  | first :: rest =>
    if hlimit : (stripZeros scale (first :: rest)).1.length > limit ∨
        (stripZeros scale (first :: rest)).2 > limit then
      invalid (str "decimal precision exceeds 4096 digits")
    else .ok {
      digits := (stripZeros scale (first :: rest)).1
      scale := (stripZeros scale (first :: rest)).2
      negative := negative
      normal := normal_stripZeros negative (by
        have := List.head_dropWhile_not (· == (0 : Digit)) (l := digits) (by simp [h])
        simpa [h] using this) hlimit }

/-- A decimal with any number of zeros put before its digits normalises to itself. -/
lemma normalize_normal (d : Decimal) (k : ℕ) :
    normalize (List.replicate k 0 ++ d.digits) d.scale d.negative = .ok d := by
  have hzeros : (List.replicate k (0 : Digit) ++ d.digits).dropWhile (· == 0)
      = d.digits.dropWhile (· == 0) := by
    induction k with
    | zero => simp
    | succ k ih => rw [List.replicate_succ, List.cons_append, List.dropWhile_cons_of_pos (by simp), ih]
  match hd : d.digits with
  | [] => exact absurd hd d.normal.nonempty
  | first :: rest =>
    rw [hd] at hzeros
    by_cases hfirst : first = 0
    · -- only the number zero starts with a zero digit
      obtain ⟨hone, hscale, hneg⟩ := d.normal.leading (by simp [hd, hfirst])
      have hz : d = zero := Decimal.ext hone hscale hneg
      have hdrop : (first :: rest).dropWhile (· == (0 : Digit)) = [] := by
        rw [← hd, hone]
        rfl
      unfold normalize
      split
      · rw [hz]
      · next heq =>
        rw [hzeros, hdrop] at heq
        exact absurd heq (by simp)
    · have hdrop : (first :: rest).dropWhile (· == (0 : Digit)) = first :: rest := by
        simp [hfirst]
      unfold normalize
      split
      · next heq =>
        rw [hzeros, hdrop] at heq
        exact absurd heq (by simp)
      · next first' rest' heq =>
        rw [hzeros, hdrop] at heq
        obtain ⟨rfl, rfl⟩ := List.cons.inj heq
        have hstrip : stripZeros d.scale (first :: rest) = (first :: rest, d.scale) :=
          stripZeros_of_trailing (by rw [← hd]; exact d.normal.trailing)
        have hlen : (first :: rest).length ≤ limit := hd ▸ d.normal.length_le
        have hscale := d.normal.scale_le
        rw [dif_neg (by simp only [hstrip]; omega)]
        refine congrArg Except.ok (Decimal.ext ?_ ?_ rfl)
        · simp only [hstrip, hd]
        · simp only [hstrip]

/-! ## Reading -/

/-- The optional sign. -/
def readSign : Bytes → Bool × Bytes
  | 45 :: rest => (true, rest)
  | 43 :: rest => (false, rest)
  | text => (false, text)

/-- The mantissa loop: up to an `e`, an `E` or the end, with at most one dot.  It returns the
digits, how many of them follow the dot, and what is left. -/
def readMantissa : Bool → List Digit → ℕ → Bytes → Except EntityError (List Digit × ℕ × Bytes)
  | _, digits, fraction, [] => .ok (digits, fraction, [])
  | dot, digits, fraction, c :: rest =>
    if c = 101 ∨ c = 69 then .ok (digits, fraction, c :: rest)
    else if c = 46 ∧ !dot then readMantissa true digits fraction rest
    else match byteDigit c with
      | none => invalid (str "invalid decimal")
      | some d => readMantissa dot (digits ++ [d]) (if dot then fraction + 1 else fraction) rest

/-- The exponent: nothing, or an `e` or `E`, an optional plus sign and what `std::from_chars`
accepts for an `int`. -/
def readExponent : Bytes → Except EntityError ℤ
  | [] => .ok 0
  | _ :: rest =>
    match intOfText? (if rest.head? = some 43 then rest.tail else rest) with
    | none => invalid (str "decimal exponent out of range")
    | some exponent =>
      if exponent < -(limit : ℤ) ∨ exponent > limit then
        invalid (str "decimal exponent out of range")
      else .ok exponent

/-- The constructor `Decimal(text)`. -/
def ofText (text : Bytes) : Except EntityError Decimal :=
  if text = [] ∨ text.length > limit then invalid (str "invalid/oversized decimal")
  else do
    let (digits, fraction, tail) ← readMantissa false [] 0 (readSign text).2
    if digits = [] then invalid (str "invalid decimal")
    else do
      let exponent ← readExponent tail
      let scale : ℤ := fraction - exponent
      if scale < 0 then
        normalize (digits ++ List.replicate (-scale).toNat 0) 0 (readSign text).1
      else normalize digits scale.toNat (readSign text).1

/-! ## Printing -/

/-- The digits with zeros in front, so that one digit at least stands before the point. -/
def padded (d : Decimal) : List Digit :=
  if d.digits.length ≤ d.scale then
    List.replicate (d.scale + 1 - d.digits.length) 0 ++ d.digits
  else d.digits

/-- `str()` without the sign. -/
def magnitude (d : Decimal) : Bytes :=
  if 0 < d.scale then
    (d.padded.take (d.padded.length - d.scale)).map digitByte ++ 46 ::
      (d.padded.drop (d.padded.length - d.scale)).map digitByte
  else d.digits.map digitByte

/-- `str()`. -/
def str (d : Decimal) : Bytes := if d.negative then 45 :: d.magnitude else d.magnitude

/-- `integer()`: the text of a decimal without a fractional part. -/
def integer (d : Decimal) : Except EntityError Bytes :=
  if d.scale ≠ 0 then invalid (Caf.str "increment is not an exact integer") else .ok d.str

/-! ## Addition -/

/-- The carry loop once the first number has run out of digits. -/
def addCarry : List Digit → ℕ → List Digit
  | [], carry => if carry = 0 then [] else [Fin.ofNat 10 carry]
  | y :: ys, carry => Fin.ofNat 10 (carry + y.val) :: addCarry ys ((carry + y.val) / 10)

/-- The carry loop, least significant digits first. -/
def addDigits : List Digit → List Digit → ℕ → List Digit
  | [], ys, carry => addCarry ys carry
  | x :: xs, ys, carry =>
    let sum := carry + x.val + (ys.headD 0).val
    Fin.ofNat 10 sum :: addDigits xs ys.tail (sum / 10)

/-- The borrow loop, least significant digits first; the first number is not the smaller one. -/
def subDigits : List Digit → List Digit → ℤ → List Digit
  | [], _, _ => []
  | x :: xs, ys, borrow =>
    let difference : ℤ := x.val - borrow - (ys.headD 0).val
    if difference < 0 then
      Fin.ofNat 10 (difference + 10).toNat :: subDigits xs ys.tail 1
    else Fin.ofNat 10 difference.toNat :: subDigits xs ys.tail 0

/-- `add(other)`. -/
def add (x y : Decimal) : Except EntityError Decimal :=
  let scale := max x.scale y.scale
  let a := x.digits ++ List.replicate (scale - x.scale) 0
  let b := y.digits ++ List.replicate (scale - y.scale) 0
  if a.length > limit ∨ b.length > limit then
    invalid (Caf.str "decimal precision exceeds 4096 digits")
  else if x.negative = y.negative then
    normalize (addDigits a.reverse b.reverse 0).reverse scale x.negative
  else if a.length < b.length ∨ (a.length = b.length ∧ a < b) then
    normalize (subDigits b.reverse a.reverse 0).reverse scale y.negative
  else normalize (subDigits a.reverse b.reverse 0).reverse scale x.negative

end Decimal

end Caf.EntityStore.Redis
