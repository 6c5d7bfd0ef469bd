import Mathlib

/-!
# Decimal text

Numbers as ASCII decimal text: the digits of a natural number, most significant first, their
bytes, and reading them back.  `natText` is what `std::to_string` prints for an unsigned number
and `natOfText?` is a `std::from_chars` that has to consume all of its input.  `frontNumber?` reads
a number from the front of a text, as `std::stoi` and its relatives do.
-/

namespace DecimalText

open Option

variable {c : UInt8} {text : List UInt8} {n : ℕ} {i : ℤ}

/-- A decimal digit. -/
abbrev Digit := Fin 10

instance neZeroTen : NeZero 10 := ⟨by decide⟩

/-- The ASCII character of a digit. -/
def digitByte (d : Digit) : UInt8 := UInt8.ofNat (48 + d.val)

/-- The digit an ASCII character stands for, if it is one. -/
def byteDigit (c : UInt8) : Option Digit :=
  if h : 48 ≤ c.toNat ∧ c.toNat < 58 then some ⟨c.toNat - 48, by omega⟩ else none

lemma digitByte_toNat (d : Digit) : (digitByte d).toNat = 48 + d.val := by
  have hd := d.isLt
  simp only [digitByte, UInt8.toNat_ofNat']
  omega

@[simp] lemma byteDigit_digitByte (d : Digit) : byteDigit (digitByte d) = some d := by
  have hd := d.isLt
  have hn := digitByte_toNat d
  rw [byteDigit, dif_pos (by omega)]
  congr 1
  exact Fin.ext (by simp [hn])

lemma eq_digitByte {d : Digit} (h : byteDigit c = some d) : c = digitByte d := by
  unfold byteDigit at h
  split_ifs at h with hc
  rw [← UInt8.toNat_inj, digitByte_toNat, ← some.inj h]
  simp only
  omega

/-- A byte that is not among the digits `0` to `9` is not the character of a digit. -/
lemma digitByte_ne (hc : c.toNat < 48 ∨ 58 ≤ c.toNat) (d : Digit) :
    digitByte d ≠ c := by
  intro h
  have hn := digitByte_toNat d
  have hd := d.isLt
  rw [h] at hn
  omega

/-- All characters are digits. -/
def readDigits : List UInt8 → Option (List Digit)
  | [] => some []
  | c :: cs =>
    match byteDigit c with
    | none => none
    | some d => (readDigits cs).map (d :: ·)

@[simp] lemma readDigits_map (ds : List Digit) : readDigits (ds.map digitByte) = some ds := by
  induction ds with
  | nil => rfl
  | cons d ds ih => simp [readDigits, ih]

lemma eq_map_digitByte : ∀ {text : List UInt8} {ds : List Digit}, readDigits text = some ds →
    text = ds.map digitByte
  | [], ds, h => by
    cases h
    rfl
  | c :: cs, ds, h => by
    unfold readDigits at h
    split at h
    · cases h
    · next d hd =>
      obtain ⟨rest, hrest, rfl⟩ := map_eq_some_iff.mp h
      rw [List.map_cons, ← eq_digitByte hd, ← eq_map_digitByte hrest]

/-- The number a digit string denotes. -/
def value (ds : List Digit) : ℕ := ds.foldl (fun n d => 10 * n + d.val) 0

lemma foldl_value (n : ℕ) (ds : List Digit) :
    ds.foldl (fun n d => 10 * n + d.val) n = n * 10 ^ ds.length + value ds := by
  induction ds generalizing n with
  | nil => simp [value]
  | cons d ds ih =>
    simp only [value, List.foldl_cons, List.length_cons] at ih ⊢
    rw [ih (10 * n + d.val), ih (10 * 0 + d.val)]
    ring

lemma value_append (xs ys : List Digit) :
    value (xs ++ ys) = value xs * 10 ^ ys.length + value ys := by
  rw [value, List.foldl_append, foldl_value, ← value]

/-- The first digit counts most. -/
lemma value_cons (d : Digit) (ds : List Digit) : value (d :: ds) = d.val * 10 ^ ds.length + value ds := by
  rw [← List.singleton_append, value_append]
  simp [value]

/-- The digits of a number, most significant first; zero has one digit. -/
def digits (n : ℕ) : List Digit :=
  if n = 0 then [0] else (Nat.digits 10 n).reverse.map (Fin.ofNat 10)

lemma digits_ne_nil (n : ℕ) : digits n ≠ [] := by
  by_cases h : n = 0
  · simp [digits, h]
  · simp [digits, h, Nat.digits_ne_nil_iff_ne_zero]

lemma value_map_ofNat_reverse (l : List ℕ) (hl : ∀ d ∈ l, d < 10) :
    value (l.reverse.map (Fin.ofNat 10)) = Nat.ofDigits 10 l := by
  induction l with
  | nil => rfl
  | cons d l ih =>
    have hd : d < 10 := hl d (by simp)
    have hrest : ∀ d' ∈ l, d' < 10 := fun d' h => hl d' (List.mem_cons_of_mem _ h)
    rw [List.reverse_cons, List.map_append, value_append, ih hrest, Nat.ofDigits_cons]
    simp [value, Nat.mod_eq_of_lt hd]
    ring

@[simp] lemma value_digits (n : ℕ) : value (digits n) = n := by
  by_cases h : n = 0
  · simp [digits, h, value]
  · rw [digits, if_neg h,
      value_map_ofNat_reverse _ fun d hd => Nat.digits_lt_base (by norm_num) hd]
    exact Nat.ofDigits_digits 10 n

/-- The decimal text of a natural number. -/
def natText (n : ℕ) : List UInt8 := (digits n).map digitByte

/-- The number a non-empty text of digits denotes. -/
def natOfText? (text : List UInt8) : Option ℕ :=
  if text = [] then none else (readDigits text).map value

@[simp] lemma natText_ne_nil (n : ℕ) : natText n ≠ [] := by
  simp [natText, digits_ne_nil]

variable {ds : List Digit}

lemma natOfText_map (hne : ds ≠ []) :
    natOfText? (ds.map digitByte) = some (value ds) := by
  rw [natOfText?, if_neg (by simpa using hne), readDigits_map]
  rfl

lemma natOfText_eq_some (h : natOfText? text = some n) :
    ∃ ds, ds ≠ [] ∧ text = ds.map digitByte := by
  unfold natOfText? at h
  split_ifs at h with hne
  obtain ⟨ds, hds, -⟩ := map_eq_some_iff.mp h
  have htext := eq_map_digitByte hds
  exact ⟨ds, fun hnil => hne (by rw [htext, hnil]; rfl), htext⟩

/-- **Reading a printed number gives it back.** -/
@[simp] lemma natOfText_natText (n : ℕ) : natOfText? (natText n) = some n := by
  rw [natText, natOfText_map (digits_ne_nil n), value_digits]

lemma natText_injective : Function.Injective natText := by
  intro m n h
  have := congrArg natOfText? h
  simpa using this

/-- The characters of a printed number are digits. -/
lemma natText_mem (hc : c ∈ natText n) : 48 ≤ c.toNat ∧ c.toNat < 58 := by
  obtain ⟨d, -, rfl⟩ := List.mem_map.mp hc
  have hd := d.isLt
  have := digitByte_toNat d
  omega

/-- The decimal text of an integer: a minus sign before the text of its absolute value. -/
def intText (i : ℤ) : List UInt8 :=
  if i < 0 then 45 :: natText i.natAbs else natText i.natAbs

/-- The integer an optionally negative text of digits denotes. -/
def intOfText? : List UInt8 → Option ℤ
  | 45 :: rest => (natOfText? rest).map fun n => -(n : ℤ)
  | text => (natOfText? text).map fun n => (n : ℤ)

/-- Digits are not taken for a minus sign. -/
lemma intOfText_map (hne : ds ≠ []) :
    intOfText? (ds.map digitByte) = some (value ds : ℤ) := by
  have hdigit : ∀ rest, ds.map digitByte ≠ 45 :: rest := by
    intro rest heq
    have hmem : (45 : UInt8) ∈ ds.map digitByte := by simp [heq]
    obtain ⟨d, -, hd⟩ := List.mem_map.mp hmem
    exact digitByte_ne (by decide) d hd
  rw [intOfText?.eq_2 _ hdigit, natOfText_map hne]
  rfl

lemma intOfText_neg_map (hne : ds ≠ []) :
    intOfText? (45 :: ds.map digitByte) = some (-value ds : ℤ) := by
  rw [intOfText?, natOfText_map hne]
  rfl

lemma intOfText_eq_some (h : intOfText? text = some i) :
    ∃ ds, ds ≠ [] ∧ (text = ds.map digitByte ∨ text = 45 :: ds.map digitByte) := by
  unfold intOfText? at h
  split at h
  · next rest =>
    obtain ⟨_, hread, -⟩ := map_eq_some_iff.mp h
    obtain ⟨n, hn, -⟩ := bind_eq_some_iff.mp hread
    obtain ⟨ds, hne, rfl⟩ := natOfText_eq_some hn
    exact ⟨ds, hne, .inr rfl⟩
  · obtain ⟨_, hread, -⟩ := map_eq_some_iff.mp h
    obtain ⟨n, hn, -⟩ := bind_eq_some_iff.mp hread
    obtain ⟨ds, hne, htext⟩ := natOfText_eq_some hn
    exact ⟨ds, hne, .inl htext⟩

/-- **Reading a printed integer gives it back.** -/
@[simp] lemma intOfText_intText (i : ℤ) : intOfText? (intText i) = some i := by
  unfold intText natText
  split_ifs with hneg
  · rw [intOfText_neg_map (digits_ne_nil _), value_digits]
    simp [abs_of_neg hneg]
  · rw [intOfText_map (digits_ne_nil _), value_digits]
    simp [abs_of_nonneg (not_lt.mp hneg)]

lemma intText_injective : Function.Injective intText := by
  intro i j h
  have := congrArg intOfText? h
  simpa using this

/-! ## Machine integers -/

/-- `std::from_chars` into an `int64_t` that consumes the whole text. -/
def int64OfText? (text : List UInt8) : Option Int64 :=
  (intOfText? text).bind fun i =>
    if -(2 ^ 63) ≤ i ∧ i < 2 ^ 63 then some (Int64.ofInt i) else none

/-- `std::from_chars` into a `uint64_t` that consumes the whole text. -/
def uint64OfText? (text : List UInt8) : Option UInt64 :=
  (natOfText? text).bind fun n => if n < 2 ^ 64 then some (UInt64.ofNat n) else none

@[simp] lemma uint64OfText_natText (v : UInt64) : uint64OfText? (natText v.toNat) = some v := by
  simp [uint64OfText?, natOfText_natText, if_pos v.toNat_lt]

/-! ## Reading the front of a text -/

/-- `isspace`. -/
def isSpace (c : UInt8) : Bool := c == 32 || (9 ≤ c && c ≤ 13)

/-- The digits a text starts with. -/
def leadingDigits : List UInt8 → List Digit
  | [] => []
  | c :: cs =>
    match byteDigit c with
    | none => []
    | some d => d :: leadingDigits cs

/-- Whether a text starts with a minus sign, and what follows its sign. -/
def splitSign : List UInt8 → Bool × List UInt8
  | 45 :: rest => (true, rest)
  | 43 :: rest => (false, rest)
  | text => (false, text)

/-- What `strtol` and its relatives read in base ten, before their range checks: a sign and an
absolute value behind white space, none without a digit.  The rest of the text is ignored. -/
def frontNumber? (text : List UInt8) : Option (Bool × ℕ) :=
  let (negative, rest) := splitSign (text.dropWhile isSpace)
  match leadingDigits rest with
  | [] => none
  | ds => some (negative, value ds)

/-- `std::stoi`; none for an exception. -/
def stoi? (text : List UInt8) : Option ℤ :=
  (frontNumber? text).bind fun (negative, n) =>
    let i : ℤ := if negative then -n else n
    if -2147483648 ≤ i ∧ i ≤ 2147483647 then some i else none

/-- `std::stoull`, and `std::stoul` where `unsigned long` has 64 bits; a negative number wraps
around. -/
def stoull? (text : List UInt8) : Option ℕ :=
  (frontNumber? text).bind fun (negative, n) =>
    if n < 2 ^ 64 then some (if negative then (2 ^ 64 - n) % 2 ^ 64 else n) else none

@[simp] lemma leadingDigits_map (ds : List Digit) : leadingDigits (ds.map digitByte) = ds := by
  induction ds with
  | nil => rfl
  | cons d ds ih => simp [leadingDigits, ih]

/-- The text of a number starts with a digit, so it has neither white space nor a sign in front. -/
lemma natText_eq_cons (n : ℕ) : ∃ d rest, natText n = digitByte d :: rest := by
  cases h : digits n with
  | nil => exact absurd h (digits_ne_nil n)
  | cons d ds => exact ⟨d, ds.map digitByte, by simp [natText, h]⟩

lemma isSpace_digitByte (d : Digit) : isSpace (digitByte d) = false := by
  revert d
  decide

lemma splitSign_digitByte (d : Digit) (rest : List UInt8) :
    splitSign (digitByte d :: rest) = (false, digitByte d :: rest) := by
  have hminus : digitByte d ≠ 45 := digitByte_ne (by decide) d
  have hplus : digitByte d ≠ 43 := digitByte_ne (by decide) d
  unfold splitSign
  split
  · rename_i h
    exact absurd (List.cons.inj h).1 hminus
  · rename_i h
    exact absurd (List.cons.inj h).1 hplus
  · rfl

lemma leadingDigits_natText (n : ℕ) : leadingDigits (natText n) = digits n := leadingDigits_map _

lemma frontNumber_natText (n : ℕ) : frontNumber? (natText n) = some (false, n) := by
  obtain ⟨d, rest, h⟩ := natText_eq_cons n
  have hskip : (natText n).dropWhile isSpace = natText n := by
    rw [h, List.dropWhile_cons, isSpace_digitByte]
    rfl
  have hsign : splitSign (natText n) = (false, natText n) := by
    rw [h]
    exact splitSign_digitByte d rest
  unfold frontNumber?
  simp only [hskip, hsign, leadingDigits_natText]
  cases hds : digits n with
  | nil => exact absurd hds (digits_ne_nil n)
  | cons d ds =>
    simp only
    rw [← hds, value_digits]

lemma frontNumber_minus_natText (n : ℕ) : frontNumber? (45 :: natText n) = some (true, n) := by
  unfold frontNumber?
  have hskip : (45 :: natText n).dropWhile isSpace = 45 :: natText n := rfl
  simp only [hskip, splitSign, leadingDigits_natText]
  cases hds : digits n with
  | nil => exact absurd hds (digits_ne_nil n)
  | cons d ds =>
    simp only
    rw [← hds, value_digits]

/-- **`std::stoi` reads back a printed `int`.** -/
lemma stoi_intText (hlo : -2147483648 ≤ i) (hhi : i ≤ 2147483647) : stoi? (intText i) = some i := by
  unfold stoi? intText
  by_cases hneg : i < 0
  · have habs : -(i.natAbs : ℤ) = i := by omega
    rw [if_pos hneg, frontNumber_minus_natText]
    simp only [bind_some, if_true, habs]
    rw [if_pos ⟨hlo, hhi⟩]
  · have habs : (i.natAbs : ℤ) = i := by omega
    rw [if_neg hneg, frontNumber_natText]
    simp only [bind_some, habs, Bool.false_eq_true, if_false]
    rw [if_pos ⟨hlo, hhi⟩]

/-- **`std::stoull` reads back a printed number.** -/
lemma stoull_natText (h : n < 2 ^ 64) : stoull? (natText n) = some n := by
  unfold stoull?
  rw [frontNumber_natText]
  simp only [bind_some, if_pos h, Bool.false_eq_true, if_false]

/-- The characters of a printed integer are digits, but for a minus sign. -/
lemma intText_mem (hc : c ∈ intText i) : c = 45 ∨ 48 ≤ c.toNat ∧ c.toNat < 58 := by
  unfold intText at hc
  split at hc
  · rcases List.mem_cons.mp hc with rfl | hc
    · exact .inl rfl
    · exact .inr (natText_mem hc)
  · exact .inr (natText_mem hc)

end DecimalText
