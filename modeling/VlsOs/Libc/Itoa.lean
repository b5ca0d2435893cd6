import VlsOs.Libc.String
import VlsOs.Schemes.Numerals

/-! `itoa`: a signed number as text.

    The digits of the value come out of repeated division with the lowest first, into a buffer of 33
    characters, and are copied out backwards; a minus sign goes in front of a negative value, whose
    digits are those of its negation.

        value     '-' , value = -value      digits          text
          -42          42                   2 , 4           - 4 2 NUL
        -2 ^ 31      -2 ^ 31                none            - NUL

    The negation of the lowest value is that value again: the loop, which runs while the value is
    positive, then writes no digit at all. -/

namespace VlsOs.Libc
open Patterns.Numerals

/-- `digit < 10 ? '0' + digit : 'a' + digit - 10`, stored in a `char`. -/
def digitByte (digit : Int32) : UInt8 :=
  (if digit < 10 then 48 + digit else 97 + digit - 10).toInt8.toUInt8

/-- The loop `while (value > 0)`, which fills the buffer with the lowest digit first. -/
def digitLoop (base : Int32) : ℕ → Int32 → List UInt8 → List UInt8
  | 0, _, buffer => buffer
  | fuel + 1, value, buffer =>
    if 0 < value then digitLoop base fuel (value / base) (buffer ++ [digitByte (value % base)])
    else buffer

/-- The characters that `itoa` writes before the terminating NUL. -/
def itoaText (value base : Int32) : List UInt8 :=
  let sign : List UInt8 := if value < 0 then [45] else []
  let value := if value < 0 then -value else value
  sign ++ if value = 0 then [48] else (digitLoop base 33 value []).reverse

/-- The array `str` after `itoa(value, str, base)`. -/
def itoa (value : Int32) (str : List UInt8) (base : Int32) : List UInt8 :=
  if base < 2 ∨ 36 < base then str
  else itoaText value base ++ 0 :: str.drop ((itoaText value base).length + 1)

/-- The digits of bases up to 36 as characters. -/
def digitChars : List UInt8 := chars "0123456789abcdefghijklmnopqrstuvwxyz"

/-- The text of a number without a sign. -/
def numeralText (base n : ℕ) : List UInt8 := (numeral base n).map fun d => digitChars.getD d 0

/-! ### The digit loop -/

theorem digitByte_eq {d : ℕ} (hd : d < 36) :
    digitByte (Int32.ofNat d) = digitChars.getD d 0 := by
  have h : ∀ d : Fin 36, digitByte (Int32.ofNat d) = digitChars.getD d 0 := by decide
  exact h ⟨d, hd⟩

theorem natCast_in_range {n : ℕ} (hn : n < 2 ^ 31) :
    Int32.minValue.toInt ≤ n ∧ (n : ℤ) ≤ Int32.maxValue.toInt := by
  have hmin : Int32.minValue.toInt = -2147483648 := by decide
  have hmax : Int32.maxValue.toInt = 2147483647 := by decide
  omega

theorem ofNat_div {n b : ℕ} (hn : n < 2 ^ 31) (hb : b < 2 ^ 31) :
    Int32.ofNat n / Int32.ofNat b = Int32.ofNat (n / b) :=
  (Int32.ofInt_tdiv (natCast_in_range hn).1 (natCast_in_range hn).2 (natCast_in_range hb).1
    (natCast_in_range hb).2).symm

theorem ofNat_mod {n b : ℕ} (hn : n < 2 ^ 31) (hb : b < 2 ^ 31) :
    Int32.ofNat n % Int32.ofNat b = Int32.ofNat (n % b) :=
  (Int32.ofInt_tmod (natCast_in_range hn).1 (natCast_in_range hn).2 (natCast_in_range hb).1
    (natCast_in_range hb).2).symm

/-- The value after the sign has been taken off it. At the lowest value this is `2 ^ 31` taken modulo
    `2 ^ 32`, which is the lowest value again. -/
theorem magnitude_eq (value : Int32) :
    (if value < 0 then -value else value) = Int32.ofNat value.toInt.natAbs := by
  have hsign : value < 0 ↔ value.toInt < 0 := Int32.lt_iff_toInt_lt
  have hcast : ∀ n : ℕ, Int32.ofNat n = Int32.ofInt n := fun _ => rfl
  rw [hcast]
  split
  next hneg =>
    rw [Int.ofNat_natAbs_of_nonpos (hsign.mp hneg).le, Int32.ofInt_neg, Int32.ofInt_toInt]
  next hpos =>
    rw [Int.natAbs_of_nonneg (not_lt.mp (mt hsign.mpr hpos)), Int32.ofInt_toInt]

theorem natAbs_lt {value : Int32} (hvalue : value ≠ Int32.minValue) : value.toInt.natAbs < 2 ^ 31 := by
  have hmin : Int32.minValue.toInt = -2147483648 := by decide
  have hlow : value.toInt ≠ -2147483648 := fun h => hvalue (Int32.toInt_inj.mp (h.trans hmin.symm))
  have h1 := Int32.le_toInt value
  have h2 := Int32.toInt_lt value
  omega

section Base
variable {b : ℕ} (hlow : 2 ≤ b) (hhigh : b ≤ 36)
include hlow hhigh

/-- The loop writes the digits of the value, the lowest first, and comes to its end when there is one
    turn for every binary digit. -/
theorem digitLoop_eq (fuel : ℕ) : ∀ {n : ℕ} (buffer : List UInt8), n < 2 ^ 31 → n < 2 ^ fuel →
    digitLoop (Int32.ofNat b) fuel (Int32.ofNat n) buffer =
      buffer ++ (Nat.digits b n).map fun d => digitChars.getD d 0 := by
  induction fuel with
  | zero =>
    intro n buffer _ hfuel
    obtain rfl : n = 0 := by omega
    simp [digitLoop]
  | succ fuel ih =>
    intro n buffer hn hfuel
    have hpos : (0 : Int32) < Int32.ofNat n ↔ 0 < n := Int32.ofNat_lt_iff_lt (by decide) hn
    rw [digitLoop]
    by_cases h0 : 0 < n
    · have hdiv : n / b ≤ n / 2 := Nat.div_le_div_left hlow (by decide)
      have hmod : n % b < b := Nat.mod_lt n (by omega)
      rw [if_pos (hpos.mpr h0), ofNat_div hn (by omega), ofNat_mod hn (by omega),
        digitByte_eq (by omega), ih _ (by omega) (by rw [pow_succ] at hfuel; omega),
        Nat.digits_def' hlow h0, List.map_cons, List.append_assoc, List.singleton_append]
    · obtain rfl : n = 0 := by omega
      rw [if_neg fun h => h0 (hpos.mp h)]
      simp

/-- What `itoa` writes after the sign, for a value that is not negative. -/
theorem digits_eq_numeralText {n : ℕ} (hn : n < 2 ^ 31) :
    (if Int32.ofNat n = 0 then [48] else (digitLoop (Int32.ofNat b) 33 (Int32.ofNat n) []).reverse) =
      numeralText b n := by
  have hzero : Int32.ofNat n = 0 ↔ n = 0 := by
    rw [← Int32.toInt_inj, Int32.toInt_ofNat_of_lt hn]
    exact Int.natCast_eq_zero
  by_cases h0 : n = 0
  · subst h0
    rfl
  · rw [if_neg (mt hzero.mp h0), digitLoop_eq hlow hhigh 33 [] hn (by omega), List.nil_append,
      numeralText, numeral_of_ne_zero h0, List.map_reverse]

/-- CORRECT: for every value but the lowest, the text is a sign for a negative value and the numeral
    of its magnitude. -/
theorem itoaText_eq {value : Int32} (hvalue : value ≠ Int32.minValue) :
    itoaText value (Int32.ofNat b) =
      (if value < 0 then [45] else []) ++ numeralText b value.toInt.natAbs := by
  rw [itoaText, magnitude_eq, digits_eq_numeralText hlow hhigh (natAbs_lt hvalue)]

end Base

/-- The lowest value gets a sign and no digit. -/
theorem itoaText_minValue (base : Int32) : itoaText Int32.minValue base = [45] := rfl

/-! ### Numerals of 32-bit values -/

/-- A base from 2 to 36 as a number. -/
theorem exists_base {base : Int32} (h : 2 ≤ base ∧ base ≤ 36) :
    ∃ b : ℕ, 2 ≤ b ∧ b ≤ 36 ∧ base = Int32.ofNat b ∧ base.toInt.toNat = b := by
  have hlow : 2 ≤ base.toInt := Int32.le_iff_toInt_le.mp h.1
  have hhigh : base.toInt ≤ 36 := Int32.le_iff_toInt_le.mp h.2
  refine ⟨base.toInt.toNat, by omega, by omega, ?_, rfl⟩
  have hcast : Int32.ofNat base.toInt.toNat = Int32.ofInt base.toInt.toNat := rfl
  rw [hcast, Int.toNat_of_nonneg (by omega), Int32.ofInt_toInt]

theorem itoa_of_base {base : Int32} (h : 2 ≤ base ∧ base ≤ 36) (value : Int32) (str : List UInt8) :
    itoa value str base =
      itoaText value base ++ 0 :: str.drop ((itoaText value base).length + 1) := by
  rw [itoa, if_neg]
  rw [not_or, Int32.not_lt, Int32.not_lt]
  exact h

theorem length_numeralText (b n : ℕ) : (numeralText b n).length = (numeral b n).length :=
  List.length_map _

theorem length_numeralText_le {b n : ℕ} (hb : 2 ≤ b) (hn : n < 2 ^ 31) :
    (numeralText b n).length ≤ 31 := by
  rw [length_numeralText, length_numeral_le_iff hb (by decide)]
  exact lt_of_lt_of_le hn (Nat.pow_le_pow_left hb 31)

theorem digitChars_ne_zero {d : ℕ} (hd : d < 36) : digitChars.getD d 0 ≠ 0 := by
  have h : ∀ d : Fin 36, digitChars.getD d 0 ≠ 0 := by decide
  exact h ⟨d, hd⟩

theorem digitChars_decimal {d : ℕ} (hd : d < 10) :
    isdigit (digitChars.getD d 0) = true ∧ (digitChars.getD d 0).toNat - 48 = d := by
  have h : ∀ d : Fin 10, isdigit (digitChars.getD d 0) = true ∧
      (digitChars.getD d 0).toNat - 48 = d := by decide
  exact h ⟨d, hd⟩

theorem isdigit_of_mem_numeralText {n : ℕ} {c : UInt8} (h : c ∈ numeralText 10 n) :
    isdigit c = true := by
  obtain ⟨d, hd, rfl⟩ := List.mem_map.mp h
  exact (digitChars_decimal ((isNumeral_numeral (by decide) n).digit_lt d hd)).1

theorem numeralText_ne_nil {b : ℕ} (hb : 2 ≤ b) (n : ℕ) : numeralText b n ≠ [] :=
  fun h => (isNumeral_numeral hb n).ne_nil (List.map_eq_nil_iff.mp h)

theorem decimal_numeralText (n : ℕ) : decimal (numeralText 10 n) = n := by
  have hnumeral := isNumeral_numeral (b := 10) (by decide) n
  have hback : (numeralText 10 n).reverse.map (fun c => c.toNat - 48) = (numeral 10 n).reverse := by
    rw [numeralText, ← List.map_reverse, List.map_map]
    refine (List.map_congr_left fun d hd => ?_).trans (List.map_id _)
    exact (digitChars_decimal (hnumeral.digit_lt d (List.mem_reverse.mp hd))).2
  rw [decimal, hback, hnumeral.value]

theorem nul_notMem_numeralText {b : ℕ} (hlow : 2 ≤ b) (hhigh : b ≤ 36) (n : ℕ) :
    0 ∉ numeralText b n := by
  intro h
  obtain ⟨d, hd, hzero⟩ := List.mem_map.mp h
  have hdigit := (isNumeral_numeral hlow n).digit_lt d hd
  exact digitChars_ne_zero (by omega) hzero

theorem ofNat_toInt_lt {n : ℕ} (hn : n < 2 ^ 31) :
    ¬ Int32.ofNat n < 0 ∧ Int32.ofNat n ≠ Int32.minValue ∧ (Int32.ofNat n).toInt.natAbs = n := by
  have hint : (Int32.ofNat n).toInt = n := Int32.toInt_ofNat_of_lt hn
  refine ⟨?_, ?_, by rw [hint, Int.natAbs_natCast]⟩
  · rw [Int32.lt_iff_toInt_lt, hint]
    exact not_lt.mpr (Int.natCast_nonneg n)
  · intro h
    have hmin : Int32.minValue.toInt = -2147483648 := by decide
    rw [h, hmin] at hint
    omega

theorem base_le {b : ℕ} (hlow : 2 ≤ b) (hhigh : b ≤ 36) : 2 ≤ Int32.ofNat b ∧ Int32.ofNat b ≤ 36 :=
  ⟨(Int32.ofNat_le_iff_le (by decide) (by omega)).mpr hlow,
    (Int32.ofNat_le_iff_le (by omega) (by decide)).mpr hhigh⟩

theorem nul_notMem_itoaText {b : ℕ} (hlow : 2 ≤ b) (hhigh : b ≤ 36) (value : Int32) :
    0 ∉ itoaText value (Int32.ofNat b) := by
  by_cases hvalue : value = Int32.minValue
  · subst hvalue
    rw [itoaText_minValue]
    decide
  · rw [itoaText_eq hlow hhigh hvalue, List.mem_append, not_or]
    exact ⟨by split <;> decide, nul_notMem_numeralText hlow hhigh _⟩

/-- The string in the array is what was written before the NUL. -/
theorem text_itoa {b : ℕ} (hlow : 2 ≤ b) (hhigh : b ≤ 36) (value : Int32) (str : List UInt8) :
    text (itoa value str (Int32.ofNat b)) = itoaText value (Int32.ofNat b) := by
  rw [itoa_of_base (base_le hlow hhigh), text_append_nul,
    text_of_no_nul (nul_notMem_itoaText hlow hhigh value)]

/-- What is written for a value that is not negative. -/
theorem itoaText_ofNat {b n : ℕ} (hlow : 2 ≤ b) (hhigh : b ≤ 36) (hn : n < 2 ^ 31) :
    itoaText (Int32.ofNat n) (Int32.ofNat b) = numeralText b n := by
  obtain ⟨hpos, hmin, habs⟩ := ofNat_toInt_lt hn
  rw [itoaText_eq hlow hhigh hmin, if_neg hpos, habs, List.nil_append]

/-- CORRECT: `atoi` reads back what `itoa` writes in base 10. -/
theorem atoi_itoaText {value : Int32} (hvalue : value ≠ Int32.minValue) (rest : List UInt8) :
    atoi (itoaText value 10 ++ 0 :: rest) = value := by
  have htext := itoaText_eq (b := 10) (by decide) (by decide) hvalue
  have hmagnitude := magnitude_eq value
  change itoaText value 10 = _ at htext
  rw [htext]
  by_cases hneg : value < 0
  · rw [if_pos hneg] at hmagnitude ⊢
    rw [List.append_assoc, List.singleton_append,
      atoi_minus_digits (fun c hc => isdigit_of_mem_numeralText hc) rfl, decimal_numeralText,
      ← hmagnitude, Int32.neg_neg]
  · rw [if_neg hneg] at hmagnitude ⊢
    rw [List.nil_append, atoi_digits_append (fun c hc => isdigit_of_mem_numeralText hc)
      (numeralText_ne_nil (by decide) _) rfl, decimal_numeralText, ← hmagnitude]

/-- What `itoa(value, str, base)` is to leave in the array: a sign exactly for a negative value, a
    numeral of its magnitude and a NUL, in at most 34 bytes, and the rest of the array as it was. -/
def WritesNumeral (value base : Int32) (str after : List UInt8) : Prop :=
  ∃ digits, IsNumeral base.toInt.toNat value.toInt.natAbs digits ∧
    let written := (if value < 0 then [45] else []) ++ digits.map (digitChars.getD · 0) ++ [0]
    written.length ≤ 34 ∧ after = written ++ str.drop written.length

theorem writesNumeral_itoa {value base : Int32} (hbase : 2 ≤ base ∧ base ≤ 36)
    (hvalue : value ≠ Int32.minValue) (str : List UInt8) :
    WritesNumeral value base str (itoa value str base) := by
  obtain ⟨b, hlow, hhigh, rfl, hb⟩ := exists_base hbase
  have htext := itoaText_eq hlow hhigh hvalue
  have hlength := length_numeralText_le hlow (natAbs_lt hvalue)
  refine ⟨numeral b value.toInt.natAbs, by rw [hb]; exact isNumeral_numeral hlow _, ?_⟩
  have hwritten : (if value < 0 then [45] else []) ++
      (numeral b value.toInt.natAbs).map (digitChars.getD · 0) ++ [0] =
        itoaText value (Int32.ofNat b) ++ [0] := by rw [htext]; rfl
  dsimp only
  rw [hwritten, List.length_append, itoa_of_base hbase]
  constructor
  · rw [htext, List.length_append]
    split <;> simp <;> omega
  · simp

/-- A digit comes before the NUL of every numeral, so a sign with a NUL after it is none. -/
theorem not_writesNumeral_minValue {base : Int32} (hbase : 2 ≤ base ∧ base ≤ 36) (str : List UInt8) :
    ¬ WritesNumeral Int32.minValue base str (itoa Int32.minValue str base) := by
  rintro ⟨digits, hnumeral, -, hafter⟩
  obtain ⟨d, rest, rfl⟩ := List.exists_cons_of_ne_nil hnumeral.ne_nil
  rw [itoa_of_base hbase, itoaText_minValue] at hafter
  have hsecond := congrArg (fun bytes => bytes.getD 1 1) hafter
  have hd : d < 36 := by
    obtain ⟨b, -, hhigh, -, hb⟩ := exists_base hbase
    have := hnumeral.digit_lt d (by simp)
    omega
  exact digitChars_ne_zero hd hsecond.symm

/-- CORRECT: `itoa` writes the numeral of every value but the lowest, and only of those; with it, what
    it writes in base 10 is read back by `atoi`. -/
theorem itoa_writes_numeral_iff (value base : Int32) (str : List UInt8)
    (hbase : 2 ≤ base ∧ base ≤ 36) :
    (WritesNumeral value base str (itoa value str base) ∧
      (base = 10 → atoi (itoa value str base) = value)) ↔ value ≠ Int32.minValue := by
  constructor
  · rintro ⟨hwrites, -⟩ rfl
    exact not_writesNumeral_minValue hbase str hwrites
  · intro hvalue
    refine ⟨writesNumeral_itoa hbase hvalue str, ?_⟩
    rintro rfl
    rw [itoa_of_base hbase]
    exact atoi_itoaText hvalue _

theorem itoa_writes_numeral_minus_forty_two :
    (2 ≤ (10 : Int32) ∧ (10 : Int32) ≤ 36) ∧
      ((WritesNumeral (-42) 10 (List.replicate 34 7) (itoa (-42) (List.replicate 34 7) 10) ∧
        ((10 : Int32) = 10 → atoi (itoa (-42) (List.replicate 34 7) 10) = -42)) ↔
          (-42 : Int32) ≠ Int32.minValue) :=
  ⟨by decide, itoa_writes_numeral_iff (-42) 10 (List.replicate 34 7) (by decide)⟩

/-- The lowest value comes out as a sign alone, which `atoi` reads as zero. -/
theorem itoa_lowest_value :
    itoa Int32.minValue (List.replicate 34 7) 10 = 45 :: 0 :: List.replicate 32 7 ∧
      atoi (itoa Int32.minValue (List.replicate 34 7) 10) = 0 ∧
      ¬ WritesNumeral Int32.minValue 10 (List.replicate 34 7)
        (itoa Int32.minValue (List.replicate 34 7) 10) :=
  ⟨by decide, by decide, not_writesNumeral_minValue (by decide) _⟩

end VlsOs.Libc
