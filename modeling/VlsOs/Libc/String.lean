import Mathlib

/-! Integer conversions of C, and the string functions of `libc/string.c` that the kernel uses.

    A C string argument is the list of its bytes: the end of the list reads as NUL, and a NUL inside
    the list ends the string there (`text`). A destination array is the list of all its bytes, and
    a copy returns the array after it. -/

namespace VlsOs.Libc

/-- The value of a `uint32_t` returned as an `int`. -/
def cInt (x : UInt32) : ℤ := x.toInt32.toInt

theorem cInt_of_lt {x : UInt32} (h : x.toNat < 2 ^ 31) : cInt x = x.toNat := by
  have : x.toInt32.toInt = x.toNat := by
    rw [← Int32.toInt_toBitVec, UInt32.toBitVec_toInt32, BitVec.toInt_eq_toNat_of_lt]
    · rfl
    · rw [UInt32.toNat_toBitVec]; omega
  exact this

theorem toNat_high_byte (v : UInt16) : (v >>> 8).toUInt8.toNat = v.toNat / 256 := by
  have hv := v.toNat_lt
  rw [UInt16.toNat_toUInt8, UInt16.toNat_shiftRight]
  change v.toNat >>> 8 % 256 = _
  rw [Nat.shiftRight_eq_div_pow]
  omega

/-- The bytes of a string literal, without the NUL that the compiler puts after them. -/
def chars (s : String) : List UInt8 := s.toList.map fun c => c.toNat.toUInt8

/-- The characters of a C string: what stands before the first NUL. -/
def text (s : List UInt8) : List UInt8 := s.takeWhile (· ≠ 0)

/-- `strcpy`: the text, its NUL, and the rest of the destination as it was. -/
def strcpy (dest src : List UInt8) : List UInt8 :=
  text src ++ 0 :: dest.drop ((text src).length + 1)

/-- `strncpy`: at most `n` characters, NULs up to `n` bytes, and the rest as it was. -/
def strncpy (dest src : List UInt8) (n : ℕ) : List UInt8 :=
  let copied := (text src).take n
  copied ++ List.replicate (n - copied.length) 0 ++ dest.drop n

/-- The text has no NUL in it. -/
theorem ne_zero_of_mem_text {s : List UInt8} {a : UInt8} (h : a ∈ text s) : a ≠ 0 := by
  simpa using List.mem_takeWhile_imp h

theorem length_strncpy {dest src : List UInt8} {n : ℕ} (h : n ≤ dest.length) :
    (strncpy dest src n).length = dest.length := by
  simp only [strncpy, List.length_append, List.length_replicate, List.length_take, List.length_drop]
  omega

/-- CORRECT: with a NUL after the `n` bytes that it fills, the copy is a string, and its text is the
    first `n` characters of the source. -/
theorem text_strncpy (dest src : List UInt8) (n : ℕ) :
    text ((strncpy dest src n).set n 0) = (text src).take n := by
  have hfilled : ((text src).take n ++
      List.replicate (n - ((text src).take n).length) (0 : UInt8)).length = n := by
    simp only [List.length_append, List.length_replicate, List.length_take]
    omega
  have hchars : ∀ a ∈ (text src).take n, decide (a ≠ 0) = true := by
    intro a ha
    exact decide_eq_true (ne_zero_of_mem_text (List.mem_of_mem_take ha))
  have hset : (strncpy dest src n).set n 0 = (text src).take n ++
      (List.replicate (n - ((text src).take n).length) 0 ++ (dest.drop n).set 0 0) := by
    rw [strncpy, List.set_append_right _ _ hfilled.le, hfilled, Nat.sub_self, List.append_assoc]
  rw [hset, text, List.takeWhile_append_of_pos hchars]
  -- what follows the characters is a NUL or nothing
  cases n - ((text src).take n).length with
  | zero => cases dest.drop n <;> simp
  | succ k => simp [List.replicate_succ]

/-- A `char` as the `int` it is promoted to: plain `char` is signed. -/
def promote (c : UInt8) : ℤ := c.toBitVec.toInt

/-- `strcmp`: the difference of the first characters that differ, or `0`. -/
def strcmp : List UInt8 → List UInt8 → ℤ
  | a :: s, b :: t => if a ≠ 0 ∧ a = b then strcmp s t else promote a - promote b
  | a :: _, [] => promote a - promote 0
  | [], b :: _ => promote 0 - promote b
  | [], [] => 0

/-- `strncmp`: the same, on at most `n` characters. -/
def strncmp (s1 s2 : List UInt8) : ℕ → ℤ
  | 0 => 0
  | n + 1 =>
    if s1.headD 0 ≠ s2.headD 0 then promote (s1.headD 0) - promote (s2.headD 0)
    else if s1.headD 0 = 0 then 0
    else strncmp s1.tail s2.tail n

theorem promote_sub_eq_zero {a b : UInt8} : promote a - promote b = 0 ↔ a = b := by
  rw [sub_eq_zero, promote, promote, BitVec.toInt_inj, UInt8.toBitVec_inj]

@[simp] theorem text_nil : text [] = [] := rfl

theorem text_cons (a : UInt8) (s : List UInt8) :
    text (a :: s) = if a = 0 then [] else a :: text s := by
  by_cases h : a = 0 <;> simp [text, h]

theorem text_append_nul (a b : List UInt8) : text (a ++ 0 :: b) = text a := by
  induction a with
  | nil => rfl
  | cons x a ih => rw [List.cons_append, text_cons, text_cons, ih]

theorem text_of_no_nul {s : List UInt8} (h : 0 ∉ s) : text s = s :=
  List.takeWhile_eq_self_iff.mpr fun _ ha => decide_eq_true fun h0 => h (h0 ▸ ha)

/-- CORRECT: two strings compare equal exactly when they have the same text. -/
theorem strcmp_eq_zero : ∀ s t : List UInt8, strcmp s t = 0 ↔ text s = text t
  | [], [] => by simp [strcmp]
  | a :: s, [] => by
    rw [strcmp, promote_sub_eq_zero, text_cons, text_nil]
    split <;> simp [*]
  | [], b :: t => by
    rw [strcmp, promote_sub_eq_zero, text_cons, text_nil, eq_comm]
    split <;> simp [*]
  | a :: s, b :: t => by
    rw [strcmp, text_cons, text_cons]
    by_cases hab : a ≠ 0 ∧ a = b
    · obtain ⟨ha, rfl⟩ := hab
      simp [ha, strcmp_eq_zero s t]
    · rw [if_neg hab, promote_sub_eq_zero]
      by_cases ha : a = 0
      · subst ha
        rw [eq_comm]
        by_cases hb : b = 0 <;> simp [hb]
      · have hne : a ≠ b := fun h => hab ⟨ha, h⟩
        by_cases hb : b = 0 <;> simp [ha, hb, hne]

/-! ### Numbers -/

def isdigit (c : UInt8) : Bool := 48 ≤ c ∧ c ≤ 57

def isspace (c : UInt8) : Bool :=
  c = 32 ∨ c = 9 ∨ c = 10 ∨ c = 13 ∨ c = 12 ∨ c = 11

/-- `result * 10 + (*str - '0')`, with the 32-bit operations of the machine. -/
def pushDigit (result : Int32) (c : UInt8) : Int32 := result * 10 + (Int32.ofInt (promote c) - 48)

def atoi (str : List UInt8) : Int32 :=
  match str.dropWhile isspace with
  | [] => 0
  | c :: rest =>
    if c = 45 then (rest.takeWhile isdigit).foldl pushDigit 0 * -1
    else if c = 43 then (rest.takeWhile isdigit).foldl pushDigit 0 * 1
    else ((c :: rest).takeWhile isdigit).foldl pushDigit 0 * 1

/-- The number that a list of decimal digits is written for. -/
def decimal (digits : List UInt8) : ℕ := Nat.ofDigits 10 (digits.reverse.map fun c => c.toNat - 48)

theorem decimal_append (a b : List UInt8) :
    decimal (a ++ b) = decimal b + 10 ^ b.length * decimal a := by
  simp only [decimal, List.reverse_append, List.map_append, Nat.ofDigits_append, List.length_map,
    List.length_reverse]

theorem isdigit_iff {c : UInt8} : isdigit c = true ↔ 48 ≤ c.toNat ∧ c.toNat ≤ 57 := by
  rw [isdigit, decide_eq_true_iff, UInt8.le_iff_toNat_le, UInt8.le_iff_toNat_le]
  rfl

theorem ne_of_isdigit {c k : UInt8} (h : isdigit c = true) (hk : isdigit k = false) : c ≠ k := by
  rintro rfl
  rw [h] at hk
  cases hk

/-- A digit is none of the characters that `atoi` looks for before the number. -/
theorem isdigit_first {c : UInt8} (h : isdigit c = true) : isspace c = false ∧ c ≠ 45 ∧ c ≠ 43 := by
  refine ⟨?_, ne_of_isdigit h rfl, ne_of_isdigit h rfl⟩
  simp only [isspace, decide_eq_false_iff_not, not_or]
  exact ⟨ne_of_isdigit h rfl, ne_of_isdigit h rfl, ne_of_isdigit h rfl, ne_of_isdigit h rfl,
    ne_of_isdigit h rfl, ne_of_isdigit h rfl⟩

theorem promote_of_isdigit {c : UInt8} (h : isdigit c = true) : promote c = c.toNat := by
  have hc := (isdigit_iff.mp h).2
  rw [promote, BitVec.toInt_eq_toNat_of_lt]
  · rfl
  · rw [UInt8.toNat_toBitVec]
    omega

theorem foldl_pushDigit {digits : List UInt8} (h : ∀ c ∈ digits, isdigit c = true) :
    digits.foldl pushDigit 0 = Int32.ofNat (decimal digits) := by
  induction digits using List.reverseRecOn with
  | nil => rfl
  | append_singleton digits c ih =>
    have hdigit := h c (by simp)
    have hc := (isdigit_iff.mp hdigit).1
    have hlast : Int32.ofInt (promote c) - 48 = Int32.ofNat (decimal [c]) := by
      have hsplit : Int32.ofNat c.toNat = Int32.ofNat (decimal [c]) + 48 := by
        change _ = Int32.ofNat (decimal [c]) + Int32.ofNat 48
        rw [← Int32.ofNat_add]
        refine congrArg Int32.ofNat ?_
        simp [decimal]
        omega
      rw [promote_of_isdigit hdigit]
      change Int32.ofNat c.toNat - 48 = _
      rw [hsplit, Int32.add_sub_cancel]
    rw [List.foldl_append, ih fun d hd => h d (List.mem_append_left _ hd), decimal_append,
      List.foldl_cons, List.foldl_nil, pushDigit, hlast, Int32.ofNat_add, Int32.ofNat_mul,
      Int32.add_comm, Int32.mul_comm]
    rfl

theorem takeWhile_isdigit_append {digits rest : List UInt8} (h : ∀ c ∈ digits, isdigit c = true)
    (hrest : rest.takeWhile isdigit = []) : (digits ++ rest).takeWhile isdigit = digits := by
  rw [List.takeWhile_append_of_pos h, hrest, List.append_nil]

/-- CORRECT: `atoi` of digits, up to the first character that is none, is their number modulo
    `2 ^ 32`. -/
theorem atoi_digits_append {digits rest : List UInt8} (h : ∀ c ∈ digits, isdigit c = true)
    (hne : digits ≠ []) (hrest : rest.takeWhile isdigit = []) :
    atoi (digits ++ rest) = Int32.ofNat (decimal digits) := by
  obtain ⟨c, tail, rfl⟩ := List.exists_cons_of_ne_nil hne
  obtain ⟨hspace, hminus, hplus⟩ := isdigit_first (h c (by simp))
  have hdrop : (c :: (tail ++ rest)).dropWhile isspace = c :: (tail ++ rest) :=
    List.dropWhile_cons_of_neg (by simp [hspace])
  have htake := takeWhile_isdigit_append h hrest
  rw [List.cons_append] at htake ⊢
  rw [atoi, hdrop]
  dsimp only
  rw [if_neg hminus, if_neg hplus, htake, Int32.mul_one, foldl_pushDigit h]

/-- CORRECT: with a minus sign in front, `atoi` gives the number negated. -/
theorem atoi_minus_digits {digits rest : List UInt8} (h : ∀ c ∈ digits, isdigit c = true)
    (hrest : rest.takeWhile isdigit = []) :
    atoi (45 :: (digits ++ rest)) = -Int32.ofNat (decimal digits) := by
  have hdrop : ((45 : UInt8) :: (digits ++ rest)).dropWhile isspace = 45 :: (digits ++ rest) := rfl
  rw [atoi, hdrop]
  dsimp only
  rw [if_pos rfl, takeWhile_isdigit_append h hrest, foldl_pushDigit h, Int32.mul_neg, Int32.mul_one]

/-- A string of digits and its NUL. -/
theorem atoi_digits {digits : List UInt8} (h : ∀ c ∈ digits, isdigit c = true) :
    atoi (digits ++ [0]) = Int32.ofNat (decimal digits) := by
  cases digits with
  | nil => rfl
  | cons c rest => exact atoi_digits_append h (List.cons_ne_nil c rest) rfl

theorem decimal_lt {digits : List UInt8} (h : ∀ c ∈ digits, isdigit c = true) :
    decimal digits < 10 ^ digits.length := by
  have hsmall : ∀ d ∈ digits.reverse.map (fun c => c.toNat - 48), d < 10 := by
    simp only [List.mem_map, List.mem_reverse]
    rintro d ⟨c, hc, rfl⟩
    have hdigit := isdigit_iff.mp (h c hc)
    omega
  have hlt := Nat.ofDigits_lt_base_pow_length (by decide : 1 < 10) hsmall
  rwa [List.length_map, List.length_reverse] at hlt

end VlsOs.Libc
