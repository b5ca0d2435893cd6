import Mathlib

/-! Positional numerals.

    The numeral of a number in base `b` is its digits with the highest first, and a single zero for
    zero: not empty, every digit below the base, no zero in front of another digit (`IsNumeral`). How
    many digits it takes is read off the powers of the base, which is all that a caller with a buffer
    of fixed size has to know. -/

namespace Patterns.Numerals

/-- The digits of `n` in base `b`, the highest first; zero is written as one digit. -/
def numeral (b n : ℕ) : List ℕ := if n = 0 then [0] else (Nat.digits b n).reverse

/-- What makes a list of digits, the highest first, the numeral of `n` in base `b`. -/
structure IsNumeral (b n : ℕ) (digits : List ℕ) : Prop where
  ne_nil : digits ≠ []
  digit_lt : ∀ d ∈ digits, d < b
  value : Nat.ofDigits b digits.reverse = n
  leading : digits.head? = some 0 → digits = [0]

theorem numeral_zero (b : ℕ) : numeral b 0 = [0] := if_pos rfl

theorem numeral_of_ne_zero {b n : ℕ} (h : n ≠ 0) : numeral b n = (Nat.digits b n).reverse := if_neg h

theorem isNumeral_numeral {b : ℕ} (hb : 1 < b) (n : ℕ) : IsNumeral b n (numeral b n) := by
  by_cases hn : n = 0
  · subst hn
    rw [numeral_zero]
    exact ⟨List.cons_ne_nil _ _, by simp; omega, by simp, fun _ => rfl⟩
  have hne : Nat.digits b n ≠ [] := Nat.digits_ne_nil_iff_ne_zero.mpr hn
  rw [numeral_of_ne_zero hn]
  refine ⟨by simpa using hne, fun d hd => Nat.digits_lt_base hb (List.mem_reverse.mp hd), ?_, ?_⟩
  · rw [List.reverse_reverse, Nat.ofDigits_digits]
  · intro hhead
    rw [List.head?_reverse, List.getLast?_eq_getLast_of_ne_nil hne, Option.some_inj] at hhead
    exact absurd hhead (Nat.getLast_digit_ne_zero b hn)

/-- A numeral has at most `k` digits exactly when its number is below the `k`th power of the base. -/
theorem length_numeral_le_iff {b k : ℕ} (hb : 1 < b) (hk : 0 < k) (n : ℕ) :
    (numeral b n).length ≤ k ↔ n < b ^ k := by
  by_cases hn : n = 0
  · subst hn
    rw [numeral_zero]
    exact iff_of_true hk (by positivity)
  · rw [numeral_of_ne_zero hn, List.length_reverse, Nat.digits_length_le_iff hb]

end Patterns.Numerals
