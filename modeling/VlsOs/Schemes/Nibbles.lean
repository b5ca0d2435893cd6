import Mathlib

/-! Numbers of whole nibbles, packed in a byte stream.

    A byte is two nibbles, the low one first, so a stream of bytes is a stream of nibbles. A number of
    `k` nibbles lies at any nibble `p`, on a byte boundary or not, and is `number f p k`. A write of
    such a number (`Written`) replaces its nibbles and no others: it is read back, and a number that
    shares no nibble with it is what it was.

        byte       0       1       2
        nibble   0   1 │ 2   3 │ 4   5
                 └─ number f 0 3 ┘
                       └ number f 3 3 ─┘ at nibble 3, in the middle of byte 1 -/

namespace Patterns.Nibbles

/-- Nibble `m` of a stream of bytes. -/
def nibble (f : ℕ → UInt8) (m : ℕ) : ℕ := (f (m / 2)).toNat / 16 ^ (m % 2) % 16

/-- The number that the `k` nibbles from `p` on spell, the lowest first. -/
def number (f : ℕ → UInt8) (p k : ℕ) : ℕ := ∑ i ∈ Finset.range k, 16 ^ i * nibble f (p + i)

theorem nibble_lt (f : ℕ → UInt8) (m : ℕ) : nibble f m < 16 := Nat.mod_lt _ (by decide)

/-- The two nibbles of a byte. -/
theorem toNat_eq_nibbles (f : ℕ → UInt8) (b : ℕ) :
    (f b).toNat = nibble f (2 * b) + 16 * nibble f (2 * b + 1) := by
  have hlt := (f b).toNat_lt
  have hlow : nibble f (2 * b) = (f b).toNat % 16 := by
    rw [nibble, show 2 * b / 2 = b by omega, show 2 * b % 2 = 0 by omega, pow_zero, Nat.div_one]
  have hhigh : nibble f (2 * b + 1) = (f b).toNat / 16 % 16 := by
    rw [nibble, show (2 * b + 1) / 2 = b by omega, show (2 * b + 1) % 2 = 1 by omega, pow_one]
  omega

theorem number_zero (f : ℕ → UInt8) (p : ℕ) : number f p 0 = 0 := Finset.sum_range_zero _

theorem number_succ (f : ℕ → UInt8) (p k : ℕ) :
    number f p (k + 1) = number f p k + 16 ^ k * nibble f (p + k) := Finset.sum_range_succ ..

/-- A number by its lowest nibble and the rest. -/
theorem number_cons (f : ℕ → UInt8) (p k : ℕ) :
    number f p (k + 1) = nibble f p + 16 * number f (p + 1) k := by
  induction k with
  | zero => simp [number]
  | succ k ih =>
    rw [number_succ, ih, number_succ f (p + 1), pow_succ, show p + (k + 1) = p + 1 + k by omega]
    ring

theorem number_lt (f : ℕ → UInt8) (p k : ℕ) : number f p k < 16 ^ k := by
  induction k with
  | zero => exact Nat.one_pos
  | succ k ih =>
    have hnib : 16 ^ k * nibble f (p + k) ≤ 16 ^ k * 15 :=
      Nat.mul_le_mul_left _ (Nat.le_of_lt_succ (nibble_lt f (p + k)))
    rw [number_succ, pow_succ]
    omega

theorem number_congr {f g : ℕ → UInt8} {p k : ℕ}
    (h : ∀ i, i < k → nibble g (p + i) = nibble f (p + i)) : number g p k = number f p k :=
  Finset.sum_congr rfl fun i hi => by rw [h i (Finset.mem_range.mp hi)]

/-- The stream `g` is `f` with the `k` nibbles from `p` on replaced by those of `x`. -/
def Written (f g : ℕ → UInt8) (p k x : ℕ) : Prop :=
  ∀ m, nibble g m = if p ≤ m ∧ m < p + k then x / 16 ^ (m - p) % 16 else nibble f m

variable {f g : ℕ → UInt8} {p k x : ℕ}

/-- READ BACK: the number that was written, as far as its nibbles go. -/
theorem Written.number_self (h : Written f g p k x) : number g p k = x % 16 ^ k := by
  have hpart : ∀ j, j ≤ k → number g p j = x % 16 ^ j := by
    intro j
    induction j with
    | zero =>
      intro _
      rw [number_zero, pow_zero, Nat.mod_one]
    | succ j ih =>
      intro hj
      rw [number_succ, ih (by omega), h, if_pos ⟨Nat.le_add_right .., by omega⟩,
        Nat.add_sub_cancel_left, ← Nat.mod_pow_succ]
  exact hpart k le_rfl

/-- FRAME: a number beside the written nibbles is what it was. -/
theorem Written.number_beside (h : Written f g p k x) {q j : ℕ} (hq : q + j ≤ p ∨ p + k ≤ q) :
    number g q j = number f q j := by
  refine number_congr fun i hi => ?_
  rw [h, if_neg (by omega)]

/-- A write of `k` nibbles that stores some of them as they were is a write of the others, if these
    stand together. -/
theorem Written.inner (h : Written f g p k x) {j n y : ℕ} (hj : j + n ≤ k)
    (hin : ∀ i, i < n → x / 16 ^ (j + i) % 16 = y / 16 ^ i % 16)
    (hkept : ∀ i, i < k → ¬ (j ≤ i ∧ i < j + n) → x / 16 ^ i % 16 = nibble f (p + i)) :
    Written f g (p + j) n y := by
  intro m
  rw [h m]
  by_cases hm : p ≤ m ∧ m < p + k
  · obtain ⟨i, rfl⟩ := Nat.exists_eq_add_of_le hm.1
    rw [if_pos hm, Nat.add_sub_cancel_left]
    by_cases hi : j ≤ i ∧ i < j + n
    · obtain ⟨q, rfl⟩ := Nat.exists_eq_add_of_le hi.1
      rw [if_pos (by omega), Nat.add_sub_add_left, Nat.add_sub_cancel_left, hin q (by omega)]
    · rw [if_neg (by omega), hkept i (by omega) hi]
  · rw [if_neg hm, if_neg (by omega)]

/-- All ones: a number is the greatest with its nibbles exactly when every nibble is. -/
theorem number_eq_max_iff (f : ℕ → UInt8) (p k : ℕ) :
    number f p k + 1 = 16 ^ k ↔ ∀ i, i < k → nibble f (p + i) = 15 := by
  induction k with
  | zero => simp [number_zero]
  | succ k ih =>
    have hk := number_lt f p k
    have hnib := nibble_lt f (p + k)
    have hpos : 0 < 16 ^ k := by positivity
    rw [number_succ, pow_succ]
    constructor
    · intro h
      have htop : nibble f (p + k) = 15 := by
        by_contra hne
        have hless : 16 ^ k * nibble f (p + k) ≤ 16 ^ k * 14 := Nat.mul_le_mul_left _ (by omega)
        omega
      rw [htop] at h
      intro i hi
      rcases Nat.lt_succ_iff_lt_or_eq.mp hi with hlt | rfl
      · exact ih.mp (by omega) i hlt
      · exact htop
    · intro h
      have hrest := ih.mpr fun i hi => h i (Nat.lt_succ_of_lt hi)
      rw [h k (Nat.lt_succ_self k)]
      omega

end Patterns.Nibbles
