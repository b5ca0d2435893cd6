import Mathlib

/-! One's-complement sums of machine words.

    Words are the numbers `0 … m`. Where a sum passes `m`, the carry goes back in at the low end
    (`add`), which takes `m` off: sums are kept modulo `m`, with two representatives of zero, `0`
    and `m`. A sum of words that are not all zero never comes out as `0`, so `Represents m r s`, the
    result `r` standing for the plain sum `s`, fixes `r`.

        plain sum s      0    1   ⋯   m-1   m   m+1   ⋯   2m   2m+1
        result r         0    1   ⋯   m-1   m   1     ⋯   m    1

    A word of two digits to the base `b` can be written in the wrong order, `swap b`. That multiplies
    it by `b`, so a checksum that is swapped by mistake makes up for `b - 1` times the sum
    (`dvd_add_swap_iff`), which is nothing exactly for the sums that `b + 1` divides. -/

namespace Patterns.OnesComplement

variable {m : ℕ}

/-- Addition with the carry put back in at the low end. -/
def add (m x y : ℕ) : ℕ := if x + y ≤ m then x + y else x + y - m

/-- The one's-complement sum of words. -/
def sum (m : ℕ) (ws : List ℕ) : ℕ := ws.foldl (add m) 0

/-- `r` stands for the plain sum `s`. -/
structure Represents (m r s : ℕ) : Prop where
  le : r ≤ m
  modEq : r ≡ s [MOD m]
  pos : 0 < r ↔ 0 < s

theorem represents_self {r : ℕ} (h : r ≤ m) : Represents m r r := ⟨h, rfl, Iff.rfl⟩

/-- A carry moved from the top to the low end does not change what a sum stands for. -/
theorem Represents.carry {r low high : ℕ} (h : Represents m r (low + high)) :
    Represents m r (low + (m + 1) * high) := by
  refine ⟨h.le, h.modEq.trans ?_, h.pos.trans ?_⟩
  · have hsplit : low + (m + 1) * high = low + high + m * high := by ring
    rw [hsplit]
    exact (Nat.add_modulus_mul_modEq_iff.mpr rfl).symm
  · rcases Nat.eq_zero_or_pos high with rfl | hhigh
    · simp
    · have : 0 < (m + 1) * high := Nat.mul_pos (Nat.succ_pos m) hhigh
      omega

/-- The full word is the representative of the positive multiples of `m`. -/
theorem Represents.eq_max_iff {r s : ℕ} (hm : 0 < m) (h : Represents m r s) :
    r = m ↔ m ∣ s ∧ 0 < s := by
  obtain ⟨hle, hmod, hpos⟩ := h
  constructor
  · rintro rfl
    exact ⟨(Nat.modEq_zero_iff_dvd.mp (hmod.symm.trans (Nat.modEq_zero_iff_dvd.mpr dvd_rfl))),
      hpos.mp hm⟩
  · rintro ⟨hdvd, hs⟩
    have hr : m ∣ r := Nat.modEq_zero_iff_dvd.mp (hmod.trans (Nat.modEq_zero_iff_dvd.mpr hdvd))
    exact Nat.le_antisymm hle (Nat.le_of_dvd (hpos.mpr hs) hr)

theorem Represents.unique {r r' s : ℕ} (hm : 0 < m) (h : Represents m r s)
    (h' : Represents m r' s) : r = r' := by
  rcases Nat.lt_or_ge r m with hr | hr
  · rcases Nat.lt_or_ge r' m with hr' | hr'
    · exact Nat.ModEq.eq_of_lt_of_lt (h.modEq.trans h'.modEq.symm) hr hr'
    · have hmax : r' = m := Nat.le_antisymm h'.le hr'
      exact absurd ((h.eq_max_iff hm).mpr ((h'.eq_max_iff hm).mp hmax)) hr.ne
  · have hmax : r = m := Nat.le_antisymm h.le hr
    exact hmax.trans ((h'.eq_max_iff hm).mpr ((h.eq_max_iff hm).mp hmax)).symm

/-- STEP: one more word. -/
theorem Represents.add {r s w : ℕ} (h : Represents m r s) (hw : w ≤ m) :
    Represents m (add m r w) (s + w) := by
  obtain ⟨hle, hmod, hpos⟩ := h
  unfold OnesComplement.add
  split
  · exact ⟨‹_›, hmod.add_right w, by omega⟩
  · refine ⟨by omega, Nat.ModEq.trans ?_ (hmod.add_right w), by omega⟩
    exact (Nat.modEq_iff_dvd' (Nat.sub_le ..)).mpr ⟨1, by omega⟩

/-- CORRECT: the one's-complement sum stands for the plain sum. -/
theorem represents_sum {ws : List ℕ} (hws : ∀ w ∈ ws, w ≤ m) : Represents m (sum m ws) ws.sum := by
  have hfold : ∀ (ws : List ℕ) (r s : ℕ), (∀ w ∈ ws, w ≤ m) → Represents m r s →
      Represents m (ws.foldl (OnesComplement.add m) r) (s + ws.sum) := by
    intro ws
    induction ws with
    | nil => exact fun _ _ _ h => h
    | cons w ws ih =>
      intro r s hws h
      rw [List.sum_cons, ← Nat.add_assoc]
      exact ih _ _ (fun v hv => hws v (List.mem_cons_of_mem _ hv)) (h.add (hws w List.mem_cons_self))
  simpa [sum] using hfold ws 0 0 hws (represents_self (Nat.zero_le m))

/-- A sum and the complement of what stands for it make a positive multiple of `m`. -/
theorem Represents.dvd_add_complement {r s : ℕ} (hm : 0 < m) (h : Represents m r s) :
    m ∣ s + (m - r) ∧ 0 < s + (m - r) := by
  obtain ⟨hle, hmod, hpos⟩ := h
  have hsum : s + (m - r) ≡ m [MOD m] :=
    calc s + (m - r) ≡ r + (m - r) [MOD m] := hmod.symm.add_right _
      _ = m := Nat.add_sub_cancel' hle
  refine ⟨Nat.modEq_zero_iff_dvd.mp (hsum.trans (Nat.modEq_zero_iff_dvd.mpr dvd_rfl)), ?_⟩
  rcases Nat.eq_zero_or_pos r with hr | hr
  · omega
  · exact Nat.add_pos_left (hpos.mp hr) _

/-! ### Words in the wrong byte order -/

/-- The two digits of a word exchanged. -/
def swap (b v : ℕ) : ℕ := v % b * b + v / b

/-- A swap is a multiplication by the base. -/
theorem swap_modEq {b : ℕ} (hm : m + 1 = b * b) (v : ℕ) : swap b v ≡ b * v [MOD m] := by
  have hsplit : b * v = swap b v + m * (v / b) :=
    calc b * v = b * (b * (v / b) + v % b) := by rw [Nat.div_add_mod]
      _ = (m + 1) * (v / b) + v % b * b := by rw [hm]; ring
      _ = swap b v + m * (v / b) := by rw [swap]; ring
  rw [hsplit]
  exact (Nat.add_modulus_mul_modEq_iff.mpr rfl).symm

/-- A sum and its complement the wrong way round are short of zero by `b - 1` times the sum. -/
theorem Represents.add_swap_modEq {b r s : ℕ} (hm : m + 1 = b * b) (h : Represents m r s) :
    (s + swap b (m - r) : ℤ) ≡ -((b - 1) * s) [ZMOD m] := by
  have hswap : (swap b (m - r) : ℤ) ≡ b * (m - r) [ZMOD m] := by
    have := Int.natCast_modEq_iff.mpr (swap_modEq hm (m - r))
    rwa [Nat.cast_mul, Nat.cast_sub h.le] at this
  have hr : (r : ℤ) ≡ s [ZMOD m] := Int.natCast_modEq_iff.mpr h.modEq
  calc (s + swap b (m - r) : ℤ)
      ≡ s + b * (m - r) [ZMOD m] := hswap.add_left _
    _ ≡ s + b * (0 - s) [ZMOD m] :=
        ((((Int.modEq_zero_iff_dvd.mpr dvd_rfl).sub hr).mul_left _).add_left _)
    _ = -((b - 1) * s) := by ring

/-- EXACT: where the complement of a part of a sum is added the wrong way round, the whole is a multiple
    of `m` exactly if the rest stands for `b - 1` times the part. -/
theorem dvd_add_swap_iff {b p r s : ℕ} (hb : 1 ≤ b) (hm : m + 1 = b * b) (h : Represents m r s) :
    m ∣ p + (s + swap b (m - r)) ↔ (b - 1) * s ≡ p [MOD m] := by
  have hsum : (p + (s + swap b (m - r)) : ℤ) ≡ p - (b - 1) * s [ZMOD m] := by
    rw [sub_eq_add_neg]
    exact (h.add_swap_modEq hm).add_left _
  calc m ∣ p + (s + swap b (m - r))
      ↔ (m : ℤ) ∣ p + (s + swap b (m - r)) := by exact_mod_cast Int.natCast_dvd_natCast.symm
    _ ↔ (m : ℤ) ∣ p - (b - 1) * s := hsum.dvd_iff
    _ ↔ ((b - 1) * s : ℤ) ≡ p [ZMOD m] := Int.modEq_iff_dvd.symm
    _ ↔ (b - 1) * s ≡ p [MOD m] := by
        rw [← Int.natCast_modEq_iff, Nat.cast_mul, Nat.cast_sub hb, Nat.cast_one]

/-- … without a rest: exactly for the sums that `b + 1` divides. -/
theorem mul_modEq_zero_iff {b s : ℕ} (hb : 2 ≤ b) (hm : m + 1 = b * b) :
    (b - 1) * s ≡ 0 [MOD m] ↔ (b + 1) ∣ s := by
  obtain ⟨c, rfl⟩ : ∃ c, b = c + 1 := ⟨b - 1, by omega⟩
  have hfactor : m = c * (c + 1 + 1) := by
    have hsquare : (c + 1) * (c + 1) = c * (c + 1 + 1) + 1 := by ring
    omega
  rw [Nat.modEq_zero_iff_dvd, hfactor, Nat.add_sub_cancel]
  exact Nat.mul_dvd_mul_iff_left (by omega)

end Patterns.OnesComplement
