import VlsOs.Schemes.Run

/-! Accounting along a run.

    Two ways to bound a whole run by what a single step does: a measure that only inputs of a kind
    raise, by one at most, is bounded by their number (`measure_le_countP`), and outputs that each step
    pays for out of a measure are paid for by the run (`outs_paid`).

        μ s ≤ μ s₁ ≤ … ≤ μ sₙ        cost o₀ ≤ μ s₁ - μ s,  cost o₁ ≤ μ s₂ - μ s₁,  … -/

namespace Patterns.Run

variable {σ ι ο : Type*} {step : σ → ι → σ × ο} {I : σ → Prop} {μ : σ → ℕ}

/-- COUNT: only inputs of the kind `c` raise the measure. -/
theorem measure_le_countP {c : ι → Bool}
    (hstep : ∀ s i, I s → I (step s i).1 ∧ μ (step s i).1 ≤ μ s + (c i).toNat) :
    ∀ (is : List ι) (s : σ), I s → μ (after step s is) ≤ μ s + is.countP c := by
  intro is
  induction is with
  | nil =>
    intro s _
    exact Nat.le_add_right ..
  | cons i is ih =>
    intro s hs
    obtain ⟨hnext, hle⟩ := hstep s i hs
    have hrest := ih _ hnext
    have hcount : (i :: is).countP c = is.countP c + (c i).toNat := by
      rw [List.countP_cons]
      cases c i <;> rfl
    rw [after_cons, hcount]
    omega

/-- PAYMENT: what a run puts out is paid for by the growth of the measure. -/
theorem outs_paid {cost : ο → ℕ}
    (hstep : ∀ s i, I s → I (step s i).1 ∧ μ s + cost (step s i).2 ≤ μ (step s i).1) :
    ∀ (is : List ι) (s : σ), I s →
      μ s + ((outs step s is).map cost).sum ≤ μ (after step s is) := by
  intro is
  induction is with
  | nil =>
    intro s _
    exact le_refl _
  | cons i is ih =>
    intro s hs
    obtain ⟨hnext, hpaid⟩ := hstep s i hs
    have hrest := ih _ hnext
    rw [after_cons, outs_cons, List.map_cons, List.sum_cons]
    omega

end Patterns.Run
