import Mathlib

/-! Runs of a deterministic machine, one input after the other.

    A machine is a step function `σ → ι → σ × ο`; `after` is the state it reaches on a list of
    inputs (a left fold of the step) and `outs` the outputs it produces on the way. Three rules
    carry every statement about whole runs: an invariant kept by one step holds after every run
    (`after_inv`), a property that one step keeps exactly under a guard holds all along a run
    exactly when every step meets the guard (`always_iff_along`), and a machine that simulates
    another step by step has the same outputs (`outs_sim`). For progress, `tally` counts the steps
    of a kind: if each of them brings an event or lowers a variant, the event comes before there are
    more of them than the variant was (`sometime_of_tally`).

        s ──i₀──▶ s₁ ──i₁──▶ s₂ ── ⋯ ──▶ after step s is
            │         │
            o₀        o₁          outs step s is = [o₀, o₁, …] -/

namespace Patterns.Run

variable {σ τ ι ο : Type*} (step : σ → ι → σ × ο)

/-- The state reached by feeding the inputs one by one. -/
def after (s : σ) (is : List ι) : σ := is.foldl (fun s i => (step s i).1) s

/-- The outputs produced on the way, in order. -/
def outs : σ → List ι → List ο
  | _, [] => []
  | s, i :: is => (step s i).2 :: outs (step s i).1 is

/-- Every step of the run meets `G`, judged in the state the step starts from. -/
def Along (G : σ → ι → Prop) : σ → List ι → Prop
  | _, [] => True
  | s, i :: is => G s i ∧ Along G (step s i).1 is

/-- A run can be checked against a guard that can be evaluated. -/
instance decidableAlong (G : σ → ι → Prop) [∀ s i, Decidable (G s i)] :
    ∀ (is : List ι) (s : σ), Decidable (Along step G s is)
  | [], _ => isTrue trivial
  | i :: is, s => @instDecidableAnd _ _ _ (decidableAlong G is (step s i).1)

/-- Some step of the run meets `E`, judged in the state the step starts from. -/
def Sometime (E : σ → ι → Prop) : σ → List ι → Prop
  | _, [] => False
  | s, i :: is => E s i ∨ Sometime E (step s i).1 is

/-- How many steps of the run are of the kind `c`. -/
def tally (c : σ → ι → Bool) : σ → List ι → ℕ
  | _, [] => 0
  | s, i :: is => (c s i).toNat + tally c (step s i).1 is

/-- Every state of the run, the first and the last included, meets `P`. -/
def Always (P : σ → Prop) : σ → List ι → Prop
  | s, [] => P s
  | s, i :: is => P s ∧ Always P (step s i).1 is

@[simp] theorem after_nil (s : σ) : after step s [] = s := rfl

@[simp] theorem after_cons (s : σ) (i : ι) (is : List ι) :
    after step s (i :: is) = after step (step s i).1 is := rfl

@[simp] theorem outs_nil (s : σ) : outs step s [] = [] := rfl

@[simp] theorem outs_cons (s : σ) (i : ι) (is : List ι) :
    outs step s (i :: is) = (step s i).2 :: outs step (step s i).1 is := rfl

variable {step}

/-- INVARIANT: what one step keeps, every run keeps. -/
theorem after_inv {I : σ → Prop} (hstep : ∀ s i, I s → I (step s i).1) :
    ∀ (is : List ι) (s : σ), I s → I (after step s is) := by
  intro is
  induction is with
  | nil =>
    intro s hs
    exact hs
  | cons i is ih =>
    intro s hs
    exact ih _ (hstep s i hs)

/-- INVARIANT (outputs): if a step from an `I`-state keeps `I` and has an output that meets `Q`, so
    have all steps of a run. -/
theorem outs_inv {I : σ → Prop} {Q : ο → Prop}
    (hstep : ∀ s i, I s → I (step s i).1 ∧ Q (step s i).2) :
    ∀ (is : List ι) (s : σ), I s → ∀ o ∈ outs step s is, Q o := by
  intro is
  induction is with
  | nil =>
    intro s _ o ho
    cases ho
  | cons i is ih =>
    intro s hs o ho
    obtain ⟨hnext, hout⟩ := hstep s i hs
    rcases List.mem_cons.mp ho with rfl | ho
    · exact hout
    · exact ih _ hnext o ho

/-- A guard that is always met is met along every run. -/
theorem along_of_forall {G : σ → ι → Prop} (h : ∀ s i, G s i) :
    ∀ (is : List ι) (s : σ), Along step G s is := by
  intro is
  induction is with
  | nil => exact fun _ => trivial
  | cons i is ih => exact fun s => ⟨h s i, ih _⟩

/-- A guard that depends on the input alone holds along a run if all inputs meet it. -/
theorem along_iff_forall_mem {G : ι → Prop} (is : List ι) (s : σ) :
    Along step (fun _ i => G i) s is ↔ ∀ i ∈ is, G i := by
  induction is generalizing s with
  | nil => simp [Along]
  | cons i is ih => simp [Along, ih]

/-- … and beside another guard it can be asked of the inputs first. -/
theorem along_and_iff {P : ι → Prop} {G : σ → ι → Prop} (is : List ι) (s : σ) :
    Along step (fun s i => P i ∧ G s i) s is ↔ (∀ i ∈ is, P i) ∧ Along step G s is := by
  induction is generalizing s with
  | nil => simp [Along]
  | cons i is ih =>
    rw [Along, Along, ih, List.forall_mem_cons]
    tauto

/-- Where no step changes the state, the outputs come one by one from it. -/
theorem outs_idle {s : σ} (h : ∀ i, (step s i).1 = s) (is : List ι) :
    outs step s is = is.map fun i => (step s i).2 := by
  induction is with
  | nil => rfl
  | cons i is ih => rw [outs_cons, h i, ih, List.map_cons]

/-- A run goes on from where it got to. -/
theorem after_append (s : σ) (is js : List ι) :
    after step s (is ++ js) = after step (after step s is) js :=
  List.foldl_append

/-- A guard holds along a run exactly when it holds along its two parts. -/
theorem along_append {G : σ → ι → Prop} (is js : List ι) (s : σ) :
    Along step G s (is ++ js) ↔ Along step G s is ∧ Along step G (after step s is) js := by
  induction is generalizing s with
  | nil => simp [Along]
  | cons i is ih => simp [Along, ih, and_assoc]

/-- Where an invariant holds that `G`-steps keep, what it gives of such a step holds along the run. -/
theorem Along.imp {I : σ → Prop} {F G : σ → ι → Prop}
    (hstep : ∀ s i, I s → G s i → I (step s i).1) (h : ∀ s i, I s → G s i → F s i) :
    ∀ (is : List ι) (s : σ), I s → Along step G s is → Along step F s is := by
  intro is
  induction is with
  | nil => exact fun _ _ _ => trivial
  | cons i is ih =>
    rintro s hs ⟨hg, hrest⟩
    exact ⟨h s i hs hg, ih _ (hstep s i hs hg) hrest⟩

/-- BUDGET: let only inputs of the kind `c` raise `μ`, by one at most, and let `G` be met by every
    `H`-step that leaves `μ` below the limit. Then a run of `H`-steps with few enough of these inputs
    meets `G` all along. -/
theorem along_of_budget {I : σ → Prop} {H G : σ → ι → Prop} {c : ι → Bool} {μ : σ → ℤ} {B : ℤ}
    (hG : ∀ s i, I s → H s i → μ s + (c i).toNat < B → G s i)
    (hstep : ∀ s i, I s → H s i → G s i →
      I (step s i).1 ∧ μ (step s i).1 ≤ μ s + (c i).toNat) :
    ∀ (is : List ι) (s : σ), I s → Along step H s is → μ s + is.countP c < B →
      Along step G s is := by
  intro is
  induction is with
  | nil => exact fun _ _ _ _ => trivial
  | cons i is ih =>
    rintro s hs ⟨hh, hrest⟩ hfew
    have hcount : (i :: is).countP c = is.countP c + (c i).toNat := by
      rw [List.countP_cons]
      cases c i <;> rfl
    rw [hcount] at hfew
    push_cast at hfew
    have hg := hG s i hs hh (by omega)
    obtain ⟨hnext, hle⟩ := hstep s i hs hh hg
    exact ⟨hg, ih _ hnext hrest (by omega)⟩

/-- EXACT (guards): where an invariant holds that `G`-steps keep, guards that agree on its states
    hold along the same runs. -/
theorem along_congr {I : σ → Prop} {F G : σ → ι → Prop}
    (hstep : ∀ s i, I s → G s i → I (step s i).1) (hiff : ∀ s i, I s → (F s i ↔ G s i)) :
    ∀ (is : List ι) (s : σ), I s → (Along step F s is ↔ Along step G s is) := by
  intro is
  induction is with
  | nil => exact fun _ _ => Iff.rfl
  | cons i is ih =>
    intro s hs
    constructor
    · rintro ⟨hf, hrest⟩
      have hg := (hiff s i hs).mp hf
      exact ⟨hg, (ih _ (hstep s i hs hg)).mp hrest⟩
    · rintro ⟨hg, hrest⟩
      exact ⟨(hiff s i hs).mpr hg, (ih _ (hstep s i hs hg)).mpr hrest⟩

/-- A machine with more in its state runs along a guard on the part `π` exactly as the machine on that
    part does. -/
theorem along_part {spec : τ → ι → τ × ο} {π : σ → τ} (hπ : ∀ s i, π (step s i).1 = (spec (π s) i).1)
    {G : τ → ι → Prop} : ∀ (is : List ι) (s : σ),
      Along step (fun s i => G (π s) i) s is ↔ Along spec G (π s) is := by
  intro is
  induction is with
  | nil => exact fun _ => Iff.rfl
  | cons i is ih =>
    intro s
    rw [Along, Along, ih, hπ]

/-- INVARIANT (guarded), in every state of the run. -/
theorem always_of_along {I : σ → Prop} {G : σ → ι → Prop}
    (hstep : ∀ s i, I s → G s i → I (step s i).1) :
    ∀ (is : List ι) (s : σ), Along step G s is → I s → Always step I s is := by
  intro is
  induction is with
  | nil =>
    intro s _ hs
    exact hs
  | cons i is ih =>
    rintro s ⟨hg, hrest⟩ hs
    exact ⟨hs, ih _ hrest (hstep s i hs hg)⟩

/-- What follows from a property of all states of a run holds of all of them. -/
theorem Always.imp {P Q : σ → Prop} (h : ∀ s, P s → Q s) {is : List ι} {s : σ}
    (hp : Always step P s is) : Always step Q s is := by
  induction is generalizing s with
  | nil => exact h s hp
  | cons i is ih => exact ⟨h s hp.1, ih hp.2⟩

/-- In a run that always meets `P` all outputs are those of steps from `P`-states. -/
theorem outs_of_always {P : σ → Prop} {Q : ο → Prop} (h : ∀ s i, P s → Q (step s i).2) :
    ∀ (is : List ι) (s : σ), Always step P s is → ∀ o ∈ outs step s is, Q o := by
  intro is
  induction is with
  | nil =>
    intro s _ o ho
    cases ho
  | cons i is ih =>
    rintro s ⟨hs, hrest⟩ o ho
    rcases List.mem_cons.mp ho with rfl | ho
    · exact h s i hs
    · exact ih _ hrest o ho

/-- INVARIANT (guarded): what a step that meets the guard keeps, a run of such steps keeps. -/
theorem after_inv_along {I : σ → Prop} {G : σ → ι → Prop}
    (hstep : ∀ s i, I s → G s i → I (step s i).1) :
    ∀ (is : List ι) (s : σ), Along step G s is → I s → I (after step s is) := by
  intro is
  induction is with
  | nil =>
    intro s _ hs
    exact hs
  | cons i is ih =>
    rintro s ⟨hg, hrest⟩ hs
    exact ih _ hrest (hstep s i hs hg)

/-- The first state of a run that always meets `P` meets `P`. -/
theorem Always.first {P : σ → Prop} {is : List ι} {s : σ} (h : Always step P s is) : P s := by
  cases is with
  | nil => exact h
  | cons i is => exact h.1

/-- EXACT: let `I` hold throughout and let one step from a `P`-state end in a `P`-state exactly
    under the guard. Then a run stays in `P` exactly when each of its steps meets the guard. -/
theorem always_iff_along {I P : σ → Prop} {G : σ → ι → Prop}
    (hI : ∀ s i, I s → I (step s i).1)
    (hP : ∀ s i, I s → P s → (P (step s i).1 ↔ G s i)) :
    ∀ (is : List ι) (s : σ), I s → P s → (Always step P s is ↔ Along step G s is) := by
  intro is
  induction is with
  | nil => exact fun _ _ hp => iff_of_true hp trivial
  | cons i is ih =>
    intro s hi hp
    constructor
    · rintro ⟨_, hrest⟩
      have hnext := hrest.first
      exact ⟨(hP s i hi hp).mp hnext, (ih _ (hI s i hi) hnext).mp hrest⟩
    · rintro ⟨hg, hrest⟩
      have hnext := (hP s i hi hp).mpr hg
      exact ⟨hp, (ih _ (hI s i hi) hnext).mpr hrest⟩

/-- PROGRESS: let each step of the kind `c` bring the event `E` or lower the variant, and no other
    step raise it. Then a run with more steps of the kind than the variant brings the event. -/
theorem sometime_of_tally {I : σ → Prop} {G E : σ → ι → Prop} {c : σ → ι → Bool} {μ : σ → ℕ}
    (hI : ∀ s i, I s → G s i → I (step s i).1)
    (hgo : ∀ s i, I s → G s i → c s i = true → E s i ∨ μ (step s i).1 < μ s)
    (hidle : ∀ s i, I s → G s i → c s i = false → μ (step s i).1 ≤ μ s) :
    ∀ (is : List ι) (s : σ), I s → Along step G s is → μ s < tally step c s is →
      Sometime step E s is := by
  intro is
  induction is with
  | nil =>
    intro s _ _ hlt
    exact absurd hlt (Nat.not_lt_zero _)
  | cons i is ih =>
    rintro s hs ⟨hg, hrest⟩ hlt
    rw [tally] at hlt
    cases hc : c s i with
    | true =>
      rcases hgo s i hs hg hc with hevent | hdown
      · exact .inl hevent
      · rw [hc, Bool.toNat_true] at hlt
        exact .inr (ih _ (hI s i hs hg) hrest (by omega))
    | false =>
      have hle := hidle s i hs hg hc
      rw [hc, Bool.toNat_false] at hlt
      exact .inr (ih _ (hI s i hs hg) hrest (by omega))

/-- An event that no step from an `I`-state brings does not come. -/
theorem not_sometime {I : σ → Prop} {G E : σ → ι → Prop}
    (hI : ∀ s i, I s → G s i → I (step s i).1) (hno : ∀ s i, I s → G s i → ¬ E s i) :
    ∀ (is : List ι) (s : σ), I s → Along step G s is → ¬ Sometime step E s is := by
  intro is
  induction is with
  | nil => exact fun _ _ _ h => h
  | cons i is ih =>
    rintro s hs ⟨hg, hrest⟩ (hevent | hlater)
    · exact hno s i hs hg hevent
    · exact ih _ (hI s i hs hg) hrest hlater

/-- A guard that asks for `p` at certain steps asks for it exactly when there is such a step. -/
theorem along_imp_iff {E : σ → ι → Prop} {p : Prop} (is : List ι) (s : σ) :
    Along step (fun s i => E s i → p) s is ↔ (Sometime step E s is → p) := by
  induction is generalizing s with
  | nil => simp [Along, Sometime]
  | cons i is ih => rw [Along, Sometime, ih, or_imp]

/-- SIMULATION: if related states answer a guarded input alike and step to related states, then
    whole runs answer alike and end in related states. -/
theorem outs_sim {spec : τ → ι → τ × ο} {R : σ → τ → Prop} {G : σ → ι → Prop}
    (hsim : ∀ s t i, R s t → G s i →
      (step s i).2 = (spec t i).2 ∧ R (step s i).1 (spec t i).1) :
    ∀ (is : List ι) (s : σ) (t : τ), R s t → Along step G s is →
      outs step s is = outs spec t is ∧ R (after step s is) (after spec t is) := by
  intro is
  induction is with
  | nil => exact fun _ _ hr _ => ⟨rfl, hr⟩
  | cons i is ih =>
    rintro s t hr ⟨hg, hrest⟩
    obtain ⟨ho, hr'⟩ := hsim s t i hr hg
    obtain ⟨hos, hrs⟩ := ih _ _ hr' hrest
    exact ⟨by rw [outs_cons, outs_cons, ho, hos], hrs⟩

/-! ### Loops that stop -/

/-- Iterating `f` from `a` on leads through `P`-states to a `Q`-state. -/
def Until {α : Type*} (f : α → α) (P Q : α → Prop) (a : α) : Prop :=
  ∃ k, (∀ j < k, P (f^[j] a)) ∧ Q (f^[k] a)

theorem until_iff {α : Type*} {f : α → α} {P Q : α → Prop} {a : α} :
    Until f P Q a ↔ Q a ∨ P a ∧ Until f P Q (f a) := by
  constructor
  · rintro ⟨k, hpass, hlast⟩
    cases k with
    | zero => exact .inl hlast
    | succ k =>
      exact .inr ⟨hpass 0 k.succ_pos, k, fun j hj => hpass (j + 1) (Nat.succ_lt_succ hj), hlast⟩
  · rintro (hlast | ⟨hfirst, k, hpass, hlast⟩)
    · exact ⟨0, fun j hj => absurd hj j.not_lt_zero, hlast⟩
    · refine ⟨k + 1, fun j hj => ?_, hlast⟩
      cases j with
      | zero => exact hfirst
      | succ j => exact hpass j (Nat.lt_of_succ_lt_succ hj)

end Patterns.Run
