import Mathlib

/-! Computations that record what they do.

    A `Traced ε α` is a result together with the list of events of type `ε` on the way to it, in
    order; running one computation after another appends the lists. `All P` says that every event
    meets `P`, and it is computed along the program: a sequence meets `P` exactly when both parts
    do, the second one started from the result of the first. A counting loop is `loop`; its rule
    carries an invariant that depends on the counter.

        x : events e₀ … eₖ, result a  ──▶  f a : events eₖ₊₁ … eₙ, result b
        └──────────── x >>= f : events e₀ … eₙ, result b ────────────────┘ -/

namespace Patterns.Trace

/-- A result and the events on the way to it. -/
structure Traced (ε α : Type) where
  val : α
  events : List ε

variable {ε α β : Type}

instance : Monad (Traced ε) where
  pure a := ⟨a, []⟩
  bind x f := ⟨(f x.val).val, x.events ++ (f x.val).events⟩

/-- Record one event. -/
def emit (e : ε) : Traced ε Unit := ⟨(), [e]⟩

/-- Every event on the way meets `P`. -/
def All (P : ε → Prop) (x : Traced ε α) : Prop := ∀ e ∈ x.events, P e

@[simp] theorem val_pure (a : α) : (pure a : Traced ε α).val = a := rfl

@[simp] theorem val_bind (x : Traced ε α) (f : α → Traced ε β) :
    (x >>= f).val = (f x.val).val := rfl

@[simp] theorem events_pure (a : α) : (pure a : Traced ε α).events = [] := rfl

@[simp] theorem events_emit (e : ε) : (emit e).events = [e] := rfl

@[simp] theorem events_bind (x : Traced ε α) (f : α → Traced ε β) :
    (x >>= f).events = x.events ++ (f x.val).events := rfl

theorem pure_then (a : α) (f : α → Traced ε β) : (pure a : Traced ε α) >>= f = f a := rfl

/-- How a computation is cut into parts does not matter. -/
theorem then_assoc {γ : Type} (x : Traced ε α) (f : α → Traced ε β) (g : β → Traced ε γ) :
    x >>= f >>= g = x >>= fun a => f a >>= g :=
  congrArg (Traced.mk _) (List.append_assoc x.events (f x.val).events (g (f x.val).val).events)

/-- What a computation goes on with matters only at its result. -/
theorem then_congr {x : Traced ε α} {f g : α → Traced ε β} (h : f x.val = g x.val) :
    x >>= f = x >>= g :=
  congrArg (fun y : Traced ε β => (⟨y.val, x.events ++ y.events⟩ : Traced ε β)) h

@[simp] theorem all_pure (P : ε → Prop) (a : α) : All P (pure a : Traced ε α) := by
  intro e he
  cases he

@[simp] theorem all_emit {P : ε → Prop} {e : ε} : All P (emit e) ↔ P e := by
  simp [All, emit]

/-- SEQUENCE: the events of `x >>= f` are those of `x` and then those of `f` at its result. -/
@[simp] theorem all_bind {P : ε → Prop} {x : Traced ε α} {f : α → Traced ε β} :
    All P (x >>= f) ↔ All P x ∧ All P (f x.val) := by
  constructor
  · intro h
    exact ⟨fun e he => h e (List.mem_append_left _ he), fun e he => h e (List.mem_append_right _ he)⟩
  · rintro ⟨hx, hf⟩ e he
    rcases List.mem_append.mp he with hmem | hmem
    · exact hx e hmem
    · exact hf e hmem

/-- BRANCH: only the branch taken counts. -/
theorem all_ite {P : ε → Prop} {c : Prop} {_ : Decidable c} {x y : Traced ε α} :
    All P (if c then x else y) ↔ (c → All P x) ∧ (¬c → All P y) := by
  by_cases hc : c <;> simp [hc]

/-- The same computation with its events under other names. -/
def relabel {δ : Type} (f : ε → δ) (x : Traced ε α) : Traced δ α := ⟨x.val, x.events.map f⟩

@[simp] theorem val_relabel {δ : Type} (f : ε → δ) (x : Traced ε α) : (relabel f x).val = x.val := rfl

/-! ### Counting loops -/

/-- The body at `0`, …, `n - 1`, each from the result of the one before. -/
def loop (body : ℕ → α → Traced ε α) : ℕ → α → Traced ε α
  | 0, a => pure a
  | n + 1, a => loop body n a >>= body n

/-- Every event of a loop meets `P` exactly when those of each turn do, at what it starts from. -/
theorem all_loop {P : ε → Prop} {body : ℕ → α → Traced ε α} {a : α} {n : ℕ} :
    All P (loop body n a) ↔ ∀ i < n, All P (body i (loop body i a).val) := by
  induction n with
  | zero => simp [loop]
  | succ n ih =>
    rw [loop, all_bind, ih]
    simp only [Nat.forall_lt_succ_right]

/-- LOOP: let the body at `i` take an `I i`-state to an `I (i + 1)`-state with events that meet `P`.
    Then the loop takes an `I 0`-state to an `I n`-state with such events. -/
theorem loop_rule {I : ℕ → α → Prop} {P : ε → Prop} {body : ℕ → α → Traced ε α} :
    ∀ {n : ℕ} {a : α}, (∀ i a, i < n → I i a → I (i + 1) (body i a).val ∧ All P (body i a)) →
      I 0 a → I n (loop body n a).val ∧ All P (loop body n a) := by
  intro n
  induction n with
  | zero =>
    intro a _ h0
    exact ⟨h0, all_pure P a⟩
  | succ n ih =>
    intro a hbody h0
    obtain ⟨hI, hall⟩ := ih (fun i a hi => hbody i a (Nat.lt_succ_of_lt hi)) h0
    obtain ⟨hI', hall'⟩ := hbody n _ (Nat.lt_succ_self n) hI
    exact ⟨hI', all_bind.mpr ⟨hall, hall'⟩⟩

/-- LOOP, for the state alone. -/
theorem loop_state {I : ℕ → α → Prop} {body : ℕ → α → Traced ε α} {n : ℕ} {a : α}
    (hbody : ∀ i a, i < n → I i a → I (i + 1) (body i a).val) (h0 : I 0 a) :
    I n (loop body n a).val :=
  (loop_rule (P := fun _ => True) (fun i a hi h => ⟨hbody i a hi h, fun _ _ => trivial⟩) h0).1

end Patterns.Trace
