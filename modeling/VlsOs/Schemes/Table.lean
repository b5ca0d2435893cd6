import Mathlib

/-! Fixed-size tables addressed by an integer handle.

    A table with `n` slots is a function on `Fin n`. A handle comes in as an integer: `slot n id` is
    the bounds check every operation starts with. A new handle is the first slot that meets a
    test, found by a scan from slot `0`: `first`. A scan that starts elsewhere and goes once round
    the table is `firstFrom`; `turn start j` is when it gets to slot `j`. `count` is the number of
    slots that meet a test.

        start = 3, n = 5:    slot  0 1 2 3 4
                             turn  2 3 4 0 1 -/

namespace Patterns.Table

variable {n : ℕ}

/-- The slot an integer handle names, if it is in bounds. -/
def slot (n : ℕ) (id : ℤ) : Option (Fin n) :=
  if h : 0 ≤ id ∧ id < n then some ⟨id.toNat, by omega⟩ else none

theorem slot_eq_some {id : ℤ} {i : Fin n} : slot n id = some i ↔ id = i := by
  unfold slot
  split
  · rw [Option.some.injEq, Fin.ext_iff]
    dsimp only
    omega
  · have := i.isLt
    simp only [reduceCtorEq, false_iff]
    omega

@[simp] theorem slot_coe (i : Fin n) : slot n (i : ℤ) = some i := slot_eq_some.mpr rfl

theorem slot_eq_none {id : ℤ} : slot n id = none ↔ id < 0 ∨ n ≤ id := by
  unfold slot
  split
  · simp only [reduceCtorEq, false_iff]
    omega
  · simp only [true_iff]
    omega

/-- The first slot that meets the test. -/
def first (p : Fin n → Bool) : Option (Fin n) := (List.finRange n).find? p

theorem first_some {p : Fin n → Bool} {i : Fin n} (h : first p = some i) : p i = true :=
  List.find?_some h

theorem first_none {p : Fin n → Bool} : first p = none ↔ ∀ i, p i = false := by
  simp [first, List.find?_eq_none]

/-- The scan stops at the slot that meets the test with none before it. -/
theorem first_eq_some {p : Fin n → Bool} {i : Fin n} :
    first p = some i ↔ p i = true ∧ ∀ j < i, p j = false := by
  rw [first, List.find?_eq_some_iff_getElem]
  constructor
  · rintro ⟨hp, k, hk, hi, hbefore⟩
    rw [List.getElem_finRange] at hi
    refine ⟨hp, fun j hj => ?_⟩
    have hjk : j.val < k := by
      have hval := congrArg Fin.val hi
      rw [Fin.lt_def] at hj
      simp only [Fin.val_cast] at hval
      omega
    have hfail := hbefore j hjk
    rw [List.getElem_finRange] at hfail
    simpa using hfail
  · rintro ⟨hp, hbefore⟩
    refine ⟨hp, i, by simp, by simp, fun j hj => ?_⟩
    have hfail := hbefore ⟨j, hj.trans i.isLt⟩ hj
    simp [hfail]

/-! ### Going round the table -/

/-- The turn at which a scan from `start` gets to slot `j`. -/
def turn (start : ℕ) (j : Fin n) : ℕ := (j + (n - start % n)) % n

/-- The slot a scan from `start` looks at in turn `i`. -/
def atTurn [NeZero n] (start i : ℕ) : Fin n := ⟨(start + i) % n, Nat.mod_lt _ (NeZero.pos n)⟩

/-- The first slot that meets the test, going once round the table from `start`. -/
def firstFrom [NeZero n] (start : ℕ) (p : Fin n → Bool) : Option (Fin n) :=
  ((List.range n).map (atTurn start)).find? p

theorem atTurn_turn [NeZero n] (start : ℕ) (j : Fin n) : atTurn start (turn start j) = j := by
  have hn := NeZero.pos n
  have hs := Nat.mod_lt start hn
  have hround : start % n + (j + (n - start % n)) = j + n := by omega
  apply Fin.ext
  change (start + turn start j) % n = j
  rw [turn, Nat.add_mod_mod, ← Nat.mod_add_mod, hround, Nat.add_mod_right, Nat.mod_eq_of_lt j.isLt]

/-- Different slots have different turns. -/
theorem turn_inj [NeZero n] {start : ℕ} {j k : Fin n} (h : turn start j = turn start k) : j = k := by
  rw [← atTurn_turn start j, h, atTurn_turn]

theorem turn_atTurn [NeZero n] (start : ℕ) {i : ℕ} (hi : i < n) :
    turn start (atTurn (n := n) start i) = i := by
  have hs := Nat.mod_lt start (NeZero.pos n)
  have hround : start % n + i + (n - start % n) = i + n := by omega
  calc ((start + i) % n + (n - start % n)) % n
      = (start % n + i + (n - start % n)) % n := by
        rw [Nat.mod_add_mod, Nat.add_assoc, Nat.add_assoc, Nat.mod_add_mod]
    _ = i := by rw [hround, Nat.add_mod_right, Nat.mod_eq_of_lt hi]

/-- The scan stops at a slot that meets the test, and no other one comes earlier. -/
theorem firstFrom_some [NeZero n] {start : ℕ} {p : Fin n → Bool} {j : Fin n}
    (h : firstFrom start p = some j) : p j = true ∧ ∀ k, p k = true → turn start j ≤ turn start k := by
  rw [firstFrom, List.find?_map, Option.map_eq_some_iff] at h
  obtain ⟨i, hi, rfl⟩ := h
  obtain ⟨hp, hlt, hbefore⟩ := List.find?_range_eq_some.mp hi
  refine ⟨hp, fun k hk => ?_⟩
  rw [turn_atTurn start (List.mem_range.mp hlt)]
  by_contra hk'
  have hfail := hbefore _ (not_le.mp hk')
  rw [Function.comp_apply, atTurn_turn, hk] at hfail
  exact absurd hfail (by decide)

theorem firstFrom_none [NeZero n] {start : ℕ} {p : Fin n → Bool} :
    firstFrom start p = none ↔ ∀ j, p j = false := by
  constructor
  · intro h j
    have hmem : j ∈ (List.range n).map (atTurn start) :=
      List.mem_map.mpr ⟨turn start j, List.mem_range.mpr (Nat.mod_lt _ (NeZero.pos n)),
        atTurn_turn start j⟩
    simpa using List.find?_eq_none.mp h j hmem
  · intro h
    exact List.find?_eq_none.mpr fun j _ => by simp [h j]

/-! ### Turn by turn

    A scan that starts after the slot it stopped at goes on where it left off: the slots that were
    still to come are closer by as many turns as it made, and the slot it stopped at is last. -/

theorem turn_lt [NeZero n] (start : ℕ) (j : Fin n) : turn start j < n := Nat.mod_lt _ (NeZero.pos n)

theorem turn_mod (start : ℕ) (j : Fin n) : turn (start % n) j = turn start j := by
  rw [turn, turn, Nat.mod_mod]

/-- The turn of `j` is how far `j` lies ahead of the start. -/
theorem start_add_turn [NeZero n] (start : ℕ) (j : Fin n) : start + turn start j ≡ j [MOD n] := by
  have h := congrArg Fin.val (atTurn_turn start j)
  exact (Nat.mod_modEq _ _).symm.trans (by rw [← h]; rfl)

/-- A scan from after slot `c` makes the turns that a scan from `start` makes after `c`. -/
theorem turn_after [NeZero n] (start : ℕ) (c j : Fin n) :
    turn (c + 1) j = (turn start j + (n - 1 - turn start c)) % n := by
  have hc := turn_lt start c
  have hahead : turn (c + 1) j + (start + turn start c + 1) ≡
      turn start j + (n - 1 - turn start c) + (start + turn start c + 1) [MOD n] :=
    calc turn (c + 1) j + (start + turn start c + 1)
        ≡ turn (c + 1) j + (c + 1) [MOD n] :=
          ((start_add_turn start c).add_right 1).add_left _
      _ = c + 1 + turn (c + 1) j := Nat.add_comm ..
      _ ≡ j [MOD n] := start_add_turn ..
      _ ≡ start + turn start j [MOD n] := (start_add_turn start j).symm
      _ ≡ start + turn start j + n [MOD n] := (Nat.add_modEq_right ..).symm
      _ = turn start j + (n - 1 - turn start c) + (start + turn start c + 1) := by omega
  have hmod := Nat.ModEq.add_right_cancel' _ hahead
  rw [← Nat.mod_eq_of_lt (turn_lt (c + 1) j)]
  exact hmod

/-- The slot a scan stopped at comes last in the next one. -/
theorem turn_after_self [NeZero n] (c : Fin n) : turn (c + 1) c = n - 1 := by
  have hc := turn_lt 0 c
  rw [turn_after 0 c c, show turn 0 c + (n - 1 - turn 0 c) = n - 1 by omega]
  exact Nat.mod_eq_of_lt (by omega)

/-- How many slots of the set come before slot `i` in a scan from `start`. -/
def before (s : Finset (Fin n)) (start : ℕ) (i : Fin n) : ℕ :=
  (s.filter fun j => turn start j < turn start i).card

theorem before_lt_card {s : Finset (Fin n)} {i : Fin n} (hi : i ∈ s) (start : ℕ) :
    before s start i < s.card :=
  Finset.card_lt_card (Finset.filter_ssubset.mpr ⟨i, hi, Nat.lt_irrefl _⟩)

/-- VARIANT: a scan that stops at a slot of the set before it gets to `i` leaves one slot less
    before `i`. -/
theorem before_after_lt [NeZero n] {s : Finset (Fin n)} {start : ℕ} {c i : Fin n} (hc : c ∈ s)
    (hlt : turn start c < turn start i) : before s (c + 1) i < before s start i := by
  have hi := turn_lt start i
  have hnext : turn (c + 1) i = turn start i - turn start c - 1 := by
    rw [turn_after start c i, show turn start i + (n - 1 - turn start c) =
      turn start i - turn start c - 1 + n by omega, Nat.add_mod_right]
    exact Nat.mod_eq_of_lt (by omega)
  refine Finset.card_lt_card (Finset.ssubset_iff_of_subset ?_ |>.mpr ⟨c, ?_, ?_⟩)
  · intro j hj
    obtain ⟨hjs, hji⟩ := Finset.mem_filter.mp hj
    refine Finset.mem_filter.mpr ⟨hjs, ?_⟩
    have hj' := turn_lt start j
    rw [hnext, turn_after start c j] at hji
    -- a slot that `c` has passed by is now further away than `i`
    rcases Nat.lt_or_ge (turn start c) (turn start j) with hahead | hpassed
    · rw [show turn start j + (n - 1 - turn start c) = turn start j - turn start c - 1 + n by omega,
        Nat.add_mod_right, Nat.mod_eq_of_lt (by omega)] at hji
      omega
    · rw [Nat.mod_eq_of_lt (by omega)] at hji
      omega
  · exact Finset.mem_filter.mpr ⟨hc, hlt⟩
  · rw [Finset.mem_filter, turn_after_self, hnext]
    omega

/-! ### Counting slots -/

variable {α : Type*}

/-- How many slots meet the test. -/
def count (p : α → Bool) (t : Fin n → α) : ℕ := (Finset.univ.filter fun i => p (t i)).card

theorem count_le (p : α → Bool) (t : Fin n → α) : count p t ≤ n := by
  simpa only [count, Fintype.card_fin] using Finset.card_le_univ (Finset.univ.filter fun i => p (t i))

/-- A table that is not full has a slot left. -/
theorem exists_of_count_lt {p : α → Bool} {t : Fin n → α} (h : count p t < n) :
    ∃ i, p (t i) = false := by
  by_contra hnone
  have hall : (Finset.univ.filter fun i => p (t i)) = Finset.univ := by
    refine Finset.filter_true_of_mem fun i _ => ?_
    by_contra hi
    exact hnone ⟨i, Bool.eq_false_iff.mpr hi⟩
  rw [count, hall, Finset.card_univ, Fintype.card_fin] at h
  exact Nat.lt_irrefl n h

/-- A write moves the count by what the old and the new content of the slot contribute. -/
theorem count_update (p : α → Bool) (t : Fin n → α) (i : Fin n) (a : α) :
    count p (Function.update t i a) + (if p (t i) then 1 else 0) =
      count p t + (if p a then 1 else 0) := by
  have hcount : ∀ t : Fin n → α, count p t =
      (if p (t i) then 1 else 0) + ∑ j ∈ Finset.univ.erase i, if p (t j) then 1 else 0 := by
    intro t
    rw [count, Finset.card_filter]
    exact (Finset.add_sum_erase _ (fun j => if p (t j) then 1 else 0) (Finset.mem_univ i)).symm
  have hrest : ∑ j ∈ Finset.univ.erase i, (if p (Function.update t i a j) then 1 else 0) =
      ∑ j ∈ Finset.univ.erase i, if p (t j) then 1 else 0 := by
    refine Finset.sum_congr rfl fun j hj => ?_
    rw [Function.update_of_ne (Finset.ne_of_mem_erase hj)]
  rw [hcount (Function.update t i a), hcount t, hrest, Function.update_self]
  ring

end Patterns.Table
