import Mathlib

/-! Circular buffers.

    A ring keeps a queue in the cells `buf 0 … buf (cap - 1)`: the oldest element stands at `front`
    and the next ones follow it, back at cell `0` after cell `cap - 1`. `window buf cap front n` is
    the list of `n` elements a reader meets from `front` on. The lemmas say what the two queue
    operations do to that list: writing behind the window appends (`window_extend`), moving `front`
    past `k` elements drops them (`window_take`, `window_drop`).

        cells   0   1   2   3   4   5   6   7          cap = 8, front = 6, n = 4
                c   d   ·   ·   ·   ·   a   b          window = [a, b, c, d] -/

namespace Patterns.Ring

variable {α : Type*}

/-- The `n` elements from `front` on, in the order a reader meets them. -/
def window (buf : ℕ → α) (cap front n : ℕ) : List α :=
  (List.range n).map fun i => buf ((front + i) % cap)

@[simp] theorem length_window (buf : ℕ → α) (cap front n : ℕ) :
    (window buf cap front n).length = n := by simp [window]

@[simp] theorem window_zero (buf : ℕ → α) (cap front : ℕ) : window buf cap front 0 = [] := rfl

/-- Only the cell `front` stands for matters, not how often the ring was gone round before. -/
theorem window_mod (buf : ℕ → α) (cap front n : ℕ) :
    window buf cap (front % cap) n = window buf cap front n := by
  simp only [window, Nat.mod_add_mod]

/-- A window falls into a first part and the part behind it. -/
theorem window_add (buf : ℕ → α) (cap front n k : ℕ) :
    window buf cap front (n + k) = window buf cap front n ++ window buf cap (front + n) k := by
  simp only [window, List.range_add, List.map_append, List.map_map]
  congr 1
  refine List.map_congr_left fun i _ => ?_
  simp only [Function.comp_apply, Nat.add_assoc]

/-- The `k` oldest elements. -/
theorem window_take (buf : ℕ → α) (cap front : ℕ) {n k : ℕ} (hk : k ≤ n) :
    (window buf cap front n).take k = window buf cap front k := by
  obtain ⟨m, rfl⟩ := Nat.exists_eq_add_of_le hk
  rw [window_add, List.take_append_of_le_length (by simp), List.take_of_length_le (by simp)]

/-- Moving `front` past the `k` oldest elements drops them. -/
theorem window_drop (buf : ℕ → α) (cap front : ℕ) {n k : ℕ} (hk : k ≤ n) :
    (window buf cap front n).drop k = window buf cap (front + k) (n - k) := by
  obtain ⟨m, rfl⟩ := Nat.exists_eq_add_of_le hk
  rw [window_add, List.drop_append_of_le_length (by simp), List.drop_of_length_le (by simp),
    List.nil_append, Nat.add_sub_cancel_left]

/-- A window that does not pass the end of the cells is a run of neighbouring cells. -/
theorem window_straight (buf : ℕ → α) {cap front n : ℕ} (h : front + n ≤ cap) :
    window buf cap front n = (List.range n).map fun i => buf (front + i) := by
  refine List.map_congr_left fun i hi => ?_
  rw [List.mem_range] at hi
  rw [Nat.mod_eq_of_lt (by omega)]

/-- A window that passes the end of the cells: those up to the end, then those from cell `0` on. -/
theorem window_wrap (buf : ℕ → α) {cap front n : ℕ} (hf : front < cap) (hn : n ≤ cap)
    (h : cap - front ≤ n) :
    window buf cap front n = ((List.range (cap - front)).map fun i => buf (front + i)) ++
      (List.range (n - (cap - front))).map buf := by
  obtain ⟨k, rfl⟩ := Nat.exists_eq_add_of_le h
  rw [window_add, window_straight _ (by omega), ← window_mod _ _ (_ + _),
    Nat.add_sub_cancel' hf.le, Nat.mod_self, window_straight _ (by omega), Nat.add_sub_cancel_left]
  simp only [Nat.zero_add]

/-- Offsets below one full turn name different cells. -/
theorem mod_inj {cap front i j : ℕ} (hi : i < cap) (hj : j < cap)
    (h : (front + i) % cap = (front + j) % cap) : i = j := by
  have hmod : i % cap = j % cap := Nat.ModEq.add_left_cancel' front h
  rwa [Nat.mod_eq_of_lt hi, Nat.mod_eq_of_lt hj] at hmod

/-- Buffers that agree on the cells of a window have the same window. -/
theorem window_congr {buf buf' : ℕ → α} {cap front n : ℕ}
    (h : ∀ i < n, buf' ((front + i) % cap) = buf ((front + i) % cap)) :
    window buf' cap front n = window buf cap front n := by
  refine List.map_congr_left fun i hi => h i ?_
  simpa using hi

/-- APPEND: a write that leaves the `n` held elements alone and puts `xs` behind them turns the
    queue into itself followed by `xs`. -/
theorem window_extend {buf buf' : ℕ → α} {cap front n : ℕ} {xs : List α}
    (hold : ∀ i < n, buf' ((front + i) % cap) = buf ((front + i) % cap))
    (hnew : window buf' cap (front + n) xs.length = xs) :
    window buf' cap front (n + xs.length) = window buf cap front n ++ xs := by
  rw [window_add, window_congr hold, hnew]

/-- APPEND ONE: writing the free cell behind `n < cap` held elements. -/
theorem window_push {buf : ℕ → α} {cap front n : ℕ} (hn : n < cap) (x : α) :
    window (Function.update buf ((front + n) % cap) x) cap front (n + 1)
      = window buf cap front n ++ [x] := by
  have hold : ∀ i < n, Function.update buf ((front + n) % cap) x ((front + i) % cap)
      = buf ((front + i) % cap) := by
    intro i hi
    refine Function.update_of_ne (fun h => ?_) ..
    have := mod_inj (by omega) hn h
    omega
  have hnew : window (Function.update buf ((front + n) % cap) x) cap (front + n) [x].length
      = [x] := by simp [window]
  exact window_extend hold hnew

/-- APPEND MANY: `src 0 … src (k - 1)` go into the `k` cells behind the `n` held elements, all other
    cells keep what they had, and there is room. -/
theorem window_write {buf buf' src : ℕ → α} {cap front n k : ℕ} (hroom : n + k ≤ cap)
    (hput : ∀ j < k, buf' ((front + n + j) % cap) = src j)
    (hkeep : ∀ p < cap, (∀ j < k, p ≠ (front + n + j) % cap) → buf' p = buf p) :
    window buf' cap front (n + k) = window buf cap front n ++ (List.range k).map src := by
  have hold : ∀ i < n, buf' ((front + i) % cap) = buf ((front + i) % cap) := by
    intro i hi
    refine hkeep _ (Nat.mod_lt _ (by omega)) fun j hj h => ?_
    rw [Nat.add_assoc front n j] at h
    have := mod_inj (by omega) (by omega) h
    omega
  have hnew : window buf' cap (front + n) k = (List.range k).map src := by
    refine List.map_congr_left fun j hj => hput j ?_
    simpa using hj
  rw [window_add, window_congr hold, hnew]

/-- REMOVE ONE: the oldest element and the window behind it. -/
theorem window_pop (buf : ℕ → α) {cap front n : ℕ} (hf : front < cap) :
    window buf cap front (n + 1) = buf front :: window buf cap ((front + 1) % cap) n := by
  rw [Nat.add_comm n 1, window_add, window_mod]
  simp [window, Nat.mod_eq_of_lt hf]

end Patterns.Ring
