import Mathlib

/-! A byte stream that lies in blocks of one size.

    `stretch f p k` is the run of `k` elements of a stream `f` from position `p` on. A stream in
    blocks of `b` elements has its position `q` at place `q % b` of block `q / b`: `blockwise`. A
    stretch that stays in one block is read from that block alone, and the blocks laid end to end
    are the stream.

        block    0         1         2
                ├─────────┼─────────┼─────────┤
        stretch      ├──────────┤
                     p        p + k -/

namespace Patterns.Blocks

variable {α : Type*}

/-- The `k` elements of the stream from position `p` on. -/
def stretch (f : ℕ → α) (p k : ℕ) : List α := (List.range k).map fun i => f (p + i)

@[simp] theorem length_stretch (f : ℕ → α) (p k : ℕ) : (stretch f p k).length = k := by
  simp [stretch]

@[simp] theorem stretch_zero (f : ℕ → α) (p : ℕ) : stretch f p 0 = [] := rfl

/-- Two stretches that meet are one. -/
theorem stretch_append (f : ℕ → α) (p j k : ℕ) :
    stretch f p j ++ stretch f (p + j) k = stretch f p (j + k) := by
  simp only [stretch, List.range_add, List.map_append, List.map_map, Function.comp_def,
    Nat.add_assoc]

theorem stretch_succ (f : ℕ → α) (p k : ℕ) : stretch f p (k + 1) = f p :: stretch f (p + 1) k := by
  rw [Nat.add_comm, ← stretch_append]
  rfl

/-- A stretch that is known in two parts is known in each of them. -/
theorem stretch_eq_append {f : ℕ → α} {p k : ℕ} {a b : List α}
    (h : stretch f p k = a ++ b) :
    stretch f p a.length = a ∧ stretch f (p + a.length) b.length = b := by
  have hk : k = a.length + b.length := by
    have := congrArg List.length h
    simpa using this
  rw [hk, ← stretch_append] at h
  exact List.append_inj h (length_stretch ..)

/-- A list read as a stream. -/
theorem stretch_getD (l : List α) (d : α) : stretch (fun i => l.getD i d) 0 l.length = l := by
  refine List.ext_getElem (length_stretch ..) fun i hi hl => ?_
  simp [stretch, List.getElem?_eq_getElem hl]

theorem stretch_take (f : ℕ → α) (p k j : ℕ) :
    (stretch f p k).take j = stretch f p (min j k) := by
  simp only [stretch, ← List.map_take, List.take_range]

theorem stretch_drop (f : ℕ → α) (p k j : ℕ) :
    (stretch f p k).drop j = stretch f (p + j) (k - j) := by
  rcases Nat.le_total j k with hle | hle
  · obtain ⟨r, rfl⟩ := Nat.exists_eq_add_of_le hle
    rw [← stretch_append, List.drop_left' (length_stretch f p j), Nat.add_sub_cancel_left]
  · rw [List.drop_eq_nil_of_le (by simpa using hle), Nat.sub_eq_zero_of_le hle, stretch_zero]

theorem stretch_congr {f g : ℕ → α} {p q k : ℕ} (h : ∀ i, i < k → f (p + i) = g (q + i)) :
    stretch f p k = stretch g q k :=
  List.map_congr_left fun i hi => h i (List.mem_range.mp hi)

/-- The stream whose position `q` is place `q % b` of block `q / b`. -/
def blockwise (b : ℕ) (block : ℕ → ℕ → α) (q : ℕ) : α := block (q / b) (q % b)

/-- A stretch inside one block. -/
theorem stretch_in_block {b p k : ℕ} (block : ℕ → ℕ → α) (h : p % b + k ≤ b) :
    stretch (blockwise b block) p k = stretch (block (p / b)) (p % b) k := by
  refine stretch_congr fun i hi => ?_
  have hlt : p % b + i < b := by omega
  have hsplit : p + i = b * (p / b) + (p % b + i) := by
    rw [← Nat.add_assoc, Nat.div_add_mod]
  rw [blockwise, hsplit, Nat.mul_add_div (by omega), Nat.div_eq_of_lt hlt, Nat.mul_add_mod,
    Nat.mod_eq_of_lt hlt, Nat.add_zero]

/-- Blocks laid end to end are the stream. -/
theorem flatMap_blocks (b : ℕ) (block : ℕ → ℕ → α) (m : ℕ) :
    ((List.range m).flatMap fun i => stretch (block i) 0 b) =
      stretch (blockwise b block) 0 (b * m) := by
  induction m with
  | zero => rfl
  | succ m ih =>
    rcases Nat.eq_zero_or_pos b with rfl | hb
    · simp
    · have hblock : stretch (blockwise b block) (b * m) b = stretch (block m) 0 b := by
        rw [stretch_in_block block (by rw [Nat.mul_mod_right, Nat.zero_add]), Nat.mul_mod_right,
          Nat.mul_div_cancel_left _ hb]
      rw [List.range_succ, List.flatMap_append, ih, Nat.mul_succ,
        ← stretch_append, Nat.zero_add, hblock]
      simp

end Patterns.Blocks
