import Mathlib

/-! A stack of 32-bit words in a byte-addressed memory.

    Addresses are 32-bit and wrap; words lie with the low byte first. The stack grows down: a push
    moves the pointer by 4 and stores there. What was pushed can be read back from its place below
    the old pointer (`load_pushAll`), as long as the words fit into the address space.

        sp - 12   sp - 8   sp - 4   sp
        │ w₂      │ w₁     │ w₀     │            pushAll m sp [w₀, w₁, w₂] -/

namespace Patterns.Stack

/-- The bytes at all addresses. -/
abbrev Bytes := UInt32 → UInt8

/-- Byte `i` of a word, the lowest first. -/
def byteOf (v : UInt32) (i : ℕ) : UInt8 := UInt8.ofNat (v.toNat / 256 ^ i)

def store (m : Bytes) (a v : UInt32) : Bytes :=
  fun x => if (x - a).toNat < 4 then byteOf v (x - a).toNat else m x

def load (m : Bytes) (a : UInt32) : UInt32 :=
  UInt32.ofNat ((m a).toNat + 256 * (m (a + 1)).toNat + 256 ^ 2 * (m (a + 2)).toNat +
    256 ^ 3 * (m (a + 3)).toNat)

/-- The memory after a list of words has been pushed, the first one first. -/
def pushAll (m : Bytes) (sp : UInt32) : List UInt32 → Bytes
  | [] => m
  | w :: ws => pushAll (store m (sp - 4) w) (sp - 4) ws

/-- The pointer after `k` pushes. -/
def place (sp : UInt32) (k : ℕ) : UInt32 := sp - UInt32.ofNat (4 * k)

@[simp] theorem place_zero (sp : UInt32) : place sp 0 = sp := by
  simp [place]

/-- `j` words above the place of `k + j` words is that of `k`. -/
theorem place_add (sp : UInt32) (k j : ℕ) : place sp (k + j) + UInt32.ofNat (4 * j) = place sp k := by
  rw [place, place, Nat.mul_add, UInt32.ofNat_add, UInt32.sub_eq_add_neg, UInt32.neg_add,
    UInt32.sub_eq_add_neg, UInt32.sub_eq_add_neg, UInt32.add_assoc, UInt32.add_assoc,
    UInt32.add_left_neg, UInt32.add_zero]

theorem place_succ (sp : UInt32) (k : ℕ) : place sp k - 4 = place sp (k + 1) := by
  rw [← place_add sp k 1]
  exact UInt32.add_sub_cancel ..

/-- The place below a pointer that was already moved. -/
theorem place_sub_four (sp : UInt32) : ∀ k, place (sp - 4) k = place sp (k + 1)
  | 0 => by rw [place_zero, ← place_succ, place_zero]
  | k + 1 => by rw [← place_succ, place_sub_four sp k, place_succ]

theorem place_two (sp : UInt32) : place sp 2 = sp - 4 - 4 := by
  rw [← place_succ, ← place_succ, place_zero]

theorem byteOf_toNat (v : UInt32) (i : ℕ) : (byteOf v i).toNat = v.toNat / 256 ^ i % 256 := by
  rw [byteOf, UInt8.toNat_ofNat']

/-- Inside the word, a store is seen byte by byte. -/
theorem store_inside (m : Bytes) (a v : UInt32) {i : ℕ} (hi : i < 4) :
    store m a v (a + UInt32.ofNat i) = byteOf v i := by
  have hoff : (a + UInt32.ofNat i - a).toNat = i := by
    rw [UInt32.add_comm, UInt32.add_sub_cancel, UInt32.toNat_ofNat']
    omega
  rw [store, hoff, if_pos hi]

/-- … and above it, up to where addresses come round, not at all. -/
theorem store_above (m : Bytes) (a v : UInt32) {i : ℕ} (hi : 4 ≤ i) (hlt : i < 2 ^ 32) :
    store m a v (a + UInt32.ofNat i) = m (a + UInt32.ofNat i) := by
  have hoff : (a + UInt32.ofNat i - a).toNat = i := by
    rw [UInt32.add_comm, UInt32.add_sub_cancel, UInt32.toNat_ofNat']
    omega
  rw [store, hoff, if_neg (by omega)]

/-- A load depends on the four bytes only. -/
theorem load_congr {m m' : Bytes} {a : UInt32}
    (h : ∀ i < 4, m' (a + UInt32.ofNat i) = m (a + UInt32.ofNat i)) : load m' a = load m a := by
  have h0 : m' a = m a := by simpa using h 0 (by decide)
  have h1 : m' (a + 1) = m (a + 1) := h 1 (by decide)
  have h2 : m' (a + 2) = m (a + 2) := h 2 (by decide)
  have h3 : m' (a + 3) = m (a + 3) := h 3 (by decide)
  rw [load, load, h0, h1, h2, h3]

theorem load_store (m : Bytes) (a v : UInt32) : load (store m a v) a = v := by
  have h0 : store m a v a = byteOf v 0 := by simpa using store_inside m a v (i := 0) (by decide)
  have h1 : store m a v (a + 1) = byteOf v 1 := store_inside m a v (i := 1) (by decide)
  have h2 : store m a v (a + 2) = byteOf v 2 := store_inside m a v (i := 2) (by decide)
  have h3 : store m a v (a + 3) = byteOf v 3 := store_inside m a v (i := 3) (by decide)
  have hlt := v.toNat_lt
  apply UInt32.toNat_inj.mp
  rw [load, h0, h1, h2, h3, UInt32.toNat_ofNat']
  simp only [byteOf_toNat]
  omega

/-- FRAME: pushes leave what lies at the pointer and above it. -/
theorem pushAll_above (ws : List UInt32) : ∀ (m : Bytes) (sp : UInt32) {i : ℕ},
    i + 4 * ws.length < 2 ^ 32 → pushAll m sp ws (sp + UInt32.ofNat i) = m (sp + UInt32.ofNat i) := by
  induction ws with
  | nil => exact fun _ _ _ _ => rfl
  | cons w ws ih =>
    intro m sp i hi
    rw [List.length_cons] at hi
    have hsp : sp + UInt32.ofNat i = sp - 4 + UInt32.ofNat (i + 4) := by
      rw [UInt32.ofNat_add, UInt32.add_comm (UInt32.ofNat i), ← UInt32.add_assoc]
      congr 1
      exact (UInt32.sub_add_cancel sp 4).symm
    rw [pushAll, hsp, ih _ _ (by omega), store_above _ _ _ (by omega) (by omega)]

/-- READ BACK: the `k`-th word is found where it was pushed. -/
theorem load_pushAll (ws : List UInt32) : ∀ (m : Bytes) (sp : UInt32) {k : ℕ} {w : UInt32},
    4 * ws.length < 2 ^ 32 → ws[k]? = some w → load (pushAll m sp ws) (place sp (k + 1)) = w := by
  induction ws with
  | nil =>
    intro _ _ _ _ _ hw
    cases hw
  | cons w' ws ih =>
    intro m sp k w hlen hw
    rw [List.length_cons] at hlen
    rw [pushAll, ← place_sub_four]
    cases k with
    | zero =>
      -- the words pushed later lie below
      have habove : ∀ i < 4, pushAll (store m (sp - 4) w') (sp - 4) ws (sp - 4 + UInt32.ofNat i) =
          store m (sp - 4) w' (sp - 4 + UInt32.ofNat i) :=
        fun i hi => pushAll_above ws _ _ (by omega)
      rw [place_zero, load_congr habove, load_store]
      exact Option.some.inj hw
    | succ k => exact ih _ _ (by omega) hw

theorem pushAll_append (m : Bytes) (sp : UInt32) (ws ws' : List UInt32) :
    pushAll m sp (ws ++ ws') = pushAll (pushAll m sp ws) (place sp ws.length) ws' := by
  induction ws generalizing m sp with
  | nil => simp [pushAll]
  | cons w ws ih => rw [List.cons_append, pushAll, ih, pushAll, place_sub_four, List.length_cons]

end Patterns.Stack
