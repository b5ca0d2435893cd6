import VlsOs.Schemes.Run

/-! The kernel heap and its memory (`src/kernel/memory.c`).

    The allocator is a bump pointer: `malloc` hands out the bytes from `heap_ptr` on and moves the
    pointer up, `free` does nothing. Pointers and sizes are 32-bit words, so `heap_ptr + size` is a
    sum modulo `2 ^ 32` and a size close to `2 ^ 32` passes the limit test.

        heapStart                 heapPtr                      heapEnd
        ├──── handed out ─────────┼────── free ────────────────┤
                                  │ size ▶ │                      no wrap: test is right
                    ◀── size, past 2 ^ 32 ─┘                      wrap: test passes as well -/

namespace VlsOs.Memory
open Patterns.Run

/-! ### The allocator -/

def heapStart : UInt32 := 0x200000

def heapSize : UInt32 := 0x100000

def heapEnd : UInt32 := heapStart + heapSize

def null : UInt32 := 0

/-- The allocator's only state. -/
structure Heap where
  heapPtr : UInt32
  deriving DecidableEq

/-- `memory_init` points `heap_ptr` at the start of the heap, wherever it pointed before. -/
def memoryInit (_ : Heap) : Heap := ⟨heapStart⟩

def malloc (h : Heap) (size : UInt32) : UInt32 × Heap :=
  if h.heapPtr + size ≥ heapEnd then (null, h)
  else (h.heapPtr, ⟨h.heapPtr + size⟩)

def free (h : Heap) (_ptr : UInt32) : Heap := h

def vmalloc (h : Heap) (size : UInt32) : UInt32 × Heap := malloc h size

def vfree (h : Heap) (ptr : UInt32) : Heap := free h ptr

theorem heapStart_toNat : heapStart.toNat = 0x200000 := rfl

theorem heapEnd_toNat : heapEnd.toNat = 0x300000 := rfl

/-! ### Byte memory -/

/-- The 32-bit address space. -/
abbrev Mem := UInt32 → UInt8

/-- `memcpy (dest, src, n)`, with the source bytes given by index: `dest[i] = src[i]`, `i < n`. -/
def memcpy (m : Mem) (dest : UInt32) (src : ℕ → UInt8) : ℕ → Mem
  | 0 => m
  | n + 1 => Function.update (memcpy m dest src n) (dest + UInt32.ofNat n) (src n)

/-- Offsets below `2 ^ 32` from one base name different addresses. -/
theorem offset_inj {base : UInt32} {i j : ℕ} (hi : i < 2 ^ 32) (hj : j < 2 ^ 32)
    (h : base + UInt32.ofNat i = base + UInt32.ofNat j) : i = j := by
  have hij : UInt32.ofNat i = UInt32.ofNat j := (UInt32.add_right_inj base).mp h
  have := congrArg UInt32.toNat hij
  rwa [UInt32.toNat_ofNat_of_lt' hi, UInt32.toNat_ofNat_of_lt' hj] at this

/-- `memcpy` puts byte `i` of the source at `dest + i`. -/
theorem memcpy_at (m : Mem) (dest : UInt32) (src : ℕ → UInt8) :
    ∀ {n i : ℕ}, n ≤ 2 ^ 32 → i < n → memcpy m dest src n (dest + UInt32.ofNat i) = src i := by
  intro n
  induction n with
  | zero =>
    intro i _ hi
    exact absurd hi (Nat.not_lt_zero i)
  | succ n ih =>
    intro i hn hi
    rw [memcpy]
    rcases Nat.lt_succ_iff_lt_or_eq.mp hi with hlt | rfl
    · rw [Function.update_of_ne, ih (by omega) hlt]
      intro h
      have := offset_inj (by omega) (by omega) h
      omega
    · exact Function.update_self ..

/-- `memcpy` leaves every address outside `dest … dest + n - 1` alone. -/
theorem memcpy_frame (m : Mem) (dest : UInt32) (src : ℕ → UInt8) {a : UInt32} {n : ℕ}
    (h : ∀ i < n, a ≠ dest + UInt32.ofNat i) : memcpy m dest src n a = m a := by
  induction n with
  | zero => rfl
  | succ n ih =>
    rw [memcpy, Function.update_of_ne (h n (Nat.lt_succ_self n))]
    exact ih fun i hi => h i (Nat.lt_succ_of_lt hi)

/-- Byte `k` of the memory from `base` on. -/
def cells (m : Mem) (base : UInt32) (k : ℕ) : UInt8 := m (base + UInt32.ofNat k)

/-- The memory whose bytes from `base` on are the given ones. -/
def memFrom (base : UInt32) (bytes : ℕ → UInt8) : Mem := fun a => bytes (a - base).toNat

theorem add_offset (base off : UInt32) (k : ℕ) :
    base + off + UInt32.ofNat k = base + UInt32.ofNat (off.toNat + k) := by
  rw [UInt32.ofNat_add, UInt32.ofNat_toNat, UInt32.add_assoc]

/-- A copy to `base + off`, seen from `base`: the bytes `off … off + n - 1` are the source's. -/
theorem cells_memcpy_in {m : Mem} {base off : UInt32} {src : ℕ → UInt8} {n j : ℕ}
    (hn : n ≤ 2 ^ 32) (hj : j < n) :
    cells (memcpy m (base + off) src n) base (off.toNat + j) = src j := by
  rw [cells, ← add_offset, memcpy_at m _ src hn hj]

/-- … and all other bytes below `2 ^ 32` are what they were. -/
theorem cells_memcpy_out {m : Mem} {base off : UInt32} {src : ℕ → UInt8} {n k : ℕ}
    (hn : off.toNat + n ≤ 2 ^ 32) (hk : k < 2 ^ 32) (hout : k < off.toNat ∨ off.toNat + n ≤ k) :
    cells (memcpy m (base + off) src n) base k = cells m base k := by
  refine memcpy_frame m _ src fun i hi h => ?_
  rw [add_offset] at h
  have := offset_inj hk (by omega) h
  omega

/-- A copy to `base` itself reaches the first `n` bytes. -/
theorem cells_memcpy_start {m : Mem} {base : UInt32} {src : ℕ → UInt8} {n k : ℕ} (hn : n ≤ 2 ^ 32)
    (hk : k < 2 ^ 32) :
    cells (memcpy m base src n) base k = if k < n then src k else cells m base k := by
  have hbase : memcpy m base src n = memcpy m (base + 0) src n := by rw [UInt32.add_zero]
  rw [hbase]
  split
  · rename_i hlt
    have hin := @cells_memcpy_in m base 0 src n k hn hlt
    rwa [UInt32.toNat_zero, Nat.zero_add] at hin
  · rename_i hge
    exact cells_memcpy_out (by simpa using hn) hk (.inr (by simpa using hge))

/-! ### Runs of the allocator -/

/-- A block handed out: its first address and the size asked for. -/
structure Block where
  ptr : UInt32
  size : UInt32
  deriving DecidableEq

/-- The addresses of a block, counted without wrap-around. -/
def Block.cells (b : Block) : Set ℕ := Set.Ico b.ptr.toNat (b.ptr.toNat + b.size.toNat)

/-- What a heap must guarantee about the blocks it handed out: each lies inside the heap and no two
    share an address. -/
structure HeapSafe (bs : List Block) : Prop where
  inside : ∀ b ∈ bs, heapStart.toNat ≤ b.ptr.toNat ∧ b.ptr.toNat + b.size.toNat ≤ heapEnd.toNat
  apart : bs.Pairwise fun b c => Disjoint b.cells c.cells

inductive HeapOp where
  | malloc (size : UInt32)
  | vmalloc (size : UInt32)
  | free (ptr : UInt32)
  | vfree (ptr : UInt32)

/-- The size a call asks for, if it asks for memory. -/
def HeapOp.asks : HeapOp → Option UInt32
  | .malloc size => some size
  | .vmalloc size => some size
  | .free _ => none
  | .vfree _ => none

/-- The block a non-`NULL` result stands for. -/
def granted (size : UInt32) (r : UInt32 × Heap) : Heap × Option Block :=
  (r.2, if r.1 = null then none else some ⟨r.1, size⟩)

/-- One call: the new heap, and the block if the call returned one. -/
def heapStep (h : Heap) : HeapOp → Heap × Option Block
  | .malloc size => granted size (malloc h size)
  | .vmalloc size => granted size (vmalloc h size)
  | .free ptr => (free h ptr, none)
  | .vfree ptr => (vfree h ptr, none)

/-- The blocks a run hands out, oldest first. -/
def blocks (h : Heap) (ops : List HeapOp) : List Block := (outs heapStep h ops).filterMap id

/-- The call's address sum stays below `2 ^ 32`. -/
def NoWrap (h : Heap) (op : HeapOp) : Prop :=
  ∀ size, op.asks = some size → h.heapPtr.toNat + size.toNat < 2 ^ 32

/-- The bump pointer is inside the heap. -/
def HeapOk (h : Heap) : Prop :=
  heapStart.toNat ≤ h.heapPtr.toNat ∧ h.heapPtr.toNat < heapEnd.toNat

theorem heapOk_memoryInit (h : Heap) : HeapOk (memoryInit h) := by
  refine ⟨le_refl _, ?_⟩
  show heapStart.toNat < heapEnd.toNat
  decide

theorem malloc_wrap {h : Heap} {size : UInt32} (hok : HeapOk h)
    (hw : 2 ^ 32 ≤ h.heapPtr.toNat + size.toNat) :
    malloc h size = (h.heapPtr, ⟨h.heapPtr + size⟩) := by
  obtain ⟨-, hhi⟩ := hok
  rw [heapEnd_toNat] at hhi
  have hs := size.toNat_lt
  refine if_neg ?_
  rw [ge_iff_le, UInt32.le_iff_toNat_le, UInt32.toNat_add, heapEnd_toNat]
  omega

/-- What a call without wrap-around does: it fails and changes nothing, or it takes the bytes from
    the bump pointer on and stays inside the heap. -/
theorem malloc_cases {h : Heap} {size : UInt32}
    (hw : h.heapPtr.toNat + size.toNat < 2 ^ 32) :
    malloc h size = (null, h) ∨
      (malloc h size = (h.heapPtr, ⟨h.heapPtr + size⟩) ∧
        (h.heapPtr + size).toNat = h.heapPtr.toNat + size.toNat ∧
        h.heapPtr.toNat + size.toNat < heapEnd.toNat) := by
  have hsum : (h.heapPtr + size).toNat = h.heapPtr.toNat + size.toNat := by
    rw [UInt32.toNat_add, Nat.mod_eq_of_lt hw]
  by_cases hlim : h.heapPtr + size ≥ heapEnd
  · exact Or.inl (if_pos hlim)
  · refine Or.inr ⟨if_neg hlim, hsum, ?_⟩
    rw [ge_iff_le, UInt32.le_iff_toNat_le, hsum] at hlim
    omega

/-- A block that was granted starts at the bump pointer, which stands behind it afterwards. -/
theorem malloc_granted {h h' : Heap} {size ptr : UInt32} (hmalloc : malloc h size = (ptr, h'))
    (hptr : ptr ≠ null) : ptr = h.heapPtr ∧ h'.heapPtr = ptr + size := by
  unfold malloc at hmalloc
  split at hmalloc
  · exact absurd (Prod.mk.inj hmalloc).1.symm hptr
  · obtain ⟨rfl, rfl⟩ := Prod.mk.inj hmalloc
    exact ⟨rfl, rfl⟩

theorem heapPtr_ne_null {h : Heap} (hok : HeapOk h) : h.heapPtr ≠ null := by
  intro h0
  have hlo := hok.1
  rw [h0, heapStart_toNat] at hlo
  exact absurd hlo (by decide)

/-- A call either asks for memory, and is `malloc`, or it changes nothing. -/
theorem heapStep_cases (h : Heap) (op : HeapOp) :
    (∃ size, op.asks = some size ∧ heapStep h op = granted size (malloc h size)) ∨
      (op.asks = none ∧ heapStep h op = (h, none)) := by
  cases op with
  | malloc size => exact Or.inl ⟨size, rfl, rfl⟩
  | vmalloc size => exact Or.inl ⟨size, rfl, rfl⟩
  | free ptr => exact Or.inr ⟨rfl, rfl⟩
  | vfree ptr => exact Or.inr ⟨rfl, rfl⟩

/-- What one call without wrap-around does to a heap whose pointer is inside: no block and no
    change, or the block at the pointer, which then stands at the block's end, still inside. -/
theorem heapStep_noWrap {h : Heap} {op : HeapOp} (hok : HeapOk h) (hw : NoWrap h op) :
    heapStep h op = (h, none) ∨
      ∃ b : Block, heapStep h op = (⟨h.heapPtr + b.size⟩, some b) ∧ b.ptr = h.heapPtr ∧
        (h.heapPtr + b.size).toNat = b.ptr.toNat + b.size.toNat ∧
        HeapOk ⟨h.heapPtr + b.size⟩ := by
  rcases heapStep_cases h op with ⟨size, hasks, hstep⟩ | ⟨-, hstep⟩
  · rcases malloc_cases (hw size hasks) with hm | ⟨hm, hsum, hlim⟩
    · refine Or.inl ?_
      rw [hstep, hm, granted, if_pos rfl]
    · refine Or.inr ⟨⟨h.heapPtr, size⟩, ?_, rfl, hsum, ?_, ?_⟩
      · rw [hstep, hm, granted, if_neg (heapPtr_ne_null hok)]
      · rw [hsum]
        exact hok.1.trans (Nat.le_add_right ..)
      · rw [hsum]
        exact hlim
  · exact Or.inl hstep

theorem blocks_cons (h : Heap) (op : HeapOp) (ops : List HeapOp) :
    blocks h (op :: ops) = (heapStep h op).2.toList ++ blocks (heapStep h op).1 ops := by
  rw [blocks, outs_cons, List.filterMap_cons]
  cases (heapStep h op).2 with
  | none => rfl
  | some b => rfl

/-- Without wrap-around every block lies between the bump pointer the run starts from and the end
    of the heap. -/
theorem blocks_between (ops : List HeapOp) : ∀ h : Heap, HeapOk h →
    Along heapStep NoWrap h ops → ∀ b ∈ blocks h ops,
      h.heapPtr.toNat ≤ b.ptr.toNat ∧ b.ptr.toNat + b.size.toNat ≤ heapEnd.toNat := by
  induction ops with
  | nil =>
    intro h _ _ b hb
    simp [blocks] at hb
  | cons op ops ih =>
    rintro h hok ⟨hw, hrest⟩ b hb
    rw [blocks_cons] at hb
    rcases heapStep_noWrap hok hw with hs | ⟨c, hs, hc, hsum, hok'⟩
    · rw [hs] at hb hrest
      exact ih h hok hrest b (by simpa using hb)
    · rw [hs] at hb hrest
      rcases List.mem_append.mp hb with hb | hb
      · obtain rfl : b = c := by simpa using hb
        rw [← hsum, hc]
        exact ⟨le_refl _, hok'.2.le⟩
      · obtain ⟨hlo, hhi⟩ := ih _ hok' hrest b hb
        refine ⟨le_trans ?_ hlo, hhi⟩
        rw [hsum, hc]
        exact Nat.le_add_right ..

/-- Without wrap-around no two blocks share an address: later ones start where earlier ones end. -/
theorem blocks_apart (ops : List HeapOp) : ∀ h : Heap, HeapOk h →
    Along heapStep NoWrap h ops → (blocks h ops).Pairwise fun b c => Disjoint b.cells c.cells := by
  induction ops with
  | nil => exact fun _ _ _ => List.Pairwise.nil
  | cons op ops ih =>
    rintro h hok ⟨hw, hrest⟩
    rw [blocks_cons]
    rcases heapStep_noWrap hok hw with hs | ⟨b, hs, -, hsum, hok'⟩
    · rw [hs] at hrest ⊢
      simpa using ih h hok hrest
    · rw [hs] at hrest ⊢
      refine List.pairwise_cons.mpr ⟨fun c hc => ?_, ih _ hok' hrest⟩
      have hlo := (blocks_between ops _ hok' hrest c hc).1
      rw [hsum] at hlo
      refine Set.disjoint_left.mpr fun a ha hac => ?_
      exact absurd (ha.2.trans_le hlo) (Nat.not_lt.mpr hac.1)

/-- Blocks that are all inside the heap rule out a wrap-around in the first call: a call that wraps
    hands out a block past the end. -/
theorem noWrap_of_granted {h : Heap} {op : HeapOp} (hok : HeapOk h)
    (hin : ∀ b ∈ (heapStep h op).2.toList, b.ptr.toNat + b.size.toNat ≤ heapEnd.toNat) :
    NoWrap h op := by
  intro size hasks
  by_contra hge
  rcases heapStep_cases h op with ⟨size', hasks', hstep⟩ | ⟨hnone, -⟩
  · obtain rfl : size' = size := Option.some.inj (hasks'.symm.trans hasks)
    rw [malloc_wrap hok (by omega), granted, if_neg (heapPtr_ne_null hok)] at hstep
    have hend : h.heapPtr.toNat + size'.toNat ≤ heapEnd.toNat :=
      hin ⟨h.heapPtr, size'⟩ (by rw [hstep]; simp)
    rw [heapEnd_toNat] at hend
    omega
  · rw [hnone] at hasks
    cases hasks

/-- The other direction, for whole runs. -/
theorem noWrap_of_inside (ops : List HeapOp) : ∀ h : Heap, HeapOk h →
    (∀ b ∈ blocks h ops, b.ptr.toNat + b.size.toNat ≤ heapEnd.toNat) →
      Along heapStep NoWrap h ops := by
  induction ops with
  | nil => exact fun _ _ _ => trivial
  | cons op ops ih =>
    intro h hok hin
    rw [blocks_cons] at hin
    have hw : NoWrap h op := noWrap_of_granted hok fun b hb => hin b (List.mem_append_left _ hb)
    refine ⟨hw, ?_⟩
    rcases heapStep_noWrap hok hw with hs | ⟨b, hs, -, -, hok'⟩
    · rw [hs] at hin ⊢
      exact ih h hok fun c hc => hin c (by simpa using hc)
    · rw [hs] at hin ⊢
      exact ih _ hok' fun c hc => hin c (List.mem_append_right _ hc)

/-- EXACT: after `memory_init`, the blocks of a run of `malloc`, `vmalloc`, `free` and `vfree`
    calls are inside the heap and pairwise disjoint if and only if no call's address sum passes
    `2 ^ 32`. -/
theorem heapSafe_iff_noWrap (h : Heap) (ops : List HeapOp) :
    HeapSafe (blocks (memoryInit h) ops) ↔ Along heapStep NoWrap (memoryInit h) ops := by
  have hok := heapOk_memoryInit h
  constructor
  · intro hsafe
    exact noWrap_of_inside ops _ hok fun b hb => (hsafe.inside b hb).2
  · intro hw
    exact ⟨blocks_between ops _ hok hw, blocks_apart ops _ hok hw⟩

/-- A size of `2 ^ 32 - 0x100` winds the pointer back, and the third block is the first one again:
    three calls after `memory_init` whose blocks are neither inside the heap nor disjoint. -/
theorem heap_blocks_overlap :
    ¬ ∀ (h : Heap) (ops : List HeapOp), HeapSafe (blocks (memoryInit h) ops) := by
  intro hall
  have hsafe := hall ⟨0⟩ [.malloc 0x100, .malloc 0xFFFFFF00, .malloc 0x100]
  have hblocks : blocks (memoryInit ⟨0⟩) [.malloc 0x100, .malloc 0xFFFFFF00, .malloc 0x100]
      = [⟨0x200000, 0x100⟩, ⟨0x200100, 0xFFFFFF00⟩, ⟨0x200000, 0x100⟩] := by decide
  rw [hblocks] at hsafe
  have hend := (hsafe.inside ⟨0x200100, 0xFFFFFF00⟩ (by simp)).2
  exact absurd hend (by decide)

end VlsOs.Memory
