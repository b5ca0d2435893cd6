import VlsOs.Schemes.Ring
import VlsOs.Kernel.Ipc

/-! A message queue is a bounded FIFO of bytes.

    `queueStep id` runs one call on queue `id`; `byteStep cap` is the same call on a list of at most
    `cap` bytes. The list is the window of the ring in the queue's buffer, from `front` on and `size`
    long; `rear` is where it ends. A copy that meets the end of the buffer is split in two:

        send, n > max_size - rear        recv, n > max_size - front
        ├── second ──┤    ├─ first ─┤    ├── second ──┤    ├─ first ─┤
        0                 rear           0                 front       max_size -/

namespace VlsOs.Ipc
open Patterns.Run Patterns.Ring Patterns.Table VlsOs.Memory VlsOs.Libc

/-- One call on a queue, with non-`NULL` data pointers. -/
inductive QueueOp where
  | send (data : ℕ → UInt8) (dataSize : UInt32)
  | recv (maxSize : UInt32)
  | size

/-- What a call returns, and the bytes it copied out. -/
structure QueueOut where
  ret : ℤ
  bytes : List UInt8
  deriving DecidableEq

/-- One call on queue `id`; an output `none` is a division fault. -/
def queueStep (id : ℤ) (s : IpcState) : QueueOp → IpcState × Option QueueOut
  | .send data n =>
    match ipcQueueSend s id (some data) n with
    | some (r, s') => (s', some ⟨r, []⟩)
    | none => (s, none)
  | .recv n =>
    match ipcQueueRecv s id true n with
    | some (r, bytes, s') => (s', some ⟨r, bytes⟩)
    | none => (s, none)
  | .size => (s, some ⟨(ipcQueueSize s id).toNat, []⟩)

/-- The same call on a list of at most `cap` bytes. -/
def byteStep (cap : ℕ) (q : List UInt8) : QueueOp → List UInt8 × Option QueueOut
  | .send data n =>
    if q.length + n.toNat ≤ cap then (q ++ (List.range n.toNat).map data, some ⟨0, []⟩)
    else (q, some ⟨-1, []⟩)
  | .recv n =>
    let k := min n.toNat q.length
    (q.drop k, some ⟨k, q.take k⟩)
  | .size => (q, some ⟨q.length, []⟩)

/-- The sum the space test of `send` computes stays below `2 ^ 32`. -/
def SendFits (i : Fin ipcMaxPipes) (s : IpcState) : QueueOp → Prop
  | .send _ n => (s.queues i).size.toNat + n.toNat < 2 ^ 32
  | _ => True

instance (i : Fin ipcMaxPipes) (s : IpcState) : ∀ op, Decidable (SendFits i s op)
  | .send _ _ => Nat.decLt ..
  | .recv _ => isTrue trivial
  | .size => isTrue trivial

/-- The bytes a queue holds, oldest first. -/
def queueView (s : IpcState) (i : Fin ipcMaxPipes) : List UInt8 :=
  window (cells s.mem (s.queues i).buffer) (s.queues i).maxSize.toNat (s.queues i).front.toNat
    (s.queues i).size.toNat

/-- The ring invariant of a live queue of capacity `cap`. -/
structure QueueOk (cap : ℕ) (q : IpcQueue) : Prop where
  live : q.inUse = true
  max : q.maxSize.toNat = cap
  small : cap < 2 ^ 31
  front : q.front.toNat < cap
  fits : q.size.toNat ≤ cap
  rear : q.rear.toNat = (q.front.toNat + q.size.toNat) % cap

theorem QueueOk.maxSize_ne_zero {cap : ℕ} {q : IpcQueue} (h : QueueOk cap q) : q.maxSize ≠ 0 := by
  intro h0
  have h1 := h.max
  have h2 := h.front
  rw [h0, UInt32.toNat_zero] at h1
  omega

theorem QueueOk.rear_lt {cap : ℕ} {q : IpcQueue} (h : QueueOk cap q) : q.rear.toNat < cap := by
  have := h.front
  rw [h.rear]
  exact Nat.mod_lt _ (by omega)

/-- The distance from a position inside the buffer to its end. -/
theorem QueueOk.space {cap : ℕ} {q : IpcQueue} (h : QueueOk cap q) {p : UInt32}
    (hp : p.toNat < cap) : (q.maxSize - p).toNat = cap - p.toNat := by
  have hmax := h.max
  rw [UInt32.toNat_sub_of_le _ _ (UInt32.le_iff_toNat_le.mpr (by omega)), hmax]

/-! ### Send -/

/-- The bytes stand in the `n` cells from `rear` on, round the end of a buffer of `cap` cells if need
    be, and the other cells of the buffer are untouched. -/
structure RingWritten (m m' : Mem) (base : UInt32) (rear n cap : ℕ) (data : ℕ → UInt8) : Prop where
  put : ∀ j < n, cells m' base ((rear + j) % cap) = data j
  keep : ∀ p < cap, (∀ j < n, p ≠ (rear + j) % cap) → cells m' base p = cells m base p

section Copies
variable {m : Mem} {base rear : UInt32} {n cap : ℕ} {data : ℕ → UInt8}

/-- One copy, for bytes that end before the buffer does. -/
theorem ringWritten_one (hcap : cap < 2 ^ 31) (hn : rear.toNat + n ≤ cap) :
    RingWritten m (memcpy m (base + rear) data n) base rear.toNat n cap data := by
  constructor
  · intro j hj
    rw [Nat.mod_eq_of_lt (by omega)]
    exact cells_memcpy_in (by omega) hj
  · intro p hp hne
    refine cells_memcpy_out (by omega) (by omega) ?_
    by_contra hin
    refine hne (p - rear.toNat) (by omega) ?_
    rw [Nat.mod_eq_of_lt (by omega)]
    omega

/-- Two copies: up to the end of the buffer, then the rest from its start on. -/
theorem ringWritten_two (hcap : cap < 2 ^ 31) (hrear : rear.toNat < cap) (hn : n ≤ cap)
    (hwrap : cap - rear.toNat < n) :
    RingWritten m
      (memcpy (memcpy m (base + rear) data (cap - rear.toNat)) base
        (fun k => data (cap - rear.toNat + k)) (n - (cap - rear.toNat)))
      base rear.toNat n cap data := by
  have hround : ∀ j, cap - rear.toNat ≤ j → j ≤ n →
      (rear.toNat + j) % cap = j - (cap - rear.toNat) := by
    intro j hlo hhi
    rw [Nat.mod_eq_sub_mod (by omega), Nat.mod_eq_of_lt (by omega)]
    omega
  constructor
  · intro j hj
    by_cases hfirst : j < cap - rear.toNat
    · rw [Nat.mod_eq_of_lt (by omega), cells_memcpy_start (by omega) (by omega),
        if_neg (by omega)]
      exact cells_memcpy_in (by omega) hfirst
    · rw [hround j (by omega) (by omega), cells_memcpy_start (by omega) (by omega),
        if_pos (by omega), Nat.add_sub_cancel' (by omega)]
  · intro p hp hne
    have hlow : n - (cap - rear.toNat) ≤ p := by
      by_contra hin
      refine hne (p + (cap - rear.toNat)) (by omega) ?_
      rw [hround _ (by omega) (by omega)]
      omega
    have hhigh : p < rear.toNat := by
      by_contra hin
      refine hne (p - rear.toNat) (by omega) ?_
      rw [Nat.mod_eq_of_lt (by omega)]
      omega
    rw [cells_memcpy_start (by omega) (by omega), if_neg (by omega),
      cells_memcpy_out (by omega) (by omega) (.inl hhigh)]

end Copies

/-- What an accepted `send` leaves behind, whichever way it copied. -/
structure Stored (s s' : IpcState) (i : Fin ipcMaxPipes) (data : ℕ → UInt8) (n cap : ℕ) :
    Prop where
  same : (s'.queues i).inUse = true ∧ (s'.queues i).buffer = (s.queues i).buffer ∧
    (s'.queues i).maxSize = (s.queues i).maxSize ∧ (s'.queues i).front = (s.queues i).front
  rear : (s'.queues i).rear.toNat = ((s.queues i).rear.toNat + n) % cap
  size : (s'.queues i).size.toNat = (s.queues i).size.toNat + n
  written : RingWritten s.mem s'.mem (s.queues i).buffer (s.queues i).rear.toNat n cap data

theorem send_rejects {s : IpcState} {i : Fin ipcMaxPipes} {cap : ℕ}
    (h : QueueOk cap (s.queues i)) (data : ℕ → UInt8) {n : UInt32}
    (hsum : (s.queues i).size.toNat + n.toNat < 2 ^ 32)
    (hfull : cap < (s.queues i).size.toNat + n.toNat) :
    ipcQueueSend s i (some data) n = some (-1, s) := by
  have hlim : (s.queues i).size + n > (s.queues i).maxSize := by
    rw [gt_iff_lt, UInt32.lt_iff_toNat_lt, UInt32.toNat_add, Nat.mod_eq_of_lt hsum, h.max]
    exact hfull
  simp only [ipcQueueSend, slot_coe, h.live, Bool.not_true, Bool.false_eq_true, if_false,
    if_pos hlim]

theorem send_stores {s : IpcState} {i : Fin ipcMaxPipes} {cap : ℕ}
    (h : QueueOk cap (s.queues i)) (data : ℕ → UInt8) {n : UInt32}
    (hroom : (s.queues i).size.toNat + n.toNat ≤ cap) :
    ∃ s', ipcQueueSend s i (some data) n = some (0, s') ∧ Stored s s' i data n.toNat cap := by
  have hsmall := h.small
  have hrear := h.rear_lt
  have hspace := h.space hrear
  have hsize : ((s.queues i).size + n).toNat = (s.queues i).size.toNat + n.toNat := by
    rw [UInt32.toNat_add]; omega
  have hlim : ¬ (s.queues i).size + n > (s.queues i).maxSize := by
    rw [gt_iff_lt, UInt32.lt_iff_toNat_lt, hsize, h.max]; omega
  simp only [ipcQueueSend, slot_coe, h.live, Bool.not_true, Bool.false_eq_true, if_false,
    if_neg hlim]
  by_cases hend : n ≤ (s.queues i).maxSize - (s.queues i).rear
  · rw [if_pos hend, if_neg h.maxSize_ne_zero]
    rw [UInt32.le_iff_toNat_le, hspace] at hend
    refine ⟨_, rfl, ?_, ?_, ?_, ringWritten_one hsmall (by omega)⟩
    · rw [setQueue_queues_self]
      exact ⟨rfl, rfl, rfl, rfl⟩
    · rw [setQueue_queues_self, UInt32.toNat_mod, UInt32.toNat_add, h.max,
        Nat.mod_eq_of_lt (by omega : (s.queues i).rear.toNat + n.toNat < 2 ^ 32)]
    · rw [setQueue_queues_self]
      exact hsize
  · rw [if_neg hend]
    rw [UInt32.le_iff_toNat_le, hspace] at hend
    have hrest : (n - ((s.queues i).maxSize - (s.queues i).rear)).toNat
        = n.toNat - (cap - (s.queues i).rear.toNat) := by
      rw [UInt32.toNat_sub_of_le _ _ (UInt32.le_iff_toNat_le.mpr (by omega)), hspace]
    refine ⟨_, rfl, ?_, ?_, ?_, ?_⟩
    · rw [setQueue_queues_self]
      exact ⟨rfl, rfl, rfl, rfl⟩
    · rw [setQueue_queues_self, hrest, Nat.mod_eq_sub_mod (by omega), Nat.mod_eq_of_lt (by omega)]
      omega
    · rw [setQueue_queues_self]
      exact hsize
    · rw [setQueue_mem, hspace, hrest]
      exact ringWritten_two hsmall hrear (by omega) (by omega)

theorem send_agrees {s : IpcState} {i : Fin ipcMaxPipes} {cap : ℕ}
    (h : QueueOk cap (s.queues i)) (data : ℕ → UInt8) (n : UInt32)
    (hfit : SendFits i s (.send data n)) :
    (queueStep i s (.send data n)).2 = (byteStep cap (queueView s i) (.send data n)).2 ∧
      QueueOk cap ((queueStep i s (.send data n)).1.queues i) ∧
      queueView (queueStep i s (.send data n)).1 i
        = (byteStep cap (queueView s i) (.send data n)).1 := by
  have hlen : (queueView s i).length = (s.queues i).size.toNat := length_window ..
  by_cases hroom : (s.queues i).size.toNat + n.toNat ≤ cap
  · obtain ⟨s', hsend, ⟨hlive, hbuf, hmax, hfront⟩, hrear, hsize, hwritten⟩ :=
      send_stores h data hroom
    simp only [queueStep, byteStep, hsend, hlen, if_pos hroom]
    refine ⟨trivial, ⟨hlive, by rw [hmax]; exact h.max, h.small, by rw [hfront]; exact h.front,
      by rw [hsize]; exact hroom, ?_⟩, ?_⟩
    · rw [hrear, hfront, hsize, h.rear, Nat.mod_add_mod, Nat.add_assoc]
    · rw [queueView, queueView, hbuf, hmax, hfront, hsize, h.max]
      -- cell `rear + j` is cell `front + size + j`, once round the ring
      have hcell : ∀ j, ((s.queues i).rear.toNat + j) % cap
          = ((s.queues i).front.toNat + (s.queues i).size.toNat + j) % cap := by
        intro j; rw [h.rear, Nat.mod_add_mod]
      refine window_write hroom (fun j hj => ?_) fun p hp hne => ?_
      · rw [← hcell]
        exact hwritten.put j hj
      · exact hwritten.keep p hp fun j hj => by rw [hcell]; exact hne j hj
  · simp only [queueStep, byteStep, send_rejects h data hfit (by omega), hlen, if_neg hroom]
    exact ⟨trivial, h, trivial⟩

/-! ### Receive -/

theorem bytesAt_eq (m : Mem) (base off : UInt32) (n : ℕ) :
    bytesAt m (base + off) n = (List.range n).map fun k => cells m base (off.toNat + k) := by
  refine List.map_congr_left fun k _ => ?_
  rw [cells, add_offset]

theorem bytesAt_base (m : Mem) (base : UInt32) (n : ℕ) :
    bytesAt m base n = (List.range n).map (cells m base) := rfl

/-- How many bytes a `recv` hands over. -/
theorem readSize_toNat (n size : UInt32) :
    (if n < size then n else size).toNat = min n.toNat size.toNat := by
  split
  · rename_i hlt
    exact (Nat.min_eq_left (Nat.le_of_lt (UInt32.lt_iff_toNat_lt.mp hlt))).symm
  · rename_i hge
    exact (Nat.min_eq_right (UInt32.le_iff_toNat_le.mp (UInt32.not_lt.mp hge))).symm

/-- What a `recv` of `k` bytes does, whichever way it copied: it hands over the `k` oldest bytes and
    moves `front` past them. -/
theorem recv_takes {s : IpcState} {i : Fin ipcMaxPipes} {cap : ℕ}
    (h : QueueOk cap (s.queues i)) (n : UInt32) (hne : (s.queues i).size ≠ 0) :
    ∃ q : IpcQueue, ipcQueueRecv s i true n
        = some (((min n.toNat (s.queues i).size.toNat : ℕ) : ℤ),
            window (cells s.mem (s.queues i).buffer) cap (s.queues i).front.toNat
              (min n.toNat (s.queues i).size.toNat), s.setQueue i q) ∧
      (q.inUse = true ∧ q.buffer = (s.queues i).buffer ∧ q.maxSize = (s.queues i).maxSize ∧
        q.rear = (s.queues i).rear) ∧
      q.front.toNat = ((s.queues i).front.toNat + min n.toNat (s.queues i).size.toNat) % cap ∧
      q.size.toNat = (s.queues i).size.toNat - min n.toNat (s.queues i).size.toNat := by
  have hsmall := h.small
  have hfits := h.fits
  have hfront := h.front
  have hspace := h.space hfront
  have hk := readSize_toNat n (s.queues i).size
  simp only [ipcQueueRecv, slot_coe, h.live, Bool.not_true, Bool.false_eq_true, if_false,
    if_neg hne]
  generalize (if n < (s.queues i).size then n else (s.queues i).size) = k at hk ⊢
  rw [← hk]
  have hkle : k.toNat ≤ (s.queues i).size.toNat := by omega
  have hint : cInt k = (k.toNat : ℤ) := cInt_of_lt (by omega)
  have hsize : ((s.queues i).size - k).toNat = (s.queues i).size.toNat - k.toNat :=
    UInt32.toNat_sub_of_le _ _ (UInt32.le_iff_toNat_le.mpr hkle)
  by_cases hend : k ≤ (s.queues i).maxSize - (s.queues i).front
  · rw [if_pos hend, if_neg h.maxSize_ne_zero, hint]
    rw [UInt32.le_iff_toNat_le, hspace] at hend
    refine ⟨{ s.queues i with
      inUse := true
      front := ((s.queues i).front + k) % (s.queues i).maxSize
      size := (s.queues i).size - k }, ?_, ⟨rfl, rfl, rfl, rfl⟩, ?_, hsize⟩
    · rw [bytesAt_eq, window_straight _ (by omega)]
    · rw [UInt32.toNat_mod, UInt32.toNat_add, h.max,
        Nat.mod_eq_of_lt (by omega : (s.queues i).front.toNat + k.toNat < 2 ^ 32)]
  · rw [if_neg hend, hint]
    rw [UInt32.le_iff_toNat_le, hspace] at hend
    have hrest : (k - ((s.queues i).maxSize - (s.queues i).front)).toNat
        = k.toNat - (cap - (s.queues i).front.toNat) := by
      rw [UInt32.toNat_sub_of_le _ _ (UInt32.le_iff_toNat_le.mpr (by omega)), hspace]
    refine ⟨{ s.queues i with
      inUse := true
      front := k - ((s.queues i).maxSize - (s.queues i).front)
      size := (s.queues i).size - k }, ?_, ⟨rfl, rfl, rfl, rfl⟩, ?_, hsize⟩
    · rw [bytesAt_eq, bytesAt_base, hspace, hrest, window_wrap _ hfront (by omega) (by omega)]
    · rw [hrest, Nat.mod_eq_sub_mod (by omega), Nat.mod_eq_of_lt (by omega)]
      omega

theorem recv_agrees {s : IpcState} {i : Fin ipcMaxPipes} {cap : ℕ}
    (h : QueueOk cap (s.queues i)) (n : UInt32) :
    (queueStep i s (.recv n)).2 = (byteStep cap (queueView s i) (.recv n)).2 ∧
      QueueOk cap ((queueStep i s (.recv n)).1.queues i) ∧
      queueView (queueStep i s (.recv n)).1 i = (byteStep cap (queueView s i) (.recv n)).1 := by
  have hlen : (queueView s i).length = (s.queues i).size.toNat := length_window ..
  by_cases hne : (s.queues i).size = 0
  · have hnil : queueView s i = [] := by rw [queueView, hne]; rfl
    have hrecv : ipcQueueRecv s i true n = some (0, [], s) := by
      simp only [ipcQueueRecv, slot_coe, h.live, Bool.not_true, Bool.false_eq_true, if_false,
        if_pos hne]
    simp only [queueStep, byteStep, hrecv, hnil, List.length_nil, Nat.min_zero, List.drop_nil,
      List.take_nil, Nat.cast_zero]
    exact ⟨trivial, h, trivial⟩
  · obtain ⟨q, hrecv, ⟨hlive, hbuf, hmax, hrear⟩, hfront, hsize⟩ := recv_takes h n hne
    have hkle := Nat.min_le_right n.toNat (s.queues i).size.toNat
    have hfits := h.fits
    have hcap : cap > 0 := by have := h.front; omega
    simp only [queueStep, byteStep, hrecv, hlen]
    refine ⟨?_, ?_, ?_⟩
    · rw [queueView, h.max, window_take _ _ _ hkle]
    · rw [setQueue_queues_self]
      refine ⟨hlive, by rw [hmax]; exact h.max, h.small,
        by rw [hfront]; exact Nat.mod_lt _ hcap, by omega, ?_⟩
      rw [hrear, h.rear, hfront, hsize, Nat.mod_add_mod]
      congr 1; omega
    · rw [queueView, queueView, setQueue_queues_self, setQueue_mem, hbuf, hmax, hfront, hsize,
        h.max, window_mod, window_drop _ _ _ hkle]

/-! ### Runs -/

theorem queueStep_agrees {s : IpcState} {i : Fin ipcMaxPipes} {cap : ℕ}
    (h : QueueOk cap (s.queues i)) (op : QueueOp) (hfit : SendFits i s op) :
    (queueStep i s op).2 = (byteStep cap (queueView s i) op).2 ∧
      QueueOk cap ((queueStep i s op).1.queues i) ∧
      queueView (queueStep i s op).1 i = (byteStep cap (queueView s i) op).1 := by
  cases op with
  | send data n => exact send_agrees h data n hfit
  | recv n => exact recv_agrees h n
  | size =>
    refine ⟨?_, h, rfl⟩
    simp only [queueStep, byteStep, ipcQueueSize, slot_coe, h.live, Bool.not_true,
      Bool.false_eq_true, if_false, queueView, length_window]

/-- A `send` that returns `-1` leaves tables, heap and memory as they were. -/
theorem send_failed {s : IpcState} {id : ℤ} {data : ℕ → UInt8} {n : UInt32}
    (h : (queueStep id s (.send data n)).2 = some ⟨-1, []⟩) :
    (queueStep id s (.send data n)).1 = s := by
  have hsend : ∀ s', ipcQueueSend s id (some data) n = some (-1, s') → s' = s := by
    intro s' hs
    cases hslot : slot ipcMaxPipes id with
    | none =>
      simp only [ipcQueueSend, hslot, Option.some.injEq, Prod.mk.injEq] at hs
      exact hs.2.symm
    | some i =>
      simp only [ipcQueueSend, hslot] at hs
      split_ifs at hs
      · simpa using hs.symm
      · simpa using hs.symm
      · simp at hs
      · simp at hs
  simp only [queueStep] at h ⊢
  split at h
  · rename_i r s' heq
    obtain rfl : r = -1 := by simpa using h
    exact hsend s' heq
  · exact absurd h (by simp)

/-- A fresh queue is empty and meets the ring invariant. -/
theorem create_ok {s s' : IpcState} {size : UInt32} {i : Fin ipcMaxPipes}
    (hc : ipcQueueCreate s size = ((i : ℤ), s')) (hlo : 1 ≤ size.toNat) (hhi : size < heapSize) :
    QueueOk size.toNat (s'.queues i) ∧ queueView s' i = [] := by
  have hsmall : size.toNat < 2 ^ 31 :=
    lt_trans (UInt32.lt_iff_toNat_lt.mp hhi) (by decide)
  have hneg : (i : ℤ) ≠ -1 := by omega
  unfold ipcQueueCreate at hc
  split at hc
  · exact absurd (congrArg Prod.fst hc).symm hneg
  · rename_i j _
    split at hc
    rename_i buffer heap _
    by_cases hnull : buffer = null
    · rw [if_pos hnull] at hc
      exact absurd (congrArg Prod.fst hc).symm hneg
    · rw [if_neg hnull, Prod.mk.injEq] at hc
      obtain ⟨hi, rfl⟩ := hc
      obtain rfl : j = i := by
        rw [Fin.ext_iff]; exact_mod_cast hi
      rw [queueView, setQueue_queues_self]
      exact ⟨⟨rfl, rfl, hsmall, hlo, Nat.zero_le _, by simp⟩, rfl⟩

/-- CORRECT: a queue created with `1 ≤ size < heapSize` answers every run of `send`, `recv` and
    `size` calls whose space test does not overflow as a list of at most `size` bytes does, and
    holds that list; a `send` that returns `-1` changes nothing at all. -/
theorem queue_is_byte_fifo {s s' : IpcState} {size : UInt32} {i : Fin ipcMaxPipes}
    (hc : ipcQueueCreate s size = ((i : ℤ), s')) (hlo : 1 ≤ size.toNat) (hhi : size < heapSize)
    (ops : List QueueOp) (hfit : Along (queueStep i) (SendFits i) s' ops) :
    outs (queueStep i) s' ops = outs (byteStep size.toNat) [] ops ∧
    queueView (after (queueStep i) s' ops) i = after (byteStep size.toNat) [] ops ∧
    (after (byteStep size.toNat) [] ops).length ≤ size.toNat ∧
    ∀ data n, let r := queueStep i (after (queueStep i) s' ops) (.send data n)
      r.2 = some ⟨-1, []⟩ → r.1 = after (queueStep i) s' ops := by
  obtain ⟨hok, hnil⟩ := create_ok hc hlo hhi
  have hsim : ∀ (s : IpcState) (q : List UInt8) (op : QueueOp),
      (QueueOk size.toNat (s.queues i) ∧ queueView s i = q) → SendFits i s op →
      (queueStep i s op).2 = (byteStep size.toNat q op).2 ∧
        (QueueOk size.toNat ((queueStep i s op).1.queues i) ∧
          queueView (queueStep i s op).1 i = (byteStep size.toNat q op).1) := by
    rintro s q op ⟨hok, rfl⟩ hf
    exact queueStep_agrees hok op hf
  obtain ⟨houts, hok', hview⟩ := outs_sim hsim ops s' [] ⟨hok, hnil⟩ hfit
  refine ⟨houts, hview, ?_, ?_⟩
  · rw [← hview, queueView, length_window]; exact hok'.fits
  · intro data n r hret
    exact send_failed hret

/-- The theorem on a queue of four bytes whose second message goes round the end of the buffer. -/
theorem queue_run_round_the_end :
    outs (queueStep (0 : Fin ipcMaxPipes)) (ipcQueueCreate bootIpc 4).2
      [.send (fun k => UInt8.ofNat (k + 1)) 3, .recv 2, .send (fun k => UInt8.ofNat (k + 11)) 3,
        .send (fun _ => 0) 1, .recv 9, .size]
    = [some ⟨0, []⟩, some ⟨2, [1, 2]⟩, some ⟨0, []⟩, some ⟨-1, []⟩, some ⟨4, [3, 11, 12, 13]⟩,
        some ⟨0, []⟩] := by
  have hc : ipcQueueCreate bootIpc 4
      = (((0 : Fin ipcMaxPipes) : ℤ), (ipcQueueCreate bootIpc 4).2) := Prod.ext (by decide) rfl
  have hrun := queue_is_byte_fifo hc (by decide) (by decide)
    [.send (fun k => UInt8.ofNat (k + 1)) 3, .recv 2, .send (fun k => UInt8.ofNat (k + 11)) 3,
      .send (fun _ => 0) 1, .recv 9, .size]
    (by decide)
  exact hrun.1.trans (by decide)

end VlsOs.Ipc
