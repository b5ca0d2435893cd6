import VlsOs.Kernel.Queue

/-! The queue table is 32 independent byte FIFOs in one memory.

    All queues keep their bytes in the same memory, in blocks of the bump allocator, and other code
    takes blocks of the same heap between the calls. `tableStep` runs one call on the tables of
    `ipc.c`, or one such block of other code; `bytesStep` is the same on a table of lists, with the
    number of bytes that the heap has left.

        heap   ├─ queue 3 ─┤─ other ─┤──── queue 0 ────┤─ (destroyed) ─┤···· room ····┤
                                                                        heapPtr

    `free` gives nothing back: the room only shrinks, also when a queue is destroyed. -/

namespace VlsOs.Ipc
open Patterns.Run Patterns.Ring Patterns.Table VlsOs.Memory

/-- A call on the queues with any id, or other code that takes a block of the heap and fills it. -/
inductive TableOp where
  | create (size : UInt32)
  | destroy (queueId : ℤ)
  | call (queueId : ℤ) (op : QueueOp)
  | other (size : UInt32) (bytes : ℕ → UInt8)

def tableStep (s : IpcState) : TableOp → IpcState × Option QueueOut
  | .create size => ((ipcQueueCreate s size).2, some ⟨(ipcQueueCreate s size).1, []⟩)
  | .destroy id => ((ipcQueueDestroy s id).2, some ⟨(ipcQueueDestroy s id).1, []⟩)
  | .call id op => queueStep id s op
  | .other size bytes =>
    let (block, heap) := malloc s.heap size
    if block = null then (s, some ⟨-1, []⟩)
    else ({ s with heap, mem := memcpy s.mem block bytes size.toNat }, some ⟨0, []⟩)

/-! ### The abstract table -/

structure ByteQueue where
  cap : ℕ
  bytes : List UInt8

/-- Each slot is free or a queue with its capacity and its bytes, oldest first; `room` is what the
    heap has left. -/
structure ByteTable where
  queues : Fin ipcMaxPipes → Option ByteQueue
  room : ℕ

/-- The queue that a handle names. -/
def ByteTable.named (t : ByteTable) (id : ℤ) : Option (Fin ipcMaxPipes × ByteQueue) :=
  (slot ipcMaxPipes id).bind fun i => (t.queues i).map fun q => (i, q)

def ByteTable.set (t : ByteTable) (i : Fin ipcMaxPipes) (q : Option ByteQueue) : ByteTable :=
  { t with queues := Function.update t.queues i q }

/-- What a call on no queue returns. -/
def absent : QueueOp → QueueOut
  | .send _ _ => ⟨-1, []⟩
  | .recv _ => ⟨-1, []⟩
  | .size => ⟨0, []⟩

def bytesStep (t : ByteTable) : TableOp → ByteTable × Option QueueOut
  | .create size =>
    match first fun i => (t.queues i).isNone with
    | none => (t, some ⟨-1, []⟩)
    | some i =>
      if size.toNat < t.room then
        ({ t.set i (some ⟨size.toNat, []⟩) with room := t.room - size.toNat }, some ⟨i, []⟩)
      else (t, some ⟨-1, []⟩)
  | .destroy id =>
    match t.named id with
    | some (i, _) => (t.set i none, some ⟨0, []⟩)
    | none => (t, some ⟨-1, []⟩)
  | .call id op =>
    match t.named id with
    | some (i, q) =>
      (t.set i (some { q with bytes := (byteStep q.cap q.bytes op).1 }), (byteStep q.cap q.bytes op).2)
    | none => (t, some (absent op))
  | .other size _ =>
    if size.toNat < t.room then ({ t with room := t.room - size.toNat }, some ⟨0, []⟩)
    else (t, some ⟨-1, []⟩)

/-- The table after `memory_init` and `ipc_init`. -/
def noQueues : ByteTable := ⟨fun _ => none, heapSize.toNat⟩

/-! ### The relation between the two -/

/-- What the tables and the memory stand for. -/
def tableView (s : IpcState) : ByteTable where
  queues i :=
    if (s.queues i).inUse then some ⟨(s.queues i).maxSize.toNat, queueView s i⟩ else none
  room := heapEnd.toNat - s.heap.heapPtr.toNat

/-- The block that a queue keeps its bytes in. -/
def IpcQueue.block (q : IpcQueue) : Block := ⟨q.buffer, q.maxSize⟩

/-- `b` ends before `c` starts, or the other way round. -/
def Apart (b c : Block) : Prop :=
  b.ptr.toNat + b.size.toNat ≤ c.ptr.toNat ∨ c.ptr.toNat + c.size.toNat ≤ b.ptr.toNat

/-- The live queues are rings in blocks that the heap has handed out, no two of which overlap. -/
structure QueuesOk (s : IpcState) : Prop where
  heap : HeapOk s.heap
  ring : ∀ i, (s.queues i).inUse = true → QueueOk (s.queues i).maxSize.toNat (s.queues i)
  inside : ∀ i, (s.queues i).inUse = true → heapStart.toNat ≤ (s.queues i).buffer.toNat ∧
    (s.queues i).buffer.toNat + (s.queues i).maxSize.toNat ≤ s.heap.heapPtr.toNat
  apart : ∀ i j, i ≠ j → (s.queues i).inUse = true → (s.queues j).inUse = true →
    Apart (s.queues i).block (s.queues j).block

/-- The sums of the call stay below `2 ^ 32`, and no queue of size `0` is made. -/
def CallFits (s : IpcState) : TableOp → Prop
  | .create size => 1 ≤ size.toNat ∧ s.heap.heapPtr.toNat + size.toNat < 2 ^ 32
  | .destroy _ => True
  | .call id op => ∀ i, slot ipcMaxPipes id = some i → (s.queues i).inUse = true → SendFits i s op
  | .other size _ => s.heap.heapPtr.toNat + size.toNat < 2 ^ 32

instance (s : IpcState) : ∀ op, Decidable (CallFits s op)
  | .create _ => inferInstanceAs (Decidable (_ ∧ _))
  | .destroy _ => isTrue trivial
  | .call _ _ => inferInstanceAs (Decidable (∀ _ : Fin ipcMaxPipes, _ → _ → _))
  | .other _ _ => Nat.decLt ..

/-! ### What is written where -/

/-- Only bytes of the block differ. -/
def WritesIn (b : Block) (m m' : Mem) : Prop :=
  ∀ a : UInt32, a.toNat < b.ptr.toNat ∨ b.ptr.toNat + b.size.toNat ≤ a.toNat → m' a = m a

theorem WritesIn.refl (b : Block) (m : Mem) : WritesIn b m m := fun _ _ => rfl

theorem WritesIn.trans {b : Block} {m₁ m₂ m₃ : Mem} (h : WritesIn b m₁ m₂) (h' : WritesIn b m₂ m₃) :
    WritesIn b m₁ m₃ := fun a ha => (h' a ha).trans (h a ha)

/-- The address of a byte of a block, counted without wrap-around. -/
theorem toNat_offset {p : UInt32} {k : ℕ} (h : p.toNat + k < 2 ^ 32) :
    (p + UInt32.ofNat k).toNat = p.toNat + k := by
  have hk : k < 2 ^ 32 := by omega
  rw [UInt32.toNat_add, UInt32.toNat_ofNat_of_lt' hk, Nat.mod_eq_of_lt h]

/-- A copy of `n` bytes to `off` in a block that they fit. -/
theorem writesIn_memcpy {b : Block} {off : UInt32} {n : ℕ} (hblock : b.ptr.toNat + b.size.toNat < 2 ^ 32)
    (hfit : off.toNat + n ≤ b.size.toNat) (m : Mem) (src : ℕ → UInt8) :
    WritesIn b m (memcpy m (b.ptr + off) src n) := by
  intro a ha
  refine memcpy_frame m _ src fun k hk hak => ?_
  rw [add_offset] at hak
  rw [hak, toNat_offset (by omega)] at ha
  omega

/-- … and one to its start. -/
theorem writesIn_memcpy_start {b : Block} {n : ℕ} (hblock : b.ptr.toNat + b.size.toNat < 2 ^ 32)
    (hfit : n ≤ b.size.toNat) (m : Mem) (src : ℕ → UInt8) : WritesIn b m (memcpy m b.ptr src n) := by
  have h := @writesIn_memcpy b 0 n hblock (by simpa using hfit) m src
  rwa [UInt32.add_zero] at h

/-- A queue whose block lies apart from what is written keeps its bytes. -/
theorem queueView_of_apart {s s' : IpcState} {i : Fin ipcMaxPipes} {b : Block} {cap : ℕ}
    (hring : QueueOk cap (s.queues i)) (hsame : s'.queues i = s.queues i)
    (hend : (s.queues i).buffer.toNat + cap < 2 ^ 32) (hapart : Apart (s.queues i).block b)
    (hmem : WritesIn b s.mem s'.mem) : queueView s' i = queueView s i := by
  have hmax := hring.max
  have hpos : 0 < cap := Nat.zero_lt_of_lt hring.front
  rw [queueView, queueView, hsame, hmax]
  refine window_congr fun k hk => hmem _ ?_
  have hlt := Nat.mod_lt ((s.queues i).front.toNat + k) hpos
  rw [toNat_offset (by omega)]
  simp only [Apart, IpcQueue.block] at hapart
  omega

/-! ### Calls on one queue -/

/-- A call changes the queue it names and bytes of its block, and nothing else. -/
structure StaysIn (s s' : IpcState) (i : Fin ipcMaxPipes) : Prop where
  heap : s'.heap = s.heap
  others : ∀ j, j ≠ i → s'.queues j = s.queues j
  block : (s'.queues i).block = (s.queues i).block
  mem : WritesIn (s.queues i).block s.mem s'.mem

theorem StaysIn.refl (s : IpcState) (i : Fin ipcMaxPipes) : StaysIn s s i :=
  ⟨rfl, fun _ _ => rfl, rfl, .refl _ _⟩

theorem staysIn_setQueue (s : IpcState) (i : Fin ipcMaxPipes) {m : Mem} {q : IpcQueue}
    (hblock : q.block = (s.queues i).block) (hmem : WritesIn (s.queues i).block s.mem m) :
    StaysIn s ({ s with mem := m }.setQueue i q) i where
  heap := rfl
  others _ hj := Function.update_of_ne hj ..
  block := by rw [setQueue_queues_self, hblock]
  mem := hmem

theorem send_staysIn {s : IpcState} {i : Fin ipcMaxPipes} {cap : ℕ} (h : QueueOk cap (s.queues i))
    (hend : (s.queues i).buffer.toNat + cap < 2 ^ 32) (data : ℕ → UInt8) {n : UInt32}
    (hfit : SendFits i s (.send data n)) : StaysIn s (queueStep i s (.send data n)).1 i := by
  have hmax := h.max
  have hrear := h.rear_lt
  have hspace := h.space hrear
  have hblock : (s.queues i).block.ptr.toNat + (s.queues i).block.size.toNat < 2 ^ 32 := by
    simpa only [IpcQueue.block, hmax] using hend
  have hsize : (s.queues i).block.size.toNat = cap := hmax
  simp only [queueStep, ipcQueueSend, slot_coe, h.live, Bool.not_true, Bool.false_eq_true, if_false]
  by_cases hfull : (s.queues i).size + n > (s.queues i).maxSize
  · rw [if_pos hfull]
    exact .refl s i
  · rw [if_neg hfull]
    rw [gt_iff_lt, UInt32.lt_iff_toNat_lt, UInt32.toNat_add, Nat.mod_eq_of_lt hfit, hmax] at hfull
    by_cases hstraight : n ≤ (s.queues i).maxSize - (s.queues i).rear
    · rw [if_pos hstraight, if_neg h.maxSize_ne_zero]
      rw [UInt32.le_iff_toNat_le, hspace] at hstraight
      exact staysIn_setQueue s i rfl (writesIn_memcpy hblock (by omega) s.mem data)
    · rw [if_neg hstraight]
      rw [UInt32.le_iff_toNat_le, hspace] at hstraight
      have hrest : (n - ((s.queues i).maxSize - (s.queues i).rear)).toNat
          = n.toNat - (cap - (s.queues i).rear.toNat) := by
        rw [UInt32.toNat_sub_of_le _ _ (UInt32.le_iff_toNat_le.mpr (by omega)), hspace]
      have hfirst := @writesIn_memcpy _ (s.queues i).rear (cap - (s.queues i).rear.toNat) hblock
        (by omega) s.mem data
      rw [hspace, hrest]
      exact staysIn_setQueue s i rfl (hfirst.trans (writesIn_memcpy_start hblock (by omega) _ _))

theorem recv_staysIn {s : IpcState} {i : Fin ipcMaxPipes} {cap : ℕ} (h : QueueOk cap (s.queues i))
    (n : UInt32) : StaysIn s (queueStep i s (.recv n)).1 i := by
  by_cases hne : (s.queues i).size = 0
  · have hrecv : ipcQueueRecv s i true n = some (0, [], s) := by
      simp only [ipcQueueRecv, slot_coe, h.live, Bool.not_true, Bool.false_eq_true, if_false,
        if_pos hne]
    simp only [queueStep, hrecv]
    exact .refl s i
  · obtain ⟨q, hrecv, ⟨-, hbuf, hmax, -⟩, -⟩ := recv_takes h n hne
    simp only [queueStep, hrecv]
    refine staysIn_setQueue s i ?_ (.refl _ _)
    rw [IpcQueue.block, IpcQueue.block, hbuf, hmax]

theorem queueStep_staysIn {s : IpcState} {i : Fin ipcMaxPipes} {cap : ℕ}
    (h : QueueOk cap (s.queues i)) (hend : (s.queues i).buffer.toNat + cap < 2 ^ 32) {op : QueueOp}
    (hfit : SendFits i s op) : StaysIn s (queueStep i s op).1 i := by
  cases op with
  | send data n => exact send_staysIn h hend data hfit
  | recv n => exact recv_staysIn h n
  | size => exact .refl s i

/-! ### The table -/

theorem tableView_live {s : IpcState} {i : Fin ipcMaxPipes} (h : (s.queues i).inUse = true) :
    (tableView s).queues i = some ⟨(s.queues i).maxSize.toNat, queueView s i⟩ := if_pos h

theorem tableView_free {s : IpcState} {i : Fin ipcMaxPipes} (h : (s.queues i).inUse = false) :
    (tableView s).queues i = none := if_neg (by rw [h]; decide)

/-- A handle names a live queue, a free slot, or nothing. -/
theorem named_cases (s : IpcState) (id : ℤ) :
    (slot ipcMaxPipes id = none ∧ (tableView s).named id = none) ∨
    (∃ i, slot ipcMaxPipes id = some i ∧ (s.queues i).inUse = false ∧
      (tableView s).named id = none) ∨
    (∃ i : Fin ipcMaxPipes, id = i ∧ (s.queues i).inUse = true ∧
      (tableView s).named id = some (i, ⟨(s.queues i).maxSize.toNat, queueView s i⟩)) := by
  cases hs : slot ipcMaxPipes id with
  | none => exact .inl ⟨rfl, by simp [ByteTable.named, hs]⟩
  | some i =>
    cases hu : (s.queues i).inUse with
    | false => exact .inr (.inl ⟨i, rfl, hu, by simp [ByteTable.named, hs, tableView_free hu]⟩)
    | true =>
      exact .inr (.inr ⟨i, slot_eq_some.mp hs, hu, by simp [ByteTable.named, hs, tableView_live hu]⟩)

/-- Two tables that agree in one slot that is `q`, in all others and in the room. -/
theorem tableView_eq_set {s s' : IpcState} {i : Fin ipcMaxPipes} {q : Option ByteQueue}
    (hi : (tableView s').queues i = q)
    (hothers : ∀ j, j ≠ i → (tableView s').queues j = (tableView s).queues j)
    (hheap : s'.heap = s.heap) : tableView s' = (tableView s).set i q := by
  have hqueues : (tableView s').queues = Function.update (tableView s).queues i q := by
    funext j
    by_cases hj : j = i
    · rw [hj, Function.update_self, hi]
    · rw [Function.update_of_ne hj, hothers j hj]
  have hroom : (tableView s').room = (tableView s).room := by
    simp only [tableView, hheap]
  rw [ByteTable.set, ← hqueues, ← hroom]

section Step
variable {s : IpcState}

theorem QueuesOk.block_end (h : QueuesOk s) {i : Fin ipcMaxPipes} (hi : (s.queues i).inUse = true) :
    (s.queues i).buffer.toNat + (s.queues i).maxSize.toNat < 2 ^ 32 := by
  have hin := (h.inside i hi).2
  have hptr := s.heap.heapPtr.toNat_lt
  omega

theorem Apart.symm {b c : Block} (h : Apart b c) : Apart c b := Or.symm h

/-- A call on a live queue leaves all other queues as they were. -/
theorem QueuesOk.staysIn (h : QueuesOk s) {s' : IpcState} {i : Fin ipcMaxPipes}
    (hi : (s.queues i).inUse = true) (hstay : StaysIn s s' i)
    (hring : QueueOk (s.queues i).maxSize.toNat (s'.queues i)) :
    QueuesOk s' ∧ ∀ j, j ≠ i → (tableView s').queues j = (tableView s).queues j := by
  have hblock : ∀ j, (s'.queues j).block = (s.queues j).block := by
    intro j
    by_cases hj : j = i
    · rw [hj, hstay.block]
    · rw [hstay.others j hj]
  have hmax : ∀ j, (s'.queues j).maxSize = (s.queues j).maxSize := fun j => congrArg Block.size (hblock j)
  have hbuf : ∀ j, (s'.queues j).buffer = (s.queues j).buffer := fun j => congrArg Block.ptr (hblock j)
  have hlive : ∀ j, (s'.queues j).inUse = true → (s.queues j).inUse = true := by
    intro j hj
    by_cases hji : j = i
    · rw [hji, hi]
    · rwa [hstay.others j hji] at hj
  refine ⟨⟨?_, fun j hj => ?_, fun j hj => ?_, fun j k hjk hj hk => ?_⟩, fun j hj => ?_⟩
  · rw [hstay.heap]
    exact h.heap
  · by_cases hji : j = i
    · rw [hji, hmax]
      exact hring
    · rw [hstay.others j hji]
      exact h.ring j (hlive j hj)
  · rw [hbuf, hmax, hstay.heap]
    exact h.inside j (hlive j hj)
  · rw [hblock, hblock]
    exact h.apart j k hjk (hlive j hj) (hlive k hk)
  · simp only [tableView, hstay.others j hj]
    by_cases hu : (s.queues j).inUse = true
    · rw [if_pos hu, if_pos hu, queueView_of_apart (h.ring j hu) (hstay.others j hj) (h.block_end hu)
        (h.apart j i hj hu hi) hstay.mem]
    · rw [if_neg hu, if_neg hu]

/-- The call gives the same answer on both tables and keeps the invariant and the relation. -/
def TableAgrees (s : IpcState) (op : TableOp) : Prop :=
  (tableStep s op).2 = (bytesStep (tableView s) op).2 ∧
    QueuesOk (tableStep s op).1 ∧ tableView (tableStep s op).1 = (bytesStep (tableView s) op).1

theorem queueStep_absent {id : ℤ} (op : QueueOp)
    (h : slot ipcMaxPipes id = none ∨
      ∃ i, slot ipcMaxPipes id = some i ∧ (s.queues i).inUse = false) :
    queueStep id s op = (s, some (absent op)) := by
  rcases h with hs | ⟨i, hs, hu⟩
  · cases op <;> simp [queueStep, ipcQueueSend, ipcQueueRecv, ipcQueueSize, hs, absent]
  · cases op <;> simp [queueStep, ipcQueueSend, ipcQueueRecv, ipcQueueSize, hs, hu, absent]

theorem call_agrees (h : QueuesOk s) (id : ℤ) (op : QueueOp) (hfit : CallFits s (.call id op)) :
    TableAgrees s (.call id op) := by
  rcases named_cases s id with ⟨hs, hn⟩ | ⟨i, hs, hu, hn⟩ | ⟨i, rfl, hu, hn⟩
  · simp only [TableAgrees, tableStep, bytesStep, queueStep_absent op (.inl hs), hn]
    exact ⟨trivial, h, trivial⟩
  · simp only [TableAgrees, tableStep, bytesStep, queueStep_absent op (.inr ⟨i, hs, hu⟩), hn]
    exact ⟨trivial, h, trivial⟩
  · have hsend : SendFits i s op := hfit i (slot_coe i) hu
    obtain ⟨hout, hring, hview⟩ := queueStep_agrees (h.ring i hu) op hsend
    have hstay := queueStep_staysIn (h.ring i hu) (h.block_end hu) hsend
    obtain ⟨hok, hothers⟩ := h.staysIn hu hstay hring
    simp only [TableAgrees, tableStep, bytesStep, hn]
    refine ⟨hout, hok, tableView_eq_set ?_ hothers hstay.heap⟩
    rw [tableView_live hring.live, hview, hring.max]

/-- Another queue in slot `i`, or none: a live one is a ring in a block apart from all others. -/
theorem QueuesOk.setQueue (h : QueuesOk s) (i : Fin ipcMaxPipes) {q : IpcQueue}
    (hring : q.inUse = true → QueueOk q.maxSize.toNat q)
    (hinside : q.inUse = true → heapStart.toNat ≤ q.buffer.toNat ∧
      q.buffer.toNat + q.maxSize.toNat ≤ s.heap.heapPtr.toNat)
    (hapart : q.inUse = true → ∀ j, j ≠ i → (s.queues j).inUse = true →
      Apart (s.queues j).block q.block) : QueuesOk (s.setQueue i q) := by
  have hother : ∀ j, j ≠ i → (s.setQueue i q).queues j = s.queues j :=
    fun j hj => Function.update_of_ne hj ..
  refine ⟨h.heap, fun j hj => ?_, fun j hj => ?_, fun j k hjk hj hk => ?_⟩
  · by_cases hji : j = i
    · rw [hji, setQueue_queues_self] at hj ⊢
      exact hring hj
    · rw [hother j hji] at hj ⊢
      exact h.ring j hj
  · by_cases hji : j = i
    · rw [hji, setQueue_queues_self] at hj ⊢
      exact hinside hj
    · rw [hother j hji] at hj ⊢
      exact h.inside j hj
  · by_cases hji : j = i
    · have hki : k ≠ i := fun hki => hjk (hji.trans hki.symm)
      rw [hother k hki] at hk ⊢
      rw [hji, setQueue_queues_self] at hj ⊢
      exact (hapart hj k hki hk).symm
    · rw [hother j hji] at hj ⊢
      by_cases hki : k = i
      · rw [hki, setQueue_queues_self] at hk ⊢
        exact hapart hk j hji hj
      · rw [hother k hki] at hk ⊢
        exact h.apart j k hjk hj hk

/-- … and what the table stands for then. -/
theorem tableView_setQueue (i : Fin ipcMaxPipes) (q : IpcQueue) :
    tableView (s.setQueue i q) =
      (tableView s).set i ((tableView (s.setQueue i q)).queues i) := by
  refine tableView_eq_set rfl (fun j hj => ?_) rfl
  have hother : (s.setQueue i q).queues j = s.queues j := Function.update_of_ne hj ..
  simp only [tableView, queueView, hother, setQueue_mem]

theorem destroy_agrees (h : QueuesOk s) (id : ℤ) : TableAgrees s (.destroy id) := by
  rcases named_cases s id with ⟨hs, hn⟩ | ⟨i, hs, hu, hn⟩ | ⟨i, rfl, hu, hn⟩
  · simp only [TableAgrees, tableStep, bytesStep, ipcQueueDestroy, hs, hn]
    exact ⟨trivial, h, trivial⟩
  · simp only [TableAgrees, tableStep, bytesStep, ipcQueueDestroy, hs, hn, hu]
    exact ⟨rfl, h, rfl⟩
  · have hdestroy : ipcQueueDestroy s i
        = (0, s.setQueue i { s.queues i with inUse := false }) := by
      simp only [ipcQueueDestroy, slot_coe, hu, Bool.not_true, Bool.false_eq_true, if_false, free,
        ite_self]
    simp only [TableAgrees, tableStep, bytesStep, hdestroy, hn]
    refine ⟨trivial, h.setQueue i nofun nofun nofun, ?_⟩
    rw [tableView_setQueue, tableView_free (by rw [setQueue_queues_self])]

/-- What `malloc` returns when the sum does not wrap round. -/
theorem malloc_eq {heap : Heap} {size : UInt32} (hok : HeapOk heap)
    (hw : heap.heapPtr.toNat + size.toNat < 2 ^ 32) :
    malloc heap size = if size.toNat < heapEnd.toNat - heap.heapPtr.toNat
      then (heap.heapPtr, ⟨heap.heapPtr + size⟩) else (null, heap) := by
  have hhi := hok.2
  have hsum : (heap.heapPtr + size).toNat = heap.heapPtr.toNat + size.toNat := by
    rw [UInt32.toNat_add, Nat.mod_eq_of_lt hw]
  rw [malloc]
  by_cases hroom : size.toNat < heapEnd.toNat - heap.heapPtr.toNat
  · rw [if_pos hroom, if_neg]
    rw [ge_iff_le, UInt32.le_iff_toNat_le, hsum]
    omega
  · rw [if_neg hroom, if_pos]
    rw [ge_iff_le, UInt32.le_iff_toNat_le, hsum]
    omega

/-- A new block may be written without any queue changing. -/
theorem QueuesOk.grow (h : QueuesOk s) {size : UInt32} {m : Mem}
    (hroom : size.toNat < heapEnd.toNat - s.heap.heapPtr.toNat)
    (hmem : WritesIn ⟨s.heap.heapPtr, size⟩ s.mem m) :
    QueuesOk { s with heap := ⟨s.heap.heapPtr + size⟩, mem := m } ∧
      (∀ i, (s.queues i).inUse = true → Apart (s.queues i).block ⟨s.heap.heapPtr, size⟩) ∧
      tableView { s with heap := ⟨s.heap.heapPtr + size⟩, mem := m } =
        { tableView s with room := (tableView s).room - size.toNat } := by
  have hlo := h.heap.1
  have hend : heapEnd.toNat < 2 ^ 32 := heapEnd.toNat_lt
  have hsum : (s.heap.heapPtr + size).toNat = s.heap.heapPtr.toNat + size.toNat := by
    rw [UInt32.toNat_add, Nat.mod_eq_of_lt (by omega)]
  have hbefore : ∀ i, (s.queues i).inUse = true → Apart (s.queues i).block ⟨s.heap.heapPtr, size⟩ :=
    fun i hi => .inl (h.inside i hi).2
  have hinside : ∀ i, (s.queues i).inUse = true →
      (s.queues i).buffer.toNat + (s.queues i).maxSize.toNat ≤ (s.heap.heapPtr + size).toNat := by
    intro i hi
    have hin := (h.inside i hi).2
    omega
  refine ⟨⟨⟨?_, ?_⟩, h.ring, fun i hi => ⟨(h.inside i hi).1, hinside i hi⟩, h.apart⟩,
    hbefore, ?_⟩
  · dsimp only
    omega
  · dsimp only
    omega
  · simp only [tableView, ByteTable.mk.injEq]
    constructor
    · funext i
      by_cases hu : (s.queues i).inUse = true
      · rw [if_pos hu, if_pos hu,
          @queueView_of_apart s { s with heap := ⟨s.heap.heapPtr + size⟩, mem := m } i _ _
            (h.ring i hu) rfl (h.block_end hu) (hbefore i hu) hmem]
      · rw [if_neg hu, if_neg hu]
    · omega

theorem other_agrees (h : QueuesOk s) (size : UInt32) (bytes : ℕ → UInt8)
    (hfit : CallFits s (.other size bytes)) : TableAgrees s (.other size bytes) := by
  simp only [TableAgrees, tableStep, bytesStep, malloc_eq h.heap hfit]
  by_cases hroom : size.toNat < heapEnd.toNat - s.heap.heapPtr.toNat
  · have hend : heapEnd.toNat < 2 ^ 32 := heapEnd.toNat_lt
    obtain ⟨hok, -, hview⟩ := h.grow hroom
      (@writesIn_memcpy_start ⟨s.heap.heapPtr, size⟩ size.toNat hfit (le_refl _) s.mem bytes)
    have hroom' : size.toNat < (tableView s).room := hroom
    simp only [if_pos hroom, if_neg (heapPtr_ne_null h.heap), if_pos hroom']
    exact ⟨trivial, hok, hview⟩
  · have hroom' : ¬ size.toNat < (tableView s).room := hroom
    simp only [if_neg hroom, if_true, if_neg hroom']
    exact ⟨trivial, h, trivial⟩

/-- The queue that `ipc_queue_create` makes of a block. -/
def freshQueue (buffer size : UInt32) : IpcQueue :=
  { inUse := true, buffer, front := 0, rear := 0, size := 0, maxSize := size }

theorem queueOk_fresh (buffer : UInt32) {size : UInt32} (hlo : 1 ≤ size.toNat)
    (hhi : size.toNat < 2 ^ 31) : QueueOk size.toNat (freshQueue buffer size) :=
  ⟨rfl, rfl, hhi, hlo, Nat.zero_le _, by simp [freshQueue]⟩

/-- SPEC of `ipc_queue_create` when the sum does not wrap round. -/
theorem ipcQueueCreate_eq (hok : HeapOk s.heap) {size : UInt32}
    (hw : s.heap.heapPtr.toNat + size.toNat < 2 ^ 32) :
    ipcQueueCreate s size =
      match first fun i => !(s.queues i).inUse with
      | none => (-1, s)
      | some i =>
        if size.toNat < (tableView s).room then
          (i, { s with heap := ⟨s.heap.heapPtr + size⟩ }.setQueue i
            (freshQueue s.heap.heapPtr size))
        else (-1, s) := by
  rw [ipcQueueCreate, malloc_eq hok hw]
  cases first fun i => !(s.queues i).inUse with
  | none => rfl
  | some i =>
    by_cases hroom : size.toNat < heapEnd.toNat - s.heap.heapPtr.toNat
    · have hroom' : size.toNat < (tableView s).room := hroom
      simp only [if_pos hroom, if_neg (heapPtr_ne_null hok), if_pos hroom']
      rfl
    · have hroom' : ¬ size.toNat < (tableView s).room := hroom
      simp only [if_neg hroom, if_true, if_neg hroom']

theorem create_table_agrees (h : QueuesOk s) (size : UInt32) (hfit : CallFits s (.create size)) :
    TableAgrees s (.create size) := by
  obtain ⟨hpos, hw⟩ := hfit
  have hfree : (fun i => ((tableView s).queues i).isNone) = fun i => !(s.queues i).inUse := by
    funext i
    cases hu : (s.queues i).inUse with
    | false => simp [tableView_free hu]
    | true => simp [tableView_live hu]
  simp only [TableAgrees, tableStep, bytesStep, hfree, ipcQueueCreate_eq h.heap hw]
  cases hf : first fun i => !(s.queues i).inUse with
  | none => exact ⟨rfl, h, rfl⟩
  | some i =>
    by_cases hroom : size.toNat < (tableView s).room
    · simp only [if_pos hroom]
      have hend : (tableView s).room ≤ heapEnd.toNat := Nat.sub_le ..
      have hsmall : heapEnd.toNat < 2 ^ 31 := by decide
      have hsum : (s.heap.heapPtr + size).toNat = s.heap.heapPtr.toNat + size.toNat := by
        rw [UInt32.toNat_add, Nat.mod_eq_of_lt hw]
      have hlt : size.toNat < 2 ^ 31 := by omega
      obtain ⟨hok, hbefore, hview⟩ := h.grow hroom (.refl _ s.mem)
      refine ⟨trivial, hok.setQueue i (fun _ => queueOk_fresh _ hpos hlt)
        (fun _ => ⟨h.heap.1, hsum.ge⟩) (fun _ j _ hj => hbefore j hj), ?_⟩
      rw [tableView_setQueue, tableView_live (by rw [setQueue_queues_self]; rfl), hview, queueView,
        setQueue_queues_self]
      rfl
    · simp only [if_neg hroom]
      exact ⟨trivial, h, trivial⟩

theorem tableStep_agrees (h : QueuesOk s) (op : TableOp) (hfit : CallFits s op) :
    TableAgrees s op := by
  cases op with
  | create size => exact create_table_agrees h size hfit
  | destroy id => exact destroy_agrees h id
  | call id op => exact call_agrees h id op hfit
  | other size bytes => exact other_agrees h size bytes hfit

end Step

/-! ### Runs -/

/-- The state after `memory_init` and `ipc_init`, whatever the memory and the tables held before. -/
def freshIpc (s : IpcState) : IpcState := ipcInit { s with heap := memoryInit s.heap }

theorem queuesOk_fresh (s : IpcState) : QueuesOk (freshIpc s) :=
  ⟨heapOk_memoryInit s.heap, nofun, nofun, nofun⟩

theorem tableView_fresh (s : IpcState) : tableView (freshIpc s) = noQueues := by
  have hroom : heapEnd.toNat - heapStart.toNat = heapSize.toNat := by decide
  rw [noQueues, ← hroom]
  rfl

/-- CORRECT: after `memory_init` and `ipc_init`, on every run of `create`, `destroy`, `send`, `recv`
    and `size` calls over any ids, with other code taking and filling blocks of the heap in between,
    whose sums do not overflow, the table answers as 32 independent lists of bytes do and stands for
    those lists. No list is longer than its capacity, and no two queues share a byte of memory. -/
theorem queue_table_is_byte_fifos (s : IpcState) (ops : List TableOp)
    (hfit : Along tableStep CallFits (freshIpc s) ops) :
    outs tableStep (freshIpc s) ops = outs bytesStep noQueues ops ∧
    tableView (after tableStep (freshIpc s) ops) = after bytesStep noQueues ops ∧
    (∀ i q, (after bytesStep noQueues ops).queues i = some q → q.bytes.length ≤ q.cap) ∧
    let t := after tableStep (freshIpc s) ops
    ∀ i j, i ≠ j → (t.queues i).inUse = true → (t.queues j).inUse = true →
      Disjoint (t.queues i).block.cells (t.queues j).block.cells := by
  have hsim : ∀ (s : IpcState) (t : ByteTable) (op : TableOp), (QueuesOk s ∧ tableView s = t) →
      CallFits s op → (tableStep s op).2 = (bytesStep t op).2 ∧
        (QueuesOk (tableStep s op).1 ∧ tableView (tableStep s op).1 = (bytesStep t op).1) := by
    rintro s t op ⟨hok, rfl⟩ hop
    exact tableStep_agrees hok op hop
  obtain ⟨houts, hok, hview⟩ := outs_sim hsim ops _ _ ⟨queuesOk_fresh s, tableView_fresh s⟩ hfit
  refine ⟨houts, hview, fun i q hq => ?_, fun i j hij hi hj => ?_⟩
  · rw [← hview] at hq
    cases hu : ((after tableStep (freshIpc s) ops).queues i).inUse with
    | false =>
      rw [tableView_free hu] at hq
      cases hq
    | true =>
      rw [tableView_live hu, Option.some.injEq] at hq
      rw [← hq]
      dsimp only
      rw [queueView, length_window]
      exact (hok.ring i hu).fits
  · rw [Set.disjoint_left]
    rintro a ⟨hilo, hihi⟩ ⟨hjlo, hjhi⟩
    rcases hok.apart i j hij hi hj with h | h
    · exact absurd (hihi.trans_le h) (Nat.not_lt.mpr hjlo)
    · exact absurd (hjhi.trans_le h) (Nat.not_lt.mpr hilo)

/-- Two queues, other code between them, a message that goes round the end of its buffer, and a slot
    that is used again. -/
theorem queue_table_run :
    outs tableStep (freshIpc bootIpc)
      [.create 4, .other 3 (fun _ => 7), .create 2, .call 0 (.send (fun k => UInt8.ofNat (k + 1)) 3),
        .call 1 (.send (fun _ => 9) 2), .call 0 (.recv 2), .call 0 (.send (fun _ => 5) 3), .destroy 1,
        .create 8, .call 1 .size, .call 0 (.recv 9)]
    = [some ⟨0, []⟩, some ⟨0, []⟩, some ⟨1, []⟩, some ⟨0, []⟩, some ⟨0, []⟩, some ⟨2, [1, 2]⟩,
        some ⟨0, []⟩, some ⟨0, []⟩, some ⟨1, []⟩, some ⟨0, []⟩, some ⟨4, [3, 5, 5, 5]⟩] := by
  have hrun := queue_table_is_byte_fifos bootIpc
    [.create 4, .other 3 (fun _ => 7), .create 2, .call 0 (.send (fun k => UInt8.ofNat (k + 1)) 3),
      .call 1 (.send (fun _ => 9) 2), .call 0 (.recv 2), .call 0 (.send (fun _ => 5) 3), .destroy 1,
      .create 8, .call 1 .size, .call 0 (.recv 9)]
    (by decide)
  exact hrun.1.trans (by decide)

end VlsOs.Ipc
