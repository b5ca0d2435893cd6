import VlsOs.Kernel.Queue

/-! What the space test of a message queue lets through.

    `ipc_queue_send` refuses a message if `size + data_size > max_size`, a sum of 32 bits. A message
    that takes the sum past `2 ^ 32` passes the test, however full the queue is, and moves `rear` out
    of the buffer; the next empty message takes the remainder and moves it back in. And a queue may
    have size 0: `malloc (0)` succeeds, and the empty message, which fits, is a division by 0.

        size + data_size     0 ⋯ max_size │ max_size + 1 ⋯ 2³² - 1 │ 2³² ⋯ 2³² + size - 1
                               accepted   │        refused         │     accepted -/

namespace VlsOs.Ipc
open Patterns.Run Patterns.Table VlsOs.Memory VlsOs.Libc

/-! ### Calls -/

/-- The calls on the queues, and what the rest of the kernel does to the pipes, the heap and the
    memory between them. -/
inductive QueueCall
  | create (size : UInt32)
  | destroy (queueId : ℤ)
  | send (queueId : ℤ) (data : Option (ℕ → UInt8)) (dataSize : UInt32)
  | recv (queueId : ℤ) (data : Bool) (maxSize : UInt32)
  | other (pipes : Fin ipcMaxPipes → IpcPipe) (heap : Heap) (mem : Mem)

/-- One call and its result; a division fault has no result. -/
def callStep (s : IpcState) : QueueCall → IpcState × Option ℤ
  | .create size => ((ipcQueueCreate s size).2, some (ipcQueueCreate s size).1)
  | .destroy queueId => ((ipcQueueDestroy s queueId).2, some (ipcQueueDestroy s queueId).1)
  | .send queueId data dataSize =>
    match ipcQueueSend s queueId data dataSize with
    | some (result, s') => (s', some result)
    | none => (s, none)
  | .recv queueId data maxSize =>
    match ipcQueueRecv s queueId data maxSize with
    | some (result, _, s') => (s', some result)
    | none => (s, none)
  | .other pipes heap mem => ({ s with pipes := pipes, heap := heap, mem := mem }, some 0)

/-- What a call does that can go wrong: it copies `length` bytes to or from the buffer of a queue, or
    it takes a remainder. -/
inductive QueueEvent
  | access (queue : IpcQueue) (length : UInt32)
  | modulo (divisor : UInt32)

/-- The copies and remainders of `ipc_queue_send` on a queue. -/
def sendEvents (queue : IpcQueue) (dataSize : UInt32) : List QueueEvent :=
  if !queue.inUse then []
  else if queue.size + dataSize > queue.maxSize then []
  else
    let spaceAtEnd := queue.maxSize - queue.rear
    if dataSize ≤ spaceAtEnd then [.access queue dataSize, .modulo queue.maxSize]
    else [.access queue spaceAtEnd, .access queue (dataSize - spaceAtEnd)]

/-- … and of `ipc_queue_recv`. -/
def recvEvents (queue : IpcQueue) (maxSize : UInt32) : List QueueEvent :=
  if !queue.inUse then []
  else if queue.size = 0 then []
  else
    let readSize := if maxSize < queue.size then maxSize else queue.size
    let spaceAtEnd := queue.maxSize - queue.front
    if readSize ≤ spaceAtEnd then [.access queue readSize, .modulo queue.maxSize]
    else [.access queue spaceAtEnd, .access queue (readSize - spaceAtEnd)]

def callEvents (s : IpcState) : QueueCall → List QueueEvent
  | .send queueId (some _) dataSize =>
    match slot ipcMaxPipes queueId with
    | some i => sendEvents (s.queues i) dataSize
    | none => []
  | .recv queueId true maxSize =>
    match slot ipcMaxPipes queueId with
    | some i => recvEvents (s.queues i) maxSize
    | none => []
  | _ => []

/-- No remainder by 0; bytes are copied only while `front` and `rear` are inside the buffer. -/
def QueueEvent.Sound : QueueEvent → Prop
  | .access queue length => length ≠ 0 → queue.front < queue.maxSize ∧ queue.rear < queue.maxSize
  | .modulo divisor => divisor ≠ 0

/-- All copies and remainders of the call are sound. -/
def CallSafe (s : IpcState) (c : QueueCall) : Prop := ∀ e ∈ callEvents s c, e.Sound

/-! ### What a call does to a queue -/

/-- The queue after an accepted message. -/
def sentQueue (queue : IpcQueue) (dataSize : UInt32) : IpcQueue :=
  { queue with
    rear := if dataSize ≤ queue.maxSize - queue.rear then (queue.rear + dataSize) % queue.maxSize
      else dataSize - (queue.maxSize - queue.rear)
    size := queue.size + dataSize }

/-- How many bytes a `recv` takes. -/
def readSize (queue : IpcQueue) (maxSize : UInt32) : UInt32 :=
  if maxSize < queue.size then maxSize else queue.size

/-- The queue after a `recv` that found bytes. -/
def receivedQueue (queue : IpcQueue) (maxSize : UInt32) : IpcQueue :=
  { queue with
    front := if readSize queue maxSize ≤ queue.maxSize - queue.front then
        (queue.front + readSize queue maxSize) % queue.maxSize
      else readSize queue maxSize - (queue.maxSize - queue.front)
    size := queue.size - readSize queue maxSize }

/-- The message is accepted and its copy does not end in a fault. -/
def Stores (queue : IpcQueue) (dataSize : UInt32) : Prop :=
  queue.inUse = true ∧ queue.size + dataSize ≤ queue.maxSize ∧
    (dataSize ≤ queue.maxSize - queue.rear → queue.maxSize ≠ 0)

instance (queue : IpcQueue) (dataSize : UInt32) : Decidable (Stores queue dataSize) :=
  inferInstanceAs (Decidable (_ ∧ _ ∧ _))

/-- There are bytes to receive and their copy does not end in a fault. -/
def Takes (queue : IpcQueue) (maxSize : UInt32) : Prop :=
  queue.inUse = true ∧ queue.size ≠ 0 ∧
    (readSize queue maxSize ≤ queue.maxSize - queue.front → queue.maxSize ≠ 0)

instance (queue : IpcQueue) (maxSize : UInt32) : Decidable (Takes queue maxSize) :=
  inferInstanceAs (Decidable (_ ∧ _ ∧ _))

section Calls
variable (s : IpcState) (i : Fin ipcMaxPipes)

/-- SPEC of `ipc_queue_send`, for the queues: one changes, or none. -/
theorem queues_send (data : ℕ → UInt8) (n : UInt32) :
    (callStep s (.send i (some data) n)).1.queues =
      if Stores (s.queues i) n then Function.update s.queues i (sentQueue (s.queues i) n)
      else s.queues := by
  by_cases hlive : (s.queues i).inUse = true
  · by_cases hroom : (s.queues i).size + n ≤ (s.queues i).maxSize
    · have hlim : ¬ (s.queues i).size + n > (s.queues i).maxSize := UInt32.not_lt.mpr hroom
      simp only [callStep, ipcQueueSend, slot_coe, hlive, Bool.not_true, Bool.false_eq_true, if_false,
        if_neg hlim]
      by_cases hend : n ≤ (s.queues i).maxSize - (s.queues i).rear
      · by_cases hzero : (s.queues i).maxSize = 0
        · have hnot : ¬ Stores (s.queues i) n := fun h => h.2.2 hend hzero
          simp only [if_pos hend, if_pos hzero, if_neg hnot]
        · have hst : Stores (s.queues i) n := ⟨hlive, hroom, fun _ => hzero⟩
          simp only [if_pos hend, if_neg hzero, if_pos hst, IpcState.setQueue, sentQueue, hlive]
      · have hst : Stores (s.queues i) n := ⟨hlive, hroom, fun h => absurd h hend⟩
        simp only [if_neg hend, if_pos hst, IpcState.setQueue, sentQueue, hlive]
    · have hlim : (s.queues i).size + n > (s.queues i).maxSize := UInt32.not_le.mp hroom
      have hnot : ¬ Stores (s.queues i) n := fun h => hroom h.2.1
      simp only [callStep, ipcQueueSend, slot_coe, hlive, Bool.not_true, Bool.false_eq_true, if_false,
        if_pos hlim, if_neg hnot]
  · have hnot : ¬ Stores (s.queues i) n := fun h => hlive h.1
    rw [Bool.not_eq_true] at hlive
    simp only [callStep, ipcQueueSend, slot_coe, hlive, Bool.not_false, if_true, if_neg hnot]

/-- … and of `ipc_queue_recv`. -/
theorem queues_recv (n : UInt32) :
    (callStep s (.recv i true n)).1.queues =
      if Takes (s.queues i) n then Function.update s.queues i (receivedQueue (s.queues i) n)
      else s.queues := by
  by_cases hlive : (s.queues i).inUse = true
  · by_cases hsize : (s.queues i).size = 0
    · have hnot : ¬ Takes (s.queues i) n := fun h => h.2.1 hsize
      simp only [callStep, ipcQueueRecv, slot_coe, hlive, Bool.not_true, Bool.false_eq_true, if_false,
        if_pos hsize, if_neg hnot]
    · simp only [callStep, ipcQueueRecv, slot_coe, hlive, Bool.not_true, Bool.false_eq_true, if_false,
        if_neg hsize]
      rw [← readSize]
      by_cases hend : readSize (s.queues i) n ≤ (s.queues i).maxSize - (s.queues i).front
      · by_cases hzero : (s.queues i).maxSize = 0
        · have hnot : ¬ Takes (s.queues i) n := fun h => h.2.2 hend hzero
          simp only [if_pos hend, if_pos hzero, if_neg hnot]
        · have htk : Takes (s.queues i) n := ⟨hlive, hsize, fun _ => hzero⟩
          simp only [if_pos hend, if_neg hzero, if_pos htk, IpcState.setQueue, receivedQueue, hlive]
      · have htk : Takes (s.queues i) n := ⟨hlive, hsize, fun h => absurd h hend⟩
        simp only [if_neg hend, if_pos htk, IpcState.setQueue, receivedQueue, hlive]
  · have hnot : ¬ Takes (s.queues i) n := fun h => hlive h.1
    rw [Bool.not_eq_true] at hlive
    simp only [callStep, ipcQueueRecv, slot_coe, hlive, Bool.not_false, if_true, if_neg hnot]

/-- A call without a queue or without data changes nothing. -/
theorem callStep_send_nowhere {queueId : ℤ} {data : Option (ℕ → UInt8)} (n : UInt32)
    (h : slot ipcMaxPipes queueId = none ∨ data = none) :
    (callStep s (.send queueId data n)).1 = s := by
  rcases h with h | rfl
  · simp only [callStep, ipcQueueSend, h]
  · cases hslot : slot ipcMaxPipes queueId <;> simp only [callStep, ipcQueueSend, hslot]

theorem callStep_recv_nowhere {queueId : ℤ} {data : Bool} (n : UInt32)
    (h : slot ipcMaxPipes queueId = none ∨ data = false) :
    (callStep s (.recv queueId data n)).1 = s := by
  rcases h with h | rfl
  · simp only [callStep, ipcQueueRecv, h]
  · cases hslot : slot ipcMaxPipes queueId <;> simp only [callStep, ipcQueueRecv, hslot]

/-- A queue that has just been created is empty; no other queue changes. -/
theorem queues_create (size : UInt32) :
    (∃ (j : Fin ipcMaxPipes) (buffer : UInt32), (ipcQueueCreate s size).1 = (j : ℤ) ∧
      (ipcQueueCreate s size).2.queues = Function.update s.queues j
        { inUse := true, buffer := buffer, front := 0, rear := 0, size := 0, maxSize := size }) ∨
    (slot ipcMaxPipes (ipcQueueCreate s size).1 = none ∧
      (ipcQueueCreate s size).2.queues = s.queues) := by
  have hfail : slot ipcMaxPipes (-1) = none := slot_eq_none.mpr (.inl (by decide))
  unfold ipcQueueCreate
  cases first fun i => !(s.queues i).inUse with
  | none => exact .inr ⟨hfail, rfl⟩
  | some j =>
    dsimp only
    split
    · exact .inr ⟨hfail, rfl⟩
    · exact .inl ⟨j, _, rfl, rfl⟩

theorem queues_destroy (queueId : ℤ) :
    (∃ j, (ipcQueueDestroy s queueId).2.queues =
      Function.update s.queues j { s.queues j with inUse := false }) ∨
    (ipcQueueDestroy s queueId).2.queues = s.queues := by
  unfold ipcQueueDestroy
  cases slot ipcMaxPipes queueId with
  | none => exact .inr rfl
  | some j =>
    dsimp only
    split
    · exact .inr rfl
    · exact .inl ⟨j, rfl⟩

end Calls

/-! ### Messages that do not fit -/

/-- INVARIANT: no queue holds more than its size, as far as its fields say. -/
def SizesOk (s : IpcState) : Prop := ∀ i, (s.queues i).size ≤ (s.queues i).maxSize

theorem SizesOk.update {s s' : IpcState} (h : SizesOk s) {i : Fin ipcMaxPipes} {q : IpcQueue}
    (hs' : s'.queues = Function.update s.queues i q) (hq : q.size ≤ q.maxSize) : SizesOk s' := by
  intro j
  rw [hs']
  rcases eq_or_ne j i with rfl | hne
  · rwa [Function.update_self]
  · rw [Function.update_of_ne hne]
    exact h j

theorem readSize_le (q : IpcQueue) (n : UInt32) : readSize q n ≤ q.size := by
  rw [UInt32.le_iff_toNat_le, readSize, readSize_toNat]
  exact Nat.min_le_right ..

theorem receivedQueue_size {q : IpcQueue} (n : UInt32) (h : q.size ≤ q.maxSize) :
    (receivedQueue q n).size ≤ q.maxSize := by
  have hle := readSize_le q n
  rw [UInt32.le_iff_toNat_le] at h ⊢
  change (q.size - readSize q n).toNat ≤ _
  rw [UInt32.toNat_sub_of_le _ _ hle]
  omega

theorem sizesOk_step (s : IpcState) (c : QueueCall) (h : SizesOk s) :
    SizesOk (callStep s c).1 := by
  have hsame : ∀ {s' : IpcState}, s'.queues = s.queues → SizesOk s' := by
    intro s' hs' i
    rw [hs']
    exact h i
  cases c with
  | create size =>
    rcases queues_create s size with ⟨j, buffer, -, hq⟩ | ⟨-, hq⟩
    · exact h.update hq (UInt32.le_iff_toNat_le.mpr (Nat.zero_le _))
    · exact hsame hq
  | destroy queueId =>
    rcases queues_destroy s queueId with ⟨j, hq⟩ | hq
    · exact h.update hq (h j)
    · exact hsame hq
  | send queueId data n =>
    cases hslot : slot ipcMaxPipes queueId with
    | none => rwa [callStep_send_nowhere s n (.inl hslot)]
    | some i =>
      obtain rfl := slot_eq_some.mp hslot
      cases data with
      | none => rwa [callStep_send_nowhere s n (.inr rfl)]
      | some data =>
        have hq := queues_send s i data n
        split at hq
        · rename_i hst
          exact h.update hq hst.2.1
        · exact hsame hq
  | recv queueId data n =>
    cases hslot : slot ipcMaxPipes queueId with
    | none => rwa [callStep_recv_nowhere s n (.inl hslot)]
    | some i =>
      obtain rfl := slot_eq_some.mp hslot
      cases data with
      | false => rwa [callStep_recv_nowhere s n (.inr rfl)]
      | true =>
        have hq := queues_recv s i n
        split at hq
        · exact h.update hq (receivedQueue_size n (h i))
        · exact hsame hq
  | other pipes heap mem => exact h

theorem sizesOk_run (s₀ : IpcState) (calls : List QueueCall) :
    SizesOk (after callStep (ipcInit s₀) calls) :=
  after_inv sizesOk_step calls _ fun _ => UInt32.le_refl _

/-- The space test in ℕ: a sum that passes `2 ^ 32` is never above the size. -/
theorem room_iff {q : IpcQueue} (h : q.size ≤ q.maxSize) (n : UInt32) :
    q.size + n ≤ q.maxSize ↔
      q.size.toNat + n.toNat ≤ q.maxSize.toNat ∨ 2 ^ 32 ≤ q.size.toNat + n.toNat := by
  have hmax := q.maxSize.toNat_lt
  have hn := n.toNat_lt
  rw [UInt32.le_iff_toNat_le] at h ⊢
  rw [UInt32.toNat_add]
  omega

/-- What passes the space test is not refused. -/
theorem send_not_refused {s : IpcState} {i : Fin ipcMaxPipes} {n : UInt32}
    (hlive : (s.queues i).inUse = true) (hroom : (s.queues i).size + n ≤ (s.queues i).maxSize)
    (data : ℕ → UInt8) (s' : IpcState) : ipcQueueSend s i (some data) n ≠ some (-1, s') := by
  have hlim : ¬ (s.queues i).size + n > (s.queues i).maxSize := UInt32.not_lt.mpr hroom
  simp only [ipcQueueSend, slot_coe, hlive, Bool.not_true, Bool.false_eq_true, if_false, if_neg hlim]
  split_ifs <;> simp

/-- EXACT: in every state that calls on the queues lead to, a message that is larger than the space
    left is refused, and nothing changes, precisely if the sum of the space test fits in 32 bits (or
    there is no queue or no data). -/
theorem overfull_send_refused_iff (s₀ : IpcState) (calls : List QueueCall) (i : Fin ipcMaxPipes)
    (data : Option (ℕ → UInt8)) (n : UInt32) :
    let s := after callStep (ipcInit s₀) calls
    ((s.queues i).maxSize.toNat - (s.queues i).size.toNat < n.toNat →
      ipcQueueSend s i data n = some (-1, s)) ↔
    ((s.queues i).inUse = true → data.isSome = true →
      (s.queues i).size.toNat + n.toNat < 2 ^ 32) := by
  intro s
  have hsize : (s.queues i).size ≤ (s.queues i).maxSize := sizesOk_run s₀ calls i
  have hle := UInt32.le_iff_toNat_le.mp hsize
  have hmax := (s.queues i).maxSize.toNat_lt
  cases data with
  | none =>
    refine iff_of_true (fun _ => ?_) fun _ h => by cases h
    simp only [ipcQueueSend, slot_coe]
  | some data =>
    by_cases hlive : (s.queues i).inUse = true
    · constructor
      · intro h _ _
        by_contra hwrap
        -- the message passes the space test, so it is not refused
        have hroom := (room_iff hsize n).mpr (.inr (Nat.not_lt.mp hwrap))
        exact send_not_refused hlive hroom data s (h (by omega))
      · intro hfits hlarge
        have hfull : ¬ (s.queues i).size + n ≤ (s.queues i).maxSize := by
          rw [room_iff hsize]
          have hsum := hfits hlive rfl
          omega
        have hlim : (s.queues i).size + n > (s.queues i).maxSize := UInt32.not_le.mp hfull
        simp only [ipcQueueSend, slot_coe, hlive, Bool.not_true, Bool.false_eq_true, if_false,
          if_pos hlim]
    · refine iff_of_true (fun _ => ?_) fun h => absurd h hlive
      rw [Bool.not_eq_true] at hlive
      simp only [ipcQueueSend, slot_coe, hlive, Bool.not_false, if_true]

/-- A queue of four bytes that holds one takes a message of `2 ^ 32 - 1` bytes, and has no byte in it
    then. -/
theorem overfull_send_accepted :
    let s := after callStep bootIpc [.create 4, .send 0 (some fun _ => 7) 1]
    (s.queues 0).maxSize = 4 ∧ (s.queues 0).size = 1 ∧
      (ipcQueueSend s 0 (some fun _ => 8) 0xFFFFFFFF).map
          (fun r => (r.1, (r.2.queues 0).rear, (r.2.queues 0).size)) =
        some (0, 0xFFFFFFFC, 0) := by
  decide

/-! ### Faults, and indices out of the buffer -/

/-- A message that passes the space test by passing `2 ^ 32`, and leaves `rear` outside the buffer. -/
def Overruns (q : IpcQueue) (n : UInt32) : Prop :=
  q.inUse = true ∧ 2 ^ 32 ≤ q.size.toNat + n.toNat ∧ 2 * q.maxSize.toNat ≤ q.rear.toNat + n.toNat

instance (q : IpcQueue) (n : UInt32) : Decidable (Overruns q n) :=
  inferInstanceAs (Decidable (_ ∧ _ ∧ _))

/-- The tables, and for each queue whether a message has overrun it since the last empty one. -/
structure Marked where
  sys : IpcState
  overrun : Fin ipcMaxPipes → Bool

/-- The mark of a queue after a message to it. -/
def markSent (q : IpcQueue) (mark : Bool) (n : UInt32) : Bool :=
  if n = 0 then false else mark || decide (Overruns q n)

/-- The marks after a call: a message sets or clears one, a new queue has none. -/
def marksAfter (m : Marked) : QueueCall → Fin ipcMaxPipes → Bool
  | .create size =>
    match slot ipcMaxPipes (ipcQueueCreate m.sys size).1 with
    | some i => Function.update m.overrun i false
    | none => m.overrun
  | .send queueId (some _) n =>
    match slot ipcMaxPipes queueId with
    | some i => Function.update m.overrun i (markSent (m.sys.queues i) (m.overrun i) n)
    | none => m.overrun
  | _ => m.overrun

def markStep (m : Marked) (c : QueueCall) : Marked × Option ℤ :=
  (⟨(callStep m.sys c).1, marksAfter m c⟩, (callStep m.sys c).2)

/-- No empty message to a queue of size 0; and while the mark is set, no message is accepted but an
    empty one. -/
def SendGuard (q : IpcQueue) (mark : Bool) (n : UInt32) : Prop :=
  q.inUse = true → (q.maxSize = 0 → n ≠ 0) ∧
    (mark = true → n = 0 ∨
      q.maxSize.toNat < q.size.toNat + n.toNat ∧ q.size.toNat + n.toNat < 2 ^ 32)

/-- While the mark is set, no bytes are received. -/
def RecvGuard (q : IpcQueue) (mark : Bool) (n : UInt32) : Prop :=
  q.inUse = true → mark = true → q.size = 0 ∨ n = 0

def CallGuard (m : Marked) : QueueCall → Prop
  | .send queueId (some _) n =>
    ∀ i, slot ipcMaxPipes queueId = some i → SendGuard (m.sys.queues i) (m.overrun i) n
  | .recv queueId true n =>
    ∀ i, slot ipcMaxPipes queueId = some i → RecvGuard (m.sys.queues i) (m.overrun i) n
  | _ => True

/-- The indices of a queue are inside its buffer, but for `rear` while the mark is set. -/
structure IndicesOk (q : IpcQueue) (mark : Bool) : Prop where
  size : q.size ≤ q.maxSize
  front : q.maxSize ≠ 0 → q.front < q.maxSize
  rear : q.maxSize ≠ 0 → (q.rear < q.maxSize ↔ mark = false)

section OneQueue
variable {q : IpcQueue} {mark : Bool} (n : UInt32)

theorem ne_zero_and_sub_ne_zero {a b : UInt32} (h : a < b) : b ≠ 0 ∧ b - a ≠ 0 := by
  have hlt := UInt32.lt_iff_toNat_lt.mp h
  constructor
  · rintro rfl
    exact absurd hlt (Nat.not_lt_zero _)
  · intro hsub
    have hnat := congrArg UInt32.toNat hsub
    rw [UInt32.toNat_sub_of_le _ _ (UInt32.le_of_lt h), UInt32.toNat_zero] at hnat
    omega

/-- The copies of a call that moves `k` bytes, `space` at most before it goes round, and the remainder
    if it does not. -/
theorem sound_copies_iff (h : IndicesOk q mark) (hmax : q.maxSize ≠ 0) (k space : UInt32) :
    (∀ e ∈ (if k ≤ space then [QueueEvent.access q k, .modulo q.maxSize]
      else [.access q space, .access q (k - space)]), e.Sound) ↔ (k ≠ 0 → mark = false) := by
  have hfront := h.front hmax
  have hrear := h.rear hmax
  split
  · simp [QueueEvent.Sound, hmax, hfront, hrear]
  · rename_i hround
    obtain ⟨hk, hrest⟩ := ne_zero_and_sub_ne_zero (UInt32.not_le.mp hround)
    simp only [List.mem_cons, List.not_mem_nil, or_false, forall_eq_or_imp, forall_eq,
      QueueEvent.Sound, hfront, hrear, true_and, hk, hrest, ne_eq, not_false_eq_true, forall_const]
    exact ⟨fun hboth => hboth.2, fun hmark => ⟨fun _ => hmark, hmark⟩⟩

/-- What the guard says of a message that passes the space test. -/
theorem sendGuard_of_room (h : IndicesOk q mark) (hlive : q.inUse = true)
    (hroom : q.size + n ≤ q.maxSize) :
    SendGuard q mark n ↔ q.maxSize ≠ 0 ∧ (n ≠ 0 → mark = false) := by
  have hnat := (room_iff h.size n).mp hroom
  have hempty : q.maxSize = 0 → n = 0 := by
    intro hmax
    have hn := n.toNat_lt
    have hsize := UInt32.le_iff_toNat_le.mp h.size
    rw [hmax, UInt32.toNat_zero] at hnat hsize
    exact UInt32.toNat_inj.mp (by rw [UInt32.toNat_zero]; omega)
  constructor
  · intro hguard
    obtain ⟨hzero, hmark⟩ := hguard hlive
    refine ⟨fun hmax => hzero hmax (hempty hmax), fun hn => ?_⟩
    by_contra hset
    rcases hmark (Bool.not_eq_false _ ▸ hset) with h0 | hfull
    · exact hn h0
    · omega
  · rintro ⟨hmax, hmark⟩ -
    refine ⟨fun h0 => absurd h0 hmax, fun hset => .inl ?_⟩
    by_contra hn
    rw [hmark hn] at hset
    cases hset

/-- … and a message that does not pass it meets the guard. -/
theorem sendGuard_of_full (h : IndicesOk q mark) (hfull : ¬ q.size + n ≤ q.maxSize) :
    n ≠ 0 ∧ ¬ Overruns q n ∧ SendGuard q mark n := by
  have hsize := UInt32.le_iff_toNat_le.mp h.size
  rw [room_iff h.size, not_or] at hfull
  have hn : n ≠ 0 := by
    rintro rfl
    rw [UInt32.toNat_zero] at hfull
    omega
  exact ⟨hn, fun hover => by have := hover.2.1; omega,
    fun _ => ⟨fun _ => hn, fun _ => .inr (by omega)⟩⟩

/-- EXACT, one message. -/
theorem IndicesOk.sendEvents_iff (h : q.inUse = true → IndicesOk q mark) :
    (∀ e ∈ sendEvents q n, e.Sound) ↔ SendGuard q mark n := by
  by_cases hlive : q.inUse = true
  · specialize h hlive
    by_cases hroom : q.size + n ≤ q.maxSize
    · have hlim : ¬ q.size + n > q.maxSize := UInt32.not_lt.mpr hroom
      rw [sendGuard_of_room n h hlive hroom]
      simp only [sendEvents, hlive, Bool.not_true, Bool.false_eq_true, if_false, if_neg hlim]
      by_cases hmax : q.maxSize = 0
      · -- the message is empty, and its remainder is by 0
        refine iff_of_false (fun hsound => ?_) fun hguard => hguard.1 hmax
        have hnat := (room_iff h.size n).mp hroom
        have hn := n.toNat_lt
        have hsize := UInt32.le_iff_toNat_le.mp h.size
        rw [hmax, UInt32.toNat_zero] at hnat hsize
        have hempty : n ≤ q.maxSize - q.rear := UInt32.le_iff_toNat_le.mpr (by omega)
        rw [if_pos hempty] at hsound
        exact hsound (.modulo q.maxSize) (by simp) hmax
      · rw [sound_copies_iff h hmax]
        exact (and_iff_right hmax).symm
    · have hlim : q.size + n > q.maxSize := UInt32.not_le.mp hroom
      simp only [sendEvents, hlive, Bool.not_true, Bool.false_eq_true, if_false, if_pos hlim]
      exact iff_of_true (fun e he => by cases he) (sendGuard_of_full n h hroom).2.2
  · refine iff_of_true (fun e he => ?_) fun h' => absurd h' hlive
    rw [Bool.not_eq_true] at hlive
    simp [sendEvents, hlive] at he

/-- EXACT, one `recv`. -/
theorem IndicesOk.recvEvents_iff (h : q.inUse = true → IndicesOk q mark) :
    (∀ e ∈ recvEvents q n, e.Sound) ↔ RecvGuard q mark n := by
  by_cases hlive : q.inUse = true
  · specialize h hlive
    by_cases hsome : q.size = 0
    · refine iff_of_true (fun e he => ?_) fun _ _ => .inl hsome
      simp [recvEvents, hlive, hsome] at he
    · have hmax : q.maxSize ≠ 0 := by
        intro hmax
        have hsize := UInt32.le_iff_toNat_le.mp h.size
        rw [hmax, UInt32.toNat_zero, Nat.le_zero] at hsize
        exact hsome (UInt32.toNat_inj.mp hsize)
      have hread : readSize q n = 0 ↔ n = 0 := by
        rw [← UInt32.toNat_inj, readSize, readSize_toNat, ← UInt32.toNat_inj, UInt32.toNat_zero]
        have hpos : q.size.toNat ≠ 0 := fun h0 => hsome (UInt32.toNat_inj.mp h0)
        omega
      simp only [recvEvents, hlive, Bool.not_true, Bool.false_eq_true, if_false, if_neg hsome]
      rw [← readSize, sound_copies_iff h hmax, ne_eq, hread]
      constructor
      · intro hmark _ hset
        refine .inr (by_contra fun hn => ?_)
        rw [hmark hn] at hset
        cases hset
      · intro hguard hn
        rw [← Bool.not_eq_true]
        exact fun hset => (hguard hlive hset).elim hsome hn
  · refine iff_of_true (fun e he => ?_) fun h' => absurd h' hlive
    rw [Bool.not_eq_true] at hlive
    simp [recvEvents, hlive] at he

/-- STEP: a message within the guard. -/
theorem IndicesOk.sent (h : IndicesOk q mark) (hst : Stores q n) (hguard : SendGuard q mark n) :
    IndicesOk (sentQueue q n) (markSent q mark n) := by
  obtain ⟨hlive, hroom, -⟩ := hst
  obtain ⟨hmax, hmark⟩ := (sendGuard_of_room n h hlive hroom).mp hguard
  refine ⟨hroom, fun _ => h.front hmax, fun _ => ?_⟩
  have hpos : 0 < q.maxSize.toNat :=
    Nat.pos_of_ne_zero fun h0 => hmax (UInt32.toNat_inj.mp h0)
  have hnat := (room_iff h.size n).mp hroom
  have hn := n.toNat_lt
  rw [UInt32.lt_iff_toNat_lt]
  change (if n ≤ q.maxSize - q.rear then (q.rear + n) % q.maxSize
    else n - (q.maxSize - q.rear)).toNat < q.maxSize.toNat ↔ _
  split
  · -- a remainder, and no overrun
    rename_i hend
    refine iff_of_true ?_ ?_
    · rw [UInt32.toNat_mod]
      exact Nat.mod_lt _ hpos
    · unfold markSent
      split
      · rfl
      · rename_i hne
        have hrear := UInt32.lt_iff_toNat_lt.mp ((h.rear hmax).mpr (hmark hne))
        rw [UInt32.le_iff_toNat_le, UInt32.toNat_sub_of_le _ _
          (UInt32.le_iff_toNat_le.mpr hrear.le)] at hend
        rw [hmark hne, Bool.false_or, decide_eq_false_iff_not]
        rintro ⟨-, -, hover⟩
        omega
  · rename_i hround
    obtain ⟨hne, -⟩ := ne_zero_and_sub_ne_zero (UInt32.not_le.mp hround)
    have hrear := UInt32.lt_iff_toNat_lt.mp ((h.rear hmax).mpr (hmark hne))
    have hspace := UInt32.toNat_sub_of_le _ _ (UInt32.le_iff_toNat_le.mpr hrear.le)
    rw [UInt32.toNat_sub_of_le _ _ (UInt32.le_of_lt (UInt32.not_le.mp hround)), hspace, markSent,
      if_neg hne, hmark hne, Bool.false_or, decide_eq_false_iff_not, Overruns]
    rw [UInt32.le_iff_toNat_le, hspace] at hround
    have hsize := UInt32.le_iff_toNat_le.mp h.size
    constructor
    · rintro hin ⟨-, -, hover⟩
      omega
    · intro hnot
      by_contra hout
      refine hnot ⟨hlive, ?_, by omega⟩
      omega

/-- STEP: bytes received. -/
theorem IndicesOk.received (h : IndicesOk q mark) :
    IndicesOk (receivedQueue q n) mark := by
  refine ⟨receivedQueue_size n h.size, fun hmax => ?_, fun hmax => h.rear hmax⟩
  have hpos : 0 < q.maxSize.toNat :=
    Nat.pos_of_ne_zero fun h0 => hmax (UInt32.toNat_inj.mp h0)
  have hfront := UInt32.lt_iff_toNat_lt.mp (h.front hmax)
  have hspace := UInt32.toNat_sub_of_le _ _ (UInt32.le_iff_toNat_le.mpr hfront.le)
  have hread := UInt32.le_iff_toNat_le.mp (readSize_le q n)
  have hsize := UInt32.le_iff_toNat_le.mp h.size
  rw [UInt32.lt_iff_toNat_lt]
  change (if readSize q n ≤ q.maxSize - q.front then (q.front + readSize q n) % q.maxSize
    else readSize q n - (q.maxSize - q.front)).toNat < q.maxSize.toNat
  split
  · rw [UInt32.toNat_mod]
    exact Nat.mod_lt _ hpos
  · rename_i hround
    rw [UInt32.toNat_sub_of_le _ _ (UInt32.le_of_lt (UInt32.not_le.mp hround)), hspace]
    omega

end OneQueue

/-- INVARIANT of the marked runs. -/
def MarksOk (m : Marked) : Prop :=
  ∀ i, (m.sys.queues i).inUse = true → IndicesOk (m.sys.queues i) (m.overrun i)

/-- EXACT, one call. -/
theorem callSafe_iff (m : Marked) (c : QueueCall) (h : MarksOk m) :
    CallSafe m.sys c ↔ CallGuard m c := by
  have hquiet : ∀ {c}, callEvents m.sys c = [] → CallSafe m.sys c := by
    intro c hc e he
    rw [hc] at he
    cases he
  cases c with
  | create size => exact iff_of_true (hquiet rfl) trivial
  | destroy queueId => exact iff_of_true (hquiet rfl) trivial
  | other pipes heap mem => exact iff_of_true (hquiet rfl) trivial
  | send queueId data n =>
    cases data with
    | none => exact iff_of_true (hquiet rfl) trivial
    | some data =>
      simp only [CallSafe, callEvents, CallGuard]
      cases slot ipcMaxPipes queueId with
      | none => simp
      | some i => simpa using IndicesOk.sendEvents_iff n (h i)
  | recv queueId data n =>
    cases data with
    | false => exact iff_of_true (hquiet rfl) trivial
    | true =>
      simp only [CallSafe, callEvents, CallGuard]
      cases slot ipcMaxPipes queueId with
      | none => simp
      | some i => simpa using IndicesOk.recvEvents_iff n (h i)

/-- One queue changes, and its mark. -/
theorem MarksOk.update {m m' : Marked} (h : MarksOk m) {i : Fin ipcMaxPipes} {q : IpcQueue}
    {mark : Bool} (hq : m'.sys.queues = Function.update m.sys.queues i q)
    (hmark : m'.overrun = Function.update m.overrun i mark)
    (hok : q.inUse = true → IndicesOk q mark) : MarksOk m' := by
  intro j
  rw [hq, hmark]
  rcases eq_or_ne j i with rfl | hne
  · rwa [Function.update_self, Function.update_self]
  · rw [Function.update_of_ne hne, Function.update_of_ne hne]
    exact h j

theorem MarksOk.same {m m' : Marked} (h : MarksOk m) (hq : m'.sys.queues = m.sys.queues)
    (hmark : m'.overrun = m.overrun) : MarksOk m' := by
  intro j
  rw [hq, hmark]
  exact h j

/-- A message within the guard is stored, or it is refused and leaves the mark. -/
theorem MarksOk.send {m : Marked} (h : MarksOk m) {i : Fin ipcMaxPipes} {n : UInt32}
    (hguard : SendGuard (m.sys.queues i) (m.overrun i) n) (data : ℕ → UInt8) :
    MarksOk (markStep m (.send i (some data) n)).1 := by
  have hmark : (markStep m (.send i (some data) n)).1.overrun =
      Function.update m.overrun i (markSent (m.sys.queues i) (m.overrun i) n) := by
    simp only [markStep, marksAfter, slot_coe]
  have hq := queues_send m.sys i data n
  split at hq
  · rename_i hst
    exact h.update hq hmark fun _ => (h i hst.1).sent n hst hguard
  · rename_i hnot
    rw [← Function.update_eq_self i m.sys.queues] at hq
    refine h.update hq hmark fun hlive => ?_
    have hfull : ¬ (m.sys.queues i).size + n ≤ (m.sys.queues i).maxSize := by
      intro hroom
      have hmax := ((sendGuard_of_room n (h i hlive) hlive hroom).mp hguard).1
      exact hnot ⟨hlive, hroom, fun _ => hmax⟩
    obtain ⟨hn, hover, -⟩ := sendGuard_of_full n (h i hlive) hfull
    rw [markSent, if_neg hn, decide_eq_false hover, Bool.or_false]
    exact h i hlive

/-- INVARIANT, one call within the guard. -/
theorem marksOk_step (m : Marked) (c : QueueCall) (h : MarksOk m) (hguard : CallGuard m c) :
    MarksOk (markStep m c).1 := by
  cases c with
  | create size =>
    rcases queues_create m.sys size with ⟨j, buffer, hret, hq⟩ | ⟨hret, hq⟩
    · have hmark : marksAfter m (.create size) = Function.update m.overrun j false := by
        simp only [marksAfter, hret, slot_coe]
      refine h.update hq hmark fun _ => ⟨UInt32.le_iff_toNat_le.mpr (Nat.zero_le _), ?_, ?_⟩
      · exact UInt32.pos_iff_ne_zero.mpr
      · exact fun hmax => iff_of_true (UInt32.pos_iff_ne_zero.mpr hmax) rfl
    · exact h.same hq (by simp only [markStep, marksAfter, hret])
  | destroy queueId =>
    rcases queues_destroy m.sys queueId with ⟨j, hq⟩ | hq
    · exact h.update hq (Function.update_eq_self j m.overrun).symm fun hbad => by cases hbad
    · exact h.same hq rfl
  | other pipes heap mem => exact h
  | send queueId data n =>
    cases hslot : slot ipcMaxPipes queueId with
    | none =>
      refine h.same (congrArg IpcState.queues (callStep_send_nowhere m.sys n (.inl hslot))) ?_
      cases data with
      | none => rfl
      | some data => simp only [markStep, marksAfter, hslot]
    | some i =>
      obtain rfl := slot_eq_some.mp hslot
      cases data with
      | none =>
        exact h.same (congrArg IpcState.queues (callStep_send_nowhere m.sys n (.inr rfl))) rfl
      | some data =>
        exact h.send (hguard i hslot) data
  | recv queueId data n =>
    cases hslot : slot ipcMaxPipes queueId with
    | none => exact h.same (congrArg IpcState.queues (callStep_recv_nowhere m.sys n (.inl hslot))) rfl
    | some i =>
      obtain rfl := slot_eq_some.mp hslot
      cases data with
      | false =>
        exact h.same (congrArg IpcState.queues (callStep_recv_nowhere m.sys n (.inr rfl))) rfl
      | true =>
        have hq := queues_recv m.sys i n
        split at hq
        · rename_i htk
          exact h.update hq (Function.update_eq_self i m.overrun).symm fun _ =>
            (h i htk.1).received n
        · exact h.same hq rfl

/-- The call ends in a division fault exactly if it takes a remainder by 0. -/
theorem fault_iff (s : IpcState) (c : QueueCall) :
    (callStep s c).2 = none ↔ QueueEvent.modulo 0 ∈ callEvents s c := by
  cases c with
  | create size => simp [callStep, callEvents]
  | destroy queueId => simp [callStep, callEvents]
  | other pipes heap mem => simp [callStep, callEvents]
  | send queueId data n =>
    cases hslot : slot ipcMaxPipes queueId with
    | none => cases data <;> simp [callStep, callEvents, ipcQueueSend, hslot]
    | some i =>
      cases data with
      | none => simp [callStep, callEvents, ipcQueueSend, hslot]
      | some data =>
        simp only [callStep, callEvents, ipcQueueSend, hslot, sendEvents]
        split_ifs <;> simp_all [@eq_comm UInt32 0]
  | recv queueId data n =>
    cases hslot : slot ipcMaxPipes queueId with
    | none => cases data <;> simp [callStep, callEvents, ipcQueueRecv, hslot]
    | some i =>
      cases data with
      | false => simp [callStep, callEvents, ipcQueueRecv, hslot]
      | true =>
        simp only [callStep, callEvents, ipcQueueRecv, hslot, recvEvents]
        split_ifs <;> simp_all [@eq_comm UInt32 0]

/-- EXACT: along a run of calls on the queues no remainder is by 0, and `front` and `rear` are inside
    the buffer whenever bytes are copied, precisely if no empty message is sent to a queue of size 0
    and, after a message that overruns a queue, no bytes are sent to it or received from it before an
    empty message. -/
theorem queue_calls_safe_iff (s₀ : IpcState) (calls : List QueueCall) :
    Along callStep CallSafe (ipcInit s₀) calls ↔
      Along markStep CallGuard ⟨ipcInit s₀, fun _ => false⟩ calls := by
  have hstart : MarksOk ⟨ipcInit s₀, fun _ => false⟩ := by
    intro i hlive
    cases hlive
  have hpart : Along markStep (fun m c => CallSafe m.sys c) ⟨ipcInit s₀, fun _ => false⟩ calls ↔
      Along callStep CallSafe (ipcInit s₀) calls :=
    along_part (π := Marked.sys) (fun _ _ => rfl) calls _
  rw [← hpart]
  exact along_congr marksOk_step callSafe_iff calls _ hstart

/-- A queue of size 0 is created; the empty message to it is a division by 0. -/
theorem empty_send_faults :
    (callStep bootIpc (.create 0)).2 = some 0 ∧
      (callStep (callStep bootIpc (.create 0)).1 (.send 0 (some fun _ => 0) 0)).2 = none ∧
      ¬ Along callStep CallSafe bootIpc [.create 0, .send 0 (some fun _ => 0) 0] := by
  have hfault : (callStep (callStep bootIpc (.create 0)).1 (.send 0 (some fun _ => 0) 0)).2 = none := by
    decide
  refine ⟨by decide, hfault, fun hsafe => ?_⟩
  exact hsafe.2.1 _ ((fault_iff _ _).mp hfault) rfl

end VlsOs.Ipc
