import VlsOs.Schemes.Table
import VlsOs.Kernel.Memory
import VlsOs.Libc.String

/-! Pipes and message queues (`src/kernel/ipc.c`, `include/ipc.h`).

    Both are rings in a table of 32 slots. A pipe holds its 256 message cells itself; a queue keeps
    its bytes in a buffer from `malloc`. `data` pointers are given by what they point at: `none` is
    `NULL`, and byte `i` of the caller's buffer is `data i`; bytes copied out are returned. -/

namespace VlsOs.Ipc
open Patterns.Table VlsOs.Memory VlsOs.Libc

abbrev ipcMaxPipes : ℕ := 32

def ipcBufferSize : ℕ := 256

/-- `ipc_pipe_t`. -/
structure IpcPipe where
  buffer : ℕ → UInt32
  readPos : ℕ
  writePos : ℕ
  messageCount : ℕ
  inUse : Bool
  ownerPid : ℕ

/-- `ipc_queue_t`. -/
structure IpcQueue where
  buffer : UInt32
  front : UInt32
  rear : UInt32
  size : UInt32
  maxSize : UInt32
  inUse : Bool

/-- The two tables, and the heap and memory the queues draw on. -/
structure IpcState where
  pipes : Fin ipcMaxPipes → IpcPipe
  queues : Fin ipcMaxPipes → IpcQueue
  heap : Heap
  mem : Mem

def IpcState.setPipe (s : IpcState) (i : Fin ipcMaxPipes) (p : IpcPipe) : IpcState :=
  { s with pipes := Function.update s.pipes i p }

def IpcState.setQueue (s : IpcState) (i : Fin ipcMaxPipes) (q : IpcQueue) : IpcState :=
  { s with queues := Function.update s.queues i q }

/-- Every slot is marked free; pipe cells keep whatever they held. -/
def ipcInit (s : IpcState) : IpcState :=
  { s with
    pipes := fun i =>
      { s.pipes i with inUse := false, readPos := 0, writePos := 0, messageCount := 0 }
    queues := fun _ =>
      { inUse := false, buffer := null, front := 0, rear := 0, size := 0, maxSize := 0 } }

/-- The tables at the end of start-up: cleared memory, `memory_init`, `ipc_init`. -/
def bootIpc : IpcState :=
  ipcInit
    { pipes := fun _ => ⟨fun _ => 0, 0, 0, 0, false, 0⟩
      queues := fun _ => ⟨null, 0, 0, 0, 0, false⟩
      heap := memoryInit ⟨null⟩
      mem := fun _ => 0 }

/-! ### Pipes -/

/-- `proc` is the pid of `process_current ()`, `none` when that is `NULL`. -/
def ipcPipeCreate (s : IpcState) (proc : Option ℕ) : ℤ × IpcState :=
  match first fun i => !(s.pipes i).inUse with
  | none => (-1, s)
  | some pipeId =>
    (pipeId, s.setPipe pipeId
      { s.pipes pipeId with
        inUse := true, readPos := 0, writePos := 0, messageCount := 0, ownerPid := proc.getD 0 })

def ipcPipeClose (s : IpcState) (pipeId : ℤ) : ℤ × IpcState :=
  match slot ipcMaxPipes pipeId with
  | none => (-1, s)
  | some i =>
    if !(s.pipes i).inUse then (-1, s)
    else (0, s.setPipe i { s.pipes i with inUse := false })

def ipcPipeWrite (s : IpcState) (pipeId : ℤ) (message : UInt32) : ℤ × IpcState :=
  match slot ipcMaxPipes pipeId with
  | none => (-1, s)
  | some i =>
    let pipe := s.pipes i
    if !pipe.inUse then (-1, s)
    else if pipe.messageCount ≥ ipcBufferSize then (-1, s)
    else
      (0, s.setPipe i
        { pipe with
          buffer := Function.update pipe.buffer pipe.writePos message
          writePos := (pipe.writePos + 1) % ipcBufferSize
          messageCount := pipe.messageCount + 1 })

/-- `message` says whether the destination pointer is non-`NULL`; the message read is returned. -/
def ipcPipeRead (s : IpcState) (pipeId : ℤ) (message : Bool) : ℤ × Option UInt32 × IpcState :=
  match slot ipcMaxPipes pipeId with
  | none => (-1, none, s)
  | some i =>
    let pipe := s.pipes i
    if !message then (-1, none, s)
    else if !pipe.inUse then (-1, none, s)
    else if pipe.messageCount = 0 then (-1, none, s)
    else
      (0, some (pipe.buffer pipe.readPos), s.setPipe i
        { pipe with
          readPos := (pipe.readPos + 1) % ipcBufferSize
          messageCount := pipe.messageCount - 1 })

def ipcPipeHasData (s : IpcState) (pipeId : ℤ) : ℤ :=
  match slot ipcMaxPipes pipeId with
  | none => 0
  | some i =>
    if !(s.pipes i).inUse then 0
    else if (s.pipes i).messageCount > 0 then 1 else 0

/-! ### Message queues -/

def ipcQueueCreate (s : IpcState) (size : UInt32) : ℤ × IpcState :=
  match first fun i => !(s.queues i).inUse with
  | none => (-1, s)
  | some queueId =>
    let (buffer, heap) := malloc s.heap size
    if buffer = null then (-1, { s with heap })
    else
      (queueId, { s with heap }.setQueue queueId
        { inUse := true, buffer, front := 0, rear := 0, size := 0, maxSize := size })

def ipcQueueDestroy (s : IpcState) (queueId : ℤ) : ℤ × IpcState :=
  match slot ipcMaxPipes queueId with
  | none => (-1, s)
  | some i =>
    let queue := s.queues i
    if !queue.inUse then (-1, s)
    else
      let heap := if queue.buffer ≠ null then free s.heap queue.buffer else s.heap
      (0, { s with heap }.setQueue i { queue with inUse := false })

/-- `none` is the processor fault of a division by zero, in the branch that divides. -/
def ipcQueueSend (s : IpcState) (queueId : ℤ) (data : Option (ℕ → UInt8)) (dataSize : UInt32) :
    Option (ℤ × IpcState) :=
  match slot ipcMaxPipes queueId, data with
  | some i, some data =>
    let queue := s.queues i
    if !queue.inUse then some (-1, s)
    else if queue.size + dataSize > queue.maxSize then some (-1, s)
    else
      let spaceAtEnd := queue.maxSize - queue.rear
      if dataSize ≤ spaceAtEnd then
        let mem := memcpy s.mem (queue.buffer + queue.rear) data dataSize.toNat
        if queue.maxSize = 0 then none
        else
          some (0, { s with mem }.setQueue i
            { queue with
              rear := (queue.rear + dataSize) % queue.maxSize
              size := queue.size + dataSize })
      else
        let mem := memcpy s.mem (queue.buffer + queue.rear) data spaceAtEnd.toNat
        let mem := memcpy mem queue.buffer (fun k => data (spaceAtEnd.toNat + k))
          (dataSize - spaceAtEnd).toNat
        some (0, { s with mem }.setQueue i
          { queue with
            rear := dataSize - spaceAtEnd
            size := queue.size + dataSize })
  | _, _ => some (-1, s)

/-- The `n` bytes of memory from `p` on: what a `memcpy` out of memory hands over. -/
def bytesAt (m : Mem) (p : UInt32) (n : ℕ) : List UInt8 :=
  (List.range n).map fun k => m (p + UInt32.ofNat k)

/-- `data` says whether the destination pointer is non-`NULL`; the bytes copied are returned. -/
def ipcQueueRecv (s : IpcState) (queueId : ℤ) (data : Bool) (maxSize : UInt32) :
    Option (ℤ × List UInt8 × IpcState) :=
  match slot ipcMaxPipes queueId, data with
  | some i, true =>
    let queue := s.queues i
    if !queue.inUse then some (-1, [], s)
    else if queue.size = 0 then some (0, [], s)
    else
      let readSize := if maxSize < queue.size then maxSize else queue.size
      let spaceAtEnd := queue.maxSize - queue.front
      if readSize ≤ spaceAtEnd then
        let bytes := bytesAt s.mem (queue.buffer + queue.front) readSize.toNat
        if queue.maxSize = 0 then none
        else
          some (cInt readSize, bytes, s.setQueue i
            { queue with
              front := (queue.front + readSize) % queue.maxSize
              size := queue.size - readSize })
      else
        let bytes := bytesAt s.mem (queue.buffer + queue.front) spaceAtEnd.toNat
          ++ bytesAt s.mem queue.buffer (readSize - spaceAtEnd).toNat
        some (cInt readSize, bytes, s.setQueue i
          { queue with
            front := readSize - spaceAtEnd
            size := queue.size - readSize })
  | _, _ => some (-1, [], s)

def ipcQueueSize (s : IpcState) (queueId : ℤ) : UInt32 :=
  match slot ipcMaxPipes queueId with
  | none => 0
  | some i => if !(s.queues i).inUse then 0 else (s.queues i).size

/-! ### What an update changes -/

@[simp] theorem setPipe_pipes_self (s : IpcState) (i : Fin ipcMaxPipes) (p : IpcPipe) :
    (s.setPipe i p).pipes i = p := Function.update_self ..

theorem setPipe_pipes_of_ne (s : IpcState) {i j : Fin ipcMaxPipes} (p : IpcPipe) (h : j ≠ i) :
    (s.setPipe i p).pipes j = s.pipes j := Function.update_of_ne h ..

@[simp] theorem setQueue_queues_self (s : IpcState) (i : Fin ipcMaxPipes) (q : IpcQueue) :
    (s.setQueue i q).queues i = q := Function.update_self ..

@[simp] theorem setQueue_mem (s : IpcState) (i : Fin ipcMaxPipes) (q : IpcQueue) :
    (s.setQueue i q).mem = s.mem := rfl

end VlsOs.Ipc
