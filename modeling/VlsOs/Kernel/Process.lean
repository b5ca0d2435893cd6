import VlsOs.Schemes.Run
import VlsOs.Schemes.Table
import VlsOs.Libc.String

/-! The process manager of `kernel/process.c`.

    The static variables of the file are the fields of `ProcessManager`; a pointer into the process
    table is the index of the slot it points at. The stack array is known by its address alone: no
    function of the file looks into it. The timer count that `pit_get_ticks` returns is an argument
    of the functions that read it.

        UNUSED ──spawn──▶ READY ◀──schedule──▶ RUNNING
                            │                     │
                            └──kill─▶ TERMINATED ◀┴─exit, kill -/

namespace VlsOs.Proc
open Patterns VlsOs.Libc

abbrev maxProcesses : ℕ := 32

/-- The table has a slot 0, that of the kernel process. -/
scoped instance neZero_maxProcesses : NeZero maxProcesses := ⟨by decide⟩

def processStackSize : UInt32 := 4096

def processTimeSlice : UInt8 := 10

/-- `process_state_t`. -/
inductive ProcessState
  | unused
  | ready
  | running
  | blocked
  | terminated
  deriving DecidableEq, Repr

/-- `cpu_context_t`. -/
structure CpuContext where
  eax : UInt32
  ebx : UInt32
  ecx : UInt32
  edx : UInt32
  esi : UInt32
  edi : UInt32
  ebp : UInt32
  esp : UInt32
  eip : UInt32
  eflags : UInt32
  deriving DecidableEq, Repr

/-- `process_t`; the name is the array of its 32 bytes. -/
structure Process where
  pid : ℕ
  parentPid : ℕ
  state : ProcessState
  priority : UInt8
  ticks : UInt8
  stackBase : UInt32
  stackSize : UInt32
  context : CpuContext
  entryPoint : UInt32
  exitCode : ℤ
  name : List UInt8
  createdTicks : UInt32
  terminatedTicks : UInt32
  deriving DecidableEq, Repr

/-- `g_process_stacks`: an array of the address space, so it ends before the addresses do. -/
structure StackArea where
  base : UInt32
  fits : base.toNat + maxProcesses * processStackSize.toNat ≤ 2 ^ 32

/-- The static variables of `process.c`. -/
structure ProcessManager where
  table : Fin maxProcesses → Process
  currentPid : ℕ
  processCount : UInt8
  nextPid : ℕ

/-- A write through a pointer to slot `i`. -/
def ProcessManager.setProc (m : ProcessManager) (i : Fin maxProcesses) (p : Process) :
    ProcessManager :=
  { m with table := Function.update m.table i p }

/-- The static variables as the loader leaves them: zero, and `1` in `g_next_pid`. -/
def staticProcesses : ProcessManager :=
  { table := fun _ =>
      { pid := 0, parentPid := 0, state := .unused, priority := 0, ticks := 0, stackBase := 0,
        stackSize := 0, context := ⟨0, 0, 0, 0, 0, 0, 0, 0, 0, 0⟩, entryPoint := 0, exitCode := 0,
        name := List.replicate 32 0, createdTicks := 0, terminatedTicks := 0 },
    currentPid := 0, processCount := 0, nextPid := 1 }

/-- A place for the stack array, for examples. -/
def sampleArea : StackArea := ⟨0x200000, by decide⟩

/-- The text `"kernel"`. -/
def kernelName : List UInt8 := [107, 101, 114, 110, 101, 108]

/-- `process_init`, from whatever stood in the static variables. -/
def processInit (area : StackArea) (m : ProcessManager) : ProcessManager :=
  let cleared : Fin maxProcesses → Process := fun i =>
    { m.table i with
      pid := 0, state := .unused, priority := 128, exitCode := 0, name := (m.table i).name.set 0 0 }
  let kernel : Process :=
    { cleared 0 with
      pid := 0, parentPid := 0, state := .running, priority := 0, ticks := processTimeSlice,
      name := strcpy (cleared 0).name kernelName,
      stackBase := area.base, stackSize := processStackSize }
  { table := Function.update cleared 0 kernel, currentPid := 0, processCount := 1, nextPid := 1 }

/-- `process_current`. -/
def processCurrent (m : ProcessManager) : Option (Fin maxProcesses) :=
  if h : m.currentPid < maxProcesses then some ⟨m.currentPid, h⟩ else none

/-- `process_get`. -/
def processGet (m : ProcessManager) (pid : ℕ) : Option (Fin maxProcesses) :=
  if h : pid < maxProcesses then
    if (m.table ⟨pid, h⟩).state = .unused then none else some ⟨pid, h⟩
  else none

/-- `process_count`. -/
def processCount (m : ProcessManager) : UInt8 := m.processCount

/-- `process_allocate_pid`: first the UNUSED slots from `g_next_pid` up, then those below it; `none`
    is the pid `0` that says there is none. Only the first search moves `g_next_pid`. -/
def processAllocatePid (m : ProcessManager) : Option (Fin maxProcesses) × ProcessManager :=
  match Table.first fun i => decide (m.nextPid ≤ i ∧ (m.table i).state = .unused) with
  | some pid =>
    (some pid, { m with nextPid := if maxProcesses ≤ pid + 1 then 1 else pid + 1 })
  | none =>
    (Table.first fun i => decide (1 ≤ i.val ∧ i.val < m.nextPid ∧ (m.table i).state = .unused), m)

/-- The slot `process_spawn` fills in, over what stood there before. -/
def spawned (area : StackArea) (m : ProcessManager) (pid : Fin maxProcesses) (name : List UInt8)
    (entryPoint : UInt32) (priority : UInt8) (now : UInt32) : Process :=
  let stackBase := area.base + UInt32.ofNat pid * processStackSize
  let stackTop := stackBase + processStackSize - 4
  { m.table pid with
    pid := pid, parentPid := m.currentPid, state := .ready, priority := priority,
    ticks := processTimeSlice, exitCode := 0, stackBase := stackBase,
    stackSize := processStackSize,
    context :=
      { eax := 0, ebx := 0, ecx := 0, edx := 0, esi := 0, edi := 0, ebp := stackTop,
        esp := stackTop, eip := entryPoint, eflags := 0x200 },
    entryPoint := entryPoint, createdTicks := now,
    name := (strncpy (m.table pid).name name 31).set 31 0 }

/-- `process_spawn`. -/
def processSpawn (area : StackArea) (m : ProcessManager) (name : List UInt8) (entryPoint : UInt32)
    (priority : UInt8) (now : UInt32) : ℤ × ProcessManager :=
  match processAllocatePid m with
  | (none, m) => (-1, m)
  | (some pid, m) =>
    if pid = 0 then (-1, m)
    else
      ((pid : ℤ), { m.setProc pid (spawned area m pid name entryPoint priority now) with
        processCount := m.processCount + 1 })

/-- `best_pid` and `best_priority` of `process_find_next`; `none` is `-1`. -/
structure Best where
  bestPid : Option (Fin maxProcesses)
  bestPriority : ℕ

/-- The loop of `process_find_next`, over the values of `i` that are left. -/
def findLoop (m : ProcessManager) (nextPid : ℕ) (best : Best) : List ℕ → Best
  | [] => best
  | i :: is =>
    let checkPid : Fin maxProcesses := Table.atTurn nextPid i
    let proc := m.table checkPid
    if proc.state = .ready then
      -- an improvement ends the loop: this is the `break`
      if proc.priority.toNat < best.bestPriority then ⟨some checkPid, proc.priority.toNat⟩
      else findLoop m nextPid best is
    else findLoop m nextPid best is

/-- `process_find_next`. -/
def processFindNext (m : ProcessManager) : Fin maxProcesses :=
  let nextPid := (m.currentPid + 1) % maxProcesses
  match (findLoop m nextPid ⟨none, 256⟩ (List.range maxProcesses)).bestPid with
  | some bestPid => bestPid
  | none =>
    match processCurrent m with
    | some current => if (m.table current).state = .ready then current else 0
    | none => 0

/-- The current process goes back to READY, unless it is pid 0 or no longer RUNNING. -/
def demoteCurrent (m : ProcessManager) : ProcessManager :=
  match processCurrent m with
  | some current =>
    if (m.table current).pid ≠ 0 ∧ (m.table current).state = .running then
      m.setProc current { m.table current with state := .ready }
    else m
  | none => m

/-- `process_schedule`. -/
def processSchedule (m : ProcessManager) : ProcessManager :=
  let next := processFindNext m
  let m := demoteCurrent m
  { m.setProc next { m.table next with state := .running, ticks := processTimeSlice } with
    currentPid := (m.table next).pid }

/-- `process_exit`. -/
def processExit (m : ProcessManager) (exitCode : ℤ) (now : UInt32) : ProcessManager :=
  match processCurrent m with
  | none => m
  | some current =>
    processSchedule
      { m.setProc current
          { m.table current with
            exitCode := exitCode, state := .terminated, terminatedTicks := now } with
        processCount := m.processCount - 1 }

/-- `process_kill`. -/
def processKill (m : ProcessManager) (pid : ℕ) (now : UInt32) : ℤ × ProcessManager :=
  match processGet m pid with
  | none => (-1, m)
  | some target =>
    if pid = 0 then (-1, m)
    else
      let m :=
        { m.setProc target
            { m.table target with exitCode := -1, state := .terminated, terminatedTicks := now } with
          processCount := if 0 < m.processCount then m.processCount - 1 else m.processCount }
      (0, if m.currentPid = pid then processSchedule m else m)

/-- What one tick leaves of a process's time slice. -/
def sliceLeft (p : Process) : UInt8 := if 0 < p.ticks then p.ticks - 1 else p.ticks

/-- `process_tick`. -/
def processTick (m : ProcessManager) : ProcessManager :=
  match processCurrent m with
  | none => m
  | some current =>
    let m := m.setProc current { m.table current with ticks := sliceLeft (m.table current) }
    if (m.table current).ticks = 0 then processSchedule m else m

end VlsOs.Proc
