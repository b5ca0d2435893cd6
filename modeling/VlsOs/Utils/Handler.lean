import VlsOs.Utils.Syscall
import VlsOs.Kernel.ProcessSlots

/-! The system call dispatcher of `utils/syscall.c`, and what it can do to the kernel process.

    A system call comes as the registers of the caller: the number in `eax`, the arguments in `ebx`,
    `ecx` and `edx`, and the result goes back in `eax`. A register that holds a pointer is looked up
    in memory: `0` is NULL. The timer count `now` and the disk are the environment, and a seek has
    fuel, as in the file system.

        int 0x80 ──▶ syscall_handler ──SYS_EXIT─▶ process_exit (whoever is current)
                                     ──SYS_KILL─▶ process_kill (pid), not pid 0
                                     ──others───▶ files, pid, -1 -/

namespace VlsOs.Syscall
open Patterns VlsOs.Libc VlsOs.Memory VlsOs.Fs VlsOs.Proc

/-! ### The dispatcher -/

/-- The registers of `syscall_context_t` that the dispatcher reads. -/
structure SyscallContext where
  eax : UInt32
  ebx : UInt32
  ecx : UInt32
  edx : UInt32

/-- The `case` labels of the dispatcher. -/
inductive SyscallName
  | sysExit
  | sysWrite
  | sysRead
  | sysOpen
  | sysClose
  | sysGetpid
  | sysKill
  | sysPipe
  | sysSeek
  deriving DecidableEq

/-- The `switch (syscall_num)`; `none` is the default case. -/
def syscallName (num : UInt32) : Option SyscallName :=
  if num = 1 then some .sysExit
  else if num = 4 then some .sysWrite
  else if num = 3 then some .sysRead
  else if num = 5 then some .sysOpen
  else if num = 6 then some .sysClose
  else if num = 20 then some .sysGetpid
  else if num = 37 then some .sysKill
  else if num = 42 then some .sysPipe
  else if num = 19 then some .sysSeek
  else none

/-- The file side, the process table and memory. -/
structure Kernel where
  sys : SysState
  procs : ProcessManager
  mem : Mem

/-- An `int` as the register it is returned in. -/
def cUint (x : ℤ) : UInt32 := (Int32.ofInt x).toUInt32

/-- What a data pointer points at. -/
def bufferAt (mem : Mem) (p : UInt32) : Option (ℕ → UInt8) :=
  if p = null then none else some (cells mem p)

/-- The string a `char` pointer points at. -/
def stringAt (mem : Mem) (p : UInt32) : Option (List UInt8) :=
  if p = null then none else some (text (Blocks.stretch (cells mem p) 0 (2 ^ 32)))

/-- `sys_exit`. -/
def sysExit (m : ProcessManager) (code : ℤ) (now : UInt32) : ProcessManager :=
  processExit m code now

/-- `sys_getpid`. -/
def sysGetpid (m : ProcessManager) : ℕ :=
  match processCurrent m with
  | some proc => (m.table proc).pid
  | none => 0

/-- `sys_kill`. -/
def sysKill (m : ProcessManager) (pid : UInt32) (_signal : ℤ) (now : UInt32) :
    ℤ × ProcessManager :=
  processKill m pid.toNat now

/-- `sys_pipe`. -/
def sysPipe (_fds : UInt32) : ℤ := -1

/-- `syscall_handler`; `none` while a seek has not ended. -/
def syscallHandler (d : Disk) (keys : ℕ → UInt8) (now : UInt32) (fuel : ℕ) (k : Kernel)
    (ctx : SyscallContext) : Option (Kernel × SyscallContext) :=
  let answer (k : Kernel) (result : ℤ) : Option (Kernel × SyscallContext) :=
    some (k, { ctx with eax := cUint result })
  match syscallName ctx.eax with
  -- the `result` of a `void` function is the `-1` it was declared with
  | some .sysExit => answer { k with procs := sysExit k.procs (cInt ctx.ebx) now } (-1)
  | some .sysWrite =>
    let (result, sys) := sysWrite k.sys (cInt ctx.ebx) (bufferAt k.mem ctx.ecx) ctx.edx
    answer { k with sys := sys } result
  | some .sysRead =>
    let (result, bytes, sys) := sysRead d keys k.sys (cInt ctx.ebx) (ctx.ecx != null) ctx.edx
    answer { k with sys := sys,
                    mem := memcpy k.mem ctx.ecx (fun i => bytes.getD i 0) bytes.length } result
  | some .sysOpen =>
    let (result, sys) := sysOpen k.sys (stringAt k.mem ctx.ebx) ctx.ecx
    answer { k with sys := sys } result
  | some .sysClose =>
    let (result, sys) := sysClose k.sys (cInt ctx.ebx)
    answer { k with sys := sys } result
  | some .sysGetpid => answer k (sysGetpid k.procs)
  | some .sysKill =>
    let (result, procs) := sysKill k.procs ctx.ebx (cInt ctx.ecx) now
    answer { k with procs := procs } result
  | some .sysPipe => answer k (sysPipe ctx.ebx)
  | some .sysSeek =>
    match sysSeek fuel k.sys (cInt ctx.ebx) ctx.ecx with
    | none => none
    | some (result, sys) => answer { k with sys := sys } result
  | none => answer k (-1)

/-! ### Runs of the kernel -/

/-- What happens to the kernel: a system call, a new process, a timer interrupt. -/
inductive KernelOp
  | syscall (ctx : SyscallContext) (now : UInt32) (fuel : ℕ)
  | spawn (name : List UInt8) (entryPoint : UInt32) (priority : UInt8) (now : UInt32)
  | tick

/-- One of them, with the value in `eax` after a system call; a seek that has not ended answers
    nothing and changes nothing. -/
def kernelStep (area : StackArea) (d : Disk) (keys : ℕ → UInt8) (k : Kernel) :
    KernelOp → Kernel × Option UInt32
  | .syscall ctx now fuel =>
    match syscallHandler d keys now fuel k ctx with
    | none => (k, none)
    | some (k', ctx') => (k', some ctx'.eax)
  | .spawn name entryPoint priority now =>
    ({ k with procs := (processSpawn area k.procs name entryPoint priority now).2 }, none)
  | .tick => ({ k with procs := processTick k.procs }, none)

/-- The kernel when the process manager has just been initialised. -/
def bootKernel (area : StackArea) (sys : SysState) (mem : Mem) (m₀ : ProcessManager) : Kernel :=
  ⟨sys, processInit area m₀, mem⟩

/-- What the process table gets to see of it. -/
def KernelOp.procOp : KernelOp → Option ProcOp
  | .syscall ctx now _ =>
    match syscallName ctx.eax with
    | some .sysExit => some (.exit (cInt ctx.ebx) now)
    | some .sysKill => some (.kill ctx.ebx.toNat now)
    | _ => none
  | .spawn name entryPoint priority now => some (.spawn name entryPoint priority now)
  | .tick => some .tick

/-- FRAME: no other system call touches the process table. -/
theorem kernelStep_procs (area : StackArea) (d : Disk) (keys : ℕ → UInt8) (k : Kernel)
    (op : KernelOp) :
    (kernelStep area d keys k op).1.procs =
      match op.procOp with
      | some p => (procStep area k.procs p).1
      | none => k.procs := by
  cases op with
  | spawn | tick => rfl
  | syscall ctx now fuel =>
    simp only [kernelStep, KernelOp.procOp, syscallHandler]
    cases hname : syscallName ctx.eax with
    | none => rfl
    | some name =>
      cases name with
      | sysSeek => cases sysSeek fuel k.sys (cInt ctx.ebx) ctx.ecx <;> rfl
      | _ => rfl

/-! ### The kernel process under system calls -/

/-- A `SYS_EXIT` does not come from the kernel process while another process is READY. -/
def SparesKernel (k : Kernel) : KernelOp → Prop
  | .syscall ctx _ _ => syscallName ctx.eax = some .sysExit →
    ¬ (k.procs.currentPid = 0 ∧ ∃ i, Ready k.procs i)
  | .spawn .. | .tick => True

/-- The kernel process has not been terminated. -/
def KernelAlive (k : Kernel) : Prop := stateOf k.procs 0 ≠ .terminated

/-- Seen from the process table, the guard is that of its own calls. -/
theorem sparesKernel_iff (k : Kernel) (op : KernelOp) :
    SparesKernel k op ↔ ∀ p, op.procOp = some p → KernelSpared k.procs p := by
  cases op with
  | spawn | tick => simp [SparesKernel, KernelOp.procOp, KernelSpared]
  | syscall ctx now fuel =>
    rw [SparesKernel, KernelOp.procOp]
    cases syscallName ctx.eax with
    | none => simp
    | some name => cases name <;> simp [KernelSpared]

/-- EXACT, one step. -/
theorem kernelAlive_step_iff {area : StackArea} (d : Disk) (keys : ℕ → UInt8) {k : Kernel}
    (op : KernelOp) (h : Settled area k.procs) (halive : KernelAlive k) :
    KernelAlive (kernelStep area d keys k op).1 ↔ SparesKernel k op := by
  rw [sparesKernel_iff, KernelAlive, kernelStep_procs]
  cases op.procOp with
  | none => exact iff_of_true halive fun p hp => by cases hp
  | some p => simpa using kernel_step_iff p h halive

theorem settled_kernelStep {area : StackArea} (d : Disk) (keys : ℕ → UInt8) {k : Kernel}
    (op : KernelOp) (h : Settled area k.procs) :
    Settled area (kernelStep area d keys k op).1.procs := by
  rw [kernelStep_procs]
  cases op.procOp with
  | none => exact h
  | some p => exact settled_step p h

/-- EXACT: along a run of system calls, spawns and timer ticks the kernel process is never TERMINATED
    exactly when it makes no `SYS_EXIT` while another process is READY. -/
theorem kernel_alive_iff (area : StackArea) (d : Disk) (keys : ℕ → UInt8) (sys : SysState)
    (mem : Mem) (m₀ : ProcessManager) (ops : List KernelOp) :
    Run.Always (kernelStep area d keys) KernelAlive (bootKernel area sys mem m₀) ops ↔
      Run.Along (kernelStep area d keys) SparesKernel (bootKernel area sys mem m₀) ops := by
  refine Run.always_iff_along (I := fun k => Settled area k.procs)
    (fun _ op h => settled_kernelStep d keys op h)
    (fun _ op h halive => kernelAlive_step_iff d keys op h halive) ops _
    (processInit_settled area m₀) ?_
  simp [KernelAlive, bootKernel, stateOf, processInit]

/-- A process is spawned and then the kernel process, still current, makes a `SYS_EXIT`. -/
theorem kernel_exits :
    let d : Disk := ⟨fun _ _ => 0, fun _ => none⟩
    let boot := bootKernel sampleArea (bootSys d (fun _ => 0) ⟨heapStart⟩) (fun _ => 0)
      staticProcesses
    let k := Run.after (kernelStep sampleArea d fun _ => 0) boot
      [.spawn [97] 0x1000 1 0, .syscall ⟨1, 0, 0, 0⟩ 0 0]
    stateOf k.procs 0 = .terminated ∧ ¬ KernelAlive k := by
  refine ⟨by decide, fun h => h (by decide)⟩

end VlsOs.Syscall
