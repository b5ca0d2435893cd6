import VlsOs.Kernel.Process
import VlsOs.Schemes.Stack
import VlsOs.Schemes.Trace

/-! Hardware interrupts (`kernel/interrupts.asm`, `kernel/idt.c`, `kernel/pit.c`).

    A stub pushes two words and goes on to `irq_common_stub`, which saves the registers and `ds`,
    calls the C function `irq_handler` and undoes it all. A cdecl callee finds its argument in the
    word above the return address, and that is the saved `ds`, not the number of the interrupt.
    `isr_common_stub` for the exceptions is the same code with another function to call: the function
    is a parameter of the machine.

        place   1   2    3   …   10    11              12
                0 │ 32 │ eax … edi │ high eax : ds │ return address
                    └ vector         └ argument       └ esp in irq_handler -/

namespace VlsOs.Interrupt
open Patterns Patterns.Run Patterns.Trace Patterns.Stack VlsOs.Proc

/-! ### The processor -/

inductive Reg
  | eax
  | ecx
  | edx
  | ebx
  | esp
  | ebp
  | esi
  | edi
  deriving DecidableEq

inductive Seg
  | ds
  | es
  | fs
  | gs
  deriving DecidableEq

@[ext] structure Cpu where
  reg : Reg → UInt32
  seg : Seg → UInt16
  mem : Bytes

/-- A write to `ax`: the low half of `eax`. -/
def setAx (eax : UInt32) (v : UInt16) : UInt32 := UInt32.ofNat (eax.toNat / 2 ^ 16 * 2 ^ 16 + v.toNat)

def Cpu.set (c : Cpu) (r : Reg) (v : UInt32) : Cpu := { c with reg := Function.update c.reg r v }

def Cpu.push (c : Cpu) (v : UInt32) : Cpu :=
  { c with
    reg := Function.update c.reg .esp (c.reg .esp - 4)
    mem := store c.mem (c.reg .esp - 4) v }

def Cpu.pushes (c : Cpu) (ws : List UInt32) : Cpu := ws.foldl Cpu.push c

/-- `pop` into a register other than `esp`. -/
def Cpu.pop (c : Cpu) (r : Reg) : Cpu :=
  (c.set r (load c.mem (c.reg .esp))).set .esp (c.reg .esp + 4)

/-- `pusha` saves the `esp` that it starts from. -/
def Cpu.pusha (c : Cpu) : Cpu :=
  c.pushes [c.reg .eax, c.reg .ecx, c.reg .edx, c.reg .ebx, c.reg .esp, c.reg .ebp, c.reg .esi,
    c.reg .edi]

/-- `popa` skips the saved `esp`. -/
def Cpu.popa (c : Cpu) : Cpu :=
  let word (k : ℕ) := load c.mem (c.reg .esp + UInt32.ofNat (4 * k))
  { c with
    reg := fun
      | .edi => word 0
      | .esi => word 1
      | .ebp => word 2
      | .ebx => word 4
      | .edx => word 5
      | .ecx => word 6
      | .eax => word 7
      | .esp => c.reg .esp + UInt32.ofNat (4 * 8) }

/-! ### The handlers in C -/

structure Kernel where
  ticks : UInt32
  procs : ProcessManager

inductive KernelEvent
  /-- `irq_handler` is called. -/
  | irqHandler (irqnum : UInt32)
  /-- `process_tick` is called. -/
  | processTick
  | outb (port : UInt16) (value : UInt8)
  deriving DecidableEq

def pitIrq0Handler (k : Kernel) : Traced KernelEvent Kernel := do
  let k := { k with ticks := k.ticks + 1 }
  emit .processTick
  let k := { k with procs := processTick k.procs }
  emit (.outb 0x20 0x20)
  return k

/-- The `switch` of `irq_handler`: cases 1 and default do nothing. -/
def irqSwitch (k : Kernel) (irqnum : UInt32) : Traced KernelEvent Kernel :=
  if irqnum = 0 then pitIrq0Handler k else return k

def irqHandler (k : Kernel) (irqnum : UInt32) : Traced KernelEvent Kernel := do
  emit (.irqHandler irqnum)
  let k ← irqSwitch k irqnum
  emit (.outb 0x20 0x20)
  return k

/-! ### The stubs -/

inductive Instr
  | pushDword (v : UInt32)
  | pushEax
  | popEax
  | pusha
  | popa
  | movAxDs
  | movAx (v : UInt16)
  | movSegAx (s : Seg)
  /-- The call of the C function. -/
  | callHandler
  | addEsp (n : UInt32)

/-- The two common stubs, up to the `iret`. -/
def commonStub : List Instr :=
  [.pusha, .movAxDs, .pushEax, .movAx 0x10, .movSegAx .ds, .movSegAx .es, .movSegAx .fs, .movSegAx .gs,
    .callHandler, .popEax, .movSegAx .ds, .movSegAx .es, .movSegAx .fs, .movSegAx .gs, .popa, .addEsp 8]

/-- Its call is that of `irq_handler`. -/
def irqCommonStub : List Instr := commonStub

inductive Irq
  | irq0
  | irq1
  deriving DecidableEq

/-- The number that the `switch` expects. -/
def Irq.number : Irq → UInt16
  | .irq0 => 0
  | .irq1 => 1

/-- The second word that the stub pushes. -/
def Irq.vector : Irq → UInt32
  | .irq0 => 32
  | .irq1 => 33

/-- `irq0` and `irq1`, up to the `iret`. -/
def Irq.stub (irq : Irq) : List Instr := .pushDword 0 :: .pushDword irq.vector :: irqCommonStub

/-- What the machine code of a C function does to the processor, from its entry to after its `ret`:
    it takes the return address off the stack and keeps the segments and the 44 bytes of the caller
    above the return address, of which the lowest four are the argument, that `irq_handler` does not
    write to. What it does to the other registers does not matter here. -/
structure Cdecl where
  run : Cpu → Cpu
  esp : ∀ c, (run c).reg .esp = c.reg .esp + 4
  seg : ∀ c, (run c).seg = c.seg
  frame : ∀ c, ∀ i < 44, (run c).mem (c.reg .esp + 4 + UInt32.ofNat i) =
    c.mem (c.reg .esp + 4 + UInt32.ofNat i)

/-- The processor, and the variables that the C function works on. -/
structure Machine (κ : Type) where
  cpu : Cpu
  data : κ

section Exec
variable {ε κ : Type} (handler : κ → UInt32 → Traced ε κ) (callee : Cdecl) (ret : UInt32)

/-- One instruction; `handler` is the C function, `callee` its code, and `ret` the address behind the
    call. -/
def exec (m : Machine κ) : Instr → Traced ε (Machine κ)
  | .pushDword v => return { m with cpu := m.cpu.push v }
  | .pushEax => return { m with cpu := m.cpu.push (m.cpu.reg .eax) }
  | .popEax => return { m with cpu := m.cpu.pop .eax }
  | .pusha => return { m with cpu := m.cpu.pusha }
  | .popa => return { m with cpu := m.cpu.popa }
  | .movAxDs => return { m with cpu := m.cpu.set .eax (setAx (m.cpu.reg .eax) (m.cpu.seg .ds)) }
  | .movAx v => return { m with cpu := m.cpu.set .eax (setAx (m.cpu.reg .eax) v) }
  | .movSegAx s =>
    return { m with
      cpu := { m.cpu with seg := Function.update m.cpu.seg s (m.cpu.reg .eax).toUInt16 } }
  | .callHandler => do
    let cpu := m.cpu.push ret
    let data ← handler m.data (load cpu.mem (cpu.reg .esp + 4))
    return ⟨callee.run cpu, data⟩
  | .addEsp n => return { m with cpu := m.cpu.set .esp (m.cpu.reg .esp + n) }

def execAll (m : Machine κ) : List Instr → Traced ε (Machine κ)
  | [] => return m
  | i :: is => do
    let m ← exec handler callee ret m i
    execAll m is

end Exec

/-! ### Words and halves -/

theorem setAx_toNat (eax : UInt32) (v : UInt16) :
    (setAx eax v).toNat = eax.toNat / 2 ^ 16 * 2 ^ 16 + v.toNat := by
  have heax := eax.toNat_lt
  have hv := v.toNat_lt
  rw [setAx, UInt32.toNat_ofNat']
  omega

/-- What was written to `ax` is read from it. -/
theorem setAx_toUInt16 (eax : UInt32) (v : UInt16) : (setAx eax v).toUInt16 = v := by
  have hv := v.toNat_lt
  apply UInt16.toNat_inj.mp
  rw [UInt32.toNat_toUInt16, setAx_toNat]
  omega

/-- EXACT: `eax` is a small number after the write exactly when its high half was clear. -/
theorem setAx_eq_iff (eax : UInt32) (v n : UInt16) :
    setAx eax v = n.toUInt32 ↔ v = n ∧ eax.toNat < 2 ^ 16 := by
  have hv := v.toNat_lt
  have hn := n.toNat_lt
  rw [← UInt32.toNat_inj, setAx_toNat, UInt16.toNat_toUInt32, ← UInt16.toNat_inj]
  omega

/-! ### Up to the call -/

theorem pushes_spec (ws : List UInt32) (c : Cpu) :
    c.pushes ws = { c with
      reg := Function.update c.reg .esp (place (c.reg .esp) ws.length)
      mem := pushAll c.mem (c.reg .esp) ws } := by
  induction ws generalizing c with
  | nil => simp [Cpu.pushes, pushAll]
  | cons w ws ih =>
    rw [Cpu.pushes, List.foldl_cons, ← Cpu.pushes, ih]
    simp [Cpu.push, pushAll, place_sub_four]

/-- From the call to the `iret`. -/
def leave (c : Cpu) : Cpu :=
  let c := c.pop .eax
  let c := Cpu.popa { c with seg := fun _ => (c.reg .eax).toUInt16 }
  c.set .esp (c.reg .esp + 8)

/-- The words that a common stub saves, started in the state `c`. -/
def saved (c : Cpu) : List UInt32 :=
  [c.reg .eax, c.reg .ecx, c.reg .edx, c.reg .ebx, c.reg .esp, c.reg .ebp, c.reg .esi, c.reg .edi,
    setAx (c.reg .eax) (c.seg .ds)]

/-- The processor at the entry of the C function that a common stub calls. -/
def atCall (ret : UInt32) (c : Cpu) : Cpu where
  reg := Function.update
    (Function.update c.reg .eax (setAx (setAx (c.reg .eax) (c.seg .ds)) 0x10)) .esp
    (place (c.reg .esp) 10)
  seg := fun _ => 0x10
  mem := pushAll c.mem (c.reg .esp) (saved c ++ [ret])

/-- From the first instruction of a common stub to the call. -/
def enter (c : Cpu) : Cpu :=
  let c := c.pusha
  let c := c.set .eax (setAx (c.reg .eax) (c.seg .ds))
  let c := c.push (c.reg .eax)
  let c := c.set .eax (setAx (c.reg .eax) 0x10)
  { c with seg := fun _ => (c.reg .eax).toUInt16 }

theorem enter_push (ret : UInt32) (c : Cpu) : (enter c).push ret = atCall ret c := by
  have hwords : saved c ++ [ret] =
      (saved c).take 8 ++ [setAx (c.reg .eax) (c.seg .ds), ret] := rfl
  have hlen : ((saved c).take 8).length = 8 := rfl
  have hpusha : c.pusha = c.pushes ((saved c).take 8) := rfl
  rw [enter, hpusha, pushes_spec, hlen]
  ext r
  · cases r <;> simp [Cpu.push, Cpu.set, atCall, place_succ]
  · simp [Cpu.push, Cpu.set, atCall, setAx_toUInt16]
  · simp [Cpu.push, Cpu.set, atCall, hwords, pushAll_append, pushAll, hlen, place_succ]

@[simp] theorem atCall_esp (ret : UInt32) (c : Cpu) :
    (atCall ret c).reg .esp = place (c.reg .esp) 10 := by
  simp [atCall]

/-- Two pushes move the pointer and leave the other registers. -/
theorem push_push_reg (c : Cpu) (w w' : UInt32) :
    ((c.push w).push w').reg = Function.update c.reg .esp (place (c.reg .esp) 2) := by
  simp [Cpu.push, place_two]

section Stub
variable {ε κ : Type} (handler : κ → UInt32 → Traced ε κ) (callee : Cdecl) (ret : UInt32)

/-- The argument that the C function finds above its return address. -/
theorem argument_atCall (c : Cpu) :
    load (atCall ret c).mem ((atCall ret c).reg .esp + 4) = setAx (c.reg .eax) (c.seg .ds) := by
  have hesp : place (c.reg .esp) 10 + 4 = place (c.reg .esp) 9 := place_add (c.reg .esp) 9 1
  rw [atCall_esp, hesp]
  exact load_pushAll (saved c ++ [ret]) c.mem (c.reg .esp) (by simp [saved]) rfl

theorem execAll_movSegs (m : Machine κ) (is : List Instr) :
    execAll handler callee ret m
        (.movSegAx .ds :: .movSegAx .es :: .movSegAx .fs :: .movSegAx .gs :: is) =
      execAll handler callee ret
        { m with cpu := { m.cpu with seg := fun _ => (m.cpu.reg .eax).toUInt16 } } is := by
  have hseg : Function.update (Function.update (Function.update (Function.update m.cpu.seg
      .ds (m.cpu.reg .eax).toUInt16) .es (m.cpu.reg .eax).toUInt16) .fs (m.cpu.reg .eax).toUInt16)
      .gs (m.cpu.reg .eax).toUInt16 = fun _ => (m.cpu.reg .eax).toUInt16 := by
    funext s
    cases s <;> simp
  simp only [execAll, exec, pure_then]
  rw [hseg]

/-- From the entry of a common stub to the call. -/
theorem execAll_enter (m : Machine κ) (is : List Instr) :
    execAll handler callee ret m (.pusha :: .movAxDs :: .pushEax :: .movAx 0x10 :: .movSegAx .ds ::
        .movSegAx .es :: .movSegAx .fs :: .movSegAx .gs :: is) =
      execAll handler callee ret { m with cpu := enter m.cpu } is := by
  rw [execAll, exec, pure_then, execAll, exec, pure_then, execAll, exec, pure_then, execAll, exec,
    pure_then, execAll_movSegs, enter]

/-- From the call to the `iret`. -/
theorem execAll_leave (m : Machine κ) :
    execAll handler callee ret m [.popEax, .movSegAx .ds, .movSegAx .es, .movSegAx .fs, .movSegAx .gs,
        .popa, .addEsp 8] = return { m with cpu := leave m.cpu } := by
  rw [execAll, exec, pure_then, execAll_movSegs, execAll, exec, pure_then, execAll, exec,
    pure_then, execAll, leave]

theorem execAll_call (m : Machine κ) (is : List Instr) :
    execAll handler callee ret m (.callHandler :: is) =
      (handler m.data (load (m.cpu.push ret).mem ((m.cpu.push ret).reg .esp + 4)) >>=
        fun data => execAll handler callee ret ⟨callee.run (m.cpu.push ret), data⟩ is) := by
  simp only [execAll, exec, then_assoc, pure_then]

/-- SPEC of a common stub: enter, call, leave. -/
theorem execAll_commonStub (m : Machine κ) :
    execAll handler callee ret m commonStub = do
      let data ← handler m.data (setAx (m.cpu.reg .eax) (m.cpu.seg .ds))
      return ⟨leave (callee.run (atCall ret m.cpu)), data⟩ := by
  rw [commonStub, execAll_enter, execAll_call, enter_push, argument_atCall]
  simp only [execAll_leave]

theorem execAll_push (m : Machine κ) (w : UInt32) (is : List Instr) :
    execAll handler callee ret m (.pushDword w :: is) =
      execAll handler callee ret { m with cpu := m.cpu.push w } is := by
  rw [execAll, exec, pure_then]

/-- SPEC of a stub that pushes two words first. -/
theorem execAll_pushed (m : Machine κ) (w w' : UInt32) :
    execAll handler callee ret m (.pushDword w :: .pushDword w' :: commonStub) = do
      let data ← handler m.data (setAx (m.cpu.reg .eax) (m.cpu.seg .ds))
      return ⟨leave (callee.run (atCall ret ((m.cpu.push w).push w'))), data⟩ := by
  have heax : ((m.cpu.push w).push w').reg .eax = m.cpu.reg .eax := by simp [push_push_reg]
  have hds : ((m.cpu.push w).push w').seg .ds = m.cpu.seg .ds := rfl
  rw [execAll_push, execAll_push, execAll_commonStub]
  simp only [heax, hds]

/-! ### After the call -/

/-- The saved words are on the stack when the C function is back. -/
theorem load_after_call (c : Cpu) {k : ℕ} {w : UInt32} (hw : (saved c)[k]? = some w) :
    load (callee.run (atCall ret c)).mem (place (c.reg .esp) (k + 1)) = w := by
  have hk : k < 9 := (List.getElem?_eq_some_iff.mp hw).1
  have hpush : load (atCall ret c).mem (place (c.reg .esp) (k + 1)) = w := by
    refine load_pushAll (saved c ++ [ret]) _ _ (by simp [saved]) ?_
    rwa [List.getElem?_append_left (by simpa [saved] using hk)]
  -- counted from the argument, word `k` starts at byte `4 * (8 - k)`
  have hplace : place (c.reg .esp) (k + 1) =
      place (c.reg .esp) 10 + 4 + UInt32.ofNat (4 * (8 - k)) := by
    rw [show place (c.reg .esp) 10 + 4 = place (c.reg .esp) 9 from place_add (c.reg .esp) 9 1,
      ← place_add (c.reg .esp) (k + 1) (8 - k), show k + 1 + (8 - k) = 9 by omega]
  rw [← hpush]
  refine load_congr fun i hi => ?_
  have hkept := callee.frame (atCall ret c) (4 * (8 - k) + i) (by omega)
  rwa [atCall_esp, UInt32.ofNat_add, ← UInt32.add_assoc, ← hplace] at hkept

/-- SPEC of the way out: the registers and `ds` are those that were saved, and the two words below are
    off the stack. -/
theorem leave_atCall (c : Cpu) :
    (leave (callee.run (atCall ret c))).reg = Function.update c.reg .esp (c.reg .esp + 8) ∧
      (leave (callee.run (atCall ret c))).seg .ds = c.seg .ds := by
  have hload := fun k w => @load_after_call callee ret c k w
  have hesp : (callee.run (atCall ret c)).reg .esp = place (c.reg .esp) 9 := by
    rw [callee.esp, atCall_esp]
    exact place_add (c.reg .esp) 9 1
  generalize callee.run (atCall ret c) = c' at hload hesp
  -- the words that `popa` takes, from the pointer after `pop eax` on
  have hword : ∀ j k w, k + 1 + j = 8 → (saved c)[k]? = some w →
      load c'.mem (place (c.reg .esp) 8 + UInt32.ofNat (4 * j)) = w := by
    intro j k w hjk hw
    rw [← hjk, place_add]
    exact hload k w hw
  have hpop : place (c.reg .esp) 9 + 4 = place (c.reg .esp) 8 := place_add (c.reg .esp) 8 1
  have hback : place (c.reg .esp) 8 + UInt32.ofNat (4 * 8) = c.reg .esp :=
    (place_add (c.reg .esp) 0 8).trans (place_zero _)
  constructor
  · funext r
    cases r with
    | eax => simpa [leave, Cpu.pop, Cpu.popa, Cpu.set, hesp, hpop] using hword 7 0 _ rfl rfl
    | ecx => simpa [leave, Cpu.pop, Cpu.popa, Cpu.set, hesp, hpop] using hword 6 1 _ rfl rfl
    | edx => simpa [leave, Cpu.pop, Cpu.popa, Cpu.set, hesp, hpop] using hword 5 2 _ rfl rfl
    | ebx => simpa [leave, Cpu.pop, Cpu.popa, Cpu.set, hesp, hpop] using hword 4 3 _ rfl rfl
    | esp => simpa [leave, Cpu.pop, Cpu.popa, Cpu.set, hesp, hpop] using hback
    | ebp => simpa [leave, Cpu.pop, Cpu.popa, Cpu.set, hesp, hpop] using hword 2 5 _ rfl rfl
    | esi => simpa [leave, Cpu.pop, Cpu.popa, Cpu.set, hesp, hpop] using hword 1 6 _ rfl rfl
    | edi => simpa [leave, Cpu.pop, Cpu.popa, Cpu.set, hesp, hpop] using hword 0 7 _ rfl rfl
  · have hds := hload 8 _ rfl
    simp [leave, Cpu.pop, Cpu.popa, Cpu.set, hesp, hds, setAx_toUInt16]

/-- When two words were pushed before, the registers and `ds` are those from before these pushes. -/
theorem leave_pushed (c : Cpu) (w w' : UInt32) :
    (leave (callee.run (atCall ret ((c.push w).push w')))).reg = c.reg ∧
      (leave (callee.run (atCall ret ((c.push w).push w')))).seg .ds = c.seg .ds := by
  obtain ⟨hreg, hds⟩ := leave_atCall callee ret ((c.push w).push w')
  have hback : place (c.reg .esp) 2 + 8 = c.reg .esp :=
    (place_add (c.reg .esp) 0 2).trans (place_zero _)
  refine ⟨hreg.trans ?_, hds⟩
  rw [push_push_reg, Function.update_self, hback, Function.update_idem, Function.update_eq_self]

end Stub

/-! ### The handler -/

/-- The numbers with which `irq_handler` was called. -/
def calls (es : List KernelEvent) : List UInt32 :=
  es.filterMap fun
    | .irqHandler irqnum => some irqnum
    | _ => none

/-- The stub calls `irq_handler` once, and that does not call itself. -/
theorem calls_irqHandler (k : Kernel) (irqnum : UInt32) :
    calls (irqHandler k irqnum).events = [irqnum] := by
  by_cases h : irqnum = 0 <;> simp [irqHandler, irqSwitch, pitIrq0Handler, calls, h]

/-- `ticks` has gone up by one, with one call of `process_tick`. -/
def TickedOnce (before : Kernel) (x : Traced KernelEvent Kernel) : Prop :=
  x.val.ticks = before.ticks + 1 ∧ x.events.count .processTick = 1

/-- EXACT: `irq_handler` lets the timer tick exactly when its argument is `0`. -/
theorem tickedOnce_iff (k : Kernel) (irqnum : UInt32) :
    TickedOnce k (irqHandler k irqnum) ↔ irqnum = 0 := by
  by_cases h : irqnum = 0
  · simp [TickedOnce, irqHandler, irqSwitch, pitIrq0Handler, h]
  · simp [TickedOnce, irqHandler, irqSwitch, h]

/-! ### Interrupts -/

section Beside
variable {ε κ : Type} (x : Traced ε κ) (cpu : Cpu)

-- over any `x`: with `irq_handler` in its place these hold by computation too, but slowly

theorem data_beside : (x >>= fun data => return Machine.mk cpu data).val.data = x.val := rfl

theorem cpu_beside : (x >>= fun data => return Machine.mk cpu data).val.cpu = cpu := rfl

theorem events_beside : (x >>= fun data => return Machine.mk cpu data).events = x.events := by
  rw [events_bind, events_pure, List.append_nil]

end Beside

/-- The processor is in a state from which the stub passes the number. -/
def Entry (irq : Irq) (c : Cpu) : Prop := c.seg .ds = irq.number ∧ (c.reg .eax).toNat < 2 ^ 16

section Timer
variable (callee : Cdecl) (ret : UInt32)

/-- A timer interrupt, taken in the given state of the processor. -/
def timerStep (k : Kernel) (c : Cpu) : Kernel × List KernelEvent :=
  ((execAll irqHandler callee ret ⟨c, k⟩ Irq.irq0.stub).val.data,
    (execAll irqHandler callee ret ⟨c, k⟩ Irq.irq0.stub).events)

/-- SPEC of the two stubs. -/
theorem execAll_irqStub (irq : Irq) (m : Machine Kernel) :
    execAll irqHandler callee ret m irq.stub = do
      let data ← irqHandler m.data (setAx (m.cpu.reg .eax) (m.cpu.seg .ds))
      return ⟨leave (callee.run (atCall ret ((m.cpu.push 0).push irq.vector))), data⟩ :=
  execAll_pushed irqHandler callee ret m 0 irq.vector

theorem timerStep_eq (k : Kernel) (c : Cpu) :
    timerStep callee ret k c = ((irqHandler k (setAx (c.reg .eax) (c.seg .ds))).val,
      (irqHandler k (setAx (c.reg .eax) (c.seg .ds))).events) := by
  rw [timerStep, execAll_irqStub, data_beside, events_beside]

theorem tickedOnce_parts (x : Traced KernelEvent Kernel) (k : Kernel) :
    TickedOnce k ⟨(x.val, x.events).1, (x.val, x.events).2⟩ ↔ TickedOnce k x := Iff.rfl

/-- EXACT: for every state of the processor the stubs restore the registers, `ds` and the stack
    pointer; they pass the number of the interrupt exactly when `ds` is that number and the high half
    of `eax` is `0`; and a run of timer interrupts ticks once with each exactly when all of them are
    taken in such a state. -/
theorem irq_stubs_iff :
    (∀ (irq : Irq) (m : Machine Kernel),
      (execAll irqHandler callee ret m irq.stub).val.cpu.reg = m.cpu.reg ∧
      (execAll irqHandler callee ret m irq.stub).val.cpu.seg .ds = m.cpu.seg .ds ∧
      (calls (execAll irqHandler callee ret m irq.stub).events = [irq.number.toUInt32] ↔
        Entry irq m.cpu)) ∧
    ∀ (k : Kernel) (cpus : List Cpu),
      Along (timerStep callee ret) (fun k c => TickedOnce k
          ⟨(timerStep callee ret k c).1, (timerStep callee ret k c).2⟩) k cpus ↔
        ∀ c ∈ cpus, Entry .irq0 c := by
  constructor
  · intro irq m
    obtain ⟨hreg, hds⟩ := leave_pushed callee ret m.cpu 0 irq.vector
    rw [execAll_irqStub, cpu_beside, events_beside, calls_irqHandler, List.singleton_inj]
    exact ⟨hreg, hds, setAx_eq_iff ..⟩
  · intro k cpus
    rw [← along_iff_forall_mem cpus k]
    refine along_congr (I := fun _ => True) (fun _ _ _ _ => trivial) (fun k c _ => ?_) cpus k trivial
    rw [timerStep_eq, tickedOnce_parts, tickedOnce_iff]
    exact setAx_eq_iff _ _ 0

end Timer

/-! ### The kernel's own data segment -/

/-- A function that returns at once. -/
def plainRet : Cdecl where
  run c := c.set .esp (c.reg .esp + 4)
  esp c := by simp [Cpu.set]
  seg _ := rfl
  frame _ _ _ := rfl

/-- The kernel runs with `ds = 0x10`; the registers are `0` but for the stack. -/
def kernelCpu : Cpu where
  reg := fun r => if r = .esp then 0x90000 else 0
  seg := fun _ => 0x10
  mem := fun _ => 0

/-- A timer interrupt in the kernel passes `0x10`: no tick, and no call of the scheduler. -/
theorem timer_interrupt_lost :
    calls (execAll irqHandler plainRet 0 ⟨kernelCpu, ⟨0, staticProcesses⟩⟩ Irq.irq0.stub).events =
        [0x10] ∧
      (timerStep plainRet 0 ⟨0, staticProcesses⟩ kernelCpu).1.ticks = 0 ∧
      .processTick ∉ (timerStep plainRet 0 ⟨0, staticProcesses⟩ kernelCpu).2 := by
  have harg : setAx (kernelCpu.reg .eax) (kernelCpu.seg .ds) = 0x10 := by decide
  rw [timerStep_eq, execAll_irqStub, events_beside, calls_irqHandler, harg]
  exact ⟨rfl, rfl, by decide⟩

end VlsOs.Interrupt
