import VlsOs.Kernel.Interrupts
import VlsOs.Kernel.Vga

/-! Exceptions (`kernel/interrupts.asm`, `kernel/idt.c`).

    The processor pushes an error code for a double fault and for a page fault; the stubs of the others
    push a `0` in its place. After the number, `isr_common_stub` does what `irq_common_stub` does, with
    `isr_handler` for the function that is called. That prints a line and returns.

        place    1     2        3   …   10    11              12
                 code │ number │ eax … edi │ high eax : ds │ return address
                                             └ argument

    So the line does not depend on the number, and the instruction that failed is tried again with the
    registers that it had. `idt_init` puts the stubs at the numbers of the exceptions and, for the timer
    and the keyboard, at 32 and 33; which number a line of the interrupt controller has is nowhere set. -/

namespace VlsOs.Interrupt
open Patterns Patterns.Run Patterns.Trace Patterns.Stack VlsOs.Libc VlsOs.Vga

inductive Isr
  | isr0
  | isr1
  | isr8
  | isr14
  deriving DecidableEq

/-- The number that the `switch` expects. -/
def Isr.number : Isr → UInt16
  | .isr0 => 0
  | .isr1 => 1
  | .isr8 => 8
  | .isr14 => 14

/-- The text for an exception. -/
def Isr.text : Isr → String
  | .isr0 => "Divide by zero\n"
  | .isr1 => "Debug exception\n"
  | .isr8 => "Double fault\n"
  | .isr14 => "Page fault\n"

/-- The `switch` of `isr_handler`. -/
def isrText (isrnum : UInt32) : String :=
  if isrnum = 0 then Isr.isr0.text
  else if isrnum = 1 then Isr.isr1.text
  else if isrnum = 8 then Isr.isr8.text
  else if isrnum = 14 then Isr.isr14.text
  else "Unknown exception\n"

def isrHandler (screen : Screen) (isrnum : UInt32) : Traced VgaEvent Screen := do
  let screen ← vgaWriteString screen (chars "Exception: ")
  vgaWriteString screen (chars (isrText isrnum))

theorem isrHandler_val (screen : Screen) (isrnum : UInt32) :
    (isrHandler screen isrnum).val =
      (vgaWriteString (vgaWriteString screen (chars "Exception: ")).val (chars (isrText isrnum))).val := by
  rw [isrHandler, val_bind]

/-! ### The stubs -/

/-- Its call is that of `isr_handler`. -/
def isrCommonStub : List Instr := commonStub

/-- `isr0`, `isr1`, `isr8` and `isr14`, up to the `iret`. -/
def Isr.stub : Isr → List Instr
  | .isr0 => .pushDword 0 :: .pushDword 0 :: isrCommonStub
  | .isr1 => .pushDword 0 :: .pushDword 1 :: isrCommonStub
  | .isr8 => .pushDword 8 :: isrCommonStub
  | .isr14 => .pushDword 14 :: isrCommonStub

/-- What the processor does before the stub, after it has pushed the flags, `cs` and `eip`. -/
def Isr.raise (isr : Isr) (code : UInt32) (c : Cpu) : Cpu :=
  match isr with
  | .isr0 | .isr1 => c
  | .isr8 | .isr14 => c.push code

/-- The error code and the number, whoever pushes them. -/
def Isr.words (isr : Isr) (code : UInt32) : UInt32 × UInt32 :=
  match isr with
  | .isr0 => (0, 0)
  | .isr1 => (0, 1)
  | .isr8 => (code, 8)
  | .isr14 => (code, 14)

section
variable (callee : Cdecl) (ret : UInt32)

/-- An exception, with what is done to the screen; `callee` is the code of `isr_handler`. -/
def Isr.taken (isr : Isr) (m : Machine Screen) (code : UInt32) : Machine Screen × List VgaEvent :=
  let x := execAll isrHandler callee ret { m with cpu := isr.raise code m.cpu } isr.stub
  (x.val, x.events)

/-- SPEC of the stubs: the words that the processor has not pushed, and the common stub. -/
theorem execAll_isrStub (isr : Isr) (code : UInt32) (m : Machine Screen) :
    execAll isrHandler callee ret { m with cpu := isr.raise code m.cpu } isr.stub = do
      let screen ← isrHandler m.data (setAx (m.cpu.reg .eax) (m.cpu.seg .ds))
      return ⟨leave (callee.run (atCall ret
        ((m.cpu.push (isr.words code).1).push (isr.words code).2))), screen⟩ := by
  rw [← execAll_pushed isrHandler callee ret m (isr.words code).1 (isr.words code).2]
  cases isr <;> simp only [Isr.stub, Isr.raise, Isr.words, isrCommonStub, execAll_push]

/-- STEP: the registers and `ds` are what they were, and `isr_handler` has been called once with the saved
    `ds` for its argument. -/
theorem taken_spec (isr : Isr) (m : Machine Screen) (code : UInt32) :
    (isr.taken callee ret m code).1.cpu.reg = m.cpu.reg ∧
      (isr.taken callee ret m code).1.cpu.seg .ds = m.cpu.seg .ds ∧
      (isr.taken callee ret m code).1.data =
        (isrHandler m.data (setAx (m.cpu.reg .eax) (m.cpu.seg .ds))).val := by
  obtain ⟨hreg, hds⟩ := leave_pushed callee ret m.cpu (isr.words code).1 (isr.words code).2
  rw [Isr.taken, execAll_isrStub]
  simp only [cpu_beside, data_beside]
  exact ⟨hreg, hds, trivial⟩

/-! ### The line -/

/-- EXACT: an exception is called by its name exactly when the argument is its number. -/
theorem isrText_eq_iff (isr : Isr) (isrnum : UInt32) :
    isrText isrnum = isr.text ↔ isrnum = isr.number.toUInt32 := by
  rw [isrText]
  cases isr <;> split_ifs <;> simp_all [Isr.text, Isr.number]

/-- With the kernel's data segment for the number no exception has a name. -/
theorem isrText_kernel (eax : UInt32) : isrText (setAx eax 0x10) = "Unknown exception\n" := by
  have hother (n : UInt16) (hn : 0x10 ≠ n) : ¬setAx eax 0x10 = n.toUInt32 :=
    fun h => hn ((setAx_eq_iff eax 0x10 n).mp h).1
  have hzero : ¬setAx eax 0x10 = 0 := hother 0 (by decide)
  have hone : ¬setAx eax 0x10 = 1 := hother 1 (by decide)
  have height : ¬setAx eax 0x10 = 8 := hother 8 (by decide)
  have hfourteen : ¬setAx eax 0x10 = 14 := hother 14 (by decide)
  rw [isrText, if_neg hzero, if_neg hone, if_neg height, if_neg hfourteen]

/-- RUN: the same for any number of times. -/
theorem taken_run (isr : Isr) (codes : List UInt32) (m : Machine Screen) :
    (after (isr.taken callee ret) m codes).cpu.reg = m.cpu.reg ∧
      (after (isr.taken callee ret) m codes).cpu.seg .ds = m.cpu.seg .ds ∧
      (after (isr.taken callee ret) m codes).data =
        (fun screen => (isrHandler screen (setAx (m.cpu.reg .eax) (m.cpu.seg .ds))).val)^[codes.length]
          m.data := by
  induction codes generalizing m with
  | nil => exact ⟨rfl, rfl, rfl⟩
  | cons code codes ih =>
    obtain ⟨hreg, hds, hscreen⟩ := taken_spec callee ret isr m code
    obtain ⟨hreg', hds', hscreen'⟩ := ih (isr.taken callee ret m code).1
    rw [hreg, hds, hscreen] at hscreen'
    rw [after_cons, List.length_cons, Function.iterate_succ_apply]
    exact ⟨hreg'.trans hreg, hds'.trans hds, hscreen'⟩

/-- EXACT: however often the instruction that failed is tried again, the registers and `ds` are what they
    were, and each time the same line is written to the screen. It names the exception exactly when `ds`
    is its number and the high half of `eax` is `0`, which is not so for the kernel's own `ds`. -/
theorem exception_repeats (isr : Isr) (m : Machine Screen) (codes : List UInt32) :
    let text := isrText (setAx (m.cpu.reg .eax) (m.cpu.seg .ds))
    let m' := after (isr.taken callee ret) m codes
    m'.cpu.reg = m.cpu.reg ∧ m'.cpu.seg .ds = m.cpu.seg .ds ∧
      m'.data = (fun screen => (vgaWriteString (vgaWriteString screen (chars "Exception: ")).val
        (chars text)).val)^[codes.length] m.data ∧
      (text = isr.text ↔ m.cpu.seg .ds = isr.number ∧ (m.cpu.reg .eax).toNat < 2 ^ 16) ∧
      (m.cpu.seg .ds = 0x10 → text = "Unknown exception\n") := by
  obtain ⟨hreg, hds, hscreen⟩ := taken_run callee ret isr codes m
  simp only [isrHandler_val] at hscreen
  refine ⟨hreg, hds, hscreen, (isrText_eq_iff ..).trans (setAx_eq_iff ..), fun hkernel => ?_⟩
  rw [hkernel]
  exact isrText_kernel _

/-! ### The table -/

inductive Gate
  | isr (isr : Isr)
  | irq (irq : Irq)
  deriving DecidableEq

/-- The stubs that `idt_init` enters into the table. The other entries are cleared. -/
def idtInit : UInt8 → Option Gate
  | 0 => some (.isr .isr0)
  | 1 => some (.isr .isr1)
  | 8 => some (.isr .isr8)
  | 14 => some (.isr .isr14)
  | 32 => some (.irq .irq0)
  | 33 => some (.irq .irq1)
  | _ => none

/-- An interrupt that comes in at the number of the double fault finds the stub of an exception. There is
    no error code for it, so that the way out takes one word too many off the stack: the `iret` finds
    `cs` where `eip` should be. -/
theorem interrupt_at_isr8 (m : Machine Screen) :
    idtInit 8 = some (.isr .isr8) ∧
      (execAll isrHandler callee ret m Isr.isr8.stub).val.cpu.reg =
        Function.update m.cpu.reg .esp (m.cpu.reg .esp + 4) := by
  have hesp : m.cpu.reg .esp - 4 + 8 = m.cpu.reg .esp + 4 := by
    rw [show (8 : UInt32) = 4 + 4 from rfl, ← UInt32.add_assoc, UInt32.sub_add_cancel]
  refine ⟨rfl, ?_⟩
  rw [Isr.stub, execAll_push, isrCommonStub, execAll_commonStub, cpu_beside,
    (leave_atCall callee ret (m.cpu.push 8)).1]
  funext r
  cases r <;> simp [Cpu.push, hesp]

end

end VlsOs.Interrupt
