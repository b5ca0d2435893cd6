import VlsOs.Kernel.Exceptions
import VlsOs.Shell.Commands

/-! The whole system, as the shell sees it (`kernel/main.c`, `shell/shell.c`).

    `kmain` sets up the screen, the heap, the process table, the timer, the drives, the file system and
    the pipes, and starts the shell. It calls none of the `*_init` functions of the network, so there is
    no interface, and nothing ever polls the network. From then on commands run one at a time, and
    interrupts come in between. `idt_init` has stubs for them at 32 and 33, but nothing programs the
    interrupt controller: under which number an interrupt comes is for the environment to say.

        kmain ──▶ command ──▶ command ──▶ ⋯
                       ▲ interrupts at any time -/

namespace VlsOs.Shell
open Patterns Patterns.Trace VlsOs.Libc VlsOs.Memory VlsOs.Net VlsOs.Net.Sock VlsOs.Proc VlsOs.Interrupt
open VlsOs.Disk VlsOs.Ui

/-! ### State -/

/-- The state of the kernel. `config` has the further fields of the network interface. Of the IPC tables
    only the pipes are used, which need no heap. -/
structure Os where
  net : NetSystem
  config : AddressConfig
  fs : Fs.FsState
  drives : Drives
  kernel : Kernel
  ipc : Ipc.IpcState
  ui : UiState

/-- What a command finds: its local variables that no call fills in, and how a controller takes the
    command of `disk read`. -/
structure CallEnv where
  array : List UInt8
  buffer : ℕ → UInt8
  msg1 : UInt32
  msg2 : UInt32
  info : Fs.FsDirInfo
  entries : ℕ → Fs.FsDirInfo
  answer : DriveAnswer

/-! ### Commands -/

/-- A command that changes nothing. -/
def leaves (os : Os) (x : Traced CmdEvent ℤ) : Traced OsEvent (Option (ℤ × Os)) := do
  let code ← relabel .cmd x
  return some (code, os)

/-- A command that changes a part of the state. -/
def changes {α : Type} (put : α → Os) (x : Traced CmdEvent (ℤ × α)) :
    Traced OsEvent (Option (ℤ × Os)) := do
  let r ← relabel .cmd x
  return some (r.1, put r.2)

def Os.setSocks (os : Os) (socks : Sockets) : Os := { os with net := { os.net with socks := socks } }

def Os.setScreen (os : Os) (screen : Vga.Screen) : Os :=
  { os with ui := { os.ui with content := { os.ui.content with screen := screen } } }

/-- The disk as the driver gets to it. Without drive 0 every read fails before there is any data. -/
def diskOf (g : Drives) (d : Fs.Disk) : Fs.Disk :=
  if (g.disks 0).present then d else { d with stopsAfter := fun _ => some 0 }

/-- More turns than a file has bytes. -/
def catTurns : ℕ := 2 ^ 32

/-- The handler of a command: what it returns, and the state after it. It has not returned after
    `catTurns` turns if there is nothing. -/
def Command.run (d : Fs.Disk) (os : Os) (env : CallEnv) (argv : List (List UInt8)) :
    Command → Traced OsEvent (Option (ℤ × Os))
  | .help => leaves os cmdHelp
  | .echo => leaves os (cmdEcho argv)
  | .clear => return some (0, os.setScreen (cmdClear os.ui.content.screen))
  | .uptime => leaves os (cmdUptime os.kernel.ticks env.array)
  | .exit => leaves os cmdExit
  | .ifconfig => leaves os (cmdIfconfig os.net.socks.net os.config env.array)
  | .ping => changes (fun net => os.setSocks { os.net.socks with net := net })
      (cmdPing os.net.socks.net argv)
  | .netstat => leaves os cmdNetstat
  | .arp => leaves os cmdArp
  | .route => leaves os cmdRoute
  | .http => changes (fun net => { os with net := net }) (cmdHttp os.net argv)
  | .dns => changes (fun net => { os with net := net }) (cmdDns os.net argv)
  | .dhcp => changes (fun net => { os with net := net }) (cmdDhcp os.net argv)
  | .wget => changes os.setSocks (cmdWget os.net.socks argv env.array env.array env.buffer)
  | .disk => leaves os (cmdDisk os.drives env.answer argv env.buffer env.array)
  | .ps => leaves os (cmdPs os.kernel env.array)
  | .kill => changes (fun k => { os with kernel := k }) (cmdKill os.kernel argv env.array)
  | .ls => leaves os (cmdLs os.fs env.entries env.array)
  | .cat => do
    let ended ← relabel .cmd (cmdCat catTurns (diskOf os.drives d) os.fs argv env.buffer)
    return ended.map fun r => (r.1, { os with fs := r.2 })
  | .file => leaves os (cmdFile os.fs argv env.info env.array)
  | .pipe => changes (fun ipc => { os with ipc := ipc })
      (cmdPipe os.ipc ((processCurrent os.kernel.procs).map fun i => (os.kernel.procs.table i).pid)
        env.array env.msg1 env.msg2)
  | .ui => do
    let r ← cmdUi os.net.socks.net os.ui argv
    return some (r.1, { os with ui := r.2 })

/-- Characters go to the screen. -/
def writeAll (s : Vga.Screen) (characters : List UInt8) : Vga.Screen :=
  characters.foldl (fun s c => (Vga.vgaWriteChar s c).val) s

def Os.write (os : Os) (characters : List UInt8) : Os :=
  os.setScreen (writeAll os.ui.content.screen characters)

/-- What comes of a call: the result, unless there is none, and the characters that it puts on the
    screen. -/
structure CallOut where
  code : Option ℤ
  shown : List UInt8

/-- A call of a handler. What the functions of `ui/ui.c` draw is on the screen of the state already; what
    a handler prints itself comes after that. -/
def osCall (d : Fs.Disk) (os : Os) (command : Command) (argv : List (List UInt8)) (env : CallEnv) :
    Os × CallOut :=
  let x := command.run d os env argv
  (((x.val.map Prod.snd).getD os).write (printedBy x), ⟨x.val.map Prod.fst, shownBy x⟩)

/-! ### Interrupts -/

section
-- the machine code of `irq_handler`, the address behind its call, and the numbers under which the
-- interrupts of the timer and the keyboard come
variable (callee : Cdecl) (ret : UInt32) (vectors : Irq → UInt8)

/-- The numbers are those of the stubs. -/
def Remapped : Prop := vectors .irq0 = 32 ∧ vectors .irq1 = 33

/-- An interrupt that comes when the processor is in the state `cpu`. There is no state after it if it
    does not find a stub for interrupts. -/
def Os.interrupt (os : Os) (irq : Irq) (cpu : Cpu) : Option Os :=
  match idtInit (vectors irq) with
  | some (.irq irq) =>
    some { os with kernel := (execAll irqHandler callee ret ⟨cpu, os.kernel⟩ irq.stub).val.data }
  | some (.isr _) | none => none

inductive OsOp
  | call (command : Command) (argv : List (List UInt8)) (env : CallEnv)
  | interrupt (irq : Irq) (cpu : Cpu)

/-- The system, as long as there is one. -/
def osStep (d : Fs.Disk) : Option Os → OsOp → Option Os × Option CallOut
  | none, _ => (none, none)
  | some os, .call command argv env =>
    (some (osCall d os command argv env).1, some (osCall d os command argv env).2)
  | some os, .interrupt irq cpu => (os.interrupt callee ret vectors irq cpu, none)

end

/-! ### Start-up -/

/-- What the kernel finds: the video memory, the memory of the heap, the place of the process stacks, and
    the drives. -/
structure BootEnv where
  video : ℤ → UInt16
  mem : Mem
  area : StackArea
  drives : Fin maxDrives → IdentifyAnswer

def writeText (s : Vga.Screen) (text : String) : Vga.Screen := (Vga.vgaWriteString s (chars text)).val

def kernelPanic (s : Vga.Screen) (message : String) : Vga.Screen :=
  let s := Vga.vgaSetColor s 12 0
  let s := writeText s "\nKERNEL PANIC: "
  let s := writeText s message
  writeText s "\n"

/-- The screen of `kmain` up to the check of the magic number. -/
def welcome (video : ℤ → UInt16) : Vga.Screen :=
  let s := (Vga.vgaInit (Vga.staticScreen video)).val
  let s := (Vga.vgaClearScreen s).val
  let s := Vga.vgaSetColor s 10 0
  let s := writeText s "VlsOs Operating System v0.1.0\n"
  writeText s "================================\n\n"

/-- What `kmain` prints once the magic number is right, in order. `keyboard_init` is the only one of the
    functions that it calls to print something itself. -/
def bootMessages : List String :=
  ["Initializing kernel...\n", "Memory management initialized\n", "Interrupt handler initialized\n",
    "Process manager initialized\n", "Timer initialized\n", "Keyboard driver loaded\n",
    "Keyboard initialized\n", "Disk subsystem initialized\n", "File system initialized\n",
    "IPC subsystem initialized\n", "\nKernel initialization complete!\n",
    "Type 'help' for available commands.\n\n"]

/-- The static variables of the network: no interface, and no service has been set up. -/
def staticNet (heap : Heap) (mem : Mem) : NetSystem where
  socks := staticSockets ⟨none, ⟨[], Nat.zero_le 32⟩, heap, mem⟩
  http := ⟨⟨0, false⟩, fun _ => ⟨anyAddr, 0, 0, false⟩, 0⟩
  dns := ⟨false, 0⟩
  dhcp := ⟨false, 0, anyAddr, anyAddr, anyAddr, anyAddr, anyAddr⟩

/-- `kmain` up to the call of `shell_main`: the system, or the screen of a kernel that has come to a
    halt. What the network allocates lies behind the caches of the file system, where the memory is as it
    was. -/
def kmain (d : Fs.Disk) (env : BootEnv) (magic : UInt32) : Except Vga.Screen Os :=
  let screen := welcome env.video
  if magic ≠ 0x2BADB002 then .error (kernelPanic screen "Invalid multiboot magic number!")
  else
    let heap := memoryInit ⟨null⟩
    let procs := processInit env.area staticProcesses
    let kernel := (Pit.pitInit ⟨0, procs⟩ 1000).val
    let drives := (diskInit staticDrives env.drives).val
    let (_, heap, fs) := Fs.fsInit (diskOf drives d) env.mem heap Fs.staticFs
    let screen := Vga.vgaSetColor (bootMessages.foldl writeText screen) 7 0
    .ok { net := staticNet heap env.mem, config := ⟨anyAddr, anyAddr, anyAddr, anyAddr⟩, fs := fs,
          drives := drives, kernel := kernel, ipc := Ipc.bootIpc, ui := ⟨staticContent screen, false⟩ }

end VlsOs.Shell
