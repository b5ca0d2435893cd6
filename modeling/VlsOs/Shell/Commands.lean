import VlsOs.Kernel.Drives
import VlsOs.Kernel.Pit
import VlsOs.Net.Commands
import VlsOs.Net.System
import VlsOs.Shell.Cat
import VlsOs.Shell.Display
import VlsOs.Ui.Content

/-! The table of commands (`shell/shell.c`), and those of its handlers that are not modelled elsewhere.

    `help`, `echo`, `clear` and `exit` are in `shell/shell.c`; `netstat`, `arp`, `route`, the control of
    the services, `disk`, `ps`, `kill` and `ui` in `net/netcmd.c`, with `process_display_info` of
    `kernel/process.c` and the switches of `ui/ui.c`. As before, a local array starts with whatever is
    on the stack, and `argc` is the length of `argv`. -/

namespace VlsOs.Shell
open Patterns Patterns.Trace VlsOs.Libc VlsOs.Net.Sock VlsOs.Proc VlsOs.Interrupt VlsOs.Disk

/-! ### The table -/

inductive Command
  | help
  | echo
  | clear
  | uptime
  | exit
  | ifconfig
  | ping
  | netstat
  | arp
  | route
  | http
  | dns
  | dhcp
  | wget
  | disk
  | ps
  | kill
  | ls
  | cat
  | file
  | pipe
  | ui
  deriving DecidableEq

/-- `commands`, with the texts for `help`. -/
def commandTable : List (Command × String × String) :=
  [(.help, "help", "Display available commands"),
    (.echo, "echo", "Echo arguments to display"),
    (.clear, "clear", "Clear the screen"),
    (.uptime, "uptime", "Show system uptime"),
    (.exit, "exit", "Exit the shell"),
    (.ifconfig, "ifconfig", "Show network interface configuration"),
    (.ping, "ping", "Send ICMP echo request (ping)"),
    (.netstat, "netstat", "Show network connections"),
    (.arp, "arp", "Show ARP cache"),
    (.route, "route", "Show routing table"),
    (.http, "http", "HTTP server control (start|stop|status)"),
    (.dns, "dns", "DNS server control (start|stop|status)"),
    (.dhcp, "dhcp", "DHCP server control (start|stop|status)"),
    (.wget, "wget", "HTTP client (fetch and display web pages)"),
    (.disk, "disk", "Disk operations (info|read|write)"),
    (.ps, "ps", "List running processes"),
    (.kill, "kill", "Terminate a process (kill <pid>)"),
    (.ls, "ls", "List directory contents"),
    (.cat, "cat", "Display file contents (cat <file>)"),
    (.file, "file", "Show file information (file <file>)"),
    (.pipe, "pipe", "Test pipe/IPC functionality"),
    (.ui, "ui", "Enhanced UI control (on|off|status)")]

/-- The command that a name in the table stands for. -/
def commandOf (name : List UInt8) : Option Command :=
  (commandTable.find? fun entry => chars entry.2.1 = name).map Prod.fst

/-! ### `help`, `echo`, `exit` -/

def cmdHelp : Traced CmdEvent ℤ := do
  vgaWriteString (chars "VlsOs Command Reference\n")
  vgaWriteString (chars "=======================\n\n")
  loop (fun i _ => do
    vgaWriteString (chars (commandTable.getD i (.help, "", "")).2.1)
    vgaWriteString (chars " - ")
    vgaWriteString (chars (commandTable.getD i (.help, "", "")).2.2)
    vgaWriteString (chars "\n")) commandTable.length ()
  return 0

def cmdEcho (argv : List (List UInt8)) : Traced CmdEvent ℤ := do
  loop (fun i _ => do
    vgaWriteString (argv.getD (i + 1) [])
    if i + 1 < argv.length - 1 then vgaWriteString (chars " ")) (argv.length - 1) ()
  vgaWriteString (chars "\n")
  return 0

def cmdExit : Traced CmdEvent ℤ := return -1

/-- `cmd_netstat`, `cmd_arp` and `cmd_route` print that they are not there yet. -/
def notImplemented (what : String) : Traced CmdEvent ℤ := do
  vgaWriteString (chars what)
  return 0

def cmdNetstat : Traced CmdEvent ℤ := notImplemented "TCP/UDP connections (not yet implemented)\n"

def cmdArp : Traced CmdEvent ℤ := notImplemented "ARP cache (not yet implemented)\n"

def cmdRoute : Traced CmdEvent ℤ := notImplemented "Routing table (not yet implemented)\n"

/-! ### The services -/

/-- What the services print goes to the screen. -/
def onConsole : Net.RxEvent → CmdEvent
  | .printed text => .print (chars text)
  | e => .net e

/-- `cmd_http`, `cmd_dns` and `cmd_dhcp`: a word says what to do with the service. -/
def serviceControl (usage status unknown : String) (v : Service) (s : NetSystem)
    (argv : List (List UInt8)) : Traced CmdEvent (ℤ × NetSystem) :=
  if argv.length < 2 then do
    vgaWriteString (chars usage)
    return (1, s)
  else if strcmp (argv.getD 1 []) (chars "start") = 0 then do
    let s ← relabel onConsole (s.start v)
    return (0, s)
  else if strcmp (argv.getD 1 []) (chars "stop") = 0 then do
    let s ← relabel onConsole (s.stop v)
    return (0, s)
  else if strcmp (argv.getD 1 []) (chars "status") = 0 then do
    vgaWriteString (chars status)
    return (0, s)
  else do
    vgaWriteString (chars unknown)
    return (1, s)

def cmdHttp : NetSystem → List (List UInt8) → Traced CmdEvent (ℤ × NetSystem) :=
  serviceControl "Usage: http start|stop|status\n" "HTTP server status (not yet implemented)\n"
    "Unknown http command\n" .http

def cmdDns : NetSystem → List (List UInt8) → Traced CmdEvent (ℤ × NetSystem) :=
  serviceControl "Usage: dns start|stop|status\n" "DNS server status (not yet implemented)\n"
    "Unknown dns command\n" .dns

def cmdDhcp : NetSystem → List (List UInt8) → Traced CmdEvent (ℤ × NetSystem) :=
  serviceControl "Usage: dhcp start|stop|status\n" "DHCP server status (not yet implemented)\n"
    "Unknown dhcp command\n" .dhcp

/-! ### Processes -/

/-- The array `states` of `process_display_info`. -/
def stateName : ProcessState → List UInt8
  | .unused => chars "unused"
  | .ready => chars "ready"
  | .running => chars "running"
  | .blocked => chars "blocked"
  | .terminated => chars "terminated"

/-- One line of `process_display_info`. -/
def processLine (p : Process) (buf : List UInt8) : Traced CmdEvent (List UInt8) := do
  let buf ← printNumber 32 buf (Int32.ofNat p.pid) 10
  vgaWriteString (chars "  ")
  vgaWriteString (stateName p.state)
  writeSpaces (stateName p.state).length 9
  let buf ← printNumber 32 buf (Int32.ofNat p.priority.toNat) 10
  writeSpaces (text buf).length 9
  vgaWriteString p.name
  vgaWriteChar 10
  return buf

def processDisplayInfo (m : ProcessManager) (buf : List UInt8) : Traced CmdEvent Unit := do
  vgaWriteString (chars "PID  STATE      PRIORITY  NAME\n")
  vgaWriteString (chars "===  ========== ========  ============================\n")
  let buf ← loop (fun i buf =>
    let proc := m.table (Fin.ofNat maxProcesses i)
    if proc.state = .unused then return buf else processLine proc buf) maxProcesses buf
  vgaWriteString (chars "\nTotal processes: ")
  let _ ← printNumber 32 buf (Int32.ofNat m.processCount.toNat) 10
  vgaWriteChar 10

def cmdPs (k : Kernel) (buf : List UInt8) : Traced CmdEvent ℤ := do
  processDisplayInfo k.procs buf
  return 0

def cmdKill (k : Kernel) (argv : List (List UInt8)) (buf : List UInt8) :
    Traced CmdEvent (ℤ × Kernel) :=
  if argv.length < 2 then do
    vgaWriteString (chars "Usage: kill <pid>\n")
    return (1, k)
  else
    let pid := (atoi (argv.getD 1 [])).toUInt32
    if pid = 0 then do
      vgaWriteString (chars "Cannot kill kernel process\n")
      return (1, k)
    else
      match processGet k.procs pid.toNat with
      | none => do
        vgaWriteString (chars "Process not found\n")
        return (1, k)
      | some _ =>
        let (result, procs) := processKill k.procs pid.toNat k.ticks
        if result = 0 then do
          vgaWriteString (chars "Killed process ")
          let _ ← printNumber 32 buf pid.toInt32 10
          vgaWriteString (chars "\n")
          return (0, { k with procs := procs })
        else do
          vgaWriteString (chars "Failed to kill process\n")
          return (1, { k with procs := procs })

/-! ### Drives -/

/-- What `disk info` shows of a drive. The megabytes are computed in 32 bits. -/
def driveLines (i : ℕ) (disk : AtaDisk) (buf : List UInt8) : Traced CmdEvent (List UInt8) := do
  vgaWriteString (chars "Drive ")
  let buf ← printNumber 32 buf (Int32.ofNat i) 10
  vgaWriteString (chars ":\n")
  vgaWriteString (chars "  Model: ")
  vgaWriteString disk.model
  vgaWriteString (chars "\n")
  vgaWriteString (chars "  Cylinders: ")
  let buf ← printNumber 32 buf (Int32.ofNat disk.cylinders.toNat) 10
  vgaWriteString (chars "  Heads: ")
  let buf ← printNumber 32 buf (Int32.ofNat disk.heads.toNat) 10
  vgaWriteString (chars "  Sectors/track: ")
  let buf ← printNumber 32 buf (Int32.ofNat disk.sectors.toNat) 10
  vgaWriteString (chars "\n")
  vgaWriteString (chars "  Total sectors: ")
  let buf ← printNumber 32 buf disk.totalSectors.toInt32 10
  vgaWriteString (chars "  (")
  let mb := disk.totalSectors * 512 / (1024 * 1024)
  let buf ← printNumber 32 buf mb.toInt32 10
  vgaWriteString (chars " MB)\n\n")
  return buf

def diskInfo (g : Drives) (buf : List UInt8) : Traced CmdEvent ℤ := do
  vgaWriteString (chars "Disk subsystem: ")
  let buf ← printNumber 32 buf (Int32.ofNat g.driveCount.toNat) 10
  vgaWriteString (chars " drive(s) detected\n\n")
  let _ ← loop (fun i buf =>
    let disk := g.disks (Fin.ofNat maxDrives i)
    if disk.present then driveLines i disk buf else return buf) 4 buf
  return 0

/-- The first 256 bytes of a sector, sixteen in a row. -/
def sectorDump (lba : UInt32) (buffer : ℕ → UInt8) (buf : List UInt8) : Traced CmdEvent ℤ := do
  vgaWriteString (chars "Sector 0x")
  let buf ← printNumber 32 buf lba.toInt32 16
  vgaWriteString (chars " (")
  let buf ← printNumber 32 buf lba.toInt32 10
  vgaWriteString (chars "):\n")
  let _ ← loop (fun i buf => do
    let buf ← if i % 16 = 0 then do
        vgaWriteString (chars "\n0x")
        let buf ← printNumber 32 buf (Int32.ofNat i) 16
        vgaWriteString (chars ": ")
        pure buf
      else pure buf
    if buffer i < 16 then vgaWriteChar 48
    let buf ← printNumber 32 buf (Int32.ofNat (buffer i).toNat) 16
    vgaWriteChar 32
    return buf) 256 buf
  vgaWriteString (chars "\n")
  return 0

/-- `cmd_disk`, where `answer` is how the controller takes the command of `disk read`. -/
def cmdDisk (g : Drives) (answer : DriveAnswer) (argv : List (List UInt8)) (buffer : ℕ → UInt8)
    (buf : List UInt8) : Traced CmdEvent ℤ :=
  if argv.length < 2 then do
    vgaWriteString (chars "Usage: disk info|read|write\n")
    vgaWriteString (chars "  disk info              - Show disk information\n")
    vgaWriteString (chars "  disk read <drive> <lba> - Read sector from disk\n")
    return 1
  else if strcmp (argv.getD 1 []) (chars "info") = 0 then diskInfo g buf
  else if strcmp (argv.getD 1 []) (chars "read") = 0 then
    if argv.length < 4 then do
      vgaWriteString (chars "Usage: disk read <drive> <lba>\n")
      return 1
    else
      let drive := (atoi (argv.getD 2 [])).toUInt32.toUInt8
      let lba := (atoi (argv.getD 3 [])).toUInt32
      if diskDriveExists g drive = false then do
        vgaWriteString (chars "Drive not found\n")
        return 1
      else
        let (result, buffer) :=
          (diskReadSector (fun i => (g.disks i).present) answer drive lba buffer).val
        if result < 0 then do
          vgaWriteString (chars "Read failed\n")
          return 1
        else sectorDump lba buffer buf
  else if strcmp (argv.getD 1 []) (chars "write") = 0 then do
    vgaWriteString (chars "Write command not implemented\n")
    return 1
  else do
    vgaWriteString (chars "Unknown disk command\n")
    return 1

/-! ### The screen -/

/-- `cmd_clear`. -/
def cmdClear (s : Vga.Screen) : Vga.Screen := Vga.vgaSetColor (Vga.vgaClearScreen s).val 7 0

end VlsOs.Shell

namespace VlsOs.Ui
open Patterns Patterns.Trace VlsOs.Libc VlsOs.Net

/-- `g_ui_state.enabled`, beside the screen and the content area. -/
structure UiState where
  content : Content
  enabled : Bool

def uiDrawFooter (s : Content) (prompt : Option (List UInt8)) : Traced UiEvent Content := do
  let s ← onScreen s (.setPosition 0 24)
  let s ← onScreen s (.setColor 14 0)
  let s ← match prompt with
    | some prompt => onScreen s (.writeString prompt)
    | none => pure s
  onScreen s (.setColor 7 0)

def uiEnable (s : UiState) : Traced UiEvent UiState := do
  let content ← onScreen s.content .clearScreen
  let content ← uiDrawHeader content
  let content ← uiDrawFooter content (some (chars "vlsos> "))
  return ⟨content, true⟩

def uiDisable (s : UiState) : Traced UiEvent UiState := do
  let content ← onScreen s.content .clearScreen
  let content ← onScreen content (.setColor 7 0)
  return ⟨content, false⟩

/-- `ui_update_header`. The place for the status would be row 60, so it follows the title. -/
def uiUpdateHeader (net : NetState) (s : Content) : Traced UiEvent Content := do
  let s ← onScreen s (.setPosition 0 0)
  let s ← onScreen s (.setColor 15 1)
  let s ← onScreen s (.writeString (chars "VlsOs"))
  let s ← onScreen s (.setPosition 60 0)
  let up := (netGetInterface net eth0).any fun iface => iface.flags &&& 2 ≠ 0
  let s ← onScreen s (.writeString (if up then chars "[NET UP]" else chars "[NET DOWN]"))
  onScreen s (.setColor 7 0)

end VlsOs.Ui

namespace VlsOs.Shell
open Patterns Patterns.Trace VlsOs.Libc VlsOs.Net VlsOs.Ui

/-- What a handler does: what commands do, and what the functions of `ui/ui.c` do for it. -/
inductive OsEvent
  | cmd (e : CmdEvent)
  | ui (e : UiEvent)

/-- The characters that a call of the screen driver is given. -/
def characters : Vga.VgaOp → List UInt8
  | .writeChar c => [c]
  | .writeString str => text str
  | _ => []

def OsEvent.shown : OsEvent → List UInt8
  | .cmd e => e.shown
  | .ui (.draw op) => characters op
  | .ui (.access _) => []

/-- The characters that the handler prints itself. -/
def OsEvent.printed : OsEvent → List UInt8
  | .cmd e => e.shown
  | .ui _ => []

/-- What a handler puts on the screen, in order. -/
def shownBy {α : Type} (x : Traced OsEvent α) : List UInt8 := x.events.flatMap OsEvent.shown

/-- What it prints itself. -/
def printedBy {α : Type} (x : Traced OsEvent α) : List UInt8 := x.events.flatMap OsEvent.printed

section Shown
variable {α β : Type}

@[simp] theorem shownBy_pure (a : α) : shownBy (pure a) = [] := rfl

@[simp] theorem shownBy_bind (x : Traced OsEvent α) (f : α → Traced OsEvent β) :
    shownBy (x >>= f) = shownBy x ++ shownBy (f x.val) := List.flatMap_append

@[simp] theorem shownBy_cmd (x : Traced CmdEvent α) : shownBy (relabel .cmd x) = output x :=
  List.flatMap_map ..

@[simp] theorem printedBy_pure (a : α) : printedBy (pure a) = [] := rfl

@[simp] theorem printedBy_bind (x : Traced OsEvent α) (f : α → Traced OsEvent β) :
    printedBy (x >>= f) = printedBy x ++ printedBy (f x.val) := List.flatMap_append

@[simp] theorem printedBy_cmd (x : Traced CmdEvent α) : printedBy (relabel .cmd x) = output x :=
  List.flatMap_map ..

@[simp] theorem printedBy_ui (x : Traced UiEvent α) : printedBy (relabel .ui x) = [] := by
  simp [printedBy, relabel, OsEvent.printed, List.flatMap_map]

end Shown

def cmdUi (net : NetState) (s : UiState) (argv : List (List UInt8)) : Traced OsEvent (ℤ × UiState) :=
  if argv.length < 2 then do
    relabel .cmd (vgaWriteString (chars "Usage: ui on|off|status\n"))
    return (1, s)
  else if strcmp (argv.getD 1 []) (chars "on") = 0 then do
    let s ← relabel .ui (uiEnable s)
    let content ← relabel .ui (uiUpdateHeader net s.content)
    let content ← relabel .ui (uiPrintContent content (some (chars "Enhanced UI enabled")))
    let content ← relabel .ui (uiDrawFooter content (some (chars "vlsos> ")))
    return (0, { s with content := content })
  else if strcmp (argv.getD 1 []) (chars "off") = 0 then do
    let s ← relabel .ui (uiDisable s)
    relabel .cmd (vgaWriteString (chars "UI disabled\n"))
    return (0, s)
  else if strcmp (argv.getD 1 []) (chars "status") = 0 then do
    relabel .cmd (vgaWriteString (chars "UI status: "))
    relabel .cmd (vgaWriteString (if s.enabled then chars "ON\n" else chars "OFF\n"))
    return (0, s)
  else do
    relabel .cmd (vgaWriteString (chars "Unknown ui command\n"))
    return (1, s)

end VlsOs.Shell
