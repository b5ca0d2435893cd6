import VlsOs.Net.Switches
import VlsOs.Shell.Os
import VlsOs.Shell.TextInterface

/-! What a session at the shell comes to.

    The handlers share the state of the kernel, but little of it ever changes. There is no interface. No
    process is ever spawned, so there is only the kernel process, and a timer interrupt that comes in at
    its stub does not reach the tick counter. A file or pipe that a command opens it closes. What a
    command answers therefore depends on its arguments, on the disk, and on four switches: which of the
    three services are on, and the text interface.

        handlers on the state of the kernel        answers from four switches
        http start ──▶ socket, bind, listen        http start ──▶ on
        ps ──▶ the 32 slots of the table           ps ──▶ one line
        uptime ──▶ the tick counter                uptime ──▶ 0 -/

namespace VlsOs.Shell
open Patterns Patterns.Run Patterns.Trace VlsOs.Libc VlsOs.Net VlsOs.Net.Sock VlsOs.Proc VlsOs.Interrupt
open VlsOs.Fs

/-! ### The answers -/

/-- What is on: the services, and the text interface. -/
structure Switches where
  services : Service → Bool
  ui : Bool

def allOff : Switches := ⟨fun _ => false, false⟩

/-- What a command returns and puts on the screen, and the switches after it. -/
structure Answer where
  code : ℤ
  shown : List UInt8
  switches : Switches

section
variable (sw : Switches)

def tells (code : ℤ) (text : String) : Answer := ⟨code, chars text, sw⟩

/-- The answer of a handler that does not look at what changes. -/
def replies (x : Traced CmdEvent ℤ) : Answer := ⟨x.val, output x, sw⟩

def turn (v : Service) (on : Bool) (text : String) : Answer :=
  ⟨0, chars text, { sw with services := Function.update sw.services v on }⟩

def controlAnswer (usage status unknown : String) (v : Service) (argv : List (List UInt8)) : Answer :=
  if argv.length < 2 then tells sw 1 usage
  else if strcmp (argv.getD 1 []) (chars "start") = 0 then
    turn sw v true (if sw.services v then v.texts.already else v.texts.started)
  else if strcmp (argv.getD 1 []) (chars "stop") = 0 then
    turn sw v false (if sw.services v then v.texts.stopped else v.texts.notRunning)
  else if strcmp (argv.getD 1 []) (chars "status") = 0 then tells sw 0 status
  else tells sw 1 unknown

def pingAnswer (argv : List (List UInt8)) : Answer :=
  if argv.length < 2 then tells sw 0 "Usage: ping <ip_address>\n"
  else if (pingAddress (argv.getD 1 [])).isNone then tells sw 0 "Invalid IP address\n"
  else ⟨0, chars "PING " ++ text (argv.getD 1 []) ++ chars "\n", sw⟩

def wgetAnswer (argv : List (List UInt8)) : Answer :=
  if argv.length < 2 then tells sw 1 "Usage: wget <url>\nExample: wget http://192.168.1.100/\n"
  else tells sw 1 "Only http:// URLs supported\n"

/-- There is one process … -/
def psText : String :=
  "PID  STATE      PRIORITY  NAME\n===  ========== ========  ============================\n" ++
    "0  running  0        kernel\n\nTotal processes: 1\n"

/-- … and it cannot be killed. -/
def killAnswer (argv : List (List UInt8)) : Answer :=
  if argv.length < 2 then tells sw 1 "Usage: kill <pid>\n"
  else if atoi (argv.getD 1 []) = 0 then tells sw 1 "Cannot kill kernel process\n"
  else tells sw 1 "Process not found\n"

/-- The contents of the file. -/
def catAnswer (d : Fs.Disk) (fs : FsState) (argv : List (List UInt8)) : Answer :=
  if argv.length < 2 then tells sw 1 "Usage: cat <filename>\n"
  else
    match dirFindEntry fs.rootDirCache (argv.getD 1 []) with
    | none => ⟨1, chars "File not found: " ++ text (argv.getD 1 []) ++ [10], sw⟩
    | some (_, e) => ⟨0, contents d fs.fatCache e ++ [10], sw⟩

/-- The pipe is always the first one. -/
def pipeAnswer : Answer :=
  ⟨0, pipeOutput 0 (itoaText (UInt32.toInt32 0x12345678) 16) (itoaText (UInt32.toInt32 0xDEADBEEF) 16), sw⟩

def uiAnswer (argv : List (List UInt8)) : Answer :=
  if argv.length < 2 then tells sw 1 "Usage: ui on|off|status\n"
  else if strcmp (argv.getD 1 []) (chars "on") = 0 then ⟨0, uiText, { sw with ui := true }⟩
  else if strcmp (argv.getD 1 []) (chars "off") = 0 then
    ⟨0, chars "UI disabled\n", { sw with ui := false }⟩
  else if strcmp (argv.getD 1 []) (chars "status") = 0 then
    tells sw 0 (if sw.ui then "UI status: ON\n" else "UI status: OFF\n")
  else tells sw 1 "Unknown ui command\n"

/-- What a command answers, on the disk and the directory and drives that were there at the start. -/
def answer (d : Fs.Disk) (start : Os) (argv : List (List UInt8)) (env : CallEnv) : Command → Answer
  | .help => replies sw cmdHelp
  | .echo => replies sw (cmdEcho argv)
  | .clear => tells sw 0 ""
  | .uptime => tells sw 0 "Uptime: 0 ticks\n"
  | .exit => tells sw (-1) ""
  | .ifconfig => tells sw 0 "No network interface found\n"
  | .ping => pingAnswer sw argv
  | .netstat => replies sw cmdNetstat
  | .arp => replies sw cmdArp
  | .route => replies sw cmdRoute
  | .http => controlAnswer sw "Usage: http start|stop|status\n"
      "HTTP server status (not yet implemented)\n" "Unknown http command\n" .http argv
  | .dns => controlAnswer sw "Usage: dns start|stop|status\n"
      "DNS server status (not yet implemented)\n" "Unknown dns command\n" .dns argv
  | .dhcp => controlAnswer sw "Usage: dhcp start|stop|status\n"
      "DHCP server status (not yet implemented)\n" "Unknown dhcp command\n" .dhcp argv
  | .wget => wgetAnswer sw argv
  | .disk => replies sw (cmdDisk start.drives env.answer argv env.buffer env.array)
  | .ps => tells sw 0 psText
  | .kill => killAnswer sw argv
  | .ls => replies sw (cmdLs start.fs env.entries env.array)
  | .cat => catAnswer sw d start.fs argv
  | .file => replies sw (cmdFile start.fs argv env.info env.array)
  | .pipe => pipeAnswer sw
  | .ui => uiAnswer sw argv

end

/-- The session as a machine of its own; interrupts do nothing. -/
def answerStep (d : Fs.Disk) (start : Os) (sw : Switches) : OsOp → Switches × Option CallOut
  | .call command argv env =>
    let a := answer sw d start argv env command
    (a.switches, some ⟨some a.code, a.shown⟩)
  | .interrupt _ _ => (sw, none)

/-! ### What the handlers find -/

/-- The disk can be read, and the files on it are in order. -/
structure Healthy (d : Fs.Disk) (fs : FsState) : Prop where
  reads : ∀ k, d.fails k = false
  files : ∀ name n e, dirFindEntry fs.rootDirCache name = some (n, e) →
    e.fileSize.toNat + 512 ≤ 2 ^ 32 ∧ ∃ m, WellFormed fs.fatCache e m

/-- INVARIANT: what is left of the state between two commands. -/
structure Idle (start os : Os) (sw : Switches) : Prop where
  interfaces : os.net.socks.net.interfaces = none
  services : Switched os.net sw.services
  kernel : os.kernel = start.kernel
  drives : os.drives = start.drives
  fat : os.fs.fatCache = start.fs.fatCache
  root : os.fs.rootDirCache = start.fs.rootDirCache
  initialized : os.fs.initialized = start.fs.initialized
  closed : ∀ j, (os.fs.files j).inUse = false
  pipes : ∀ i, (os.ipc.pipes i).inUse = false
  ui : os.ui.enabled = sw.ui
  content : Ui.InRange os.ui.content

/-- What the start has to be: drive 0 was found, the file system is up, and there is only the kernel
    process. -/
structure Booted (d : Fs.Disk) (start : Os) : Prop where
  idle : Idle start start allOff
  drive : (start.drives.disks 0).present = true
  ticks : start.kernel.ticks = 0
  procs : ∃ area, start.kernel.procs = processInit area staticProcesses
  nextFd : start.net.socks.nextFd = 1
  initialized : start.fs.initialized = true
  healthy : Healthy d start.fs

/-! ### One handler after the other -/

/-- A handler gives the answer and leaves the state idle; it has used up `sockets` descriptors. -/
def Gives (start os : Os) (sockets : ℕ) (x : Traced OsEvent (Option (ℤ × Os))) (a : Answer) : Prop :=
  ∃ os', x.val = some (a.code, os') ∧ shownBy x = a.shown ∧ Idle start os' a.switches ∧
    os'.net.socks.nextFd ≤ os.net.socks.nextFd + sockets

section
variable {d : Fs.Disk} {start os : Os} {sw : Switches}

theorem Idle.leaves (h : Idle start os sw) {x : Traced CmdEvent ℤ} {a : Answer} (hcode : x.val = a.code)
    (hshown : output x = a.shown) (hsw : a.switches = sw) : Gives start os 0 (leaves os x) a := by
  refine ⟨os, by rw [← hcode]; rfl, ?_, hsw ▸ h, by simp⟩
  rw [Shell.leaves, shownBy_bind, shownBy_cmd, shownBy_pure, List.append_nil, hshown]

theorem Idle.replies (h : Idle start os sw) (x : Traced CmdEvent ℤ) :
    Gives start os 0 (Shell.leaves os x) (replies sw x) := h.leaves rfl rfl rfl

theorem Gives.mono {sockets sockets' : ℕ} {x : Traced OsEvent (Option (ℤ × Os))} {a : Answer}
    (h : Gives start os sockets x a) (hle : sockets ≤ sockets') : Gives start os sockets' x a := by
  obtain ⟨os', hval, hshown, hidle, hnext⟩ := h
  exact ⟨os', hval, hshown, hidle, by omega⟩

/-- A handler that prints a text and keeps the state. -/
theorem Idle.prints (h : Idle start os sw) {α : Type} {put : α → Os} {a : α} (hput : put a = os)
    (code : ℤ) {t : String} (ht : 0 ∉ chars t) :
    Gives start os 0 (changes put (do
      vgaWriteString (chars t)
      return (code, a))) (tells sw code t) := by
  refine ⟨os, by rw [← hput]; rfl, ?_, h, by simp⟩
  simp [changes, text_chars ht, tells]

theorem shownBy_changes {α : Type} (put : α → Os) (x : Traced CmdEvent (ℤ × α)) :
    shownBy (changes put x) = output x := by
  rw [changes, shownBy_bind, shownBy_cmd, shownBy_pure, List.append_nil]

/-- The screen does not matter to what the handlers find. -/
theorem Idle.setScreen (h : Idle start os sw) (screen : Vga.Screen) : Idle start (os.setScreen screen) sw :=
  ⟨h.interfaces, h.services, h.kernel, h.drives, h.fat, h.root, h.initialized, h.closed, h.pipes, h.ui,
    h.content⟩

theorem idle_uptime (hboot : Booted d start) (h : Idle start os sw) (array : List UInt8) :
    Gives start os 0 (leaves os (cmdUptime os.kernel.ticks array)) (tells sw 0 "Uptime: 0 ticks\n") := by
  have hzero : chars "Uptime: " ++ (itoaText (UInt32.toInt32 0) 10 ++ chars " ticks\n") =
      chars "Uptime: 0 ticks\n" := by decide
  refine h.leaves rfl ?_ rfl
  rw [h.kernel, hboot.ticks, output_cmdUptime, hzero]
  rfl

theorem idle_ifconfig (h : Idle start os sw) (array : List UInt8) :
    Gives start os 0 (leaves os (cmdIfconfig os.net.socks.net os.config array))
      (tells sw 0 "No network interface found\n") := by
  have hnone : netGetInterface os.net.socks.net (chars "eth0") = none := by
    rw [netGetInterface, h.interfaces]
    rfl
  have hrun : cmdIfconfig os.net.socks.net os.config array = do
      vgaWriteString (chars "No network interface found\n")
      return 0 := by rw [cmdIfconfig, hnone]
  rw [hrun]
  refine h.leaves rfl ?_ rfl
  simp (disch := decide) [text_chars, tells]

theorem ipSendPacket_silent {s : NetState} (h : s.interfaces = none) (dest : Ipv4Addr) (proto : UInt8)
    (data : ℕ → UInt8) (len : UInt16) : ipSendPacket s dest proto data len = pure s := by
  have hnone : netGetInterface s eth0 = none := by
    rw [netGetInterface, h]
    rfl
  rw [ipSendPacket, hnone]

/-- Without an interface `ping` takes a block of the heap and no more. -/
theorem icmpSendEchoRequest_silent {s : NetState} (h : s.interfaces = none) (dest : Ipv4Addr) :
    (icmpSendEchoRequest s dest).events = [] ∧
      (icmpSendEchoRequest s dest).val.interfaces = none := by
  unfold icmpSendEchoRequest
  dsimp only
  split
  · exact ⟨rfl, h⟩
  · rw [ipSendPacket_silent (by exact h)]
    exact ⟨rfl, h⟩

theorem Idle.setNet (h : Idle start os sw) {net : NetState} (hnet : net.interfaces = none) :
    Idle start (os.setSocks { os.net.socks with net := net }) sw :=
  ⟨hnet, h.services.onNet net, h.kernel, h.drives, h.fat, h.root, h.initialized, h.closed, h.pipes, h.ui,
    h.content⟩

theorem idle_ping (h : Idle start os sw) (argv : List (List UInt8)) :
    Gives start os 0 (changes (fun net => os.setSocks { os.net.socks with net := net })
      (cmdPing os.net.socks.net argv)) (pingAnswer sw argv) := by
  rcases argv with _ | ⟨command, _ | ⟨arg, others⟩⟩
  · exact h.prints rfl 0 (by decide)
  · exact h.prints rfl 0 (by decide)
  · cases haddr : pingAddress arg with
    | none =>
      have hanswer : pingAnswer sw (command :: arg :: others) = tells sw 0 "Invalid IP address\n" := by
        simp [pingAnswer, haddr]
      rw [cmdPing, haddr, hanswer]
      exact h.prints rfl 0 (by decide)
    | some addr =>
      obtain ⟨hsilent, hnet⟩ := icmpSendEchoRequest_silent h.interfaces addr
      have hanswer : pingAnswer sw (command :: arg :: others) =
          ⟨0, chars "PING " ++ text arg ++ chars "\n", sw⟩ := by simp [pingAnswer, haddr]
      rw [cmdPing, haddr, hanswer]
      refine ⟨_, rfl, ?_, h.setNet hnet, by simp [Os.setSocks]⟩
      have hquiet : output (relabel .net (icmpSendEchoRequest os.net.socks.net addr)) = [] := by
        rw [output, relabel, hsilent]
        rfl
      simp (disch := decide) [shownBy_changes, pingHost, hquiet, text_chars]

/-- A string that compares equal on the length of a text has it in front. -/
theorem prefix_of_strncmp : ∀ {t s : List UInt8}, 0 ∉ t → strncmp s t t.length = 0 → t <+: s
  | [], _, _, _ => List.nil_prefix
  | b :: t, [], hnul, h => by
    have hb : ¬b = 0 := fun hb => hnul (hb ▸ List.mem_cons_self)
    have hne : (0 : UInt8) ≠ b := fun hb' => hb hb'.symm
    rw [List.length_cons, strncmp, List.headD_nil, List.headD_cons, if_pos hne, promote_sub_eq_zero] at h
    exact absurd h hne
  | b :: t, a :: s, hnul, h => by
    have hb : ¬b = 0 := fun hb => hnul (hb ▸ List.mem_cons_self)
    rw [List.length_cons, strncmp, List.headD_cons, List.headD_cons] at h
    by_cases hab : a = b
    · subst hab
      rw [if_neg (fun hne => hne rfl), if_neg hb] at h
      have hrest := prefix_of_strncmp (fun hmem => hnul (List.mem_cons_of_mem _ hmem)) h
      exact (List.cons_prefix_cons).mpr ⟨rfl, hrest⟩
    · rw [if_pos hab, promote_sub_eq_zero] at h
      exact absurd h hab

theorem idle_wget (h : Idle start os sw) {argv : List (List UInt8)}
    (hurl : ¬chars "http://" <+: argv.getD 1 []) (portstr statusStr : List UInt8)
    (responseBuf : ℕ → UInt8) :
    Gives start os 0 (changes os.setSocks (cmdWget os.net.socks argv portstr statusStr responseBuf))
      (wgetAnswer sw argv) := by
  have husage : chars "Usage: wget <url>\n" ++ chars "Example: wget http://192.168.1.100/\n" =
      chars "Usage: wget <url>\nExample: wget http://192.168.1.100/\n" := by decide
  have hshort : Gives start os 0 (changes os.setSocks (do
      vgaWriteString (chars "Usage: wget <url>\n")
      vgaWriteString (chars "Example: wget http://192.168.1.100/\n")
      return (1, os.net.socks)))
      (tells sw 1 "Usage: wget <url>\nExample: wget http://192.168.1.100/\n") := by
    refine ⟨os, rfl, ?_, h, by simp⟩
    rw [tells, ← husage]
    simp (disch := decide) [shownBy_changes, text_chars]
  rcases argv with _ | ⟨command, _ | ⟨url, others⟩⟩
  · exact hshort
  · exact hshort
  · have hnot : ¬strncmp url (chars "http://") 7 = 0 := fun hcmp =>
      hurl (prefix_of_strncmp (by decide) hcmp)
    rw [cmdWget, cmdWgetWith, if_neg hnot]
    exact h.prints rfl 1 (by decide)

theorem Idle.setNetwork (h : Idle start os sw) {net : NetSystem} {on : Service → Bool}
    (hnet : net.socks.net.interfaces = os.net.socks.net.interfaces) (hon : Switched net on) :
    Idle start { os with net := net } { sw with services := on } :=
  ⟨hnet.trans h.interfaces, hon, h.kernel, h.drives, h.fat, h.root, h.initialized, h.closed, h.pipes,
    h.ui, h.content⟩

theorem output_onConsole {α : Type} {x : Traced RxEvent α} {t : String} (h : x.events = [.printed t]) :
    output (relabel onConsole x) = chars t := by
  rw [output, relabel, h]
  exact List.append_nil _

theorem idle_control (h : Idle start os sw) {usage status unknown : String} (husage : 0 ∉ chars usage)
    (hstatus : 0 ∉ chars status) (hunknown : 0 ∉ chars unknown) (v : Service) (argv : List (List UInt8))
    (hfits : strcmp (argv.getD 1 []) (chars "start") = 0 → os.net.socks.nextFd + 1 < 2 ^ 31)
    {sockets : ℕ} (hsockets : strcmp (argv.getD 1 []) (chars "start") = 0 → 1 ≤ sockets) :
    Gives start os sockets (changes (fun net => { os with net := net })
      (serviceControl usage status unknown v os.net argv))
      (controlAnswer sw usage status unknown v argv) := by
  unfold serviceControl controlAnswer
  split
  · exact (h.prints rfl 1 husage).mono (Nat.zero_le _)
  split
  · rename_i hstart
    obtain ⟨hon, hevents, hnext⟩ := h.services.start (hfits hstart) v
    have hone := hsockets hstart
    refine ⟨_, rfl, ?_, h.setNetwork (calm_start os.net v).spends.interfaces hon, hnext.trans (by omega)⟩
    rw [shownBy_changes, output_bind, output_onConsole hevents, output_pure, List.append_nil]
    rfl
  split
  · obtain ⟨hoff, hevents, hnext⟩ := h.services.stop v
    refine ⟨_, rfl, ?_, h.setNetwork (calm_stop os.net v).spends.interfaces hoff, hnext.trans (by omega)⟩
    rw [shownBy_changes, output_bind, output_onConsole hevents, output_pure, List.append_nil]
    rfl
  split
  · exact (h.prints rfl 0 hstatus).mono (Nat.zero_le _)
  · exact (h.prints rfl 1 hunknown).mono (Nat.zero_le _)

theorem output_processLine (p : Process) (buf : List UInt8) :
    output (processLine p buf) = itoaText (Int32.ofNat p.pid) 10 ++ chars "  " ++ stateName p.state ++
      List.replicate (9 - (stateName p.state).length) 32 ++ itoaText (Int32.ofNat p.priority.toNat) 10 ++
      List.replicate (9 - (itoaText (Int32.ofNat p.priority.toNat) 10).length) 32 ++ text p.name ++ [10] := by
  have hstate : text (stateName p.state) = stateName p.state := by
    cases p.state <;> exact text_chars (by decide)
  simp (disch := decide) [processLine, text_chars, hstate]

/-- The process table that `process_init` leaves has one process. -/
theorem output_processDisplayInfo (area : StackArea) (buf : List UInt8) :
    output (processDisplayInfo (processInit area staticProcesses) buf) = chars psText := by
  set m := processInit area staticProcesses with hm
  have hstate : (m.table 0).state = .running := by simp [hm, processInit]
  have hpid : (m.table 0).pid = 0 := by simp [hm, processInit]
  have hpriority : (m.table 0).priority = 0 := by simp [hm, processInit]
  have hname : text (m.table 0).name = chars "kernel" := by
    simp only [hm, processInit, Function.update_self]
    decide
  have hcount : m.processCount = 1 := rfl
  have hothers : ∀ i, (m.table (Fin.succ i)).state = .unused := by
    intro i
    simp only [hm, processInit, Function.update_of_ne (Fin.succ_ne_zero i)]
  have hlines : ∀ bufs : ℕ → List UInt8, ((List.range 32).flatMap fun i =>
      output (if (m.table (Fin.ofNat maxProcesses i)).state = .unused then pure (bufs i)
        else processLine (m.table (Fin.ofNat maxProcesses i)) (bufs i))) =
      chars "0  running  0        kernel\n" := by
    intro bufs
    have hzero : Fin.ofNat maxProcesses 0 = 0 := rfl
    have hused : ¬(m.table 0).state = .unused := by rw [hstate]; decide
    rw [List.range_succ_eq_map, List.flatMap_cons, hzero, if_neg hused, output_processLine, hstate, hpid,
      hpriority, hname, List.flatMap_eq_nil_iff.mpr]
    · decide
    · intro i hi
      obtain ⟨k, hk, rfl⟩ := List.mem_map.mp hi
      have hslot : Fin.ofNat maxProcesses k.succ = Fin.succ ⟨k, List.mem_range.mp hk⟩ :=
        Fin.ext (Nat.mod_eq_of_lt (Nat.succ_lt_succ (List.mem_range.mp hk)))
      rw [hslot, if_pos (hothers _), output_pure]
  simp (disch := decide) only [processDisplayInfo, output_bind, output_vgaWriteString, text_chars,
    output_loop, output_printDecimal, output_vgaWriteChar, hcount]
  rw [hlines]
  decide +kernel

theorem idle_ps (hboot : Booted d start) (h : Idle start os sw) (array : List UInt8) :
    Gives start os 0 (leaves os (cmdPs os.kernel array)) (tells sw 0 psText) := by
  obtain ⟨area, hprocs⟩ := hboot.procs
  refine h.leaves rfl ?_ rfl
  rw [cmdPs, output_bind, output_pure, List.append_nil, h.kernel, hprocs, output_processDisplayInfo]
  simp only [tells]

theorem processGet_processInit {area : StackArea} {pid : ℕ} (h : pid ≠ 0) :
    processGet (processInit area staticProcesses) pid = none := by
  unfold processGet
  split
  · rename_i hlt
    have hne : (⟨pid, hlt⟩ : Fin maxProcesses) ≠ 0 := fun heq => h (congrArg Fin.val heq)
    have hunused : ((processInit area staticProcesses).table ⟨pid, hlt⟩).state = .unused := by
      simp only [processInit, Function.update_of_ne hne]
    rw [if_pos hunused]
  · rfl

theorem idle_kill (hboot : Booted d start) (h : Idle start os sw) (argv : List (List UInt8))
    (array : List UInt8) :
    Gives start os 0 (changes (fun k => { os with kernel := k }) (cmdKill os.kernel argv array))
      (killAnswer sw argv) := by
  obtain ⟨area, hprocs⟩ := hboot.procs
  have hzero : (atoi (argv.getD 1 [])).toUInt32 = 0 ↔ atoi (argv.getD 1 []) = 0 := by
    generalize atoi (argv.getD 1 []) = pid
    exact ⟨fun hzero => by cases pid; cases hzero; rfl, fun hzero => by rw [hzero]; rfl⟩
  unfold cmdKill killAnswer
  split
  · exact h.prints rfl 1 (by decide)
  dsimp only
  split
  · rename_i hpid
    rw [if_pos (hzero.mp hpid)]
    exact h.prints rfl 1 (by decide)
  · rename_i hpid
    have hne : (atoi (argv.getD 1 [])).toUInt32.toNat ≠ 0 := fun heq => hpid (UInt32.toNat_inj.mp heq)
    rw [if_neg (fun heq => hpid (hzero.mpr heq)), h.kernel, hprocs, processGet_processInit hne, ← h.kernel]
    exact h.prints rfl 1 (by decide)

theorem length_contents (d : Fs.Disk) (fatCache : Option (ℕ → UInt8)) (e : FsDirEntry) :
    (contents d fatCache e).length = e.fileSize.toNat := by
  rw [contents_eq, Blocks.length_stretch]

theorem Idle.setFs (h : Idle start os sw) {fs : FsState} (hfat : fs.fatCache = os.fs.fatCache)
    (hroot : fs.rootDirCache = os.fs.rootDirCache) (hinit : fs.initialized = os.fs.initialized)
    (hfiles : ∀ j, (fs.files j).inUse = (os.fs.files j).inUse) : Idle start { os with fs := fs } sw :=
  ⟨h.interfaces, h.services, h.kernel, h.drives, hfat.trans h.fat, hroot.trans h.root,
    hinit.trans h.initialized, fun j => (hfiles j).trans (h.closed j), h.pipes, h.ui, h.content⟩

theorem idle_cat (hboot : Booted d start) (h : Idle start os sw) (argv : List (List UInt8))
    (buffer : ℕ → UInt8) :
    Gives start os 0 (do
      let ended ← relabel .cmd (cmdCat catTurns (diskOf os.drives d) os.fs argv buffer)
      return ended.map fun r => (r.1, { os with fs := r.2 })) (catAnswer sw d start.fs argv) := by
  have hdisk : diskOf os.drives d = d := by rw [h.drives, diskOf, if_pos hboot.drive]
  have hshort : Gives start os 0 (do
      let ended ← relabel .cmd (do
        vgaWriteString (chars "Usage: cat <filename>\n")
        return some (1, os.fs))
      return ended.map fun r => (r.1, { os with fs := r.2 })) (tells sw 1 "Usage: cat <filename>\n") := by
    refine ⟨os, rfl, ?_, h, by simp⟩
    simp (disch := decide) [text_chars, tells]
  rw [hdisk]
  rcases argv with _ | ⟨command, _ | ⟨name, others⟩⟩
  · exact hshort
  · exact hshort
  have hargs : ¬(command :: name :: others).length < 2 := by simp
  cases hfound : dirFindEntry start.fs.rootDirCache name with
  | none =>
    have hmissing : fsFileExists os.fs name = 0 := by rw [fsFileExists, h.root, hfound]
    have hanswer : catAnswer sw d start.fs (command :: name :: others) =
        ⟨1, chars "File not found: " ++ text name ++ [10], sw⟩ := by
      simp [catAnswer, hfound]
    have hrun : cmdCat catTurns d os.fs (command :: name :: others) buffer = do
        vgaWriteString (chars "File not found: ")
        vgaWriteString name
        vgaWriteChar 10
        return some (1, os.fs) := by
      simp only [cmdCat, if_neg hargs, List.getD_cons_succ, List.getD_cons_zero, if_pos hmissing]
    rw [hanswer, hrun]
    refine ⟨os, rfl, ?_, h, by simp⟩
    simp (disch := decide) [text_chars]
  | some found =>
    obtain ⟨n, e⟩ := found
    obtain ⟨hsmall, m, hwf⟩ := hboot.healthy.files name n e hfound
    have hturns : e.fileSize.toNat < catTurns := by
      unfold catTurns
      omega
    obtain ⟨shown, fs, hshown, hval, hleaves⟩ :=
      cmdCat_found d (h.initialized.trans hboot.initialized) command others buffer
        (by rw [h.root]; exact hfound) (h.closed 0) hsmall hturns
    have hanswer : catAnswer sw d start.fs (command :: name :: others) =
        ⟨0, contents d start.fs.fatCache e ++ [10], sw⟩ := by
      simp [catAnswer, hfound]
    have hall : shown = contents d start.fs.fatCache e := by
      have hstart := hleaves.start m (by rw [h.fat]; exact hwf)
      rw [h.fat] at hstart
      refine hstart.eq_of_length ?_
      rw [length_contents]
      exact hleaves.whole fun k _ _ => hboot.healthy.reads k
    rw [hanswer]
    refine ⟨{ os with fs := fs }, ?_, ?_,
      h.setFs hleaves.fat hleaves.root hleaves.initialized hleaves.inUse, by simp⟩
    · rw [val_bind, val_relabel, hval]
      rfl
    · rw [shownBy_bind, shownBy_cmd, hshown, hall, shownBy_pure, List.append_nil]

/-- The test leaves its pipe closed, and the others as they were. -/
theorem pipeTest_leaves {s : Ipc.IpcState} {i : Fin Ipc.ipcMaxPipes} (hfree : GetsPipe s i)
    (proc : Option ℕ) (buf : List UInt8) (message1 message2 msg1 msg2 : UInt32) :
    ∃ pipe : Ipc.IpcPipe, pipe.inUse = false ∧
      (pipeTest message1 message2 s proc buf msg1 msg2).val = (0, s.setPipe i pipe) := by
  rw [GetsPipe] at hfree
  have hpos : ¬((i : ℕ) : ℤ) < 0 := by omega
  refine ⟨⟨Function.update (Function.update (s.pipes i).buffer 0 message1) 1 message2, 2, 2, 0, false,
    proc.getD 0⟩, rfl, ?_⟩
  simp [pipeTest, Ipc.ipcPipeCreate, hfree, Ipc.ipcPipeWrite, Ipc.ipcPipeRead, Ipc.ipcPipeClose,
    Ipc.IpcState.setPipe, Ipc.ipcBufferSize, hpos]

theorem idle_pipe (h : Idle start os sw) (proc : Option ℕ) (array : List UInt8) (msg1 msg2 : UInt32) :
    Gives start os 0 (changes (fun ipc => { os with ipc := ipc })
      (cmdPipe os.ipc proc array msg1 msg2)) (pipeAnswer sw) := by
  have hfree : GetsPipe os.ipc 0 := Table.first_eq_some.mpr
    ⟨by rw [h.pipes]; rfl, fun j hj => absurd hj (Nat.not_lt_zero j)⟩
  obtain ⟨pipe, hclosed, hval⟩ := pipeTest_leaves hfree proc array 0x12345678 0xDEADBEEF msg1 msg2
  refine ⟨{ os with ipc := os.ipc.setPipe 0 pipe }, ?_, ?_,
    ⟨h.interfaces, h.services, h.kernel, h.drives, h.fat, h.root, h.initialized, h.closed,
      fun j => ?_, h.ui, h.content⟩, by simp⟩
  · rw [changes, val_bind, val_pure, val_relabel, cmdPipe, hval]
    rfl
  · rw [shownBy_changes]
    exact output_pipeTest hfree ..
  · change (Function.update os.ipc.pipes 0 pipe j).inUse = false
    rcases eq_or_ne j 0 with rfl | hne
    · rw [Function.update_self, hclosed]
    · rw [Function.update_of_ne hne, h.pipes]

/-- A handler that prints through the functions of `ui/ui.c`, or not at all. -/
theorem idle_ui (h : Idle start os sw) (argv : List (List UInt8)) :
    Gives start os 0 (do
      let r ← cmdUi os.net.socks.net os.ui argv
      return some (r.1, { os with ui := r.2 })) (uiAnswer sw argv) := by
  have hset (ui : Ui.UiState) (hui : Ui.InRange ui.content) :
      Idle start { os with ui := ui } { sw with ui := ui.enabled } :=
    ⟨h.interfaces, h.services, h.kernel, h.drives, h.fat, h.root, h.initialized, h.closed, h.pipes, rfl,
      hui⟩
  unfold cmdUi uiAnswer
  split
  · refine ⟨os, rfl, ?_, h, by simp⟩
    simp (disch := decide) [text_chars, tells]
  split
  · obtain ⟨hrange, hdrawn⟩ := ui_on h.interfaces h.content
    refine ⟨_, rfl, ?_, hset _ hrange, by simp⟩
    rw [shownBy_bind, shownBy_pure, List.append_nil]
    exact hdrawn
  split
  · refine ⟨_, rfl, ?_, hset _ h.content, by simp⟩
    simp (disch := decide) [text_chars, ← drawnBy_eq, Ui.uiDisable, characters]
  split
  · refine ⟨os, rfl, ?_, h, by simp⟩
    have hon : chars "UI status: " ++ chars "ON\n" = chars "UI status: ON\n" := by decide
    have hoff : chars "UI status: " ++ chars "OFF\n" = chars "UI status: OFF\n" := by decide
    rw [h.ui]
    cases sw.ui
    · simp (disch := decide) [text_chars, tells, hoff]
    · simp (disch := decide) [text_chars, tells, hon]
  · refine ⟨os, rfl, ?_, h, by simp⟩
    simp (disch := decide) [text_chars, tells]

/-- STEP: every handler gives its answer. -/
theorem idle_run (hboot : Booted d start) (h : Idle start os sw) (command : Command)
    (argv : List (List UInt8)) (env : CallEnv) (sockets : ℕ)
    (hurl : command = .wget → ¬chars "http://" <+: argv.getD 1 [])
    (hfits : strcmp (argv.getD 1 []) (chars "start") = 0 →
      command = .http ∨ command = .dns ∨ command = .dhcp →
        os.net.socks.nextFd + 1 < 2 ^ 31 ∧ 1 ≤ sockets) :
    Gives start os sockets (command.run d os env argv) (answer sw d start argv env command) := by
  cases command with
  | help => exact (h.replies cmdHelp).mono (Nat.zero_le _)
  | echo => exact (h.replies (cmdEcho argv)).mono (Nat.zero_le _)
  | clear => exact ⟨_, rfl, rfl, h.setScreen _, by simp [Os.setScreen]⟩
  | uptime => exact (idle_uptime hboot h env.array).mono (Nat.zero_le _)
  | exit => exact (h.leaves rfl rfl rfl).mono (Nat.zero_le _)
  | ifconfig => exact (idle_ifconfig h env.array).mono (Nat.zero_le _)
  | ping => exact (idle_ping h argv).mono (Nat.zero_le _)
  | netstat => exact (h.replies cmdNetstat).mono (Nat.zero_le _)
  | arp => exact (h.replies cmdArp).mono (Nat.zero_le _)
  | route => exact (h.replies cmdRoute).mono (Nat.zero_le _)
  | http =>
    exact idle_control h (by decide) (by decide) (by decide) .http argv
      (fun hstart => (hfits hstart (by simp)).1) (fun hstart => (hfits hstart (by simp)).2)
  | dns =>
    exact idle_control h (by decide) (by decide) (by decide) .dns argv
      (fun hstart => (hfits hstart (by simp)).1) (fun hstart => (hfits hstart (by simp)).2)
  | dhcp =>
    exact idle_control h (by decide) (by decide) (by decide) .dhcp argv
      (fun hstart => (hfits hstart (by simp)).1) (fun hstart => (hfits hstart (by simp)).2)
  | wget => exact (idle_wget h (hurl rfl) ..).mono (Nat.zero_le _)
  | disk =>
    have hsame : cmdDisk os.drives env.answer argv env.buffer env.array =
        cmdDisk start.drives env.answer argv env.buffer env.array := by rw [h.drives]
    exact (h.leaves (congrArg Traced.val hsame) (congrArg output hsame) rfl).mono (Nat.zero_le _)
  | ps => exact (idle_ps hboot h env.array).mono (Nat.zero_le _)
  | kill => exact (idle_kill hboot h argv env.array).mono (Nat.zero_le _)
  | ls =>
    have hsame : cmdLs os.fs env.entries env.array = cmdLs start.fs env.entries env.array := by
      simp only [cmdLs, fsListDir, h.initialized, h.root]
    exact (h.leaves (congrArg Traced.val hsame) (congrArg output hsame) rfl).mono (Nat.zero_le _)
  | cat => exact (idle_cat hboot h argv env.buffer).mono (Nat.zero_le _)
  | file =>
    have hinfo : fsGetFileInfo os.fs = fsGetFileInfo start.fs := by
      funext filename info
      simp only [fsGetFileInfo, h.root]
    have hsame : cmdFile os.fs argv env.info env.array = cmdFile start.fs argv env.info env.array := by
      simp only [cmdFile, hinfo]
    exact (h.leaves (congrArg Traced.val hsame) (congrArg output hsame) rfl).mono (Nat.zero_le _)
  | pipe => exact (idle_pipe h ..).mono (Nat.zero_le _)
  | ui => exact (idle_ui h argv).mono (Nat.zero_le _)

/-! ### Whole sessions -/

/-- The command would open a socket. -/
def OsOp.starts : OsOp → Bool
  | .call command argv _ => (command = .http ∨ command = .dns ∨ command = .dhcp) ∧
      strcmp (argv.getD 1 []) (chars "start") = 0
  | .interrupt _ _ => false

/-- `wget` gets no URL, and an interrupt finds a data segment that is not the null segment. -/
def OsOp.Plain : OsOp → Prop
  | .call command argv _ => command = .wget → ¬chars "http://" <+: argv.getD 1 []
  | .interrupt _ cpu => cpu.seg .ds ≠ 0

/-- The kernel's data segment is passed to `irq_handler` for the number of the interrupt, so nothing is
    done about it. -/
theorem interrupt_lost (callee : Cdecl) (ret : UInt32) {vectors : Irq → UInt8} (hremap : Remapped vectors)
    (os : Os) (irq : Irq) {cpu : Cpu} (hds : cpu.seg .ds ≠ 0) :
    os.interrupt callee ret vectors irq cpu = some os := by
  have hnumber : ¬setAx (cpu.reg .eax) (cpu.seg .ds) = 0 :=
    fun h => hds ((setAx_eq_iff _ _ 0).mp h).1
  have hsame : (irqHandler os.kernel (setAx (cpu.reg .eax) (cpu.seg .ds))).val = os.kernel := by
    simp only [irqHandler, irqSwitch, if_neg hnumber, val_bind, val_pure]
  have hgate : idtInit (vectors irq) = some (.irq irq) := by
    cases irq with
    | irq0 => rw [hremap.1]; rfl
    | irq1 => rw [hremap.2]; rfl
  rw [Os.interrupt, hgate]
  simp only [execAll_irqStub, data_beside, hsame]

/-- STEP: the machine and the answers go together. -/
theorem osStep_answers (callee : Cdecl) (ret : UInt32) {vectors : Irq → UInt8} (hremap : Remapped vectors)
    (hboot : Booted d start) (h : Idle start os sw) (op : OsOp) (hplain : op.Plain)
    (hfits : op.starts = true → os.net.socks.nextFd + 1 < 2 ^ 31) :
    ∃ os', osStep callee ret vectors d (some os) op = (some os', (answerStep d start sw op).2) ∧
      Idle start os' (answerStep d start sw op).1 ∧
      os'.net.socks.nextFd ≤ os.net.socks.nextFd + op.starts.toNat := by
  cases op with
  | interrupt irq cpu =>
    rw [osStep, interrupt_lost callee ret hremap os irq hplain]
    exact ⟨os, rfl, h, by simp⟩
  | call command argv env =>
    have hstarts : strcmp (argv.getD 1 []) (chars "start") = 0 →
        command = .http ∨ command = .dns ∨ command = .dhcp →
          (OsOp.call command argv env).starts = true :=
      fun hstart hcommand => decide_eq_true ⟨hcommand, hstart⟩
    obtain ⟨os', hval, hshown, hidle, hnext⟩ := idle_run hboot h command argv env
      (OsOp.call command argv env).starts.toNat hplain
      fun hstart hcommand => ⟨hfits (hstarts hstart hcommand), by rw [hstarts hstart hcommand]; rfl⟩
    refine ⟨os'.write (printedBy (command.run d os env argv)), ?_, hidle.setScreen _, hnext⟩
    simp only [osStep, osCall, answerStep, hval, hshown, Option.map_some, Option.getD_some]

end

/-! ### The start -/

/-- The memory after `fs_init` has read both caches. -/
def bootMem (d : Fs.Disk) (mem : Memory.Mem) : Memory.Mem :=
  let mem := Memory.memFrom Memory.heapStart (d.transfer fsFatStartSector fsSectorsPerFat
    (Memory.cells mem Memory.heapStart))
  Memory.memFrom (Memory.heapStart + 9 * 512) (d.transfer fsRootDirSector fsRootDirSectors
    (Memory.cells mem (Memory.heapStart + 9 * 512)))

/-- The heap has room for both caches, and both are read, the one behind the other. -/
theorem fsInit_boot {d : Fs.Disk} (hreads : ∀ k, d.fails k = false) (mem : Memory.Mem) :
    (fsInit d mem (Memory.memoryInit ⟨Memory.null⟩) staticFs).2.2 =
      { staticFs with
        fatCache := some (Memory.cells (bootMem d mem) Memory.heapStart)
        rootDirCache := some (Memory.cells (bootMem d mem) (Memory.heapStart + 9 * 512))
        initialized := true
        reads := 2 } := by
  have hread : ∀ k lba count buffer,
      diskReadSectors d k lba count buffer = ((count : ℤ), d.transfer lba count buffer) := by
    intro k lba count buffer
    have hnone : d.stopsAfter k = none := by simpa [Disk.fails] using hreads k
    rw [diskReadSectors, hnone]
  simp only [fsInit, hread]
  rfl

theorem kmain_fs {d : Fs.Disk} {env : BootEnv} {start : Os} (hstart : kmain d env 0x2BADB002 = .ok start) :
    start.fs = (fsInit (diskOf start.drives d) env.mem (Memory.memoryInit ⟨Memory.null⟩) staticFs).2.2 := by
  cases hstart
  rfl

theorem kmain_booted {d : Fs.Disk} {env : BootEnv} {start : Os}
    (hstart : kmain d env 0x2BADB002 = .ok start) (hdrive : (start.drives.disks 0).present = true)
    (hhealthy : Healthy d start.fs) : Booted d start := by
  have hdisk : diskOf start.drives d = d := if_pos hdrive
  have hfs := (kmain_fs hstart).trans (by rw [hdisk, fsInit_boot hhealthy.reads env.mem])
  have hclosed : ∀ j, (start.fs.files j).inUse = false := fun _ => by rw [hfs]; rfl
  have hinit : start.fs.initialized = true := by rw [hfs]
  cases hstart
  exact
    { idle := ⟨rfl, switched_static rfl (by funext v; cases v <;> rfl), rfl, rfl, rfl, rfl, rfl, hclosed,
        fun _ => rfl, rfl, ⟨le_refl 0, Int.natCast_pos.mpr (by decide)⟩⟩
      drive := hdrive
      ticks := rfl
      procs := ⟨env.area, rfl⟩
      nextFd := rfl
      initialized := hinit
      healthy := hhealthy }

/-- REFINEMENT: from the start on, every run of commands and interrupts is answered as from the four
    switches. Drive 0 was found, the interrupts come in at their stubs, and there are descriptors for all
    but 2³¹ services. -/
theorem session_answers (callee : Cdecl) (ret : UInt32) {vectors : Irq → UInt8} (hremap : Remapped vectors)
    {d : Fs.Disk} {env : BootEnv} {start : Os} (hstart : kmain d env 0x2BADB002 = .ok start)
    (hdrive : (start.drives.disks 0).present = true) (hhealthy : Healthy d start.fs) (ops : List OsOp)
    (hplain : ∀ op ∈ ops, op.Plain) (hfew : ops.countP OsOp.starts < 2 ^ 31 - 1) :
    outs (osStep callee ret vectors d) (some start) ops = outs (answerStep d start) allOff ops := by
  have hboot := kmain_booted hstart hdrive hhealthy
  -- every start that is asked for leaves the next descriptor an `int`
  have hfits : Along (osStep callee ret vectors d) (fun o op => op.Plain ∧ ∀ os, o = some os →
      op.starts = true → os.net.socks.nextFd + 1 < 2 ^ 31) (some start) ops := by
    refine along_of_budget (I := fun o => ∃ os sw, o = some os ∧ Idle start os sw)
      (H := fun _ op => op.Plain) (c := OsOp.starts)
      (μ := fun o => (o.map fun os => os.net.socks.nextFd).getD 0)
      (B := 2 ^ 31) ?_ ?_ ops (some start) ⟨start, allOff, rfl, hboot.idle⟩
      ((along_iff_forall_mem ops (some start)).mpr hplain) ?_
    · rintro _ op ⟨os, sw, rfl, -⟩ hop hroom
      refine ⟨hop, fun os' hos hstarts => ?_⟩
      cases hos
      rw [hstarts] at hroom
      exact hroom
    · rintro _ op ⟨os, sw, rfl, hidle⟩ hop ⟨_, hroom⟩
      obtain ⟨os', hstep, hnext, hfd⟩ :=
        osStep_answers callee ret hremap hboot hidle op hop (hroom os rfl)
      rw [hstep]
      exact ⟨⟨os', _, rfl, hnext⟩, hfd⟩
    · have hone := hboot.nextFd
      show start.net.socks.nextFd + _ < _
      omega
  refine (outs_sim (R := fun o sw => ∃ os, o = some os ∧ Idle start os sw) ?_ ops (some start) allOff
    ⟨start, rfl, hboot.idle⟩ hfits).1
  rintro _ sw op ⟨os, rfl, hidle⟩ ⟨hop, hroom⟩
  obtain ⟨os', hstep, hnext, -⟩ := osStep_answers callee ret hremap hboot hidle op hop (hroom os rfl)
  rw [hstep]
  exact ⟨rfl, os', rfl, hnext⟩

/-- A disk with the file `A` of the sample directory. -/
def sampleFloppy : Fs.Disk where
  sector lba k :=
    if lba = fsFatStartSector then sampleFs.fatCache.getD (fun _ => 0) k
    else if lba = fsRootDirSector then sampleFs.rootDirCache.getD (fun _ => 0) k
    else if lba < fsDataStartSector then 0
    else UInt8.ofNat (7 * lba.toNat + k)
  stopsAfter _ := none

/-- Drive 0 answers to `IDENTIFY`, and the memory is blank. -/
def sampleBoot : BootEnv where
  video := fun _ => 0
  mem := fun _ => 0
  area := sampleArea
  drives := fun i => if i.val = 0 then ⟨0x50, true, fun _ => 0⟩ else ⟨0xFF, false, fun _ => 0⟩

def sampleCallEnv : CallEnv where
  array := List.replicate 32 0
  buffer := fun _ => 0
  msg1 := 0
  msg2 := 0
  info := ⟨[], 0, 0, 0, 0, 0⟩
  entries := fun _ => ⟨[], 0, 0, 0, 0, 0⟩
  answer := ⟨true, fun _ => true, fun _ _ => 0⟩

theorem sampleBoot_drive {start : Os} (hstart : kmain sampleFloppy sampleBoot 0x2BADB002 = .ok start) :
    (start.drives.disks 0).present = true := by
  cases hstart
  exact ((Disk.diskInit_spec Disk.staticDrives sampleBoot.drives).1 0).trans rfl

/-- The file `A` is the only one. -/
theorem sampleFloppy_healthy {start : Os} (hstart : kmain sampleFloppy sampleBoot 0x2BADB002 = .ok start) :
    Healthy sampleFloppy start.fs := by
  have hrange : List.range fsRootEntries = 0 :: 1 :: List.range' 2 222 := by decide +kernel
  have hchain : WellFormed (some (Memory.cells (bootMem sampleFloppy sampleBoot.mem) Memory.heapStart))
      sampleEntry 2 := ⟨by decide, by decide, by decide⟩
  have hdisk : diskOf start.drives sampleFloppy = sampleFloppy := if_pos (sampleBoot_drive hstart)
  rw [kmain_fs hstart, hdisk, fsInit_boot (fun _ => rfl) sampleBoot.mem]
  refine ⟨fun _ => rfl, fun name n e hfound => ?_⟩
  simp only [dirFindEntry, hrange] at hfound
  generalize hdir : Memory.cells (bootMem sampleFloppy sampleBoot.mem) (Memory.heapStart + 9 * 512) = dir
    at hfound
  have hfirst : dir (32 * 0) = 65 := by rw [← hdir]; rfl
  have hsecond : dir (32 * 1) = 0 := by rw [← hdir]; rfl
  have hentry : dirEntry dir 0 = sampleEntry := by rw [← hdir]; decide
  rw [dirSearch, dirSearch, hfirst, hsecond, hentry, if_neg (by decide), if_neg (by decide),
    if_pos rfl] at hfound
  obtain ⟨rfl, rfl⟩ : n = 0 ∧ e = sampleEntry := by
    split at hfound <;> simp_all
  exact ⟨by decide, 2, hchain⟩

/-- The numbers of the stubs. -/
def sampleVectors : Irq → UInt8
  | .irq0 => 32
  | .irq1 => 33

/-- A service is started, there is a timer interrupt, a file is shown, and the text interface comes on. -/
def sampleOps : List OsOp :=
  [.call .http [chars "http", chars "start"] sampleCallEnv, .interrupt .irq0 kernelCpu,
    .call .cat [chars "cat", chars "A"] sampleCallEnv, .call .uptime [chars "uptime"] sampleCallEnv,
    .call .ui [chars "ui", chars "on"] sampleCallEnv]

theorem session_answers_sample :
    ∃ start, kmain sampleFloppy sampleBoot 0x2BADB002 = .ok start ∧
      outs (osStep plainRet 0 sampleVectors sampleFloppy) (some start) sampleOps =
        outs (answerStep sampleFloppy start) allOff sampleOps := by
  obtain ⟨start, hstart⟩ : ∃ start, kmain sampleFloppy sampleBoot 0x2BADB002 = .ok start := ⟨_, rfl⟩
  exact ⟨start, hstart, session_answers plainRet 0 ⟨rfl, rfl⟩ hstart (sampleBoot_drive hstart)
    (sampleFloppy_healthy hstart) sampleOps (by simp [sampleOps, OsOp.Plain, kernelCpu]) (by decide)⟩

end VlsOs.Shell
