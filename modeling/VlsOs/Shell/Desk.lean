import VlsOs.Kernel.Glyphs
import VlsOs.Shell.Keyboard
import VlsOs.Shell.Session

/-! The machine with somebody at it.

    The keyboard is polled, a key goes to the shell, the shell calls a handler, the handler works on the
    state of the kernel and prints, and the console turns what is printed into cells. All of it together
    is compared with a view that has none of the machinery: a line, four switches, and a terminal.

        keys, interrupts ──▶ buffers, tables, caches, 2000 cells ──▶ screen
                  │                                                    ║
                  └────────▶ line, switches, terminal ────────────▶ window -/

namespace VlsOs.Shell
open Patterns Patterns.Run Patterns.Trace VlsOs.Libc VlsOs.Net VlsOs.Net.Sock VlsOs.Proc VlsOs.Interrupt
open VlsOs.Fs VlsOs.Vga

/-! ### The machine -/

/-- The kernel and the shell. There is no kernel any more once a handler does not return, or an interrupt
    has not found its stub. -/
structure Desk where
  os : Option Os
  shell : ShellState

/-- A turn of the keyboard's loop, with what a command finds that it leads to; or an interrupt. -/
inductive DeskOp
  | poll (p : Poll) (env : CallEnv)
  | interrupt (irq : Irq) (cpu : Cpu)

def Os.screen (os : Os) : Screen := os.ui.content.screen

@[simp] theorem screen_setScreen (os : Os) (screen : Screen) : (os.setScreen screen).screen = screen := rfl

def promptText : List UInt8 := chars "vlsos> "

/-- What the handler of a command returns. -/
def handlerCode (d : Fs.Disk) (env : CallEnv) (os : Os) (name : List UInt8) (argv : List (List UInt8)) : ℤ :=
  ((commandOf name).bind fun command => (osCall d os command argv env).2.code).getD 0

/-- What the shell does is done to the kernel. -/
def Os.onEvent (d : Fs.Disk) (env : CallEnv) (os : Os) : ShellEvent → Option Os
  | .prompt => some (os.write promptText)
  | .print characters => some (os.write characters)
  | .parse _ => some os
  | .call name argv =>
    (commandOf name).bind fun command =>
      let (os, out) := osCall d os command argv env
      out.code.map fun _ => os

/-- `shell_main` is back in `kmain`. -/
def Os.panic (os : Os) : Os := os.setScreen (kernelPanic os.screen "Shell exited unexpectedly!")

/-- A key, up to the next one. -/
def Desk.key (d : Fs.Disk) (env : CallEnv) (m : Desk) (c : UInt8) : Desk :=
  match m.os with
  | none => m
  | some os =>
    let x := readKey (handlerCode d env os) m.shell c
    let after := x.events.foldlM (Os.onEvent d env) os
    ⟨if m.shell.running ∧ x.val.running = false then after.map Os.panic else after, x.val⟩

section
variable (callee : Cdecl) (ret : UInt32) (vectors : Irq → UInt8)

/-- After the panic the interrupts are off. -/
def deskStep (d : Fs.Disk) (m : Desk) : DeskOp → Desk × Unit
  | .poll p env =>
    match keyboardPoll p with
    | none => (m, ())
    | some c => (m.key d env c, ())
  | .interrupt irq cpu =>
    if m.shell.running then
      ({ m with os := m.os.bind fun os => os.interrupt callee ret vectors irq cpu }, ())
    else (m, ())

end

/-- `shell_main` at its first prompt. -/
def Os.shellMain (os : Os) (buffer parseBuffer : List UInt8) : Desk :=
  ⟨some ((os.setScreen (vgaSetColor os.screen 7 0)).write promptText), ⟨buffer, 0, parseBuffer, true⟩⟩

/-! ### The view -/

/-- The line, the switches and the terminal. There is no terminal while the text interface has drawn on
    the screen. -/
structure View where
  repl : Repl
  switches : Switches
  terminal : Option Terminal

def View.put (v : View) (characters : List UInt8) : View :=
  { v with terminal := v.terminal.map fun t => characters.foldl Terminal.put t }

/-- What a command does to the terminal before it prints. -/
def clears (argv : List (List UInt8)) (t : Option Terminal) : Command → Option Terminal
  | .clear => some blankTerminal
  | .ui =>
    if argv.length < 2 then t
    else if strcmp (argv.getD 1 []) (chars "on") = 0 then none
    else if strcmp (argv.getD 1 []) (chars "off") = 0 then some blankTerminal
    else t
  | _ => t

section
variable (d : Fs.Disk) (start : Os) (env : CallEnv)

def answerCode (sw : Switches) (name : List UInt8) (argv : List (List UInt8)) : ℤ :=
  ((commandOf name).map fun command => (answer sw d start argv env command).code).getD 0

def View.onEvent (v : View) : ShellEvent → View
  | .prompt => v.put promptText
  | .print characters => v.put characters
  | .parse _ => v
  | .call name argv =>
    match commandOf name with
    | none => v
    | some command =>
      let a := answer v.switches d start argv env command
      { v with switches := a.switches, terminal := clears argv v.terminal command }.put a.shown

def panicText : List UInt8 := chars "\nKERNEL PANIC: Shell exited unexpectedly!\n"

def View.key (v : View) (c : UInt8) : View :=
  let x := replStep (answerCode d start env v.switches) v.repl c
  let after := x.2.foldl (View.onEvent d start env) v
  let after := if v.repl.running ∧ x.1.running = false then after.put panicText else after
  { after with repl := x.1 }

end

/-- Interrupts are not to be seen. -/
def viewStep (d : Fs.Disk) (start : Os) (v : View) : DeskOp → View × Unit
  | .poll p env =>
    match keyboardPoll p with
    | none => (v, ())
    | some c => (v.key d start env c, ())
  | .interrupt _ _ => (v, ())

/-- What `kmain` prints. -/
def bootTexts : List String :=
  "VlsOs Operating System v0.1.0\n" :: "================================\n\n" :: bootMessages

def bootText : List UInt8 := bootTexts.flatMap chars

def firstView : View := ⟨⟨[], true⟩, allOff, some ((bootText ++ promptText).foldl Terminal.put blankTerminal)⟩

/-! ### Characters on the screen -/

theorem displays_writeAll (characters : List UInt8) : ∀ {s : Screen} {t : Terminal}, Displays s t →
    Displays (writeAll s characters) (characters.foldl Terminal.put t) := by
  induction characters with
  | nil => exact fun h => h
  | cons c characters ih => exact fun h => ih (h.writeChar c)

theorem displays_writeText {s : Screen} {t : Terminal} (h : Displays s t) {message : String}
    (hmessage : 0 ∉ chars message) :
    Displays (writeText s message) ((chars message).foldl Terminal.put t) := by
  have hwrite := h.writeString (chars message)
  rwa [text_chars hmessage] at hwrite

theorem displays_messages : ∀ (messages : List String), (∀ message ∈ messages, 0 ∉ chars message) →
    ∀ {s : Screen} {t : Terminal}, Displays s t →
      Displays (messages.foldl writeText s) ((messages.flatMap chars).foldl Terminal.put t) := by
  intro messages
  induction messages with
  | nil => exact fun _ _ _ h => h
  | cons message messages ih =>
    intro hall s t h
    rw [List.flatMap_cons, List.foldl_append]
    exact ih (fun m hm => hall m (List.mem_cons_of_mem _ hm))
      (displays_writeText h (hall message List.mem_cons_self))

theorem displays_panic {s : Screen} {t : Terminal} (h : Displays s t) :
    Displays (kernelPanic s "Shell exited unexpectedly!") (panicText.foldl Terminal.put t) := by
  have htext : panicText = ["\nKERNEL PANIC: ", "Shell exited unexpectedly!", "\n"].flatMap chars := by
    decide
  have hnul : ∀ message ∈ ["\nKERNEL PANIC: ", "Shell exited unexpectedly!", "\n"],
      0 ∉ chars message := by decide
  have hfold : kernelPanic s "Shell exited unexpectedly!" =
      ["\nKERNEL PANIC: ", "Shell exited unexpectedly!", "\n"].foldl writeText (vgaSetColor s 12 0) :=
    rfl
  rw [htext, hfold]
  exact displays_messages _ hnul (h.setColor 12 0)

/-- What `kmain` leaves on the screen. -/
theorem displays_kmain {d : Fs.Disk} {env : BootEnv} {start : Os}
    (hstart : kmain d env 0x2BADB002 = .ok start) :
    Displays start.screen (bootText.foldl Terminal.put blankTerminal) := by
  have hnul : ∀ message ∈ bootTexts, 0 ∉ chars message := by decide
  have hclear := (displays_vgaClearScreen (vgaInit (staticScreen env.video)).val).setColor 10 0
  have hscreen : start.screen = vgaSetColor (bootTexts.foldl writeText
      (vgaSetColor (vgaClearScreen (vgaInit (staticScreen env.video)).val).val 10 0)) 7 0 := by
    cases hstart
    rw [bootTexts, List.foldl_cons, List.foldl_cons]
    exact congrArg (fun s => vgaSetColor (bootMessages.foldl writeText s) 7 0) (welcome.eq_1 env.video)
  rw [hscreen]
  exact (displays_messages _ hnul hclear).setColor 7 0

/-- The screen is what the terminal shows, if there is one. -/
def OnScreen (s : Screen) (t : Option Terminal) : Prop := ∀ u, t = some u → Displays s u

theorem OnScreen.write {os : Os} {v : View} (h : OnScreen os.screen v.terminal) (characters : List UInt8) :
    OnScreen (os.write characters).screen (v.put characters).terminal := by
  intro u hu
  obtain ⟨t, ht, rfl⟩ := Option.map_eq_some_iff.mp hu
  exact displays_writeAll characters (h t ht)

/-! ### A call -/

section
variable {d : Fs.Disk} {start os os' : Os} {env : CallEnv}

/-- What `cmd_ui` does to the screen. -/
theorem cmdUi_screen (net : NetState) (argv : List (List UInt8)) {t : Option Terminal}
    (h : OnScreen os.screen t) :
    OnScreen (cmdUi net os.ui argv).val.2.content.screen (clears argv t .ui) := by
  have hblank : OnScreen (Ui.uiDisable os.ui).val.content.screen (some blankTerminal) := by
    have hscreen : (Ui.uiDisable os.ui).val.content.screen =
        vgaSetColor (vgaClearScreen os.screen).val 7 0 := by
      simp only [Ui.uiDisable, val_bind, val_pure, Ui.screen_onScreen, Os.screen]
      rfl
    intro u hu
    rw [hscreen, ← Option.some.inj hu]
    exact (displays_vgaClearScreen os.screen).setColor 7 0
  unfold cmdUi clears
  by_cases hfew : argv.length < 2
  · rw [if_pos hfew, if_pos hfew]
    exact h
  by_cases hon : strcmp (argv.getD 1 []) (chars "on") = 0
  · rw [if_neg hfew, if_neg hfew, if_pos hon, if_pos hon]
    exact fun u hu => by cases hu
  by_cases hoff : strcmp (argv.getD 1 []) (chars "off") = 0
  · rw [if_neg hfew, if_neg hfew, if_neg hon, if_neg hon, if_pos hoff, if_pos hoff]
    exact hblank
  · rw [if_neg hfew, if_neg hfew, if_neg hon, if_neg hon, if_neg hoff, if_neg hoff]
    split <;> exact h

/-- What the handlers do to the screen before they print. -/
theorem run_screen {command : Command} {argv : List (List UInt8)} {code : ℤ} {t : Option Terminal}
    (hrun : (command.run d os env argv).val = some (code, os')) (h : OnScreen os.screen t) :
    OnScreen os'.screen (clears argv t command) := by
  cases command with
  | clear =>
    cases hrun
    rintro u ⟨⟩
    exact (displays_vgaClearScreen _).setColor 7 0
  | ui =>
    cases hrun
    exact cmdUi_screen os.net.socks.net argv h
  | cat =>
    obtain ⟨r, -, hr⟩ := Option.map_eq_some_iff.mp hrun
    cases hr
    exact h
  | _ =>
    cases hrun
    exact h

/-- While there is a terminal, the handler has printed everything itself. -/
theorem printed_eq_shown {command : Command} {argv : List (List UInt8)} {t : Option Terminal} {u : Terminal}
    (h : clears argv t command = some u) :
    printedBy (command.run d os env argv) = shownBy (command.run d os env argv) := by
  cases command with
  | ui =>
    simp only [Command.run, printedBy_bind, shownBy_bind, printedBy_pure, shownBy_pure]
    unfold cmdUi
    simp only [clears] at h
    split_ifs at h ⊢ <;> simp [← drawnBy_eq, Ui.uiDisable, characters]
  | _ => simp [Command.run, Shell.leaves, changes]

theorem commandOf_name {name : List UInt8} (h : name ∈ commandNames) :
    ∃ command, commandOf name = some command := by
  have hall : ∀ name ∈ commandNames, (commandOf name).isSome = true := by decide
  exact Option.isSome_iff_exists.mp (hall name h)

/-- SIMULATION relation between the kernel and the view. -/
structure Tied (start os : Os) (v : View) : Prop where
  idle : Idle start os v.switches
  screen : OnScreen os.screen v.terminal

variable {v : View}

theorem Tied.write (h : Tied start os v) (characters : List UInt8) :
    Tied start (os.write characters) (v.put characters) :=
  ⟨h.idle.setScreen _, h.screen.write characters⟩

theorem idle_handlerCode (hboot : Booted d start) {sw : Switches} (h : Idle start os sw)
    {name : List UInt8} {argv : List (List UInt8)} (hurl : ¬chars "http://" <+: argv.getD 1 [])
    (hroom : os.net.socks.nextFd + 1 < 2 ^ 31) :
    handlerCode d env os name argv = answerCode d start env sw name argv := by
  unfold handlerCode answerCode
  cases commandOf name with
  | none => rfl
  | some command =>
    obtain ⟨os', hval, -⟩ := idle_run hboot h command argv env 1 (fun _ => hurl) fun _ _ => ⟨hroom, le_refl 1⟩
    simp only [osCall, Option.bind_some, Option.map_some, hval]

/-- A call of a command. -/
theorem Tied.call (hboot : Booted d start) (h : Tied start os v) (env : CallEnv) {name : List UInt8}
    (hname : name ∈ commandNames) {argv : List (List UInt8)}
    (hurl : ¬chars "http://" <+: argv.getD 1 []) (hroom : os.net.socks.nextFd + 1 < 2 ^ 31) :
    ∃ os', os.onEvent d env (.call name argv) = some os' ∧
      Tied start os' (v.onEvent d start env (.call name argv)) ∧
      os'.net.socks.nextFd ≤ os.net.socks.nextFd + 1 := by
  obtain ⟨command, hcommand⟩ := commandOf_name hname
  obtain ⟨os', hval, hshown, hidle, hnext⟩ := idle_run hboot h.idle command argv env 1 (fun _ => hurl)
    fun _ _ => ⟨hroom, le_refl 1⟩
  have hscreen := run_screen hval h.screen
  refine ⟨os'.write (printedBy (command.run d os env argv)), ?_, ?_, hnext⟩
  · simp only [Os.onEvent, hcommand, osCall, hval, Option.bind_some, Option.map_some, Option.getD_some]
  · simp only [View.onEvent, hcommand]
    refine ⟨hidle.setScreen _, fun u hu => ?_⟩
    obtain ⟨t, ht, rfl⟩ := Option.map_eq_some_iff.mp hu
    rw [← hshown, ← printed_eq_shown ht]
    exact displays_writeAll _ (hscreen t ht)

theorem foldlM_seen (events : List ShellEvent) : ∀ os : Os,
    events.foldlM (Os.onEvent d env) os = (seen events).foldlM (Os.onEvent d env) os := by
  induction events with
  | nil => exact fun _ => rfl
  | cons e events ih =>
    intro os
    cases e with
    | parse buffer => exact ih os
    | prompt => exact ih _
    | print characters => exact ih _
    | call name argv =>
      show (os.onEvent d env (.call name argv) >>= fun os => events.foldlM (Os.onEvent d env) os) =
        (os.onEvent d env (.call name argv) >>= fun os => (seen events).foldlM (Os.onEvent d env) os)
      exact congrArg _ (funext ih)

/-- STEP: what the shell does keeps the kernel and the view together. -/
theorem Tied.onEvents (hboot : Booted d start) (env : CallEnv) (events : List ShellEvent) : ∀ {os : Os} {v : View},
    Tied start os v →
    (∀ call ∈ calls events, call.1 ∈ commandNames ∧ ¬chars "http://" <+: call.2.getD 1 []) →
    os.net.socks.nextFd + (calls events).length < 2 ^ 31 →
      ∃ os', events.foldlM (Os.onEvent d env) os = some os' ∧
        Tied start os' (events.foldl (View.onEvent d start env) v) ∧
        os'.net.socks.nextFd ≤ os.net.socks.nextFd + (calls events).length := by
  induction events with
  | nil =>
    intro os v h _ _
    exact ⟨os, rfl, h, by simp [calls]⟩
  | cons e events ih =>
    intro os v h hcalls hroom
    cases e with
    | parse buffer => exact ih h hcalls hroom
    | prompt => exact ih (h.write promptText) hcalls hroom
    | print characters => exact ih (h.write characters) hcalls hroom
    | call name argv =>
      have hcount : (calls (.call name argv :: events)).length = (calls events).length + 1 := rfl
      rw [hcount] at hroom ⊢
      obtain ⟨hname, hurl⟩ := hcalls (name, argv) List.mem_cons_self
      obtain ⟨os₁, hcall, htied, hfd⟩ := h.call hboot env hname hurl (by omega)
      obtain ⟨os₂, hrest, htied', hfd'⟩ := ih htied
        (fun call hcall => hcalls call (List.mem_cons_of_mem _ hcall)) (by omega)
      refine ⟨os₂, ?_, htied', by omega⟩
      rw [List.foldlM_cons, hcall]
      exact hrest

end

/-! ### A key -/

/-- The calls of a line. -/
theorem calls_replLine (handler : List UInt8 → List (List UInt8) → ℤ) (line : List UInt8) :
    calls (replLine handler line).2 = [] ∨
      (arguments line).headD [] ∈ commandNames ∧
        calls (replLine handler line).2 = [((arguments line).headD [], arguments line)] := by
  rw [replLine]
  split_ifs with _ hname
  · exact .inl rfl
  · exact .inr ⟨hname, rfl⟩
  · exact .inr ⟨hname, rfl⟩
  · exact .inl rfl

theorem calls_replStep (handler : List UInt8 → List (List UInt8) → ℤ) (r : Repl) (c : UInt8) :
    calls (replStep handler r c).2 = [] ∨
      ∃ line, (line = r.line ∨ line = editKey r.line c) ∧ (arguments line).headD [] ∈ commandNames ∧
        calls (replStep handler r c).2 = [((arguments line).headD [], arguments line)] := by
  rw [replStep]
  split
  · exact .inl rfl
  split
  · rcases calls_replLine handler r.line with hnone | ⟨hname, hone⟩
    · exact .inl hnone
    · exact .inr ⟨r.line, .inl rfl, hname, hone⟩
  · dsimp only
    split
    · refine .inl ?_
      rw [← List.append_nil (echo r.line c), calls_echo_append]
      rfl
    · rw [calls_echo_append]
      rcases calls_replLine handler (editKey r.line c) with hnone | ⟨hname, hone⟩
      · exact .inl hnone
      · exact .inr ⟨_, .inr rfl, hname, hone⟩

/-- Only what the handler returns for the line matters. -/
theorem replStep_congr {handler handler' : List UInt8 → List (List UInt8) → ℤ} {r : Repl} {c : UInt8}
    (h : ∀ line, line = r.line ∨ line = editKey r.line c →
      handler ((arguments line).headD []) (arguments line) =
        handler' ((arguments line).headD []) (arguments line)) :
    replStep handler r c = replStep handler' r c := by
  have hline : ∀ line, line = r.line ∨ line = editKey r.line c →
      replLine handler line = replLine handler' line := by
    intro line hline
    rw [replLine, replLine, h line hline]
  unfold replStep
  dsimp only
  rw [hline _ (.inl rfl), hline _ (.inr rfl)]

theorem no_url {line : List UInt8} (h : ∀ c ∈ line, Typable c) :
    ¬chars "http://" <+: (arguments line).getD 1 [] := by
  refine (no_capital_of_typable fun c hc => h c ?_).2
  rw [List.getD_eq_getElem?_getD] at hc
  cases hword : (arguments line)[1]? with
  | none =>
    rw [hword] at hc
    cases hc
  | some w =>
    rw [hword] at hc
    exact mem_arguments (List.mem_of_getElem? hword) hc

/-- SIMULATION relation. -/
structure Seen (last : UInt8) (start os : Os) (shell : ShellState) (v : View) : Prop extends
    Tied start os v where
  mirrors : Mirrors last shell v.repl
  typable : ∀ c ∈ v.repl.line, Typable c

section
variable {d : Fs.Disk} {start os : Os} {env : CallEnv} {last : UInt8} {shell : ShellState} {v : View}

theorem Tied.panic (h : Tied start os v) : Tied start os.panic (v.put panicText) := by
  refine ⟨h.idle.setScreen _, fun u hu => ?_⟩
  obtain ⟨t, ht, rfl⟩ := Option.map_eq_some_iff.mp hu
  rw [Os.panic, screen_setScreen]
  exact displays_panic (h.screen t ht)

/-- STEP: a key. -/
theorem Seen.key (hboot : Booted d start) (h : Seen last start os shell v) {c : UInt8}
    (hc : c ∈ scancodeMap) (hfills : (editKey v.repl.line c).length = 255 → last = 0)
    (hroom : os.net.socks.nextFd + 1 < 2 ^ 31) :
    ∃ os' shell', Desk.key d env ⟨some os, shell⟩ c = ⟨some os', shell'⟩ ∧
      Seen last start os' shell' (v.key d start env c) ∧
      os'.net.socks.nextFd ≤ os.net.socks.nextFd + 1 := by
  have hlines : ∀ line, line = v.repl.line ∨ line = editKey v.repl.line c →
      ¬chars "http://" <+: (arguments line).getD 1 [] := by
    rintro line (rfl | rfl)
    · exact no_url h.typable
    · exact no_url (editKey_typable h.typable hc)
  obtain ⟨hseen, hmirrors⟩ := h.mirrors.step (handlerCode d env os) c hfills
  have hsame : replStep (handlerCode d env os) v.repl c =
      replStep (answerCode d start env v.switches) v.repl c :=
    replStep_congr fun line hline => idle_handlerCode hboot h.idle (hlines line hline) hroom
  have htypable := (replStep_typable (answerCode d start env v.switches) h.typable hc).1
  have hcalls := calls_replStep (answerCode d start env v.switches) v.repl c
  rw [hsame] at hseen hmirrors
  unfold Desk.key View.key
  generalize replStep (answerCode d start env v.switches) v.repl c = x at hseen hmirrors htypable hcalls ⊢
  -- a key leads to one call at most
  have hone : (calls x.2).length ≤ 1 ∧
      ∀ call ∈ calls x.2, call.1 ∈ commandNames ∧ ¬chars "http://" <+: call.2.getD 1 [] := by
    rcases hcalls with hnone | ⟨line, hline, hname, hone⟩
    · rw [hnone]
      exact ⟨Nat.zero_le 1, fun _ hcall => absurd hcall List.not_mem_nil⟩
    · rw [hone]
      refine ⟨le_refl 1, fun call hcall => ?_⟩
      rw [List.mem_singleton.mp hcall]
      exact ⟨hname, hlines line hline⟩
  obtain ⟨os', hfold, htied, hfd⟩ := h.toTied.onEvents hboot env x.2 hone.2 (by omega)
  rw [← hseen, ← foldlM_seen] at hfold
  have hstops : (shell.running ∧ (readKey (handlerCode d env os) shell c).val.running = false) ↔
      (v.repl.running ∧ x.1.running = false) := by
    rw [h.mirrors.running, hmirrors.running]
  dsimp only
  rw [hfold]
  by_cases hstop : v.repl.running ∧ x.1.running = false
  · rw [if_pos (hstops.mpr hstop), if_pos hstop]
    have hpanic := htied.panic
    have hsame : os'.panic.net.socks.nextFd = os'.net.socks.nextFd := rfl
    exact ⟨_, _, rfl, ⟨⟨hpanic.idle, hpanic.screen⟩, hmirrors, htypable⟩, by omega⟩
  · rw [if_neg fun h => hstop (hstops.mp h), if_neg hstop]
    exact ⟨_, _, rfl, ⟨⟨htied.idle, htied.screen⟩, hmirrors, htypable⟩, by omega⟩

end

/-! ### Whole sessions -/

/-- A key has gone down that is in the map. -/
def DeskOp.isKey : DeskOp → Bool
  | .poll p _ => (keyboardPoll p).isSome
  | .interrupt _ _ => false

/-- An interrupt finds a data segment that is not the null segment. -/
def DeskOp.Plain : DeskOp → Prop
  | .poll _ _ => True
  | .interrupt _ cpu => cpu.seg .ds ≠ 0

/-- The key is the 255th character of a line. -/
def View.filledBy (v : View) : DeskOp → Prop
  | .poll p _ => ∃ c, keyboardPoll p = some c ∧ (editKey v.repl.line c).length = 255
  | .interrupt _ _ => False

section
variable (callee : Cdecl) (ret : UInt32) {vectors : Irq → UInt8} {d : Fs.Disk} {start : Os} {last : UInt8}

/-- STEP: the machine and the view go together. -/
theorem Seen.step (hremap : Remapped vectors) (hboot : Booted d start) {os : Os} {shell : ShellState}
    {v : View} (h : Seen last start os shell v) (op : DeskOp) (hplain : op.Plain)
    (hfills : v.filledBy op → last = 0)
    (hroom : os.net.socks.nextFd + op.isKey.toNat < 2 ^ 31) :
    ∃ os' shell', (deskStep callee ret vectors d ⟨some os, shell⟩ op).1 = ⟨some os', shell'⟩ ∧
      Seen last start os' shell' (viewStep d start v op).1 ∧
      os'.net.socks.nextFd ≤ os.net.socks.nextFd + op.isKey.toNat := by
  cases op with
  | interrupt irq cpu =>
    refine ⟨os, shell, ?_, h, by simp⟩
    simp only [deskStep, Option.bind_some, interrupt_lost callee ret hremap os irq hplain, ite_self]
  | poll p env =>
    rw [deskStep, viewStep]
    cases hkey : keyboardPoll p with
    | none => exact ⟨os, shell, rfl, h, by simp⟩
    | some c =>
      have hone : (DeskOp.poll p env).isKey.toNat = 1 := by rw [DeskOp.isKey, hkey]; rfl
      rw [hone] at hroom ⊢
      exact h.key hboot (keyboardPoll_mem hkey) (fun hlong => hfills ⟨c, hkey, hlong⟩) hroom

/-- RUN: … as long as there are descriptors. -/
theorem Seen.run (hremap : Remapped vectors) (hboot : Booted d start) (ops : List DeskOp) :
    ∀ {os : Os} {shell : ShellState} {v : View},
    Seen last start os shell v → (∀ op ∈ ops, op.Plain) →
    Along (viewStep d start) (fun v op => v.filledBy op → last = 0) v ops →
    os.net.socks.nextFd + ops.countP DeskOp.isKey < 2 ^ 31 →
      ∃ os' shell', after (deskStep callee ret vectors d) ⟨some os, shell⟩ ops = ⟨some os', shell'⟩ ∧
        Seen last start os' shell' (after (viewStep d start) v ops) := by
  induction ops with
  | nil => exact fun h _ _ _ => ⟨_, _, rfl, h⟩
  | cons op ops ih =>
    rintro os shell v h hplain ⟨hfills, hrest⟩ hroom
    have hcount : (op :: ops).countP DeskOp.isKey = ops.countP DeskOp.isKey + op.isKey.toNat := by
      rw [List.countP_cons]
      cases op.isKey <;> rfl
    rw [hcount] at hroom
    obtain ⟨os₁, shell₁, hstep, hseen, hfd⟩ := h.step callee ret hremap hboot op
      (hplain op List.mem_cons_self) hfills (by omega)
    rw [after_cons, after_cons, hstep]
    exact ih hseen (fun op hop => hplain op (List.mem_cons_of_mem _ hop)) hrest (by omega)

end

/-- REFINEMENT: from `kmain` on, whatever keys go down and whatever interrupts come in at their stubs,
    every handler returns, and the characters on the screen are those of the terminal, with the cursor
    where the terminal has it, until the text interface is turned on, and again after it has been turned
    off or the screen cleared. Drive 0 was found. -/
theorem desk_is_view (callee : Cdecl) (ret : UInt32) {vectors : Irq → UInt8} (hremap : Remapped vectors)
    {d : Fs.Disk} {env : BootEnv} {start : Os} (hstart : kmain d env 0x2BADB002 = .ok start)
    (hdrive : (start.drives.disks 0).present = true) (hhealthy : Healthy d start.fs)
    (buffer parseBuffer : List UInt8) (hbuffer : buffer.length = bufferSize)
    (hparse : parseBuffer.length = bufferSize) (ops : List DeskOp) (hplain : ∀ op ∈ ops, op.Plain)
    (hfills : Along (viewStep d start) (fun v op => v.filledBy op → buffer.getD 255 0 = 0) firstView ops)
    (hkeys : ops.countP DeskOp.isKey < 2 ^ 31 - 1) :
    let v := after (viewStep d start) firstView ops
    ∃ os shell,
      after (deskStep callee ret vectors d) (start.shellMain buffer parseBuffer) ops = ⟨some os, shell⟩ ∧
      shell.running = v.repl.running ∧
      ∀ t, v.terminal = some t →
        (∀ r < 25, ∀ k < 80, glyph (os.screen.buffer (r * 80 + k : ℕ)) = t.cells (t.top + r) k) ∧
        vgaGetCursorX os.screen = t.col ∧ vgaGetCursorY os.screen = t.row - t.top := by
  have hboot := kmain_booted hstart hdrive hhealthy
  have hfirst : Displays (vgaSetColor start.screen 7 0) (bootText.foldl Terminal.put blankTerminal) :=
    (displays_kmain hstart).setColor 7 0
  have hseen : Seen (buffer.getD 255 0) start
      ((start.setScreen (vgaSetColor start.screen 7 0)).write promptText)
      ⟨buffer, 0, parseBuffer, true⟩ firstView := by
    refine ⟨⟨(hboot.idle.setScreen _).setScreen _, fun u hu => ?_⟩, mirrors_start hbuffer hparse,
      fun c hc => absurd hc List.not_mem_nil⟩
    rw [← Option.some.inj hu, List.foldl_append]
    exact displays_writeAll promptText hfirst
  have hone : ((start.setScreen (vgaSetColor start.screen 7 0)).write promptText).net.socks.nextFd = 1 :=
    hboot.nextFd
  obtain ⟨os, shell, hrun, hlast⟩ := hseen.run callee ret hremap hboot ops hplain hfills (by omega)
  refine ⟨os, shell, hrun, hlast.mirrors.running, fun t ht => ?_⟩
  have hdisplays := hlast.screen t ht
  exact ⟨hdisplays.cells, hdisplays.x, hdisplays.y⟩

/-- `ls` is typed, and there is a timer interrupt before the enter key. -/
def sampleDeskOps : List DeskOp :=
  [.poll ⟨1, 38⟩ sampleCallEnv, .poll ⟨1, 166⟩ sampleCallEnv, .poll ⟨1, 31⟩ sampleCallEnv,
    .interrupt .irq0 kernelCpu, .poll ⟨1, 28⟩ sampleCallEnv]

theorem desk_is_view_sample :
    ∃ start, kmain sampleFloppy sampleBoot 0x2BADB002 = .ok start ∧
      ∃ os shell, after (deskStep plainRet 0 sampleVectors sampleFloppy)
          (start.shellMain (List.replicate 256 0) (List.replicate 256 0)) sampleDeskOps =
            ⟨some os, shell⟩ ∧
        ∀ t, (after (viewStep sampleFloppy start) firstView sampleDeskOps).terminal = some t →
          ∀ r < 25, ∀ k < 80, glyph (os.screen.buffer (r * 80 + k : ℕ)) = t.cells (t.top + r) k := by
  obtain ⟨start, hstart⟩ : ∃ start, kmain sampleFloppy sampleBoot 0x2BADB002 = .ok start := ⟨_, rfl⟩
  obtain ⟨os, shell, hrun, -, hscreen⟩ := desk_is_view plainRet 0
    (show Remapped sampleVectors from ⟨rfl, rfl⟩) hstart (sampleBoot_drive hstart)
    (sampleFloppy_healthy hstart) (List.replicate 256 0) (List.replicate 256 0) List.length_replicate
    List.length_replicate sampleDeskOps (by simp [sampleDeskOps, DeskOp.Plain, kernelCpu])
    (along_of_forall (fun _ _ _ => by decide) _ _) (by decide)
  exact ⟨start, hstart, os, shell, hrun, fun t ht => (hscreen t ht).1⟩

end VlsOs.Shell
