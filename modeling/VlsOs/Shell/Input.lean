import VlsOs.Schemes.Run
import VlsOs.Schemes.Trace
import VlsOs.Shell.Tokens

/-! The shell at the keyboard (`shell_main` of `shell/shell.c`).

    Characters go into a buffer of 256 bytes until a newline comes or 255 of them are there. The line is
    then parsed and its command is run, unless it is empty. The machine below takes one character of
    `keyboard_read_char` at a time.

        key           buffer                       then
        newline       NUL at `pos`                 parse, if `pos > 0`
        backspace     `pos` goes back
        printable     the character at `pos`       parse, if `pos` is now 255
        other

    Of the two ways to the end of a line only the newline writes a NUL. The last byte of the buffer is
    never written at all. -/

namespace VlsOs.Shell
open Patterns Patterns.Trace VlsOs.Libc

/-- What the shell does between two characters. -/
inductive ShellEvent
  /-- The prompt is printed. -/
  | prompt
  | print (characters : List UInt8)
  /-- `parse_command` is called on the buffer. -/
  | parse (buffer : List UInt8)
  /-- The handler of a command is called. -/
  | call (command : List UInt8) (argv : List (List UInt8))
  deriving DecidableEq

/-- The names in the table `commands`. -/
def commandNames : List (List UInt8) :=
  ["help", "echo", "clear", "uptime", "exit", "ifconfig", "ping", "netstat", "arp", "route", "http",
    "dns", "dhcp", "wget", "disk", "ps", "kill", "ls", "cat", "file", "pipe", "ui"].map chars

/-- `MAX_ARGS`. -/
def maxArgs : ℕ := 16

/-- The local variables of `shell_main` and the static buffer of `parse_command`; `running` until the
    function returns. -/
structure ShellState where
  buffer : List UInt8
  pos : ℕ
  parseBuffer : List UInt8
  running : Bool

section
-- what the handlers return; only that of `exit` returns `-1`
variable (handler : List UInt8 → List (List UInt8) → ℤ)

/-- The next turn of the outer loop. -/
def nextPrompt (s : ShellState) : Traced ShellEvent ShellState := do
  emit .prompt
  return { s with pos := 0 }

/-- The search in the table of commands, and what follows it. -/
def runCommand (s : ShellState) (argv : List (List UInt8)) : Traced ShellEvent ShellState :=
  let name := argv.headD []
  match commandNames.find? fun command => strcmp name command = 0 with
  | some command => do
    emit (.call command argv)
    if handler command argv = -1 then return { s with running := false } else nextPrompt s
  | none => do
    emit (.print (chars "Unknown command: "))
    emit (.print name)
    emit (.print (chars "\n"))
    nextPrompt s

/-- What follows the input loop. -/
def endLine (s : ShellState) : Traced ShellEvent ShellState :=
  if s.pos = 0 then nextPrompt s
  else do
    emit (.parse s.buffer)
    let (parseBuffer, argv) := parseCommand s.parseBuffer s.buffer maxArgs
    let s := { s with parseBuffer := parseBuffer }
    if argv.length = 0 then nextPrompt s
    else runCommand handler s (argv.map fun k => text (parseBuffer.drop k))

/-- A character that goes into the line: plain `char` is signed. -/
def printable (c : UInt8) : Bool := 32 ≤ promote c ∧ promote c < 127

/-- One character from `keyboard_read_char`, and what is done up to the next one. -/
def readKey (s : ShellState) (c : UInt8) : Traced ShellEvent ShellState :=
  if s.running = false then return s
  else if c = 10 then do
    let s := { s with buffer := s.buffer.set s.pos 0 }
    emit (.print [10])
    endLine handler s
  else if c = 8 then
    if s.pos > 0 then do
      emit (.print [8])
      return { s with pos := s.pos - 1 }
    else return s
  else if printable c then do
    let s := { s with buffer := s.buffer.set s.pos c, pos := s.pos + 1 }
    emit (.print [c])
    if s.pos < bufferSize - 1 then return s else endLine handler s
  else return s

/-! ### What the keys since the prompt stand for -/

/-- The line after one more key: a printable character at its end, or its last character taken away. -/
def editKey (line : List UInt8) (c : UInt8) : List UInt8 :=
  if c = 8 then line.dropLast else if printable c then line ++ [c] else line

/-- The line that the keys since the prompt stand for. -/
def edited (keys : List UInt8) : List UInt8 := keys.foldl editKey []

/-- The shell, and the keys it has read since it printed the prompt. -/
structure Session where
  shell : ShellState
  keys : List UInt8

/-- A prompt ends the list of keys. -/
def sessionStep (s : Session) (c : UInt8) : Session × List ShellEvent :=
  let x := readKey handler s.shell c
  (⟨x.val, if .prompt ∈ x.events then [] else s.keys ++ [c]⟩, x.events)

/-- A buffer as it should be parsed: a NUL is in its 256 bytes, and the string before it is the line
    that was typed, cut at 255 characters. -/
def ProperLine (buffer keys : List UInt8) : Prop :=
  buffer.length = bufferSize ∧ 0 ∈ buffer ∧ text buffer = (edited keys).take 255

/-- Every buffer that is parsed on the key `c` is a proper line. -/
def ParsesProperLine (s : Session) (c : UInt8) : Prop :=
  ∀ buffer, .parse buffer ∈ (sessionStep handler s c).2 → ProperLine buffer (s.keys ++ [c])

/-! ### The line in the buffer -/

theorem edited_append (keys : List UInt8) (c : UInt8) :
    edited (keys ++ [c]) = editKey (edited keys) c := List.foldl_append

theorem ne_zero_of_printable {c : UInt8} (h : printable c = true) : c ≠ 0 := by
  rintro rfl
  exact absurd h (by decide)

theorem nul_notMem_edited (keys : List UInt8) : 0 ∉ edited keys := by
  induction keys using List.reverseRecOn with
  | nil => exact List.not_mem_nil
  | append_singleton keys c ih =>
    rw [edited_append, editKey]
    split
    · exact fun h => ih (List.dropLast_subset _ h)
    · split
      next hprint =>
        rw [List.mem_append, List.mem_singleton, not_or]
        exact ⟨ih, Ne.symm (ne_zero_of_printable hprint)⟩
      next => exact ih

/-- What comes after a line: nothing more is parsed, the buffer is left as it is, and a new prompt comes
    unless the shell returns. -/
structure LineDone (buffer : List UInt8) (x : Traced ShellEvent ShellState) : Prop where
  no_parse : ∀ b, .parse b ∉ x.events
  buffer : x.val.buffer = buffer
  prompt : .prompt ∈ x.events ∧ x.val.pos = 0 ∨ x.val.running = false

theorem lineDone_nextPrompt (s : ShellState) : LineDone s.buffer (nextPrompt s) where
  no_parse := by simp [nextPrompt]
  buffer := rfl
  prompt := .inl ⟨by simp [nextPrompt], rfl⟩

theorem lineDone_runCommand (s : ShellState) (argv : List (List UInt8)) :
    LineDone s.buffer (runCommand handler s argv) := by
  rw [runCommand]
  split
  next command _ =>
    by_cases hexit : handler command argv = -1
    · simp only [hexit, if_true]
      exact ⟨by simp, rfl, .inr rfl⟩
    · simp only [hexit, if_false]
      exact ⟨by simp [nextPrompt], rfl, .inl ⟨by simp [nextPrompt], rfl⟩⟩
  next => exact ⟨by simp [nextPrompt], rfl, .inl ⟨by simp [nextPrompt], rfl⟩⟩

/-- A line is parsed if it is not empty, and then done with. -/
theorem endLine_spec (s : ShellState) : ∃ x, LineDone s.buffer x ∧
    endLine handler s = if s.pos = 0 then x else emit (.parse s.buffer) >>= fun _ => x := by
  rw [endLine]
  by_cases hpos : s.pos = 0
  · rw [if_pos hpos]
    exact ⟨nextPrompt s, lineDone_nextPrompt s, (if_pos hpos).symm⟩
  · rw [if_neg hpos]
    dsimp only
    refine ⟨_, ?_, (if_neg hpos).symm⟩
    split
    · exact lineDone_nextPrompt { s with parseBuffer := (parseCommand s.parseBuffer s.buffer maxArgs).1 }
    · exact lineDone_runCommand handler
        { s with parseBuffer := (parseCommand s.parseBuffer s.buffer maxArgs).1 } _

/-- While the shell runs, the line that was typed stands in the buffer up to `pos`, which is short of its
    end. The last byte is what it was at the start. -/
structure Typing (last : UInt8) (s : Session) : Prop where
  size : s.shell.buffer.length = bufferSize
  last : s.shell.buffer.getD 255 0 = last
  pos : s.shell.running = true → s.shell.pos < 255
  line : s.shell.running = true → s.shell.buffer.take s.shell.pos = edited s.keys

/-- The key `c` is the 255th character of a line. -/
def FillsBuffer (s : Session) (c : UInt8) : Prop :=
  s.shell.running = true ∧ (edited (s.keys ++ [c])).length = 255

section
variable {last : UInt8} {s : Session} {c : UInt8}

/-- What a line that ends with the key `c` leaves: `before` is what the key itself does. -/
theorem sessionStep_endLine (shell : ShellState) (before : List ShellEvent)
    (hkey : readKey handler s.shell c = ⟨(endLine handler shell).val,
      before ++ (endLine handler shell).events⟩)
    (hbefore : ∀ b, .parse b ∉ before) (hsize : shell.buffer.length = bufferSize)
    (hlast : shell.buffer.getD 255 0 = last) :
    Typing last (sessionStep handler s c).1 ∧
      (ParsesProperLine handler s c ↔ (shell.pos ≠ 0 → ProperLine shell.buffer (s.keys ++ [c]))) := by
  obtain ⟨x, hdone, hend⟩ := endLine_spec handler shell
  have hval : (endLine handler shell).val = x.val := by
    rw [hend]
    split <;> rfl
  have hevents : (endLine handler shell).events =
      (if shell.pos = 0 then [] else [.parse shell.buffer]) ++ x.events := by
    rw [hend]
    split <;> rfl
  have hbuffer : x.val.buffer = shell.buffer := hdone.buffer
  constructor
  · rw [sessionStep, hkey]
    dsimp only
    rw [hval]
    rcases hdone.prompt with ⟨hprompt, hpos⟩ | hstop
    · have hmem : .prompt ∈ before ++ (endLine handler shell).events := by
        rw [hevents]
        exact List.mem_append_right _ (List.mem_append_right _ hprompt)
      rw [if_pos hmem]
      refine ⟨by rw [hbuffer, hsize], by rw [hbuffer, hlast], fun _ => ?_, fun _ => ?_⟩
      · rw [hpos]
        decide
      · rw [hpos]
        rfl
    · refine ⟨by rw [hbuffer, hsize], by rw [hbuffer, hlast], fun h => ?_, fun h => ?_⟩
      · exact absurd (hstop.symm.trans h) (by decide)
      · exact absurd (hstop.symm.trans h) (by decide)
  · have hparse : ∀ b, .parse b ∈ (sessionStep handler s c).2 ↔ shell.pos ≠ 0 ∧ b = shell.buffer := by
      intro b
      rw [sessionStep, hkey]
      dsimp only
      rw [hevents, List.mem_append, List.mem_append, or_iff_right (hbefore b),
        or_iff_left (hdone.no_parse b)]
      by_cases hpos : shell.pos = 0 <;> simp [hpos]
    rw [ParsesProperLine]
    simp only [hparse]
    exact ⟨fun h hpos => h _ ⟨hpos, rfl⟩, fun h b hb => hb.2 ▸ h hb.1⟩

theorem getD_set_last {buffer : List UInt8} {i : ℕ} (hi : i < 255) (c : UInt8) :
    (buffer.set i c).getD 255 0 = buffer.getD 255 0 := by
  rw [List.getD_eq_getElem?_getD, List.getD_eq_getElem?_getD, List.getElem?_set_ne (by omega)]

theorem Typing.length_edited (h : Typing last s) (hrun : s.shell.running = true) :
    (edited s.keys).length = s.shell.pos := by
  have hpos := h.pos hrun
  have hsize : s.shell.buffer.length = 256 := h.size
  rw [← h.line hrun, List.length_take]
  omega

/-- The buffer with one more character at `pos`. -/
theorem Typing.set_pos (h : Typing last s) (hrun : s.shell.running = true) (c : UInt8) :
    s.shell.buffer.set s.shell.pos c =
      edited s.keys ++ c :: s.shell.buffer.drop (s.shell.pos + 1) := by
  have hpos := h.pos hrun
  have hsize : s.shell.buffer.length = 256 := h.size
  rw [List.set_eq_take_append_cons_drop, if_pos (by omega), h.line hrun]

theorem not_stopped {shell : ShellState} (hrun : shell.running = true) : ¬ shell.running = false := by
  rw [hrun]
  decide

/-- A newline ends the line with a NUL: it is parsed as it was typed. -/
theorem Typing.newline (h : Typing last s) (hrun : s.shell.running = true) :
    Typing last (sessionStep handler s 10).1 ∧ ParsesProperLine handler s 10 ∧ ¬ FillsBuffer s 10 := by
  have hpos := h.pos hrun
  have hlength := h.length_edited hrun
  have hedit : edited (s.keys ++ [10]) = edited s.keys := edited_append s.keys 10
  have hset := h.set_pos hrun 0
  obtain ⟨htyping, hparse⟩ := sessionStep_endLine handler (s := s) (c := 10)
    { s.shell with buffer := s.shell.buffer.set s.shell.pos 0 } [.print [10]]
    (by rw [readKey, if_neg (not_stopped hrun), if_pos rfl]; rfl) (by simp)
    (by rw [List.length_set]; exact h.size) ((getD_set_last hpos 0).trans h.last)
  refine ⟨htyping, hparse.mpr fun _ => ⟨?_, ?_, ?_⟩, fun hfill => ?_⟩
  · rw [List.length_set]
    exact h.size
  · rw [hset]
    simp
  · rw [hset, text_append_nul, text_of_no_nul (nul_notMem_edited _), hedit,
      List.take_of_length_le (by omega)]
  · have hfull := hfill.2
    rw [hedit] at hfull
    omega

/-- A key that neither ends the line nor fills the buffer. -/
theorem typing_of_edit (shell : ShellState) (before : List ShellEvent)
    (hkey : readKey handler s.shell c = ⟨shell, before⟩) (hparse : ∀ b, .parse b ∉ before)
    (hprompt : .prompt ∉ before) (hsize : shell.buffer.length = bufferSize)
    (hlast : shell.buffer.getD 255 0 = last) (hpos : shell.pos < 255)
    (hline : shell.buffer.take shell.pos = edited (s.keys ++ [c])) :
    Typing last (sessionStep handler s c).1 ∧ ParsesProperLine handler s c ∧ ¬ FillsBuffer s c := by
  rw [ParsesProperLine, sessionStep, hkey]
  dsimp only
  rw [if_neg hprompt]
  refine ⟨⟨hsize, hlast, fun _ => hpos, fun _ => hline⟩, fun b hb => absurd hb (hparse b), ?_⟩
  rintro ⟨-, hfull⟩
  rw [← hline, List.length_take] at hfull
  omega

/-- A backspace takes the last character away, if there is one. -/
theorem Typing.backspace (h : Typing last s) (hrun : s.shell.running = true) :
    Typing last (sessionStep handler s 8).1 ∧ ParsesProperLine handler s 8 ∧ ¬ FillsBuffer s 8 := by
  have hpos := h.pos hrun
  have hline := h.line hrun
  have hedit : edited (s.keys ++ [8]) = (edited s.keys).dropLast := edited_append s.keys 8
  have hnot := not_stopped hrun
  by_cases hzero : s.shell.pos > 0
  · refine typing_of_edit handler { s.shell with pos := s.shell.pos - 1 } [.print [8]]
      (by rw [readKey, if_neg hnot, if_neg (by decide), if_pos rfl, if_pos hzero]; rfl) (by simp)
      (by simp) h.size h.last (Nat.lt_of_le_of_lt (Nat.sub_le ..) hpos) ?_
    rw [hedit, ← hline, List.dropLast_take (by have := h.size; have hs : bufferSize = 256 := rfl; omega)]
  · have hnil : edited s.keys = [] := by
      rw [← hline, Nat.eq_zero_of_not_pos hzero]
      rfl
    refine typing_of_edit handler s.shell []
      (by rw [readKey, if_neg hnot, if_neg (by decide), if_pos rfl, if_neg hzero]; rfl) (by simp)
      (by simp) h.size h.last hpos ?_
    rw [hedit, hline, hnil]
    rfl

/-- A character that is neither printable nor one of the two keys does nothing. -/
theorem Typing.ignored (h : Typing last s) (hrun : s.shell.running = true) (hnewline : c ≠ 10)
    (hback : c ≠ 8) (hprint : ¬ printable c = true) :
    Typing last (sessionStep handler s c).1 ∧ ParsesProperLine handler s c ∧ ¬ FillsBuffer s c := by
  have hedit : edited (s.keys ++ [c]) = edited s.keys := by
    rw [edited_append, editKey, if_neg hback, if_neg hprint]
  have hnot := not_stopped hrun
  refine typing_of_edit handler s.shell []
    (by rw [readKey, if_neg hnot, if_neg hnewline, if_neg hback, if_neg hprint]; rfl) (by simp)
    (by simp) h.size h.last (h.pos hrun) ?_
  rw [hedit, h.line hrun]

theorem readKey_printable {shell : ShellState} (hrun : shell.running = true) (hnewline : c ≠ 10)
    (hback : c ≠ 8) (hprint : printable c = true) :
    let next := { shell with buffer := shell.buffer.set shell.pos c, pos := shell.pos + 1 }
    let x := if next.pos < bufferSize - 1 then pure next else endLine handler next
    readKey handler shell c = ⟨x.val, [.print [c]] ++ x.events⟩ := by
  rw [readKey, if_neg (not_stopped hrun), if_neg hnewline, if_neg hback, if_pos hprint]
  rfl

/-- A printable character goes to the end of the line. The 255th one ends it, without a NUL of its own. -/
theorem Typing.character (h : Typing last s) (hrun : s.shell.running = true) (hnewline : c ≠ 10)
    (hback : c ≠ 8) (hprint : printable c = true) :
    Typing last (sessionStep handler s c).1 ∧
      (ParsesProperLine handler s c ↔ (FillsBuffer s c → last = 0)) := by
  have hpos := h.pos hrun
  have hsmall : bufferSize = 256 := rfl
  have hedit : edited (s.keys ++ [c]) = edited s.keys ++ [c] := by
    rw [edited_append, editKey, if_neg hback, if_pos hprint]
  have hlength : (edited (s.keys ++ [c])).length = s.shell.pos + 1 := by
    rw [hedit, List.length_append, h.length_edited hrun, List.length_singleton]
  have hset : s.shell.buffer.set s.shell.pos c =
      edited (s.keys ++ [c]) ++ s.shell.buffer.drop (s.shell.pos + 1) := by
    rw [h.set_pos hrun, hedit, List.append_assoc]
    rfl
  have hsize : (s.shell.buffer.set s.shell.pos c).length = bufferSize := by
    rw [List.length_set]
    exact h.size
  have hlast := (getD_set_last hpos c).trans h.last
  have hkey := readKey_printable handler hrun hnewline hback hprint
  dsimp only at hkey
  by_cases hroom : s.shell.pos + 1 < bufferSize - 1
  · rw [if_pos hroom] at hkey
    obtain ⟨htyping, hproper, hfill⟩ := typing_of_edit handler _ _ hkey (by simp) (by simp) hsize hlast
      (by change s.shell.pos + 1 < 255; omega) (by rw [hset]; exact List.take_left' hlength)
    exact ⟨htyping, iff_of_true hproper fun h => absurd h hfill⟩
  · rw [if_neg hroom] at hkey
    obtain ⟨htyping, hparse⟩ := sessionStep_endLine handler _ _ hkey (by simp) hsize hlast
    refine ⟨htyping, hparse.trans ?_⟩
    have hfull : (edited (s.keys ++ [c])).length = 255 := by omega
    have hfill : FillsBuffer s c := ⟨hrun, hfull⟩
    -- what follows the 255 characters is the last byte
    have hrest : s.shell.buffer.drop (s.shell.pos + 1) = [last] := by
      have hlen : s.shell.buffer.length = 256 := h.size
      have hend : s.shell.pos + 1 = 255 := by omega
      rw [hend, List.drop_eq_getElem_cons (by omega), List.drop_eq_nil_of_le (by omega), ← h.last,
        List.getD_eq_getElem _ _ (by omega)]
    rw [forall_prop_of_true hfill, forall_prop_of_true (Nat.succ_ne_zero _)]
    dsimp only
    rw [ProperLine, hset, hrest]
    constructor
    · rintro ⟨-, hnul, -⟩
      rcases List.mem_append.mp hnul with hmem | hmem
      · exact absurd hmem (nul_notMem_edited _)
      · exact (List.mem_singleton.mp hmem).symm
    · rintro rfl
      refine ⟨?_, by simp, ?_⟩
      · rw [List.length_append, hfull]
        rfl
      · rw [text_append_nul, text_of_no_nul (nul_notMem_edited _), List.take_of_length_le hfull.le]

/-- CORRECT, one key: the line stays in the buffer, and a buffer is parsed as it should be unless the key
    fills it and its last byte is not a NUL. -/
theorem Typing.step (h : Typing last s) (c : UInt8) :
    Typing last (sessionStep handler s c).1 ∧
      (ParsesProperLine handler s c ↔ (FillsBuffer s c → last = 0)) := by
  have hsimple : Typing last (sessionStep handler s c).1 ∧ ParsesProperLine handler s c ∧
      ¬ FillsBuffer s c → Typing last (sessionStep handler s c).1 ∧
        (ParsesProperLine handler s c ↔ (FillsBuffer s c → last = 0)) :=
    fun ⟨htyping, hproper, hfill⟩ => ⟨htyping, iff_of_true hproper fun h => absurd h hfill⟩
  cases hrun : s.shell.running with
  | false =>
    have hkey : readKey handler s.shell c = ⟨s.shell, []⟩ := by
      rw [readKey, if_pos hrun]
      rfl
    refine hsimple ⟨?_, ?_, fun hfill => absurd (hrun.symm.trans hfill.1) (by decide)⟩
    · rw [sessionStep, hkey]
      exact ⟨h.size, h.last, fun hr => absurd (hrun.symm.trans hr) (by decide),
        fun hr => absurd (hrun.symm.trans hr) (by decide)⟩
    · rw [ParsesProperLine, sessionStep, hkey]
      exact fun b hb => absurd hb List.not_mem_nil
  | true =>
    by_cases hnewline : c = 10
    · subst hnewline
      exact hsimple (h.newline handler hrun)
    by_cases hback : c = 8
    · subst hback
      exact hsimple (h.backspace handler hrun)
    by_cases hprint : printable c = true
    · exact h.character handler hrun hnewline hback hprint
    · exact hsimple (h.ignored handler hrun hnewline hback hprint)

end

/-! ### Whole sessions -/

/-- The shell at its first prompt, with what the stack left in its buffer. -/
def startSession (buffer parseBuffer : List UInt8) : Session := ⟨⟨buffer, 0, parseBuffer, true⟩, []⟩

/-- CORRECT: on every sequence of keys, all the lines that are parsed are proper ones exactly when none of
    them fills the buffer or the last byte of the buffer is a NUL to begin with. -/
theorem shell_parses_proper_lines_iff (buffer parseBuffer keys : List UInt8)
    (hbuffer : buffer.length = bufferSize) :
    Run.Along (sessionStep handler) (ParsesProperLine handler) (startSession buffer parseBuffer) keys ↔
      (Run.Sometime (sessionStep handler) FillsBuffer (startSession buffer parseBuffer) keys →
        buffer.getD 255 0 = 0) := by
  have hstart : Typing (buffer.getD 255 0) (startSession buffer parseBuffer) :=
    ⟨hbuffer, rfl, fun _ => Nat.succ_pos 254, fun _ => rfl⟩
  rw [← Run.along_imp_iff]
  exact Run.along_congr (fun s c h _ => (h.step handler c).1) (fun s c h => (h.step handler c).2) keys _
    hstart

end

theorem shell_parses_proper_lines_short :
    (List.replicate 256 (120 : UInt8)).length = bufferSize ∧
      (Run.Along (sessionStep fun _ _ => 0) (ParsesProperLine fun _ _ => 0)
          (startSession (List.replicate 256 120) []) (chars "lx\x08s\n") ↔
        (Run.Sometime (sessionStep fun _ _ => 0) FillsBuffer
          (startSession (List.replicate 256 120) []) (chars "lx\x08s\n") →
            (List.replicate 256 (120 : UInt8)).getD 255 0 = 0)) :=
  ⟨List.length_replicate, shell_parses_proper_lines_iff _ _ _ _ List.length_replicate⟩

/-- A line of 255 characters on a stack that is not clear: the buffer that is parsed has no NUL. -/
theorem shell_parses_unterminated_line :
    .parse (List.replicate 255 97 ++ [120]) ∈
        (Run.outs (sessionStep fun _ _ => 0) (startSession (List.replicate 256 120) [])
          (List.replicate 255 97)).flatten ∧
      ¬ ProperLine (List.replicate 255 97 ++ [120]) (List.replicate 255 97) := by
  refine ⟨by decide +kernel, fun h => absurd h.2.1 (by decide +kernel)⟩

end VlsOs.Shell
