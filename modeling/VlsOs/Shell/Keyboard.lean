import VlsOs.Shell.Input

/-! From the keyboard to the commands (`kernel/keyboard.c`, `shell/shell.c`).

    `keyboard_read_char` polls the controller until a key goes down that is in its map, and returns the
    character of the map. There is no shift, so a character that needs one cannot be typed at all. The
    shell is compared with a shell that has no buffers: its state is the line as edited so far, and a
    line is cut into words at once.

        poll ──▶ scancode ──▶ character ──▶ line ──newline──▶ words ──▶ call
                   │ break code, unknown code: nothing -/

namespace VlsOs.Shell
open Patterns Patterns.Run Patterns.Trace VlsOs.Libc

/-! ### The keyboard -/

/-- `scancode_map`. -/
def scancodeMap : List UInt8 :=
  [0, 27] ++ chars "1234567890-=" ++ [8, 9] ++ chars "qwertyuiop[]" ++ [10, 0] ++
    chars "asdfghjkl;'" ++ [96, 0, 92] ++ chars "zxcvbnm,./" ++ [0] ++ chars "*" ++ [0] ++ chars " " ++
    List.replicate 13 0

/-- What the two ports hold at a turn of the loop of `keyboard_read_char`. -/
structure Poll where
  status : UInt8
  scancode : UInt8

/-- A turn of the loop: the character that it returns, if it does. -/
def keyboardPoll (p : Poll) : Option UInt8 :=
  if p.status &&& 1 ≠ 0 then
    if p.scancode &&& 0x80 = 0 then
      if p.scancode.toNat < scancodeMap.length then some (scancodeMap.getD p.scancode.toNat 0) else none
    else none
  else none

/-- `keyboard_read_char`: the character, and the turns that are left. -/
def keyboardReadChar : List Poll → Option (UInt8 × List Poll)
  | [] => none
  | p :: polls =>
    match keyboardPoll p with
    | some c => some (c, polls)
    | none => keyboardReadChar polls

section
variable (handler : List UInt8 → List (List UInt8) → ℤ)

/-- `shell_main` on the turns of the keyboard's loop: each character that a call returns is handled
    before the next call. -/
def shellOnPolls : ℕ → ShellState → List Poll → Traced ShellEvent ShellState
  | 0, s, _ => return s
  | fuel + 1, s, polls =>
    match keyboardReadChar polls with
    | none => return s
    | some (c, rest) => do
      let s ← readKey handler s c
      shellOnPolls fuel s rest

/-! ### The shell without buffers -/

/-- The line as edited so far. -/
structure Repl where
  line : List UInt8
  running : Bool

/-- The words of a line, as many as `argv` has room for. -/
def arguments (line : List UInt8) : List (List UInt8) := (words line).take maxArgs

/-- A line that is done with, and what is done about it. -/
def replLine (line : List UInt8) : Repl × List ShellEvent :=
  let argv := arguments line
  let name := argv.headD []
  if argv = [] then (⟨[], true⟩, [.prompt])
  else if name ∈ commandNames then
    if handler name argv = -1 then (⟨[], false⟩, [.call name argv])
    else (⟨[], true⟩, [.call name argv, .prompt])
  else
    (⟨[], true⟩, [.print (chars "Unknown command: "), .print name, .print (chars "\n"), .prompt])

/-- What a key does to the screen by itself. -/
def echo (line : List UInt8) (c : UInt8) : List ShellEvent :=
  if c = 8 then if line = [] then [] else [.print [8]]
  else if printable c then [.print [c]]
  else []

def replStep (r : Repl) (c : UInt8) : Repl × List ShellEvent :=
  if r.running = false then (r, [])
  else if c = 10 then ((replLine handler r.line).1, .print [10] :: (replLine handler r.line).2)
  else
    let line := editKey r.line c
    if line.length < 255 then (⟨line, true⟩, echo r.line c)
    else ((replLine handler line).1, echo r.line c ++ (replLine handler line).2)

/-- What is to be seen of the shell: all but the calls of `parse_command`. -/
def seen (events : List ShellEvent) : List ShellEvent :=
  events.filter fun e =>
    match e with
    | .parse _ => false
    | .prompt | .print _ | .call _ _ => true

/-- The calls among the events. -/
def calls (events : List ShellEvent) : List (List UInt8 × List (List UInt8)) :=
  events.filterMap fun e =>
    match e with
    | .call command argv => some (command, argv)
    | .prompt | .print _ | .parse _ => none

theorem calls_seen (events : List ShellEvent) : calls (seen events) = calls events := by
  induction events with
  | nil => rfl
  | cons e events ih =>
    cases e with
    | parse buffer => exact ih
    | prompt => exact ih
    | print characters => exact ih
    | call command argv => exact congrArg (List.cons (command, argv)) ih

/-! ### A line that is done with -/

theorem text_commandName {command : List UInt8} (h : command ∈ commandNames) : text command = command := by
  have hall : ∀ command ∈ commandNames, text command = command := by decide
  exact hall command h

/-- The search in the table finds the command of the name. -/
theorem find_command {name : List UInt8} (h : text name = name) :
    (commandNames.find? fun command => strcmp name command = 0) =
      if name ∈ commandNames then some name else none := by
  have hsame : ∀ command ∈ commandNames, (strcmp name command = 0 ↔ name = command) := by
    intro command hmem
    rw [strcmp_eq_zero, h, text_commandName hmem]
  split
  · rename_i hmem
    cases hfind : commandNames.find? fun command => strcmp name command = 0 with
    | none =>
      have hmiss := List.find?_eq_none.mp hfind name hmem
      exact absurd (decide_eq_true ((hsame name hmem).mpr rfl)) hmiss
    | some command =>
      have hcommand := List.mem_of_find?_eq_some hfind
      have hzero := List.find?_some hfind
      rw [(hsame command hcommand).mp (of_decide_eq_true hzero)]
  · rename_i hmem
    rw [List.find?_eq_none]
    intro command hcommand hzero
    exact hmem (((hsame command hcommand).mp (of_decide_eq_true hzero)) ▸ hcommand)

theorem text_text (s : List UInt8) : text (text s) = text s :=
  text_of_no_nul fun h => ne_zero_of_mem_text h rfl

/-- Both shells are at the same point; `last` is the byte of the buffer that is never written. -/
structure Mirrors (last : UInt8) (s : ShellState) (r : Repl) : Prop where
  running : s.running = r.running
  size : s.buffer.length = bufferSize
  last : s.buffer.getD 255 0 = last
  parse : s.parseBuffer.length = bufferSize
  pos : r.running = true → s.pos = r.line.length
  line : r.running = true → s.buffer.take s.pos = r.line
  short : r.running = true → r.line.length < 255
  nul : 0 ∉ r.line

/-- At the first prompt. -/
theorem mirrors_start {buffer parseBuffer : List UInt8} (hbuffer : buffer.length = bufferSize)
    (hparse : parseBuffer.length = bufferSize) :
    Mirrors (buffer.getD 255 0) ⟨buffer, 0, parseBuffer, true⟩ ⟨[], true⟩ :=
  ⟨rfl, hbuffer, rfl, hparse, fun _ => rfl, fun _ => rfl, fun _ => Nat.succ_pos 254, List.not_mem_nil⟩

theorem mirrors_nextPrompt {last : UInt8} {s : ShellState} (hrun : s.running = true)
    (hsize : s.buffer.length = bufferSize) (hlast : s.buffer.getD 255 0 = last)
    (hparse : s.parseBuffer.length = bufferSize) : Mirrors last (nextPrompt s).val ⟨[], true⟩ :=
  ⟨hrun, hsize, hlast, hparse, fun _ => rfl, fun _ => rfl, fun _ => Nat.succ_pos 254,
    List.not_mem_nil⟩

/-- SPEC of what follows the input loop. -/
theorem endLine_mirrors {last : UInt8} {s : ShellState} {line : List UInt8} (hrun : s.running = true)
    (hsize : s.buffer.length = bufferSize) (hlast : s.buffer.getD 255 0 = last)
    (hparse : s.parseBuffer.length = bufferSize) (htext : text s.buffer = line)
    (hlong : line.length ≤ 255) (hempty : s.pos = 0 → line = []) :
    seen (endLine handler s).events = (replLine handler line).2 ∧
      Mirrors last (endLine handler s).val (replLine handler line).1 := by
  unfold endLine
  split
  · rename_i hzero
    rw [hempty hzero]
    exact ⟨rfl, mirrors_nextPrompt hrun hsize hlast hparse⟩
  · obtain ⟨hparse', hwords, -⟩ := @parseCommand_spec s.parseBuffer s.buffer maxArgs hparse
      (by rw [htext]; exact hlong)
    rw [htext, ← arguments] at hwords
    have hcount := congrArg List.length hwords
    rw [List.length_map] at hcount
    dsimp only
    split
    · rename_i hargs
      have hnil : arguments line = [] := List.length_eq_zero_iff.mp (hcount ▸ hargs)
      rw [replLine, if_pos hnil]
      exact ⟨rfl, mirrors_nextPrompt hrun hsize hlast hparse'⟩
    · rename_i hargs
      have hsome : ¬arguments line = [] := fun hnil => hargs (by rw [hcount, hnil]; rfl)
      rw [hwords]
      have hname : text ((arguments line).headD []) = (arguments line).headD [] := by
        rw [← hwords]
        cases (parseCommand s.parseBuffer s.buffer maxArgs).2 with
        | nil => rfl
        | cons k rest => exact text_text _
      rw [runCommand, find_command hname, replLine, if_neg hsome]
      by_cases hcommand : (arguments line).headD [] ∈ commandNames
      · rw [if_pos hcommand, if_pos hcommand]
        dsimp only
        by_cases hexit : handler ((arguments line).headD []) (arguments line) = -1
        · rw [if_pos hexit, if_pos hexit]
          exact ⟨rfl, rfl, hsize, hlast, hparse', fun h => (by cases h), fun h => (by cases h),
            fun h => (by cases h), List.not_mem_nil⟩
        · rw [if_neg hexit, if_neg hexit]
          exact ⟨rfl, mirrors_nextPrompt hrun hsize hlast hparse'⟩
      · rw [if_neg hcommand, if_neg hcommand]
        exact ⟨rfl, mirrors_nextPrompt hrun hsize hlast hparse'⟩

/-! ### The refinement -/

section Keys
variable {last : UInt8} {s : ShellState} {r : Repl} {c : UInt8}

/-- What the steps of the two shells have to agree on. -/
def Agree (last : UInt8) (x : Traced ShellEvent ShellState) (y : Repl × List ShellEvent) : Prop :=
  seen x.events = y.2 ∧ Mirrors last x.val y.1

theorem Mirrors.newline (h : Mirrors last s r) (hrun : r.running = true) :
    Agree last (readKey handler s 10) (replStep handler r 10) := by
  have hs := h.running.trans hrun
  have hpos := h.pos hrun
  have hshort := h.short hrun
  have hsize : s.buffer.length = 256 := h.size
  have htext : text (s.buffer.set s.pos 0) = r.line := by
    rw [List.set_eq_take_append_cons_drop, if_pos (by omega), h.line hrun, text_append_nul,
      text_of_no_nul h.nul]
  obtain ⟨hseen, hmirrors⟩ := endLine_mirrors handler (s := { s with buffer := s.buffer.set s.pos 0 }) hs
    (by rw [List.length_set]; exact h.size) ((getD_set_last (by omega) 0).trans h.last) h.parse
    htext hshort.le fun hzero => List.length_eq_zero_iff.mp (hpos ▸ hzero)
  rw [readKey, replStep, if_neg (not_stopped hs), if_neg (by rw [hrun]; decide : ¬r.running = false),
    if_pos rfl, if_pos rfl]
  exact ⟨congrArg (List.cons (ShellEvent.print [10])) hseen, hmirrors⟩

/-- A key that leaves the line below 255 characters. -/
theorem Mirrors.edit (h : Mirrors last s r) (hrun : r.running = true) (hnewline : c ≠ 10)
    (buffer : List UInt8) (pos : ℕ) (before : List ShellEvent) (hbefore : seen before = echo r.line c)
    (hkey : readKey handler s c = ⟨{ s with buffer := buffer, pos := pos }, before⟩)
    (hsize : buffer.length = bufferSize) (hlast : buffer.getD 255 0 = last)
    (hpos : pos = (editKey r.line c).length) (hline : buffer.take pos = editKey r.line c)
    (hshort : (editKey r.line c).length < 255) (hnul : 0 ∉ editKey r.line c) :
    Agree last (readKey handler s c) (replStep handler r c) := by
  rw [hkey, replStep, if_neg (by rw [hrun]; decide : ¬r.running = false), if_neg hnewline]
  dsimp only
  rw [if_pos hshort]
  exact ⟨hbefore, h.running.trans hrun, hsize, hlast, h.parse, fun _ => hpos, fun _ => hline,
    fun _ => hshort, hnul⟩

theorem Mirrors.backspace (h : Mirrors last s r) (hrun : r.running = true) :
    Agree last (readKey handler s 8) (replStep handler r 8) := by
  have hnot := not_stopped (h.running.trans hrun)
  have hpos := h.pos hrun
  have hshort := h.short hrun
  have hsize : s.buffer.length = 256 := h.size
  have hedit : editKey r.line 8 = r.line.dropLast := rfl
  have hlength : r.line.dropLast.length = s.pos - 1 := by rw [List.length_dropLast, hpos]
  have hnul : 0 ∉ r.line.dropLast := fun hmem => h.nul (List.dropLast_subset _ hmem)
  by_cases hzero : s.pos > 0
  · have hsome : ¬r.line = [] := fun hnil => by rw [hpos, hnil] at hzero; exact absurd hzero (by decide)
    have hecho : echo r.line 8 = [.print [8]] := by rw [echo, if_pos rfl, if_neg hsome]
    refine h.edit handler hrun (by decide) s.buffer (s.pos - 1) [.print [8]] hecho.symm ?_ h.size h.last
      ?_ ?_ ?_ hnul
    · rw [readKey, if_neg hnot, if_neg (by decide), if_pos rfl, if_pos hzero]
      rfl
    · rw [hedit, hlength]
    · rw [hedit, ← h.line hrun, List.dropLast_take (by omega)]
    · rw [hedit, hlength]
      omega
  · have hnil : r.line = [] := List.length_eq_zero_iff.mp (by omega)
    have hecho : echo r.line 8 = [] := by rw [echo, if_pos rfl, if_pos hnil]
    refine h.edit handler hrun (by decide) s.buffer s.pos [] hecho.symm ?_ h.size h.last ?_ ?_ ?_ hnul
    · rw [readKey, if_neg hnot, if_neg (by decide), if_pos rfl, if_neg hzero]
      rfl
    · rw [hedit, hlength]
      omega
    · rw [hedit, h.line hrun, hnil]
      rfl
    · rw [hedit, hlength]
      omega

theorem Mirrors.ignored (h : Mirrors last s r) (hrun : r.running = true) (hnewline : c ≠ 10)
    (hback : c ≠ 8) (hprint : ¬printable c = true) :
    Agree last (readKey handler s c) (replStep handler r c) := by
  have hnot := not_stopped (h.running.trans hrun)
  have hedit : editKey r.line c = r.line := by rw [editKey, if_neg hback, if_neg hprint]
  have hecho : echo r.line c = [] := by rw [echo, if_neg hback, if_neg hprint]
  refine h.edit handler hrun hnewline s.buffer s.pos [] hecho.symm ?_ h.size h.last ?_ ?_ ?_ ?_
  · rw [readKey, if_neg hnot, if_neg hnewline, if_neg hback, if_neg hprint]
    rfl
  · rw [hedit, h.pos hrun]
  · rw [hedit, h.line hrun]
  · rw [hedit]
    exact h.short hrun
  · rw [hedit]
    exact h.nul

/-- A printable character: the 255th one ends the line, and the NUL has to be there already. -/
theorem Mirrors.character (h : Mirrors last s r) (hrun : r.running = true) (hnewline : c ≠ 10)
    (hback : c ≠ 8) (hprint : printable c = true)
    (hfills : (editKey r.line c).length = 255 → last = 0) :
    Agree last (readKey handler s c) (replStep handler r c) := by
  have hs := h.running.trans hrun
  have hpos := h.pos hrun
  have hshort := h.short hrun
  have hsize : s.buffer.length = 256 := h.size
  have hedit : editKey r.line c = r.line ++ [c] := by rw [editKey, if_neg hback, if_pos hprint]
  have hlength : (r.line ++ [c]).length = s.pos + 1 := by
    rw [List.length_append, hpos, List.length_singleton]
  have hset : s.buffer.set s.pos c = r.line ++ [c] ++ s.buffer.drop (s.pos + 1) := by
    rw [List.set_eq_take_append_cons_drop, if_pos (by omega), h.line hrun, List.append_assoc]
    rfl
  have hnul : 0 ∉ r.line ++ [c] := by
    rw [List.mem_append, List.mem_singleton, not_or]
    exact ⟨h.nul, Ne.symm (ne_zero_of_printable hprint)⟩
  have hlast := (getD_set_last (by omega : s.pos < 255) c).trans h.last
  have hsize' : (s.buffer.set s.pos c).length = bufferSize := by
    rw [List.length_set]
    exact h.size
  have hecho : echo r.line c = [.print [c]] := by rw [echo, if_neg hback, if_pos hprint]
  have hkey := readKey_printable handler hs hnewline hback hprint
  dsimp only at hkey
  by_cases hroom : s.pos + 1 < bufferSize - 1
  · rw [if_pos hroom] at hkey
    refine h.edit handler hrun hnewline _ _ [.print [c]] hecho.symm hkey hsize' hlast ?_ ?_ ?_ ?_
    · rw [hedit, hlength]
    · rw [hedit, hset]
      exact List.take_left' hlength
    · rw [hedit, hlength]
      exact hroom
    · rw [hedit]
      exact hnul
  · have hfull : (r.line ++ [c]).length = 255 := by
      have hsmall : bufferSize = 256 := rfl
      omega
    have hrest : s.buffer.drop (s.pos + 1) = [0] := by
      have hend : s.pos + 1 = 255 := by omega
      rw [hend, List.drop_eq_getElem_cons (by omega), List.drop_eq_nil_of_le (by omega),
        ← hfills (hedit ▸ hfull), ← h.last, List.getD_eq_getElem _ _ (by omega)]
    have htext : text (s.buffer.set s.pos c) = r.line ++ [c] := by
      rw [hset, hrest, text_append_nul, text_of_no_nul hnul]
    obtain ⟨hseen, hmirrors⟩ := endLine_mirrors handler
      (s := { s with buffer := s.buffer.set s.pos c, pos := s.pos + 1 }) hs hsize' hlast h.parse htext
      hfull.le fun hzero => absurd hzero (Nat.succ_ne_zero _)
    rw [if_neg hroom] at hkey
    rw [hkey, replStep, if_neg (by rw [hrun]; decide : ¬r.running = false), if_neg hnewline]
    dsimp only
    rw [hedit, if_neg (by omega), hecho]
    generalize endLine handler _ = ended at hseen hmirrors ⊢
    exact ⟨congrArg (List.cons (ShellEvent.print [c])) hseen, hmirrors⟩

/-- STEP: on every key both shells do the same, if a line that fills the buffer finds a NUL in
    its last byte. -/
theorem Mirrors.step (h : Mirrors last s r) (c : UInt8)
    (hfills : (editKey r.line c).length = 255 → last = 0) :
    Agree last (readKey handler s c) (replStep handler r c) := by
  cases hrun : r.running with
  | false =>
    rw [readKey, replStep, if_pos (h.running.trans hrun), if_pos hrun]
    exact ⟨rfl, h⟩
  | true =>
    by_cases hnewline : c = 10
    · exact hnewline ▸ h.newline handler hrun
    by_cases hback : c = 8
    · exact hback ▸ h.backspace handler hrun
    by_cases hprint : printable c = true
    · exact h.character handler hrun hnewline hback hprint hfills
    · exact h.ignored handler hrun hnewline hback hprint

end Keys

/-! ### Whole sessions -/

/-- A key, with what is seen of it. -/
def keyStep (s : ShellState) (c : UInt8) : ShellState × List ShellEvent :=
  ((readKey handler s c).val, seen (readKey handler s c).events)

theorem keyboardReadChar_none {polls : List Poll} (h : keyboardReadChar polls = none) :
    polls.filterMap keyboardPoll = [] := by
  induction polls with
  | nil => rfl
  | cons p polls ih =>
    rw [keyboardReadChar] at h
    cases hp : keyboardPoll p with
    | none =>
      rw [hp] at h
      rw [List.filterMap_cons_none hp, ih h]
    | some c =>
      rw [hp] at h
      cases h

/-- The characters that the calls return are those of the turns that have one. -/
theorem keyboardReadChar_some {polls rest : List Poll} {c : UInt8}
    (h : keyboardReadChar polls = some (c, rest)) :
    polls.filterMap keyboardPoll = c :: rest.filterMap keyboardPoll ∧ rest.length < polls.length := by
  induction polls with
  | nil => cases h
  | cons p polls ih =>
    rw [keyboardReadChar] at h
    cases hp : keyboardPoll p with
    | none =>
      rw [hp] at h
      obtain ⟨hchars, hless⟩ := ih h
      rw [List.filterMap_cons_none hp, hchars, List.length_cons]
      exact ⟨rfl, Nat.lt_succ_of_lt hless⟩
    | some d =>
      rw [hp] at h
      obtain ⟨rfl, rfl⟩ := Prod.mk.inj (Option.some.inj h)
      exact ⟨List.filterMap_cons_some hp, Nat.lt_succ_self _⟩

theorem seen_shellOnPolls : ∀ (fuel : ℕ) (s : ShellState) (polls : List Poll), polls.length ≤ fuel →
    seen (shellOnPolls handler fuel s polls).events =
      (outs (keyStep handler) s (polls.filterMap keyboardPoll)).flatten := by
  intro fuel
  induction fuel with
  | zero =>
    intro s polls hfuel
    rw [List.length_eq_zero_iff.mp (Nat.le_zero.mp hfuel)]
    rfl
  | succ fuel ih =>
    intro s polls hfuel
    rw [shellOnPolls]
    cases hread : keyboardReadChar polls with
    | none =>
      rw [keyboardReadChar_none hread]
      rfl
    | some r =>
      obtain ⟨c, rest⟩ := r
      obtain ⟨hchars, hless⟩ := keyboardReadChar_some hread
      rw [hchars, outs_cons, List.flatten_cons, ← ih _ rest (by omega)]
      exact List.filter_append _ _

/-- The characters that can be typed into a line. -/
def Typable (c : UInt8) : Prop := c ∈ scancodeMap ∧ printable c = true

theorem no_capital_of_typable {w : List UInt8} (h : ∀ c ∈ w, Typable c) :
    (∀ c ∈ w, c < 65 ∨ 90 < c) ∧ ¬chars "http://" <+: w := by
  have hmap : ∀ c ∈ scancodeMap, (c < 65 ∨ 90 < c) ∧ c ≠ 58 := by decide +kernel
  refine ⟨fun c hc => (hmap c (h c hc).1).1, fun hurl => ?_⟩
  have hcolon : (58 : UInt8) ∈ w := hurl.subset (by decide)
  exact (hmap 58 (h 58 hcolon).1).2 rfl

theorem mem_of_mem_words {line w : List UInt8} (hw : w ∈ words line) {c : UInt8} (hc : c ∈ w) :
    c ∈ line := by
  have hsplit : ∀ line : List UInt8, ∀ w ∈ line.splitOnP isspace, ∀ c ∈ w, c ∈ line := by
    intro line
    induction line with
    | nil =>
      intro w hw c hc
      simp only [List.splitOnP_nil, List.mem_singleton] at hw
      rw [hw] at hc
      cases hc
    | cons x line ih =>
      intro w hw c hc
      rw [List.splitOnP_cons_eq_if_modifyHead] at hw
      split at hw
      · rcases List.mem_cons.mp hw with rfl | hw
        · cases hc
        · exact List.mem_cons_of_mem _ (ih w hw c hc)
      · cases hrest : line.splitOnP isspace with
        | nil =>
          rw [hrest] at hw
          cases hw
        | cons first others =>
          rw [hrest] at hw ih
          rcases List.mem_cons.mp hw with rfl | hw
          · rcases List.mem_cons.mp hc with rfl | hc
            · exact List.mem_cons_self
            · exact List.mem_cons_of_mem _ (ih first List.mem_cons_self c hc)
          · exact List.mem_cons_of_mem _ (ih w (List.mem_cons_of_mem _ hw) c hc)
  exact hsplit line w (List.mem_of_mem_filter hw) c hc

theorem mem_arguments {line w : List UInt8} (hw : w ∈ arguments line) {c : UInt8} (hc : c ∈ w) :
    c ∈ line :=
  mem_of_mem_words (List.mem_of_mem_take hw) hc

theorem replLine_typable {line : List UInt8} (h : ∀ c ∈ line, Typable c) :
    (∀ c ∈ (replLine handler line).1.line, Typable c) ∧
      ∀ call ∈ calls (replLine handler line).2, ∀ w ∈ call.2, ∀ c ∈ w, Typable c := by
  have hargs : ∀ call ∈ [((arguments line).headD [], arguments line)], ∀ w ∈ call.2, ∀ c ∈ w,
      Typable c := by
    intro call hcall w hw c hc
    rw [List.mem_singleton.mp hcall] at hw
    exact h c (mem_arguments hw hc)
  rw [replLine]
  split_ifs
  · exact ⟨fun c hc => (by cases hc), fun call hcall => (by cases hcall)⟩
  · exact ⟨fun c hc => (by cases hc), hargs⟩
  · exact ⟨fun c hc => (by cases hc), hargs⟩
  · exact ⟨fun c hc => (by cases hc), fun call hcall => (by cases hcall)⟩

theorem calls_echo_append (line : List UInt8) (c : UInt8) (events : List ShellEvent) :
    calls (echo line c ++ events) = calls events := by
  rw [echo]
  split_ifs <;> rfl

theorem editKey_typable {line : List UInt8} (h : ∀ x ∈ line, Typable x) {c : UInt8}
    (hc : c ∈ scancodeMap) : ∀ x ∈ editKey line c, Typable x := by
  intro x hx
  unfold editKey at hx
  split at hx
  · exact h x (List.dropLast_subset _ hx)
  · split at hx
    · rename_i hprint
      rcases List.mem_append.mp hx with hx | hx
      · exact h x hx
      · rw [List.mem_singleton.mp hx]
        exact ⟨hc, hprint⟩
    · exact h x hx

/-- A key of the map keeps the line typable, and what is called with it. -/
theorem replStep_typable {r : Repl} (h : ∀ x ∈ r.line, Typable x) {c : UInt8} (hc : c ∈ scancodeMap) :
    (∀ x ∈ (replStep handler r c).1.line, Typable x) ∧
      ∀ call ∈ calls (replStep handler r c).2, ∀ w ∈ call.2, ∀ x ∈ w, Typable x := by
  have hedit := editKey_typable h hc
  rw [replStep]
  split
  · exact ⟨h, fun call hcall => (by cases hcall)⟩
  · split
    · exact replLine_typable handler h
    · dsimp only
      split
      · refine ⟨hedit, fun call hcall => ?_⟩
        rw [← List.append_nil (echo r.line c), calls_echo_append] at hcall
        cases hcall
      · rw [calls_echo_append]
        exact replLine_typable handler hedit

theorem keyboardPoll_mem {p : Poll} {c : UInt8} (h : keyboardPoll p = some c) : c ∈ scancodeMap := by
  unfold keyboardPoll at h
  split at h
  · split at h
    · split at h
      · rename_i hlt
        rw [← Option.some.inj h, List.getD_eq_getElem _ _ hlt]
        exact List.getElem_mem hlt
      · cases h
    · cases h
  · cases h

theorem outs_typable : ∀ (keys : List UInt8), (∀ c ∈ keys, c ∈ scancodeMap) → ∀ r : Repl,
    (∀ c ∈ r.line, Typable c) →
      ∀ call ∈ calls (outs (replStep handler) r keys).flatten, ∀ w ∈ call.2, ∀ c ∈ w, Typable c := by
  intro keys
  induction keys with
  | nil =>
    intro _ r _ call hcall
    cases hcall
  | cons c keys ih =>
    intro hkeys r hr call hcall
    obtain ⟨hnext, hnow⟩ := replStep_typable handler hr (hkeys c List.mem_cons_self)
    rw [outs_cons, List.flatten_cons, calls, List.filterMap_append] at hcall
    rcases List.mem_append.mp hcall with hcall | hcall
    · exact hnow call hcall
    · exact ih (fun c hc => hkeys c (List.mem_cons_of_mem _ hc)) _ hnext call hcall

/-- CORRECT: whatever the controller reports, the shell prints and calls what the shell without buffers
    does on the characters of the keys that went down, as long as a line of 255 characters finds a NUL
    in the last byte of the buffer. An argument has no capital letter and no colon in it, since those
    need a shift: `cat` cannot be given a name in capital letters, nor `wget` a URL. -/
theorem keyboard_seen (buffer parseBuffer : List UInt8) (hbuffer : buffer.length = bufferSize)
    (hparse : parseBuffer.length = bufferSize) (polls : List Poll) {fuel : ℕ}
    (hfuel : polls.length ≤ fuel)
    (hfills : Along (replStep handler)
      (fun r c => (editKey r.line c).length = 255 → buffer.getD 255 0 = 0) ⟨[], true⟩
      (polls.filterMap keyboardPoll)) :
    seen (shellOnPolls handler fuel ⟨buffer, 0, parseBuffer, true⟩ polls).events =
        (outs (replStep handler) ⟨[], true⟩ (polls.filterMap keyboardPoll)).flatten ∧
      ∀ call ∈ calls (shellOnPolls handler fuel ⟨buffer, 0, parseBuffer, true⟩ polls).events,
        ∀ w ∈ call.2, (∀ c ∈ w, c < 65 ∨ 90 < c) ∧ ¬chars "http://" <+: w := by
  have hstep : ∀ (r : Repl) (s : ShellState) (c : UInt8), Mirrors (buffer.getD 255 0) s r →
      ((editKey r.line c).length = 255 → buffer.getD 255 0 = 0) →
        (replStep handler r c).2 = (keyStep handler s c).2 ∧
          Mirrors (buffer.getD 255 0) (keyStep handler s c).1 (replStep handler r c).1 := by
    intro r s c h hfill
    obtain ⟨hseen, hnext⟩ := h.step handler c hfill
    exact ⟨hseen.symm, hnext⟩
  have hsame := (outs_sim (R := fun r s => Mirrors (buffer.getD 255 0) s r) hstep _ _ _
    (mirrors_start hbuffer hparse) hfills).1
  have hkeys : ∀ c ∈ polls.filterMap keyboardPoll, c ∈ scancodeMap := by
    intro c hc
    obtain ⟨p, -, hp⟩ := List.mem_filterMap.mp hc
    exact keyboardPoll_mem hp
  have hseen := (seen_shellOnPolls handler fuel ⟨buffer, 0, parseBuffer, true⟩ polls hfuel).trans
    (congrArg List.flatten hsame.symm)
  refine ⟨hseen, fun call hcall w hw => ?_⟩
  rw [← calls_seen, hseen] at hcall
  exact no_capital_of_typable (outs_typable handler _ hkeys ⟨[], true⟩ (fun c hc => (by cases hc)) call
    hcall w hw)

end

/-- The keys of `ls` and the enter key go down, with a break code in between. -/
def samplePolls : List Poll := [⟨0, 0⟩, ⟨1, 38⟩, ⟨1, 166⟩, ⟨1, 31⟩, ⟨1, 28⟩]

theorem keyboard_seen_ls :
    calls (seen (shellOnPolls (fun _ _ => 0) 5 ⟨List.replicate 256 0, 0, List.replicate 256 0, true⟩
        samplePolls).events) = [(chars "ls", [chars "ls"])] ∧
      ∀ call ∈ calls (shellOnPolls (fun _ _ => 0) 5
          ⟨List.replicate 256 0, 0, List.replicate 256 0, true⟩ samplePolls).events,
        ∀ w ∈ call.2, (∀ c ∈ w, c < 65 ∨ 90 < c) ∧ ¬chars "http://" <+: w := by
  obtain ⟨hseen, hcalls⟩ := keyboard_seen (fun _ _ => 0) (List.replicate 256 0) (List.replicate 256 0)
    List.length_replicate List.length_replicate samplePolls (le_refl 5)
    (along_of_forall (fun _ _ _ => by decide) _ _)
  have hls : calls (outs (replStep fun _ _ => 0) ⟨[], true⟩
      (samplePolls.filterMap keyboardPoll)).flatten = [(chars "ls", [chars "ls"])] := by decide
  rw [hseen]
  exact ⟨hls, hcalls⟩

end VlsOs.Shell
