import VlsOs.Kernel.Vga

/-! The console as a window on a terminal without an end.

    A terminal has as many rows as are written to. The screen shows 25 of them: the first ones as
    long as the cursor is among them, then the last ones up to the row of the cursor. Scrolling is
    what moves the window, not the text.

        terminal    row 0 ┌────────┐
                          │        │
                    top   ├────────┤ ◀─ screen row 0
                          │        │
                    row   ├────────┤ ◀─ screen row 24, the cursor
                          ┆ blank  ┆ -/

namespace VlsOs.Vga
open Patterns Patterns.Trace

/-! ### The terminal -/

/-- Characters by row and column, and a cursor. -/
structure Terminal where
  cells : ℕ → ℕ → UInt8
  row : ℕ
  col : ℕ

def blankTerminal : Terminal := ⟨fun _ _ => 0x20, 0, 0⟩

/-- The cursor in column `col` of its row, or in the next row if there is no such column. -/
def Terminal.moveTo (t : Terminal) (col : ℕ) : Terminal :=
  if col < 80 then { t with col := col } else { t with row := t.row + 1, col := 0 }

/-- A character in column `col` of the cursor's row. -/
def Terminal.write (t : Terminal) (col : ℕ) (c : UInt8) : Terminal :=
  { t with cells := fun r k => if r = t.row ∧ k = col then c else t.cells r k }

/-- A newline goes to the start of the next row, a tab to the next multiple of 8, a backspace blanks
    the cell before the cursor (the first cell of the row at its start) and stays there; all other
    characters are written. -/
def Terminal.put (t : Terminal) (c : UInt8) : Terminal :=
  if c = 0x0A then { t with row := t.row + 1, col := 0 }
  else if c = 0x09 then t.moveTo ((t.col / 8 + 1) * 8)
  else if c = 0x08 then { t.write (t.col - 1) 0x20 with col := t.col - 1 }
  else (t.write t.col c).moveTo (t.col + 1)

/-- The first row in the window. -/
def Terminal.top (t : Terminal) : ℕ := t.row - 24

/-! ### What the screen shows -/

/-- The screen shows the terminal from row `top` on, and below the cursor the terminal is blank. -/
structure ShowsFrom (top : ℕ) (s : Screen) (t : Terminal) : Prop where
  x : s.cursorX = t.col
  y : s.cursorY = t.row - top
  cells : ∀ r < 25, ∀ k < 80, s.buffer (r * 80 + k : ℕ) = vgaEntry (t.cells (top + r) k) s.color
  below : ∀ r > t.row, ∀ k, t.cells r k = 0x20

/-- SIMULATION relation between calls. -/
structure Shows (s : Screen) (t : Terminal) : Prop extends ShowsFrom t.top s t where
  col : t.col < 80

/-- Writing a cell of the cursor's row. -/
theorem ShowsFrom.write {top : ℕ} {s : Screen} {t : Terminal} (h : ShowsFrom top s t) {k : ℕ}
    (hk : k < 80) (c : UInt8) :
    ShowsFrom top
      { s with buffer := Function.update s.buffer (s.cursorY * 80 + k) (vgaEntry c s.color) }
      (t.write k c) where
  x := h.x
  y := h.y
  cells r hr k' hk' := by
    have hy := h.y
    dsimp only [Terminal.write]
    by_cases hhere : top + r = t.row ∧ k' = k
    · rw [if_pos hhere, show ((r * 80 + k' : ℕ) : ℤ) = s.cursorY * 80 + k by omega,
        Function.update_self]
    · rw [if_neg hhere, Function.update_of_ne (by omega)]
      exact h.cells r hr k' hk'
  below r hr k' := by
    have hne : ¬(r = t.row ∧ k' = k) := fun h => absurd h.1 (Nat.ne_of_gt hr)
    exact (if_neg hne).trans (h.below r hr k')

/-- Moving the cursor on in its row, with the wrap after column 79. -/
theorem ShowsFrom.moveTo {top : ℕ} {s : Screen} {t : Terminal} (h : ShowsFrom top s t) (col : ℕ) :
    ShowsFrom top (wrapLine { s with cursorX := col }) (t.moveTo col) := by
  unfold wrapLine Terminal.moveTo
  have hy := h.y
  split
  · rw [if_neg (by dsimp only at *; omega)]
    exact ⟨rfl, by dsimp only; omega, h.cells, fun r hr => h.below r (by dsimp only at hr; omega)⟩
  · rw [if_pos (by dsimp only at *; omega)]
    exact ⟨rfl, h.y, h.cells, h.below⟩

/-- The character itself and the wrap: the window stays where it is. -/
theorem ShowsFrom.put {s : Screen} {t : Terminal} (h : Shows s t) (c : UInt8) :
    ShowsFrom t.top (wrapLine (putChar s c).val) (t.put c) := by
  have hx := h.x
  have hcol := h.col
  unfold putChar Terminal.put
  split
  · -- newline
    have hy := h.y
    rw [val_pure, wrapLine, if_neg (by simp)]
    exact ⟨rfl, by dsimp only; omega, h.cells, fun r hr => h.below r (by dsimp only at hr; omega)⟩
  split
  · -- tab
    have htab : (s.cursorX + 8) / 8 * 8 = ((t.col / 8 + 1) * 8 : ℕ) := by omega
    rw [val_pure, htab]
    exact h.toShowsFrom.moveTo _
  split
  · -- backspace
    have hback : (if s.cursorX > 0 then { s with cursorX := s.cursorX - 1 } else s) =
        { s with cursorX := (t.col - 1 : ℕ) } := by
      split
      · congr 1
        omega
      · rw [show ((t.col - 1 : ℕ) : ℤ) = s.cursorX by omega]
    simp only [hback, setCell, val_bind, val_pure]
    rw [wrapLine, if_neg (by dsimp only; omega)]
    have hwrite := h.toShowsFrom.write (show t.col - 1 < 80 by omega) 0x20
    exact ⟨rfl, hwrite.y, hwrite.cells, hwrite.below⟩
  · simp only [setCell, val_bind, val_pure]
    rw [hx]
    exact (h.toShowsFrom.write hcol c).moveTo (t.col + 1)

/-- A character moves the cursor down by a row at most, and to a column of the row. -/
theorem Terminal.put_cursor (t : Terminal) (hcol : t.col < 80) (c : UInt8) :
    t.row ≤ (t.put c).row ∧ (t.put c).row ≤ t.row + 1 ∧ (t.put c).col < 80 := by
  unfold Terminal.put Terminal.moveTo Terminal.write
  split
  · simp
  split
  · split
    · exact ⟨le_refl _, Nat.le_succ _, ‹_›⟩
    · simp
  split
  · exact ⟨le_refl _, Nat.le_succ _, by dsimp only; omega⟩
  · split
    · exact ⟨le_refl _, Nat.le_succ _, ‹_›⟩
    · simp

/-- … and writes in its row only. -/
theorem Terminal.put_cells (t : Terminal) (c : UInt8) {r : ℕ} (hr : r ≠ t.row) (k : ℕ) :
    (t.put c).cells r k = t.cells r k := by
  have hwrite (k' : ℕ) (c : UInt8) : (t.write k' c).cells r k = t.cells r k :=
    if_neg fun h => hr h.1
  unfold Terminal.put Terminal.moveTo
  split
  · rfl
  split
  · split <;> rfl
  split
  · exact hwrite _ _
  · split <;> exact hwrite _ _

/-- Scrolling moves the window down by one row; the row that comes in has to be blank. -/
theorem ShowsFrom.scroll {top : ℕ} {s : Screen} {t : Terminal} (h : ShowsFrom top s t)
    (hrow : t.row = top + 25) (hblank : ∀ k, t.cells t.row k = 0x20) :
    ShowsFrom (top + 1) (vgaScrollDown s).val t := by
  rw [(vgaScrollDown_spec s).1]
  refine ⟨h.x, by dsimp only; omega, fun r hr k hk => ?_, h.below⟩
  dsimp only [scrolled, filled]
  rcases Nat.lt_or_ge r 24 with hup | hlast
  · have hcell := h.cells (r + 1) (by omega) k hk
    rw [if_neg (by omega), if_pos (by omega), show top + 1 + r = top + (r + 1) by omega, ← hcell]
    congr 1
    omega
  · rw [if_pos (by omega), show top + 1 + r = t.row by omega, hblank]

/-- STEP: a character written to the screen is a character put to the terminal. -/
theorem Shows.writeChar {s : Screen} {t : Terminal} (h : Shows s t) (c : UInt8) :
    Shows (vgaWriteChar s c).val (t.put c) := by
  obtain ⟨hdown, hdown', hcol⟩ := t.put_cursor h.col c
  have hput := ShowsFrom.put h c
  have hy := hput.y
  have htop : t.top = t.row - 24 := rfl
  have htop' : (t.put c).top = (t.put c).row - 24 := rfl
  simp only [vgaWriteChar, scrollLine, val_bind, val_pure]
  refine ⟨?_, hcol⟩
  split
  · have hnew : (t.put c).row = t.row + 1 := by omega
    have hblank (k : ℕ) : (t.put c).cells (t.put c).row k = 0x20 := by
      rw [t.put_cells c (by omega), hnew]
      exact h.below _ (Nat.lt_succ_self _) k
    have hscroll := hput.scroll (by omega) hblank
    rwa [show t.top + 1 = (t.put c).top by omega] at hscroll
  · rwa [show t.top = (t.put c).top by omega] at hput

theorem color_vgaWriteChar (s : Screen) (c : UInt8) : (vgaWriteChar s c).val.color = s.color := by
  have hput : (putChar s c).val.color = s.color := by
    unfold putChar
    split
    · rfl
    split
    · rfl
    split
    · simp only [setCell, val_bind, val_pure]
      split <;> rfl
    · rfl
  have hwrap (s : Screen) : (wrapLine s).color = s.color := by
    unfold wrapLine
    split <;> rfl
  simp only [vgaWriteChar, scrollLine, val_bind, val_pure]
  split
  · rw [(vgaScrollDown_spec _).1]
    exact (hwrap _).trans hput
  · exact (hwrap _).trans hput

/-- A string is its characters, one after the other. -/
theorem Shows.writeString (str : List UInt8) : ∀ {s : Screen} {t : Terminal}, Shows s t →
    Shows (vgaWriteString s str).val ((Libc.text str).foldl Terminal.put t) ∧
      (vgaWriteString s str).val.color = s.color := by
  induction str with
  | nil =>
    intro s t h
    exact ⟨h, rfl⟩
  | cons c str ih =>
    intro s t h
    rw [vgaWriteString, Libc.text_cons]
    split
    · exact ⟨h, rfl⟩
    · obtain ⟨hrest, hcolor⟩ := ih (h.writeChar c)
      exact ⟨hrest, hcolor.trans (color_vgaWriteChar s c)⟩

/-! ### Whole texts -/

/-- A call that writes. -/
inductive Writing where
  | char (c : UInt8)
  | string (str : List UInt8)

/-- The calls of the console, each with the cursor read after it. -/
def consoleStep (s : Screen) (w : Writing) : Screen × ℤ × ℤ :=
  let s := match w with
    | .char c => (vgaWriteChar s c).val
    | .string str => (vgaWriteString s str).val
  (s, vgaGetCursorX s, vgaGetCursorY s)

/-- The same calls to the terminal, with the cursor's place in the window. -/
def terminalStep (t : Terminal) (w : Writing) : Terminal × ℤ × ℤ :=
  let t := match w with
    | .char c => t.put c
    | .string str => (Libc.text str).foldl Terminal.put t
  (t, t.col, (t.row - t.top : ℕ))

theorem Shows.cursor {s : Screen} {t : Terminal} (h : Shows s t) :
    (vgaGetCursorX s, vgaGetCursorY s) = ((t.col : ℤ), ((t.row - t.top : ℕ) : ℤ)) := by
  have hy := h.y
  have htop : t.top ≤ t.row := Nat.sub_le ..
  rw [vgaGetCursorX, vgaGetCursorY, h.x, hy, Nat.cast_sub htop]

/-- STEP: every call keeps the window and the colour, and the cursor reads alike. -/
theorem consoleStep_sim {color : UInt8} (s : Screen) (t : Terminal) (w : Writing)
    (h : Shows s t ∧ s.color = color) :
    (consoleStep s w).2 = (terminalStep t w).2 ∧
      Shows (consoleStep s w).1 (terminalStep t w).1 ∧ (consoleStep s w).1.color = color := by
  obtain ⟨hshows, hcolor⟩ := h
  cases w with
  | char c =>
    have hnext := hshows.writeChar c
    exact ⟨hnext.cursor, hnext, (color_vgaWriteChar s c).trans hcolor⟩
  | string str =>
    obtain ⟨hnext, hsame⟩ := hshows.writeString str
    exact ⟨hnext.cursor, hnext, hsame.trans hcolor⟩

/-- A cleared screen shows a blank terminal. -/
theorem shows_vgaClearScreen (s : Screen) :
    Shows (vgaClearScreen s).val blankTerminal ∧ (vgaClearScreen s).val.color = s.color := by
  simp only [vgaClearScreen, val_bind, val_pure]
  rw [(clearScreen_spec s).1]
  refine ⟨⟨⟨rfl, rfl, fun r hr k hk => ?_, fun _ _ _ => rfl⟩, by decide⟩, rfl⟩
  simp only [Screen.showing, filled]
  rw [if_pos (by omega)]
  rfl

/-- REFINEMENT: after a screen has been cleared, whatever is written to it, the screen is the window
    of the terminal that the same was written to, in the colour of the screen, and the cursor is the
    terminal's. -/
theorem console_is_window (s : Screen) (ws : List Writing) :
    let s' := Run.after consoleStep (vgaClearScreen s).val ws
    let t := Run.after terminalStep blankTerminal ws
    (∀ r < 25, ∀ k < 80, s'.buffer (r * 80 + k : ℕ) = vgaEntry (t.cells (t.top + r) k) s.color) ∧
      vgaGetCursorX s' = t.col ∧ vgaGetCursorY s' = (t.row - t.top : ℕ) ∧
      Run.outs consoleStep (vgaClearScreen s).val ws = Run.outs terminalStep blankTerminal ws := by
  obtain ⟨houts, hshows, hcolor⟩ := Run.outs_sim (R := fun s' t => Shows s' t ∧ s'.color = s.color)
    (G := fun _ _ => True) (fun s' t w h _ => consoleStep_sim s' t w h) ws _ _
    (shows_vgaClearScreen s) (Run.along_of_forall (fun _ _ => trivial) ws _)
  have hcursor := hshows.cursor
  refine ⟨fun r hr k hk => ?_, congrArg Prod.fst hcursor, congrArg Prod.snd hcursor, houts⟩
  rw [hshows.cells r hr k hk, hcolor]

end VlsOs.Vga
