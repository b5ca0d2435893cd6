import VlsOs.Libc.String
import VlsOs.Schemes.Run
import VlsOs.Schemes.Trace

/-! The text screen (`kernel/vga.c`).

    The screen is a buffer of 25 rows with 80 cells each, row after row; a cell is a character and its
    colour. A character moves the cursor, and most write a cell. A cursor that leaves the row goes to
    the next one, and one that leaves the last row makes the rows move up.

                0                79
             0  ┌────────────────┐
                │                │      cell (y, x) is vga_buffer[y * 80 + x]
             24 └────────────────┘ -/

namespace VlsOs.Vga
open Patterns Patterns.Trace

/-! ### State -/

/-- The static variables, and the memory from `vga_buffer` on in either direction. -/
structure Screen where
  buffer : ℤ → UInt16
  cursorX : ℤ
  cursorY : ℤ
  color : UInt8

/-- The static variables as the loader leaves them. -/
def staticScreen (buffer : ℤ → UInt16) : Screen := ⟨buffer, 0, 0, 0x0F⟩

/-- What the driver does to the machine: indices of `vga_buffer`, and port writes. -/
inductive VgaEvent
  | read (index : ℤ)
  | write (index : ℤ)
  | outb (port : UInt16) (value : UInt8)
  deriving DecidableEq

/-! ### The driver -/

def vgaEntry (uc attr : UInt8) : UInt16 := uc.toUInt16 ||| attr.toUInt16 <<< 8

def vgaUpdateCursor (s : Screen) : Traced VgaEvent Unit := do
  let pos := UInt16.ofInt (s.cursorY * 80 + s.cursorX)
  emit (.outb 0x3D4 0x0F)
  emit (.outb 0x3D5 (pos &&& 0xFF).toUInt8)
  emit (.outb 0x3D4 0x0E)
  emit (.outb 0x3D5 ((pos >>> 8) &&& 0xFF).toUInt8)

/-- `vga_buffer[index] = entry`. -/
def setCell (s : Screen) (index : ℤ) (entry : UInt16) : Traced VgaEvent Screen := do
  emit (.write index)
  return { s with buffer := Function.update s.buffer index entry }

/-- A cell gets what stands below it. -/
def copyCell (y x : ℕ) (s : Screen) : Traced VgaEvent Screen := do
  emit (.read ((y + 1) * 80 + x))
  setCell s (y * 80 + x) (s.buffer ((y + 1) * 80 + x))

/-- A cell gets a blank. -/
def clearCell (y x : ℕ) (s : Screen) : Traced VgaEvent Screen :=
  setCell s (y * 80 + x) (vgaEntry 0x20 s.color)

/-- The two loops over the cells of the first `rows` rows. -/
def forCells (rows : ℕ) (body : ℕ → ℕ → Screen → Traced VgaEvent Screen) (s : Screen) :
    Traced VgaEvent Screen :=
  loop (fun y => loop (body y) 80) rows s

def vgaScrollDown (s : Screen) : Traced VgaEvent Screen := do
  let s ← forCells 24 copyCell s
  let s ← loop (clearCell 24) 80 s
  return { s with cursorY := 24 }

def vgaInit (s : Screen) : Traced VgaEvent Screen := do
  let s := { s with cursorX := 0, cursorY := 0, color := 0x0F }
  vgaUpdateCursor s
  return s

/-- The first part of `vga_write_char`: what the character itself does. `(x + 8) & ~7` rounds `x + 8`
    down to a multiple of 8. -/
def putChar (s : Screen) (c : UInt8) : Traced VgaEvent Screen :=
  if c = 0x0A then return { s with cursorX := 0, cursorY := s.cursorY + 1 }
  else if c = 0x09 then return { s with cursorX := (s.cursorX + 8) / 8 * 8 }
  else if c = 0x08 then
    let s := if s.cursorX > 0 then { s with cursorX := s.cursorX - 1 } else s
    setCell s (s.cursorY * 80 + s.cursorX) (vgaEntry 0x20 s.color)
  else do
    let s ← setCell s (s.cursorY * 80 + s.cursorX) (vgaEntry c s.color)
    return { s with cursorX := s.cursorX + 1 }

/-- … the second: line wrapping … -/
def wrapLine (s : Screen) : Screen :=
  if s.cursorX ≥ 80 then { s with cursorX := 0, cursorY := s.cursorY + 1 } else s

/-- … and the third: vertical scrolling. -/
def scrollLine (s : Screen) : Traced VgaEvent Screen :=
  if s.cursorY ≥ 25 then vgaScrollDown s else return s

def vgaWriteChar (s : Screen) (c : UInt8) : Traced VgaEvent Screen := do
  let s ← putChar s c
  let s ← scrollLine (wrapLine s)
  vgaUpdateCursor s
  return s

def vgaClearScreen (s : Screen) : Traced VgaEvent Screen := do
  let s ← forCells 25 clearCell s
  let s := { s with cursorX := 0, cursorY := 0 }
  vgaUpdateCursor s
  return s

def vgaSetColor (s : Screen) (foreground background : UInt8) : Screen :=
  { s with color := background <<< 4 ||| foreground }

def vgaWriteString (s : Screen) : List UInt8 → Traced VgaEvent Screen
  | [] => return s
  | c :: str =>
    if c = 0 then return s
    else do
      let s ← vgaWriteChar s c
      vgaWriteString s str

def vgaGetCursorX (s : Screen) : ℤ := s.cursorX

def vgaGetCursorY (s : Screen) : ℤ := s.cursorY

def vgaSetPosition (s : Screen) (row col : ℤ) : Traced VgaEvent Screen :=
  if row ≥ 0 ∧ row < 25 ∧ col ≥ 0 ∧ col < 80 then do
    let s := { s with cursorY := row, cursorX := col }
    vgaUpdateCursor s
    return s
  else return s

/-! ### Loops over cells -/

/-- The event keeps to the 2000 cells of the screen. -/
def VgaEvent.Inside : VgaEvent → Prop
  | .read index => 0 ≤ index ∧ index < 2000
  | .write index => 0 ≤ index ∧ index < 2000
  | .outb _ _ => True

theorem vgaUpdateCursor_inside (s : Screen) : All VgaEvent.Inside (vgaUpdateCursor s) := by
  simp [vgaUpdateCursor, VgaEvent.Inside]

/-- LOOP: a body that goes from cell to cell goes through the rows. -/
theorem forCells_rule {I : ℕ → Screen → Prop} {P : VgaEvent → Prop} {rows : ℕ}
    {body : ℕ → ℕ → Screen → Traced VgaEvent Screen} {s : Screen}
    (hbody : ∀ y x s, y < rows → x < 80 → I (y * 80 + x) s →
      I (y * 80 + x + 1) (body y x s).val ∧ All P (body y x s))
    (h0 : I 0 s) : I (rows * 80) (forCells rows body s).val ∧ All P (forCells rows body s) := by
  refine loop_rule (I := fun y s => I (y * 80) s) (fun y s hy hs => ?_) (by rwa [Nat.zero_mul])
  have hrow : I (y * 80 + 80) (loop (body y) 80 s).val ∧ All P (loop (body y) 80 s) :=
    loop_rule (I := fun x s => I (y * 80 + x) s) (fun x s hx hs => hbody y x s hy hx hs) hs
  rwa [show (y + 1) * 80 = y * 80 + 80 by omega]

/-- The screen with another buffer. -/
def Screen.showing (s : Screen) (buffer : ℤ → UInt16) : Screen := { s with buffer := buffer }

/-- The buffer `b` with `k` cells from `start` on as in `v`. -/
def filled (b v : ℤ → UInt16) (start : ℤ) (k : ℕ) (i : ℤ) : UInt16 :=
  if start ≤ i ∧ i < start + k then v i else b i

theorem filled_zero (b v : ℤ → UInt16) (start : ℤ) : filled b v start 0 = b := by
  funext i
  exact if_neg (by omega)

/-- One cell more. -/
theorem update_filled (b v : ℤ → UInt16) (start : ℤ) (k : ℕ) :
    Function.update (filled b v start k) (start + k) (v (start + k)) = filled b v start (k + 1) := by
  funext i
  rcases eq_or_ne i (start + k) with rfl | hne
  · rw [Function.update_self, filled, if_pos (by omega)]
  · rw [Function.update_of_ne hne, filled, filled]
    congr 1
    exact propext (by omega)

/-- SPEC of the copying loops: each row but the last gets the row below it. -/
theorem copyRows_spec (s : Screen) :
    (forCells 24 copyCell s).val = s.showing (filled s.buffer (fun i => s.buffer (i + 80)) 0 1920) ∧
      All VgaEvent.Inside (forCells 24 copyCell s) := by
  -- the cell that is read is ahead of those that have been written
  have hread (k : ℕ) : filled s.buffer (fun i => s.buffer (i + 80)) 0 k (0 + k + 80) =
      s.buffer (0 + k + 80) := if_neg (by omega)
  refine forCells_rule (I := fun k s' => s' = s.showing (filled s.buffer _ 0 k))
    (fun y x s' hy hx hs => ?_) (by rw [filled_zero]; rfl)
  subst hs
  refine ⟨?_, ?_⟩
  · simp only [copyCell, setCell, val_bind, val_pure, Screen.showing]
    rw [← update_filled]
    have hhere : ((y * 80 + x : ℕ) : ℤ) = y * 80 + x := by omega
    have hbelow : ((y : ℤ) + 1) * 80 + x = 0 + (y * 80 + x : ℕ) + 80 := by omega
    rw [hbelow, hread, zero_add, hhere]
  · simp only [copyCell, setCell, all_bind, all_emit, all_pure, VgaEvent.Inside, and_true]
    omega

/-- SPEC of a loop that clears cells from `start` on. -/
theorem clearCell_step {s : Screen} {start : ℤ} {y x k : ℕ} (hk : (y : ℤ) * 80 + x = start + k)
    (hin : 0 ≤ start + k ∧ start + k < 2000) :
    let s' := s.showing (filled s.buffer (fun _ => vgaEntry 0x20 s.color) start k)
    (clearCell y x s').val = s.showing (filled s.buffer (fun _ => vgaEntry 0x20 s.color) start (k + 1)) ∧
      All VgaEvent.Inside (clearCell y x s') := by
  refine ⟨?_, ?_⟩
  · simp only [clearCell, setCell, val_bind, val_pure, Screen.showing]
    rw [hk, update_filled (v := fun _ => vgaEntry 0x20 s.color)]
  · simpa only [clearCell, setCell, all_bind, all_emit, all_pure, VgaEvent.Inside, and_true, hk]
      using hin

theorem clearScreen_spec (s : Screen) :
    (forCells 25 clearCell s).val =
        s.showing (filled s.buffer (fun _ => vgaEntry 0x20 s.color) 0 2000) ∧
      All VgaEvent.Inside (forCells 25 clearCell s) := by
  refine forCells_rule (I := fun k s' => s' = s.showing (filled s.buffer _ 0 k))
    (fun y x s' hy hx hs => ?_) (by rw [filled_zero]; rfl)
  subst hs
  exact clearCell_step (by omega) (by omega)

theorem clearRow_spec (s : Screen) :
    (loop (clearCell 24) 80 s).val =
        s.showing (filled s.buffer (fun _ => vgaEntry 0x20 s.color) 1920 80) ∧
      All VgaEvent.Inside (loop (clearCell 24) 80 s) := by
  refine loop_rule (I := fun k s' => s' = s.showing (filled s.buffer _ 1920 k))
    (fun x s' hx hs => ?_) (by rw [filled_zero]; rfl)
  subst hs
  exact clearCell_step (by omega) (by omega)

/-- The cells after the rows have moved up. -/
def scrolled (b : ℤ → UInt16) (blank : UInt16) : ℤ → UInt16 :=
  filled (filled b (fun i => b (i + 80)) 0 1920) (fun _ => blank) 1920 80

/-- SPEC of scrolling. -/
theorem vgaScrollDown_spec (s : Screen) :
    (vgaScrollDown s).val =
        { s with buffer := scrolled s.buffer (vgaEntry 0x20 s.color), cursorY := 24 } ∧
      All VgaEvent.Inside (vgaScrollDown s) := by
  obtain ⟨hcopy, hcopy'⟩ := copyRows_spec s
  obtain ⟨hclear, hclear'⟩ := clearRow_spec (forCells 24 copyCell s).val
  refine ⟨?_, ?_⟩
  · simp only [vgaScrollDown, val_bind, val_pure]
    rw [hclear, hcopy]
    rfl
  · simp only [vgaScrollDown, all_bind, all_pure, and_true]
    exact ⟨hcopy', hclear'⟩

/-! ### Bounds -/

/-- INVARIANT between calls: the cursor is on the screen. -/
structure InBounds (s : Screen) : Prop where
  x : 0 ≤ s.cursorX ∧ s.cursorX < 80
  y : 0 ≤ s.cursorY ∧ s.cursorY < 25

theorem inBounds_home {s : Screen} (hx : s.cursorX = 0) (hy : s.cursorY = 0) : InBounds s :=
  ⟨by omega, by omega⟩

theorem setCell_inside {s : Screen} (h : InBounds s) (entry : UInt16) :
    All VgaEvent.Inside (setCell s (s.cursorY * 80 + s.cursorX) entry) := by
  obtain ⟨hx, hy⟩ := h
  simp only [setCell, all_bind, all_emit, all_pure, VgaEvent.Inside, and_true]
  omega

/-- A character writes inside the screen, and leaves the cursor where wrapping can deal with it. -/
theorem putChar_bounds {s : Screen} (h : InBounds s) (c : UInt8) :
    All VgaEvent.Inside (putChar s c) ∧
      0 ≤ (putChar s c).val.cursorX ∧ (putChar s c).val.cursorX ≤ 80 ∧
      0 ≤ (putChar s c).val.cursorY := by
  obtain ⟨hx, hy⟩ := h
  unfold putChar
  split
  · simp only [all_pure, val_pure, true_and]
    omega
  split
  · simp only [all_pure, val_pure, true_and]
    omega
  split
  · -- backspace
    have hback : InBounds (if s.cursorX > 0 then { s with cursorX := s.cursorX - 1 } else s) := by
      split
      · exact ⟨by dsimp only; omega, hy⟩
      · exact ⟨hx, hy⟩
    refine ⟨setCell_inside hback _, ?_⟩
    obtain ⟨hx', hy'⟩ := hback
    simp only [setCell, val_bind, val_pure]
    omega
  · refine ⟨?_, ?_⟩
    · simp only [all_bind, all_pure, and_true]
      exact setCell_inside ⟨hx, hy⟩ _
    · simp only [setCell, val_bind, val_pure]
      omega

/-- A cursor past the end of its row wraps, and one past the last row scrolls. -/
theorem scrollLine_bounds {s : Screen} (hx : 0 ≤ s.cursorX ∧ s.cursorX < 80) (hy : 0 ≤ s.cursorY) :
    InBounds (scrollLine s).val ∧ All VgaEvent.Inside (scrollLine s) := by
  unfold scrollLine
  split
  · obtain ⟨hval, hscroll⟩ := vgaScrollDown_spec s
    rw [hval]
    exact ⟨⟨hx, by simp⟩, hscroll⟩
  · rename_i hlast
    exact ⟨⟨hx, hy, not_le.mp hlast⟩, all_pure _ s⟩

/-- STEP: writing a character keeps to the screen. -/
theorem vgaWriteChar_bounds {s : Screen} (h : InBounds s) (c : UInt8) :
    InBounds (vgaWriteChar s c).val ∧ All VgaEvent.Inside (vgaWriteChar s c) := by
  obtain ⟨hall, hx, hx', hy⟩ := putChar_bounds h c
  have hwrap : (0 ≤ (wrapLine (putChar s c).val).cursorX ∧ (wrapLine (putChar s c).val).cursorX < 80) ∧
      0 ≤ (wrapLine (putChar s c).val).cursorY := by
    unfold wrapLine
    split
    · dsimp only
      omega
    · omega
  obtain ⟨hbounds, hscroll⟩ := scrollLine_bounds hwrap.1 hwrap.2
  simp only [vgaWriteChar, val_bind, all_bind, val_pure, all_pure, and_true]
  exact ⟨hbounds, hall, hscroll, vgaUpdateCursor_inside _⟩

theorem vgaWriteString_bounds (str : List UInt8) : ∀ {s : Screen}, InBounds s →
    InBounds (vgaWriteString s str).val ∧ All VgaEvent.Inside (vgaWriteString s str) := by
  induction str with
  | nil =>
    intro s h
    exact ⟨h, all_pure _ s⟩
  | cons c str ih =>
    intro s h
    rw [vgaWriteString]
    split
    · exact ⟨h, all_pure _ s⟩
    · obtain ⟨hchar, hall⟩ := vgaWriteChar_bounds h c
      obtain ⟨hrest, hall'⟩ := ih hchar
      exact ⟨hrest, all_bind.mpr ⟨hall, hall'⟩⟩

inductive VgaOp where
  | init
  | writeChar (c : UInt8)
  | clearScreen
  | setColor (foreground background : UInt8)
  | writeString (str : List UInt8)
  | setPosition (row col : ℤ)

def VgaOp.run (s : Screen) : VgaOp → Traced VgaEvent Screen
  | .init => vgaInit s
  | .writeChar c => vgaWriteChar s c
  | .clearScreen => vgaClearScreen s
  | .setColor foreground background => return vgaSetColor s foreground background
  | .writeString str => vgaWriteString s str
  | .setPosition row col => vgaSetPosition s row col

/-- One call: the screen after it, and what it did. -/
def vgaStep (s : Screen) (op : VgaOp) : Screen × List VgaEvent := ((op.run s).val, (op.run s).events)

/-- STEP: every call keeps to the screen. -/
theorem vgaOp_bounds {s : Screen} (h : InBounds s) (op : VgaOp) :
    InBounds (op.run s).val ∧ All VgaEvent.Inside (op.run s) := by
  cases op with
  | init =>
    refine ⟨inBounds_home rfl rfl, ?_⟩
    simpa only [VgaOp.run, vgaInit, all_bind, all_pure, and_true] using vgaUpdateCursor_inside _
  | writeChar c => exact vgaWriteChar_bounds h c
  | clearScreen =>
    refine ⟨inBounds_home rfl rfl, ?_⟩
    simp only [VgaOp.run, vgaClearScreen, all_bind, all_pure, and_true]
    exact ⟨(clearScreen_spec s).2, vgaUpdateCursor_inside _⟩
  | setColor foreground background => exact ⟨⟨h.x, h.y⟩, all_pure _ _⟩
  | writeString str => exact vgaWriteString_bounds str h
  | setPosition row col =>
    simp only [VgaOp.run, vgaSetPosition]
    split
    · rename_i hpos
      obtain ⟨hrow, hrow', hcol, hcol'⟩ := hpos
      refine ⟨⟨⟨hcol, hcol'⟩, ⟨hrow, hrow'⟩⟩, ?_⟩
      simpa only [all_bind, all_pure, and_true] using vgaUpdateCursor_inside _
    · exact ⟨h, all_pure _ s⟩

/-- RUN: from the static variables on, whatever stands in the buffer, every call leaves the cursor on
    the screen and touches none but its 2000 cells. -/
theorem vga_stays_in_bounds (buffer : ℤ → UInt16) (ops : List VgaOp) :
    Run.Always vgaStep InBounds (staticScreen buffer) ops ∧
      ∀ events ∈ Run.outs vgaStep (staticScreen buffer) ops, ∀ e ∈ events, e.Inside := by
  have hstart : InBounds (staticScreen buffer) := inBounds_home rfl rfl
  refine ⟨Run.always_of_along (G := fun _ _ => True) (fun s op h _ => (vgaOp_bounds h op).1) ops _
    (Run.along_of_forall (fun _ _ => trivial) ops _) hstart, ?_⟩
  exact Run.outs_inv (I := InBounds) (fun s op h => vgaOp_bounds h op) ops _ hstart

end VlsOs.Vga
