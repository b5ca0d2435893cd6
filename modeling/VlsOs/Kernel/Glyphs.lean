import VlsOs.Kernel.Terminal

/-! The characters on the screen, whatever their colours.

    A cell keeps the colour that was set when it was written, so a screen that was written to in more
    than one colour is not the window of a terminal in any of them. Repainted in the colour that is set
    now it is: no function of the driver looks at the colour of a cell.

        screen     ──writeChar──▶  screen
          │ repaint                  │ repaint
          ▼                          ▼
        one colour ──writeChar──▶  one colour -/

namespace VlsOs.Vga
open Patterns Patterns.Trace

/-- The character in a cell. -/
def glyph (cell : UInt16) : UInt8 := cell.toUInt8

/-- The screen with all its cells in the colour that is set now. -/
def Screen.repainted (s : Screen) : Screen :=
  { s with buffer := fun i => vgaEntry (glyph (s.buffer i)) s.color }

/-- The characters on the screen and its cursor are those of the terminal. -/
structure Displays (s : Screen) (t : Terminal) : Prop where
  x : s.cursorX = t.col
  y : s.cursorY = t.row - t.top
  cells : ∀ r < 25, ∀ k < 80, glyph (s.buffer (r * 80 + k : ℕ)) = t.cells (t.top + r) k
  below : ∀ r > t.row, ∀ k, t.cells r k = 0x20
  col : t.col < 80

@[simp] theorem glyph_vgaEntry (c color : UInt8) : glyph (vgaEntry c color) = c := by
  have hshift : (color.toUInt16 <<< 8).toUInt8 = 0 := by
    apply UInt8.toNat_inj.mp
    rw [UInt16.toNat_toUInt8, UInt16.toNat_shiftLeft, show (8 : UInt16).toNat % 16 = 8 from rfl,
      Nat.shiftLeft_eq]
    show _ = 0
    omega
  rw [glyph, vgaEntry, UInt16.toUInt8_or, hshift]
  simp

theorem displays_iff (s : Screen) (t : Terminal) : Displays s t ↔ Shows s.repainted t := by
  constructor
  · intro h
    refine ⟨⟨h.x, h.y, fun r hr k hk => ?_, h.below⟩, h.col⟩
    rw [← h.cells r hr k hk]
    rfl
  · intro h
    refine ⟨h.x, h.y, fun r hr k hk => ?_, h.below, h.col⟩
    have hcell := congrArg glyph (h.cells r hr k hk)
    rwa [Screen.repainted, glyph_vgaEntry, glyph_vgaEntry] at hcell

/-- A cell that is written is in the new colour already. -/
theorem repainted_update (s : Screen) (i : ℤ) (c : UInt8) :
    { s with buffer := Function.update s.buffer i (vgaEntry c s.color) }.repainted =
      { s.repainted with buffer := Function.update s.repainted.buffer i (vgaEntry c s.color) } := by
  rw [Screen.repainted, Screen.repainted]
  congr 1
  funext j
  by_cases hj : j = i
  · subst hj
    simp
  · simp [hj]

theorem repainted_putChar (s : Screen) (c : UInt8) :
    (putChar s c).val.repainted = (putChar s.repainted c).val := by
  unfold putChar
  split
  · rfl
  split
  · rfl
  split
  · -- a blank
    have hback : (if s.repainted.cursorX > 0 then
        { s.repainted with cursorX := s.repainted.cursorX - 1 } else s.repainted) =
        (if s.cursorX > 0 then { s with cursorX := s.cursorX - 1 } else s).repainted := by
      rw [show s.repainted.cursorX = s.cursorX from rfl]
      split <;> rfl
    simp only [setCell, val_bind, val_pure, hback]
    exact repainted_update _ _ _
  · simp only [setCell, val_bind, val_pure]
    exact congrArg (fun s : Screen => { s with cursorX := s.cursorX + 1 }) (repainted_update s _ c)

theorem repainted_vgaScrollDown (s : Screen) :
    (vgaScrollDown s).val.repainted = (vgaScrollDown s.repainted).val := by
  rw [(vgaScrollDown_spec s).1, (vgaScrollDown_spec s.repainted).1, Screen.repainted, Screen.repainted]
  congr 1
  funext i
  dsimp only [scrolled, filled]
  split
  · rw [glyph_vgaEntry]
  · split <;> rfl

theorem repainted_vgaWriteChar (s : Screen) (c : UInt8) :
    (vgaWriteChar s c).val.repainted = (vgaWriteChar s.repainted c).val := by
  have hwrap (s : Screen) : (wrapLine s).repainted = wrapLine s.repainted := by
    unfold wrapLine
    rw [show s.repainted.cursorX = s.cursorX from rfl]
    split <;> rfl
  have hscroll (s : Screen) : (scrollLine s).val.repainted = (scrollLine s.repainted).val := by
    unfold scrollLine
    rw [show s.repainted.cursorY = s.cursorY from rfl]
    split
    · exact repainted_vgaScrollDown s
    · rfl
  simp only [vgaWriteChar, val_bind, val_pure]
  rw [hscroll, hwrap, repainted_putChar]

/-- STEP: a character on the screen is a character put to the terminal. -/
theorem Displays.writeChar {s : Screen} {t : Terminal} (h : Displays s t) (c : UInt8) :
    Displays (vgaWriteChar s c).val (t.put c) := by
  rw [displays_iff, repainted_vgaWriteChar]
  exact ((displays_iff s t).mp h).writeChar c

/-- The colour is for what comes. -/
theorem Displays.setColor {s : Screen} {t : Terminal} (h : Displays s t) (foreground background : UInt8) :
    Displays (vgaSetColor s foreground background) t := ⟨h.x, h.y, h.cells, h.below, h.col⟩

theorem displays_vgaClearScreen (s : Screen) : Displays (vgaClearScreen s).val blankTerminal := by
  have hshows := (shows_vgaClearScreen s).1
  refine ⟨hshows.x, hshows.y, fun r hr k hk => ?_, hshows.below, hshows.col⟩
  rw [hshows.cells r hr k hk, glyph_vgaEntry]

/-- A string is its characters up to the NUL. -/
theorem Displays.writeString (str : List UInt8) : ∀ {s : Screen} {t : Terminal}, Displays s t →
    Displays (vgaWriteString s str).val ((Libc.text str).foldl Terminal.put t) := by
  induction str with
  | nil => exact fun h => h
  | cons c str ih =>
    intro s t h
    rw [vgaWriteString, Libc.text_cons]
    split
    · exact h
    · exact ih (h.writeChar c)

end VlsOs.Vga
