import VlsOs.Ui.Lines

/-! The header row under the content area.

    The content functions ask for column 0 of row `row`, but `vga_set_position` takes the row first:
    the cursor goes to column `row` of row 0. What is drawn there is drawn over the header.

        vga_set_position(0, row)      row 0  │VlsOs OS            │
                                             └──────▲─ column `row` -/

namespace VlsOs.Ui
open Patterns Patterns.Trace Vga

/-! ### Runs of printable characters -/

/-- The cell that the cursor is at. -/
def place (s : Screen) : ℤ := s.cursorY * 80 + s.cursorX

def Printable (c : UInt8) : Prop := 32 ≤ c ∧ c ≤ 126

instance (c : UInt8) : Decidable (Printable c) := inferInstanceAs (Decidable (_ ∧ _))

/-- From `s` on, `n` cells have been written in the colour of `s`, and no others. -/
structure Wrote (s : Screen) (n : ℕ) (s' : Screen) : Prop where
  bounds : InBounds s'
  place : place s' = place s + n
  color : s'.color = s.color
  inside : ∀ k, Ui.place s ≤ k → k < Ui.place s + n → ∃ c, s'.buffer k = vgaEntry c s.color
  outside : ∀ k, ¬(Ui.place s ≤ k ∧ k < Ui.place s + n) → s'.buffer k = s.buffer k

theorem wrote_none {s : Screen} (h : InBounds s) : Wrote s 0 s where
  bounds := h
  place := (add_zero _).symm
  color := rfl
  inside k hle hlt := by omega
  outside k _ := rfl

/-- A printable character fills the cell at the cursor. -/
theorem vgaWriteChar_printable {s : Screen} (hin : InBounds s) {c : UInt8} (hc : Printable c)
    (hroom : place s + 1 < 2000) :
    InBounds (vgaWriteChar s c).val ∧ place (vgaWriteChar s c).val = place s + 1 ∧
      (vgaWriteChar s c).val.color = s.color ∧
      (vgaWriteChar s c).val.buffer = Function.update s.buffer (place s) (vgaEntry c s.color) := by
  obtain ⟨hx, hy⟩ := hin
  have hne (d : UInt8) (hd : d < 32) : c ≠ d := by
    rintro rfl
    exact absurd hc.1 (UInt8.not_le.mpr hd)
  unfold place at *
  simp only [vgaWriteChar, putChar, if_neg (hne 0x0A (by decide)), if_neg (hne 0x09 (by decide)),
    if_neg (hne 0x08 (by decide)), setCell, val_bind, val_pure, wrapLine]
  split
  · -- the end of the row
    rename_i hend
    rw [scrollLine, if_neg (by dsimp only; omega)]
    exact ⟨⟨by simp, by dsimp only [val_pure]; omega⟩, by dsimp only [val_pure]; omega, rfl, rfl⟩
  · rename_i hend
    rw [scrollLine, if_neg (by dsimp only; omega)]
    exact ⟨⟨by dsimp only [val_pure]; omega, hy⟩, by dsimp only [val_pure]; omega, rfl, rfl⟩

/-- STEP: one character more. -/
theorem Wrote.char {s s' : Screen} {n : ℕ} (h : Wrote s n s') {c : UInt8} (hc : Printable c)
    (hroom : Ui.place s + n + 1 < 2000) : Wrote s (n + 1) (vgaWriteChar s' c).val := by
  have hplace := h.place
  obtain ⟨hin, hnext, hcolor, hbuffer⟩ := vgaWriteChar_printable h.bounds hc (by omega)
  refine ⟨hin, by push_cast; omega, hcolor.trans h.color, fun k hle hlt => ?_, fun k hout => ?_⟩
  · rw [hbuffer]
    rcases eq_or_ne k (Ui.place s') with rfl | hne
    · exact ⟨c, by rw [Function.update_self, h.color]⟩
    · rw [Function.update_of_ne hne]
      exact h.inside k hle (by push_cast at hlt; omega)
  · push_cast at hout
    rw [hbuffer, Function.update_of_ne (by omega)]
    exact h.outside k (by omega)

/-- RUN: a text. -/
theorem Wrote.string {text : List UInt8} (htext : ∀ c ∈ text, Printable c) : ∀ {s s' : Screen} {n : ℕ},
    Wrote s n s' → Ui.place s + n + text.length < 2000 →
      Wrote s (n + text.length) (vgaWriteString s' text).val := by
  induction text with
  | nil =>
    intro s s' n h _
    exact h
  | cons c text ih =>
    intro s s' n h hroom
    rw [List.length_cons] at hroom
    push_cast at hroom
    have hc := htext c List.mem_cons_self
    have hne : c ≠ 0 := by
      rintro rfl
      exact absurd hc (by decide)
    rw [vgaWriteString, if_neg hne, val_bind, List.length_cons, show n + (text.length + 1) =
      n + 1 + text.length by omega]
    exact ih (fun c hc => htext c (List.mem_cons_of_mem _ hc)) (h.char hc (by omega))
      (by push_cast; omega)

/-- A loop that writes a printable character at each turn. -/
theorem wrote_loop {I : Content → Prop} {body : ℕ → Content → Traced UiEvent Content} {turns : ℕ}
    (hbody : ∀ i s, i < turns → I s → I (body i s).val ∧
      ∃ c, Printable c ∧ (body i s).val.screen = (vgaWriteChar s.screen c).val)
    {s : Content} {s₀ : Screen} {n : ℕ} (hI : I s) (h : Wrote s₀ n s.screen)
    (hroom : Ui.place s₀ + n + turns < 2000) :
    I (loop body turns s).val ∧ Wrote s₀ (n + turns) (loop body turns s).val.screen := by
  refine loop_state (I := fun i s => I s ∧ Wrote s₀ (n + i) s.screen) (fun i s hi hs => ?_) ⟨hI, h⟩
  obtain ⟨hI', c, hc, hscreen⟩ := hbody i s hi hs.1
  refine ⟨hI', ?_⟩
  rw [hscreen]
  exact hs.2.char hc (by push_cast; omega)

/-! ### Colours -/

theorem toNat_vgaEntry (c color : UInt8) : (vgaEntry c color).toNat = color.toNat * 256 + c.toNat := by
  have hc := c.toNat_lt
  have hcolor := color.toNat_lt
  have hroom : color.toNat <<< 8 < 2 ^ 16 := by
    rw [Nat.shiftLeft_eq]
    omega
  rw [vgaEntry, UInt16.toNat_or, UInt16.toNat_shiftLeft, UInt8.toNat_toUInt16, UInt8.toNat_toUInt16,
    show (8 : UInt16).toNat % 16 = 8 from rfl, Nat.mod_eq_of_lt hroom, Nat.or_comm,
    ← Nat.shiftLeft_add_eq_or_of_lt hc, Nat.shiftLeft_eq]

/-- The cell is in the colour. -/
def InColor (color : UInt8) (cell : UInt16) : Prop := ∃ c, cell = vgaEntry c color

theorem InColor.unique {a b : UInt8} {cell : UInt16} (ha : InColor a cell) (hb : InColor b cell) :
    a = b := by
  obtain ⟨c, rfl⟩ := ha
  obtain ⟨d, hd⟩ := hb
  have hnat := congrArg UInt16.toNat hd
  rw [toNat_vgaEntry, toNat_vgaEntry] at hnat
  have hc := c.toNat_lt
  have hd := d.toNat_lt
  exact UInt8.toNat_inj.mp (by omega)

/-- A cell in the colour of the screen stays in it, and so comes every cell that is written. -/
theorem Wrote.inColor {s s' : Screen} {n : ℕ} (h : Wrote s n s') {k : ℤ}
    (hk : InColor s.color (s.buffer k) ∨ Ui.place s ≤ k ∧ k < Ui.place s + n) :
    InColor s'.color (s'.buffer k) := by
  rw [h.color]
  by_cases hin : Ui.place s ≤ k ∧ k < Ui.place s + n
  · exact h.inside k hin.1 hin.2
  · rw [h.outside k hin]
    exact hk.resolve_right hin

/-- The screen writes grey on black, and the cell is grey on black. -/
structure Marked (k : ℤ) (s : Screen) : Prop where
  color : s.color = 7
  cell : InColor 7 (s.buffer k)

theorem Wrote.marked {s s' : Screen} {n : ℕ} (h : Wrote s n s') (hcolor : s.color = 7) {k : ℤ}
    (hk : InColor 7 (s.buffer k) ∨ Ui.place s ≤ k ∧ k < Ui.place s + n) : Marked k s' := by
  have hcolor' := h.color.trans hcolor
  rw [← hcolor] at hk
  exact ⟨hcolor', hcolor' ▸ h.inColor hk⟩

/-! ### What a call draws in row 0 -/

theorem vgaSetPosition_row (s : Screen) {col : ℤ} (h : 0 ≤ col) (h' : col < 80) :
    (vgaSetPosition s 0 col).val = { s with cursorY := 0, cursorX := col } := by
  rw [vgaSetPosition, if_pos ⟨le_refl 0, by omega, h, h'⟩]
  rfl

/-- A line of printable characters, as wide as the screen at most. -/
def IsLine (text : List UInt8) : Prop := (∀ c ∈ text, Printable c) ∧ text.length ≤ 80

/-- A line in the content colour from column `col` of row 0 on. -/
theorem marked_line {s : Screen} {col : ℤ} (hcol : 0 ≤ col ∧ col < 80) {text : List UInt8}
    (htext : IsLine text) {k : ℤ} (hk : InColor 7 (s.buffer k) ∨ k = col ∧ text ≠ []) :
    Marked k (vgaWriteString (vgaSetColor (vgaSetPosition s 0 col).val 7 0) text).val := by
  obtain ⟨hprint, hlen⟩ := htext
  rw [vgaSetPosition_row s hcol.1 hcol.2]
  have hstart : InBounds (vgaSetColor { s with cursorY := 0, cursorX := col } 7 0) :=
    ⟨hcol, by simp [vgaSetColor]⟩
  have hplace : place (vgaSetColor { s with cursorY := 0, cursorX := col } 7 0) = col := by
    simp [place, vgaSetColor]
  have hwrote := (wrote_none hstart).string hprint (by rw [hplace]; push_cast; omega)
  refine hwrote.marked rfl (hk.imp_right ?_)
  rintro ⟨rfl, hne⟩
  have hpos := List.length_pos_of_ne_nil hne
  rw [hplace]
  push_cast
  omega

section Rows
variable {I : Content → Prop} {s : Content}

/-- A row of the content area, with a printable character in each cell. -/
theorem marked_contentRow {cell : ℕ → Content → Traced UiEvent Content} {col : ℤ}
    (hcol : 0 ≤ col ∧ col < 80) (hscreen : ∀ s draw, I s → I (onScreen s draw).val)
    (hcell : ∀ i s, i < 80 → I s → I (cell i s).val ∧
      ∃ c, Printable c ∧ (cell i s).val.screen = (vgaWriteChar s.screen c).val)
    (hI : I s) (hcolor : s.screen.color = 7) {k : ℤ}
    (hk : InColor 7 (s.screen.buffer k) ∨ k = col) :
    I (contentRow cell col s).val ∧ Marked k (contentRow cell col s).val.screen := by
  have hpos : (onScreen s (.setPosition 0 col)).val.screen =
      { s.screen with cursorY := 0, cursorX := col } := vgaSetPosition_row _ hcol.1 hcol.2
  have hstart : Wrote { s.screen with cursorY := 0, cursorX := col } 0
      (onScreen s (.setPosition 0 col)).val.screen := by
    rw [hpos]
    exact wrote_none ⟨hcol, by simp⟩
  have hplace : place { s.screen with cursorY := 0, cursorX := col } = col := by simp [place]
  obtain ⟨hI', hwrote⟩ := wrote_loop hcell (hscreen s _ hI) hstart
    (by rw [hplace]; push_cast; omega)
  rw [contentRow, val_bind]
  refine ⟨hI', hwrote.marked hcolor (hk.imp_right ?_)⟩
  rintro rfl
  rw [hplace]
  push_cast
  omega

/-- The loops over the content area: the first row marks a cell, and the others leave it so. -/
theorem marked_forContent {cell : ℕ → ℕ → Content → Traced UiEvent Content}
    (hscreen : ∀ s draw, I s → I (onScreen s draw).val)
    (hcell : ∀ i col s, i < 23 → col < 80 → I s → I (cell i col s).val ∧
      ∃ c, Printable c ∧ (cell i col s).val.screen = (vgaWriteChar s.screen c).val)
    (hI : I s) (hcolor : s.screen.color = 7) : Marked 1 (forContent cell s).val.screen := by
  have hrun : I (forContent cell s).val ∧ (forContent cell s).val.screen.color = 7 ∧
      (0 < 23 → InColor 7 ((forContent cell s).val.screen.buffer 1)) := by
    refine loop_state
      (I := fun i s => I s ∧ s.screen.color = 7 ∧ (0 < i → InColor 7 (s.screen.buffer 1)))
      (fun i s hi hs => ?_) ⟨hI, hcolor, fun h => absurd h (lt_irrefl 0)⟩
    obtain ⟨hI, hcolor, hmarked⟩ := hs
    have hk : InColor 7 (s.screen.buffer 1) ∨ 1 = (1 + i : ℤ) := by
      rcases Nat.eq_zero_or_pos i with rfl | hlater
      · exact .inr rfl
      · exact .inl (hmarked hlater)
    obtain ⟨hI', hmarked'⟩ := marked_contentRow ⟨by omega, by omega⟩ hscreen
      (fun col s hcol hs => hcell i col s hi hcol hs) hI hcolor hk
    exact ⟨hI', hmarked'.color, fun _ => hmarked'.cell⟩
  exact ⟨hrun.2.1, hrun.2.2 (by decide)⟩

end Rows

theorem buffer_vgaSetPosition (s : Screen) (row col : ℤ) :
    (vgaSetPosition s row col).val.buffer = s.buffer := by
  unfold vgaSetPosition
  split <;> rfl

theorem Marked.setPosition {k : ℤ} {s : Screen} (h : Marked k s) (row col : ℤ) :
    Marked k (vgaSetPosition s row col).val := by
  unfold vgaSetPosition
  split
  · exact ⟨h.color, h.cell⟩
  · exact h

theorem marked_uiClearContent {s : Content} (hcolor : s.screen.color = 7) :
    Marked 1 (uiClearContent s).val.screen := by
  refine Marked.setPosition (marked_forContent (I := fun _ => True) (fun _ _ _ => trivial) ?_ trivial
    hcolor) 0 1
  exact fun _ _ s _ _ _ => ⟨trivial, 0x20, by decide, rfl⟩

/-- What the buffer holds if all texts were lines. -/
def IsShown (c : UInt8) : Prop := c = 0 ∨ Printable c

theorem screen_loop {body : ℕ → Content → Traced UiEvent Content} {turns : ℕ} {s : Content}
    (hbody : ∀ i s, (body i s).val.screen = s.screen) : (loop body turns s).val.screen = s.screen :=
  loop_state (I := fun _ s' => s'.screen = s.screen) (fun i s' _ hs => (hbody i s').trans hs) rfl

theorem marked_uiScrollContent {s : Content} (hfull : ¬ s.contentLines < contentRows)
    (hbuffer : Within IsShown s) (hcolor : s.screen.color = 7) :
    Marked 1 (uiScrollContent s).val.screen := by
  rw [uiScrollContent, if_neg hfull, val_bind, val_bind]
  refine marked_forContent (fun s draw hs => hs.onScreen draw) (fun i col s hi hcol hs => ?_)
    (hbuffer.shifted (.inl rfl)) ?_
  · have hcell : IsShown (s.contentBuffer (i * 80 + col)) := hs _ (by omega) (by
      have hrows : (contentRows : ℤ) = 23 := rfl
      omega)
    refine ⟨hs.redraw i col, _, ?_, rfl⟩
    split
    · decide
    · rename_i hne
      exact hcell.resolve_left hne
  · rw [screen_loop fun _ _ => rfl, screen_loop fun _ _ => rfl]
    exact hcolor

/-- SPEC of printing: the text goes from column `row` of row 0 on. -/
theorem printLoop_screen (text : List UInt8) : ∀ {col : ℕ}, col + text.length ≤ 80 → ∀ s : Content,
    (printLoop text col s).val.screen = (vgaWriteString s.screen text).val := by
  induction text with
  | nil => exact fun _ _ => rfl
  | cons c text ih =>
    intro col hcol s
    rw [List.length_cons] at hcol
    rw [printLoop, vgaWriteString]
    by_cases hzero : c = 0
    · rw [if_pos (.inl hzero), if_pos hzero]
      rfl
    · rw [if_neg (not_or.mpr ⟨hzero, by omega⟩), if_neg hzero, val_bind, val_bind, ih (by omega)]
      rfl

theorem uiPrintContent_screen (s : Content) {text : List UInt8} (h : text.length ≤ 80) :
    (uiPrintContent s (some text)).val.screen = (vgaWriteString (vgaSetColor
      (vgaSetPosition (uiScrollContent s).val.screen 0 (min (1 + s.contentLines) 23)).val 7 0)
        text).val := by
  rw [uiPrintContent_eq, val_bind, val_bind, val_bind, val_bind]
  exact printLoop_screen text (by omega) _

theorem marked_drawLine {lines : ℕ → Option (List UInt8)} {i : ℕ} (hi : i < 23)
    (hline : ∀ line, lines i = some line → IsLine line) {k : ℤ} {s : Content}
    (h : Marked k s.screen) : Marked k (drawLine lines i s).val.screen := by
  have hcol : (0 : ℤ) ≤ 1 + i ∧ (1 + i : ℤ) < 80 := by omega
  rw [drawLine, val_bind, val_bind]
  split
  · rename_i line heq
    exact marked_line hcol (hline line heq) (.inl h.cell)
  · exact ⟨rfl, (h.setPosition 0 (1 + i)).cell⟩

theorem marked_uiDrawContent {s : Content} (hcolor : s.screen.color = 7)
    {lines : ℕ → Option (List UInt8)} {lineCount : ℤ}
    (hlines : ∀ i : ℕ, i < lineCount → ∀ line, lines i = some line → IsLine line) :
    Marked 1 (uiDrawContent s lines lineCount).val.screen := by
  have hrows : contentRows = 23 := rfl
  have hdrawn : Marked 1 (loop (drawLine lines) (min lineCount.toNat contentRows)
      (uiClearContent s).val).val.screen :=
    loop_state (I := fun _ (s : Content) => Marked 1 s.screen)
      (fun i s hi hs => marked_drawLine (by omega) (hlines i (by omega)) hs)
      (marked_uiClearContent hcolor)
  rw [uiDrawContent, val_bind, val_bind]
  exact hdrawn

/-! ### Calls -/

/-- The texts of the call are lines. -/
def UiCall.HasLines : UiCall → Prop
  | .printContent (some text) => IsLine text
  | .drawContent lines lineCount => ∀ i : ℕ, i < lineCount → ∀ line, lines i = some line → IsLine line
  | _ => True

/-- The call has nothing to draw: the counter does not ask for scrolling, and there is no text. -/
def UiCall.Quiet (contentLines : ℤ) : UiCall → Prop
  | .init => True
  | .printContent none => True
  | .printContent (some text) => text = [] ∧ contentLines < contentRows
  | .scrollContent => contentLines < contentRows
  | .clearContent => False
  | .drawContent _ _ => False

/-- The text that is printed stands from column 0 of a content row on. -/
def UiCall.Shown (s : Screen) : UiCall → Prop
  | .printContent (some text) => ∃ row : ℕ, 1 ≤ row ∧ row ≤ 23 ∧
      ∀ i < text.length, (s.buffer (row * 80 + i : ℕ)).toUInt8 = text.getD i 0
  | _ => True

/-- A call with something to draw draws over a cell of row 0. -/
theorem marks_row {s : Content} (hcolor : s.screen.color = 7) (hnonneg : 0 ≤ s.contentLines)
    (hbuffer : Within IsShown s) {call : UiCall} (hcall : call.HasLines)
    (hloud : ¬call.Quiet s.contentLines) :
    ∃ col : ℤ, (0 ≤ col ∧ col < 80) ∧ InColor 7 ((call.run s).val.screen.buffer col) := by
  cases call with
  | init => exact absurd trivial hloud
  | clearContent =>
    refine ⟨1, by decide, ?_⟩
    rw [UiCall.run]
    exact (marked_uiClearContent hcolor).cell
  | printContent text =>
    cases text with
    | none => exact absurd trivial hloud
    | some text =>
      have hcol : 0 ≤ min (1 + s.contentLines) 23 ∧ min (1 + s.contentLines) 23 < 80 := by omega
      by_cases hfull : s.contentLines < contentRows
      · have hne : text ≠ [] := fun hempty => hloud ⟨hempty, hfull⟩
        refine ⟨min (1 + s.contentLines) 23, hcol, ?_⟩
        rw [UiCall.run, uiPrintContent_screen s hcall.2]
        exact (marked_line hcol hcall (.inr ⟨rfl, hne⟩)).cell
      · refine ⟨1, by decide, ?_⟩
        rw [UiCall.run, uiPrintContent_screen s hcall.2]
        exact (marked_line hcol hcall (.inl (marked_uiScrollContent hfull hbuffer hcolor).cell)).cell
  | scrollContent =>
    refine ⟨1, by decide, ?_⟩
    rw [UiCall.run]
    exact (marked_uiScrollContent hloud hbuffer hcolor).cell
  | drawContent lines lineCount =>
    refine ⟨1, by decide, ?_⟩
    rw [UiCall.run]
    exact (marked_uiDrawContent hcolor hcall).cell

/-- Row 0 is the same on both screens. -/
def SameRow (s s' : Content) : Prop :=
  ∀ col : ℤ, 0 ≤ col ∧ col < 80 → s'.screen.buffer col = s.screen.buffer col

/-- INVARIANT of calls that draw nothing: the row is as it was at the start, and the counter is on the
    same side of the bound at which the area scrolls. -/
structure Headed (start s : Content) : Prop where
  row : SameRow start s
  color : s.screen.color = 7
  nonneg : 0 ≤ s.contentLines
  buffer : Within IsShown s
  full : s.contentLines < contentRows ↔ start.contentLines < contentRows

section
variable {start s : Content}

theorem Headed.init (h : Headed start s) : Headed start (uiInit s).val := by
  have hscreen : (uiInit s).val.screen = s.screen := screen_loop fun _ _ => rfl
  have hlines : (uiInit s).val.contentLines = s.contentLines := (leaves_uiInit rfl).1
  refine ⟨fun col hcol => ?_, ?_, ?_, ?_, ?_⟩
  · rw [hscreen]
    exact h.row col hcol
  · rw [hscreen]
    exact h.color
  · rw [hlines]
    exact h.nonneg
  · exact fun k hk hk' => .inl (blank_uiInit s k hk hk')
  · rw [hlines]
    exact h.full

theorem Headed.printNothing (h : Headed start s) (hroom : start.contentLines < contentRows) :
    Headed start (uiPrintContent s (some [])).val := by
  have hlt := h.full.mpr hroom
  have hnonneg := h.nonneg
  have hrows : (contentRows : ℤ) = 23 := rfl
  have hscreen := uiPrintContent_screen s (show [].length ≤ 80 from Nat.zero_le 80)
  obtain ⟨s', _, hbuffer, hprint, hnext⟩ :=
    uiPrintContent_spec s (show FitsRow [] from ⟨List.not_mem_nil, Nat.zero_le 80⟩)
  rw [uiScrollContent_idle hlt, val_pure] at hscreen hbuffer
  refine ⟨fun col hcol => ?_, ?_, by omega, fun k hk hk' => ?_, iff_of_true (by omega) hroom⟩
  · rw [hscreen]
    exact (congrFun (buffer_vgaSetPosition _ _ _) _).trans (h.row col hcol)
  · rw [hscreen]
    rfl
  · rw [hprint]
    exact (congrArg IsShown (congrFun hbuffer k)).mpr (h.buffer k hk hk')

/-- STEP: a quiet call keeps the invariant, and has no text to show. -/
theorem Headed.quiet (h : Headed start s) {call : UiCall} (hquiet : call.Quiet start.contentLines) :
    Headed start (call.run s).val ∧ call.Shown (call.run s).val.screen := by
  cases call with
  | init => exact ⟨h.init, trivial⟩
  | clearContent => exact absurd hquiet id
  | printContent text =>
    cases text with
    | none => exact ⟨h, trivial⟩
    | some text =>
      obtain ⟨rfl, hroom⟩ := hquiet
      exact ⟨h.printNothing hroom, 1, by decide, by decide, fun i hi => absurd hi (Nat.not_lt_zero i)⟩
  | scrollContent =>
    rw [UiCall.run, uiScrollContent_idle (h.full.mpr hquiet)]
    exact ⟨h, trivial⟩
  | drawContent lines lineCount => exact absurd hquiet id

/-- Which calls are quiet does not change on the way. -/
theorem Headed.quiet_iff (h : Headed start s) (call : UiCall) :
    call.Quiet s.contentLines ↔ call.Quiet start.contentLines := by
  cases call with
  | printContent text => cases text <;> simp [UiCall.Quiet, h.full]
  | scrollContent => exact h.full
  | _ => exact Iff.rfl

end

/-- The title and the blanks fill row 0. -/
theorem headerLine_spec {s : Content} (hx : s.screen.cursorX = 0) (hy : s.screen.cursorY = 0)
    {color : UInt8} (hcolor : s.screen.color = color) :
    (∀ col : ℤ, 0 ≤ col ∧ col < 80 → InColor color ((headerLine s).val.screen.buffer col)) ∧
      (headerLine s).val.contentLines = s.contentLines ∧
      (headerLine s).val.contentBuffer = s.contentBuffer := by
  have hplain : ∀ c ∈ Libc.chars "VlsOs OS", Printable c := by decide +kernel
  have hlen : (Libc.chars "VlsOs OS").length = 8 := by decide
  have hplace : place s.screen = 0 := by
    rw [place, hx, hy]
    rfl
  have hrun (text : List UInt8) :
      (vgaWriteString s.screen text).val = (onScreen s (.writeString text)).val.screen := rfl
  have htitle := (wrote_none (inBounds_home hx hy)).string hplain (by rw [hplace, hlen]; decide)
  rw [hlen, hrun] at htitle
  have hline : ((headerLine s).val.contentLines = s.contentLines ∧
      (headerLine s).val.contentBuffer = s.contentBuffer) ∧
        Wrote s.screen (8 + 72) (headerLine s).val.screen := by
    rw [headerLine, val_bind]
    refine wrote_loop
      (I := fun s' => s'.contentLines = s.contentLines ∧ s'.contentBuffer = s.contentBuffer)
      (fun _ _ _ hs => ⟨hs, 0x20, by decide, rfl⟩) ?_ htitle (by rw [hplace]; decide)
    exact ⟨contentLines_onScreen _ _, contentBuffer_onScreen _ _⟩
  refine ⟨fun col hcol => ?_, hline.1⟩
  rw [← hcolor]
  exact hline.2.inside col (by omega) (by push_cast; omega)

/-- SPEC of the header: row 0 is white on blue, and what is drawn next is grey on black. -/
theorem uiDrawHeader_spec (s : Content) :
    (∀ col : ℤ, 0 ≤ col ∧ col < 80 → InColor 0x1F ((uiDrawHeader s).val.screen.buffer col)) ∧
      (uiDrawHeader s).val.screen.color = 7 ∧
      (uiDrawHeader s).val.contentLines = s.contentLines ∧
      (uiDrawHeader s).val.contentBuffer = s.contentBuffer := by
  have hbuffer (s : Screen) : (VgaOp.run s (.setColor 7 0)).val.buffer = s.buffer := rfl
  rw [uiDrawHeader, val_bind, val_bind, val_bind, contentLines_onScreen, contentBuffer_onScreen,
    screen_onScreen, hbuffer]
  obtain ⟨hrow, hsame⟩ := headerLine_spec (s := (onScreen (onScreen s
    (.setPosition 0 0)).val (.setColor 15 1)).val) rfl rfl rfl
  exact ⟨hrow, rfl, hsame⟩

/-- STEP: exactly the quiet calls leave the header and show their text. -/
theorem Headed.step_iff {start s : Content} (h : Headed start s)
    (hheader : ∀ col : ℤ, 0 ≤ col ∧ col < 80 → InColor 0x1F (start.screen.buffer col)) {call : UiCall}
    (hcall : call.HasLines) :
    SameRow start (call.run s).val ∧ call.Shown (call.run s).val.screen ↔
      call.Quiet start.contentLines := by
  constructor
  · rintro ⟨hsame, _⟩
    by_contra hloud
    obtain ⟨col, hcol, hgrey⟩ :=
      marks_row h.color h.nonneg h.buffer hcall ((h.quiet_iff call).not.mpr hloud)
    rw [hsame col hcol] at hgrey
    exact absurd (hgrey.unique (hheader col hcol)) (by decide)
  · intro hquiet
    obtain ⟨hnext, hshown⟩ := h.quiet hquiet
    exact ⟨hnext.row, hshown⟩

/-- EXACT, over runs: the header survives and each printed text is shown, exactly when no call has
    anything to draw. -/
theorem header_survives_iff {s : Content} (hnonneg : 0 ≤ s.contentLines) (hbuffer : Within IsShown s)
    {calls : List UiCall} (hcalls : ∀ call ∈ calls, call.HasLines) :
    Run.Along uiStep (fun s' call => SameRow (uiDrawHeader s).val (uiStep s' call).1 ∧
        call.Shown (uiStep s' call).1.screen) (uiDrawHeader s).val calls ↔
      ∀ call ∈ calls, call.Quiet s.contentLines := by
  obtain ⟨hheader, hcolor, hlines, hsame⟩ := uiDrawHeader_spec s
  have hstart : Headed (uiDrawHeader s).val (uiDrawHeader s).val := by
    refine ⟨fun _ _ => rfl, hcolor, by rw [hlines]; exact hnonneg, fun k hk hk' => ?_, Iff.rfl⟩
    rw [hsame]
    exact hbuffer k hk hk'
  have hexact : Run.Along uiStep (fun s' call => call.HasLines ∧
        SameRow (uiDrawHeader s).val (uiStep s' call).1 ∧ call.Shown (uiStep s' call).1.screen)
          (uiDrawHeader s).val calls ↔
      Run.Along uiStep (fun _ call => call.HasLines ∧ call.Quiet (uiDrawHeader s).val.contentLines)
        (uiDrawHeader s).val calls :=
    Run.along_congr (I := Headed (uiDrawHeader s).val)
      (fun s' call h hquiet => (h.quiet hquiet.2).1)
      (fun s' call h => and_congr_right fun hcall => h.step_iff hheader hcall) calls _ hstart
  rw [Run.along_and_iff, and_iff_right hcalls, Run.along_and_iff, and_iff_right hcalls,
    Run.along_iff_forall_mem, hlines] at hexact
  exact hexact

/-- The header stays over a start of the interface, some empty lines and what has nothing to scroll. -/
theorem header_survives_scroll :
    let s := staticContent (staticScreen fun _ => 0)
    Run.Along uiStep (fun s' call => SameRow (uiDrawHeader s).val (uiStep s' call).1 ∧
      call.Shown (uiStep s' call).1.screen) (uiDrawHeader s).val
      [.init, .printContent (some []), .scrollContent, .printContent none, .printContent (some []),
        .printContent (some []), .scrollContent, .init, .printContent (some [])] :=
  (header_survives_iff (le_refl 0) (fun _ _ _ => .inl rfl)
    (by simp [UiCall.HasLines, IsLine])).mpr (by simp [UiCall.Quiet, staticContent, contentRows])

/-- A text of one character is drawn over the header. -/
theorem text_over_header :
    let s := staticContent (staticScreen fun _ => 0)
    ¬Run.Along uiStep (fun s' call => SameRow (uiDrawHeader s).val (uiStep s' call).1 ∧
      call.Shown (uiStep s' call).1.screen) (uiDrawHeader s).val [.printContent (some [0x78])] := by
  intro s
  obtain ⟨hheader, hcolor, hlines, hsame⟩ := uiDrawHeader_spec s
  rintro ⟨⟨hrow, _⟩, _⟩
  obtain ⟨col, hcol, hgrey⟩ : ∃ col : ℤ, (0 ≤ col ∧ col < 80) ∧ InColor 7
      ((UiCall.run (uiDrawHeader s).val (.printContent (some [0x78]))).val.screen.buffer col) :=
    marks_row hcolor (by rw [hlines]; exact le_refl 0) (fun k _ _ => .inl (by rw [hsame]; rfl))
      ⟨by simp [Printable], by decide⟩ (fun hquiet => absurd hquiet.1 (by decide))
  rw [uiStep_fst] at hrow
  rw [hrow col hcol] at hgrey
  exact absurd (hgrey.unique (hheader col hcol)) (by decide)

end VlsOs.Ui
