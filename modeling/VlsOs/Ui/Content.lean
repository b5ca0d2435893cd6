import VlsOs.Kernel.Vga

/-! The content area of the text interface (`ui/ui.c`).

    Between a header row and a footer row the screen has 23 rows for content. What is printed there
    is also kept, row by row, in `content_buffer`; `content_lines` is the row the next text goes to.
    The counter is set in four functions: it is reset, counted up below a cap, taken from the caller,
    and left alone.

        content_buffer   row 0  ┌────────────────┐
                                │                │
          content_lines ──▶     │                │  80 characters a row
                         row 22 └────────────────┘ -/

namespace VlsOs.Ui
open Patterns Patterns.Trace Vga

/-! ### State -/

/-- `UI_CONTENT_ROWS`. -/
def contentRows : ℕ := 23

/-- The screen, `content_buffer` and `content_lines`. An `int` is an integer: while the counter is
    below `contentRows` nothing comes near its ends. An index outside of the buffer has a cell of its
    own here. In the kernel it is some other variable, `content_lines` first of all, so that a run is
    followed up to its first access outside of the buffer and no further. -/
structure Content where
  screen : Screen
  contentBuffer : ℤ → UInt8
  contentLines : ℤ

/-- The static variables as the loader leaves them. -/
def staticContent (screen : Screen) : Content := ⟨screen, fun _ => 0, 0⟩

/-- What a call does to the machine: the calls of the screen driver, and indices of `content_buffer`. -/
inductive UiEvent
  | draw (op : VgaOp)
  | access (index : ℤ)

/-- A call of the screen driver. -/
def onScreen (s : Content) (op : VgaOp) : Traced UiEvent Content := do
  emit (.draw op)
  return { s with screen := (op.run s.screen).val }

@[simp] theorem screen_onScreen (s : Content) (op : VgaOp) :
    (onScreen s op).val.screen = (op.run s.screen).val := rfl

@[simp] theorem contentLines_onScreen (s : Content) (op : VgaOp) :
    (onScreen s op).val.contentLines = s.contentLines := rfl

@[simp] theorem contentBuffer_onScreen (s : Content) (op : VgaOp) :
    (onScreen s op).val.contentBuffer = s.contentBuffer := rfl

/-- `content_buffer[index] = c`. -/
def setContent (s : Content) (index : ℤ) (c : UInt8) : Traced UiEvent Content := do
  emit (.access index)
  return { s with contentBuffer := Function.update s.contentBuffer index c }

/-! ### The calls -/

def uiInit (s : Content) : Traced UiEvent Content :=
  loop (fun i s => setContent s i 0) (contentRows * 80) s

/-- The header line: the title and the padding to the right edge. -/
def headerLine (s : Content) : Traced UiEvent Content := do
  let s ← onScreen s (.writeString (Libc.chars "VlsOs OS"))
  loop (fun _ s => onScreen s (.writeChar 0x20)) 72 s

def uiDrawHeader (s : Content) : Traced UiEvent Content := do
  let s ← onScreen s (.setPosition 0 0)
  let s ← onScreen s (.setColor 15 1)
  let s ← headerLine s
  onScreen s (.setColor 7 0)

/-- The loop over a row. The driver takes the row first and the column second. -/
def contentRow (cell : ℕ → Content → Traced UiEvent Content) (row : ℤ) (s : Content) :
    Traced UiEvent Content := do
  let s ← onScreen s (.setPosition 0 row)
  loop cell 80 s

/-- The loop over the rows from 1 on. -/
def forContent (cell : ℕ → ℕ → Content → Traced UiEvent Content) (s : Content) :
    Traced UiEvent Content :=
  loop (fun i => contentRow (cell i) (1 + i)) 23 s

def uiClearContent (s : Content) : Traced UiEvent Content := do
  let s ← forContent (fun _ _ s => onScreen s (.writeChar 0x20)) s
  let s ← onScreen s (.setPosition 0 1)
  return { s with contentLines := 0 }

/-- `content_buffer[i] = content_buffer[i + 80]`. -/
def shiftContent (i : ℕ) (s : Content) : Traced UiEvent Content := do
  emit (.access (i + 80))
  setContent s i (s.contentBuffer (i + 80))

/-- A character of the buffer goes to the screen, a blank for a zero. -/
def redrawContent (i col : ℕ) (s : Content) : Traced UiEvent Content := do
  emit (.access (i * 80 + col))
  let c := s.contentBuffer (i * 80 + col)
  onScreen s (.writeChar (if c = 0 then 0x20 else c))

def uiScrollContent (s : Content) : Traced UiEvent Content :=
  if s.contentLines < contentRows then return s
  else do
    let s ← loop shiftContent ((contentRows - 1) * 80) s
    let s ← loop (fun i s => setContent s ((contentRows - 1) * 80 + i) 0) 80 s
    forContent redrawContent s

/-- The loop of `ui_print_content` from column `col` on. -/
def printLoop : List UInt8 → ℕ → Content → Traced UiEvent Content
  | [], _, s => return s
  | c :: text, col, s =>
    if c = 0 ∨ col ≥ 80 then return s
    else do
      let s ← onScreen s (.writeChar c)
      let s ← setContent s (s.contentLines * 80 + col) c
      printLoop text (col + 1) s

def uiPrintContent (s : Content) : Option (List UInt8) → Traced UiEvent Content
  | none => return s
  | some text => do
    let row := 1 + s.contentLines
    let s ← if row ≥ 24 then uiScrollContent s else pure s
    let row := if row ≥ 24 then 23 else row
    let s ← onScreen s (.setPosition 0 row)
    let s ← onScreen s (.setColor 7 0)
    let s ← printLoop text 0 s
    let lines := s.contentLines + 1
    return { s with contentLines := if lines ≥ contentRows then contentRows - 1 else lines }

/-- One line of `ui_draw_content`. -/
def drawLine (lines : ℕ → Option (List UInt8)) (i : ℕ) (s : Content) : Traced UiEvent Content := do
  let s ← onScreen s (.setPosition 0 (1 + i))
  let s ← onScreen s (.setColor 7 0)
  match lines i with
  | some line => onScreen s (.writeString line)
  | none => return s

def uiDrawContent (s : Content) (lines : ℕ → Option (List UInt8)) (lineCount : ℤ) :
    Traced UiEvent Content := do
  let s ← uiClearContent s
  let s ← loop (drawLine lines) (min lineCount.toNat contentRows) s
  return { s with contentLines := lineCount }

inductive UiCall where
  | init
  | clearContent
  | printContent (text : Option (List UInt8))
  | scrollContent
  | drawContent (lines : ℕ → Option (List UInt8)) (lineCount : ℤ)

def UiCall.run (s : Content) : UiCall → Traced UiEvent Content
  | .init => uiInit s
  | .clearContent => uiClearContent s
  | .printContent text => uiPrintContent s text
  | .scrollContent => uiScrollContent s
  | .drawContent lines lineCount => uiDrawContent s lines lineCount

/-- One call: the state after it, and what it did. -/
def uiStep (s : Content) (call : UiCall) : Content × List UiEvent :=
  ((call.run s).val, (call.run s).events)

theorem uiStep_fst (s : Content) (call : UiCall) : (uiStep s call).1 = (call.run s).val := rfl

/-! ### Indices -/

/-- The event keeps to the characters of `content_buffer`. -/
def UiEvent.InBuffer : UiEvent → Prop
  | .draw _ => True
  | .access index => 0 ≤ index ∧ index < contentRows * 80

/-- The line counter is a row of the buffer. -/
def InRange (s : Content) : Prop := 0 ≤ s.contentLines ∧ s.contentLines < contentRows

/-- The computation keeps to the buffer and ends with `n` as the line counter. -/
def Leaves (n : ℤ) (x : Traced UiEvent Content) : Prop :=
  x.val.contentLines = n ∧ All UiEvent.InBuffer x

section Leaves
variable {n : ℤ} {s : Content}

theorem leaves_pure (h : s.contentLines = n) : Leaves n (pure s) := ⟨h, all_pure _ s⟩

theorem leaves_onScreen (h : s.contentLines = n) (op : VgaOp) : Leaves n (onScreen s op) :=
  ⟨h, all_bind.mpr ⟨all_emit.mpr trivial, all_pure _ _⟩⟩

theorem leaves_setContent (h : s.contentLines = n) {index : ℤ} (c : UInt8)
    (hindex : 0 ≤ index ∧ index < contentRows * 80) : Leaves n (setContent s index c) := by
  refine ⟨h, ?_⟩
  simpa [setContent, UiEvent.InBuffer] using hindex

theorem leaves_access {x : Traced UiEvent Content} (hx : Leaves n x) {index : ℤ}
    (hindex : 0 ≤ index ∧ index < contentRows * 80) :
    Leaves n (do emit (.access index); x) := by
  refine ⟨hx.1, ?_⟩
  rw [all_bind, all_emit]
  exact ⟨hindex, hx.2⟩

/-- SEQUENCE. -/
theorem Leaves.bind {x : Traced UiEvent Content} {f : Content → Traced UiEvent Content} {m : ℤ}
    (hx : Leaves m x) (hf : ∀ s, s.contentLines = m → Leaves n (f s)) : Leaves n (x >>= f) := by
  obtain ⟨hval, hall⟩ := hf _ hx.1
  exact ⟨hval, all_bind.mpr ⟨hx.2, hall⟩⟩

/-- LOOP: a body that leaves the counter alone. -/
theorem leaves_loop {body : ℕ → Content → Traced UiEvent Content} {turns : ℕ}
    (hbody : ∀ i s, i < turns → s.contentLines = n → Leaves n (body i s)) (h : s.contentLines = n) :
    Leaves n (loop body turns s) :=
  loop_rule (I := fun _ (s : Content) => s.contentLines = n) hbody h

theorem leaves_forContent {cell : ℕ → ℕ → Content → Traced UiEvent Content}
    (hcell : ∀ i col s, i < 23 → col < 80 → s.contentLines = n → Leaves n (cell i col s))
    (h : s.contentLines = n) : Leaves n (forContent cell s) := by
  refine leaves_loop (fun i s hi hs => (leaves_onScreen hs _).bind fun s hs => ?_) h
  exact leaves_loop (fun col s hcol hs => hcell i col s hi hcol hs) hs

theorem leaves_uiInit (h : s.contentLines = n) : Leaves n (uiInit s) := by
  refine leaves_loop (fun i s hi hs => leaves_setContent hs 0 ?_) h
  omega

theorem leaves_uiClearContent : Leaves 0 (uiClearContent s) := by
  refine (leaves_forContent (fun _ _ s _ _ hs => leaves_onScreen hs _) rfl).bind fun s hs => ?_
  exact (leaves_onScreen hs _).bind fun s _ => leaves_pure rfl

theorem leaves_uiScrollContent (h : s.contentLines = n) : Leaves n (uiScrollContent s) := by
  have hrows : (contentRows : ℤ) = 23 := rfl
  unfold uiScrollContent
  split
  · exact leaves_pure h
  · have hshift (i : ℕ) (s : Content) (hi : i < (contentRows - 1) * 80) (hs : s.contentLines = n) :
        Leaves n (shiftContent i s) :=
      leaves_access (leaves_setContent hs _ (by omega)) (by omega)
    have hzero (i : ℕ) (s : Content) (hi : i < 80) (hs : s.contentLines = n) :
        Leaves n (setContent s ((contentRows - 1) * 80 + i) 0) :=
      leaves_setContent hs 0 (by omega)
    have hredraw (i col : ℕ) (s : Content) (hi : i < 23) (hcol : col < 80)
        (hs : s.contentLines = n) : Leaves n (redrawContent i col s) :=
      leaves_access (leaves_onScreen hs _) (by omega)
    refine (leaves_loop hshift h).bind fun s hs => (leaves_loop hzero hs).bind fun s hs => ?_
    exact leaves_forContent hredraw hs

/-- The text of a line that is a row of the buffer stays in that row. -/
theorem leaves_printLoop (hn : 0 ≤ n ∧ n < contentRows) (text : List UInt8) : ∀ (col : ℕ) {s : Content},
    s.contentLines = n → Leaves n (printLoop text col s) := by
  induction text with
  | nil =>
    intro col s h
    exact leaves_pure h
  | cons c text ih =>
    intro col s h
    rw [printLoop]
    split
    · exact leaves_pure h
    · rename_i hgo
      refine (leaves_onScreen h _).bind fun s hs => ?_
      refine (leaves_setContent hs c ?_).bind fun s hs => ih (col + 1) hs
      rw [hs]
      omega

/-- A printed text moves the counter on by one, up to the last row. -/
theorem leaves_uiPrintContent (h : InRange s) (text : List UInt8) :
    Leaves (min (s.contentLines + 1) (contentRows - 1)) (uiPrintContent s (some text)) := by
  have hlast : (contentRows : ℤ) = 23 := rfl
  have hrow : ¬ 1 + s.contentLines ≥ 24 := by
    have hlt := h.2
    omega
  simp only [uiPrintContent, if_neg hrow]
  refine (leaves_pure rfl).bind fun s' hs => ?_
  refine (leaves_onScreen hs _).bind fun s' hs => (leaves_onScreen hs _).bind fun s' hs => ?_
  refine (leaves_printLoop h text 0 hs).bind fun s' hs => leaves_pure ?_
  rw [hs]
  dsimp only
  split <;> omega

theorem leaves_uiDrawContent (lines : ℕ → Option (List UInt8)) :
    Leaves n (uiDrawContent s lines n) := by
  have hline (i : ℕ) (s : Content) (hs : s.contentLines = 0) : Leaves 0 (drawLine lines i s) := by
    refine (leaves_onScreen hs _).bind fun s hs => (leaves_onScreen hs _).bind fun s hs => ?_
    cases lines i with
    | none => exact leaves_pure hs
    | some line => exact leaves_onScreen hs _
  refine leaves_uiClearContent.bind fun s hs => ?_
  exact (leaves_loop (fun i s _ hs => hline i s hs) hs).bind fun s _ => leaves_pure rfl

end Leaves

/-! ### Runs -/

/-- A list of lines that is drawn leaves room for the next one. -/
def UiCall.CountFits : UiCall → Prop
  | .drawContent _ lineCount => 0 ≤ lineCount ∧ lineCount < contentRows
  | _ => True

/-- STEP: from a counter in range every call keeps to the buffer, and the counter stays in range
    unless the call brings its own. -/
theorem run_inRange {s : Content} (h : InRange s) (call : UiCall) :
    (InRange (call.run s).val ↔ call.CountFits) ∧ All UiEvent.InBuffer (call.run s) := by
  have hrange {n : ℤ} {x : Traced UiEvent Content} (hx : Leaves n x) :
      InRange x.val ↔ 0 ≤ n ∧ n < contentRows := by
    rw [InRange, hx.1]
  have hrows : (contentRows : ℤ) = 23 := rfl
  cases call with
  | init =>
    have hinit := leaves_uiInit (s := s) rfl
    exact ⟨(hrange hinit).trans (iff_of_true h trivial), hinit.2⟩
  | clearContent =>
    have hclear := leaves_uiClearContent (s := s)
    exact ⟨(hrange hclear).trans (iff_of_true ⟨le_refl 0, by omega⟩ trivial), hclear.2⟩
  | printContent text =>
    cases text with
    | none => exact ⟨iff_of_true h trivial, all_pure _ s⟩
    | some text =>
      have hprint := leaves_uiPrintContent h text
      have hnext : 0 ≤ min (s.contentLines + 1) (contentRows - 1) ∧
          min (s.contentLines + 1) (contentRows - 1 : ℤ) < contentRows := by
        have hnonneg := h.1
        omega
      exact ⟨(hrange hprint).trans (iff_of_true hnext trivial), hprint.2⟩
  | scrollContent =>
    have hscroll := leaves_uiScrollContent (s := s) rfl
    exact ⟨(hrange hscroll).trans (iff_of_true h trivial), hscroll.2⟩
  | drawContent lines lineCount =>
    have hdraw := leaves_uiDrawContent (n := lineCount) (s := s) lines
    exact ⟨hrange hdraw, hdraw.2⟩

/-- RUN: from a counter in range, it stays so and no call leaves the buffer, exactly when no list of
    23 lines or more is drawn. -/
theorem stays_inRange_iff {s : Content} (h : InRange s) (calls : List UiCall) :
    (Run.Always uiStep InRange s calls ∧
        ∀ events ∈ Run.outs uiStep s calls, ∀ e ∈ events, e.InBuffer) ↔
      ∀ call ∈ calls, call.CountFits := by
  have hexact : Run.Always uiStep InRange s calls ↔ ∀ call ∈ calls, call.CountFits :=
    (Run.always_iff_along (I := fun _ => True) (P := InRange) (fun _ _ _ => trivial)
      (fun s call _ h => (run_inRange h call).1) calls s trivial h).trans
      (Run.along_iff_forall_mem calls _)
  rw [← hexact]
  refine and_iff_left_of_imp fun halways => ?_
  exact Run.outs_of_always (P := InRange) (fun s call h => (run_inRange h call).2) calls _ halways

/-- EXACT: from the static variables on, the line counter is always a row of the buffer and no call
    leaves the buffer, exactly when no list of 23 lines or more is drawn. -/
theorem content_stays_in_range_iff (screen : Screen) (calls : List UiCall) :
    (Run.Always uiStep InRange (staticContent screen) calls ∧
        ∀ events ∈ Run.outs uiStep (staticContent screen) calls, ∀ e ∈ events, e.InBuffer) ↔
      ∀ call ∈ calls, call.CountFits :=
  stays_inRange_iff ⟨le_refl 0, Int.natCast_pos.mpr (by decide)⟩ calls

/-- Twenty-three lines drawn at once fill the area and put the counter behind its last row. -/
theorem full_draw_leaves_range :
    let start := staticContent (staticScreen fun _ => 0)
    let calls : List UiCall := [.drawContent (fun _ => none) 23, .printContent (some [0x78])]
    ¬(Run.Always uiStep InRange start calls ∧
      ∀ events ∈ Run.outs uiStep start calls, ∀ e ∈ events, e.InBuffer) := by
  intro start calls
  rintro ⟨⟨_, hdrawn, _⟩, _⟩
  exact absurd hdrawn.2 (lt_irrefl _)

end VlsOs.Ui
