import VlsOs.Shell.Commands

/-! What the text interface puts on the screen (`cmd_ui` of `net/netcmd.c`, with `ui/ui.c`).

    `ui on` clears the screen and draws a header, the prompt, the header again with the state of the
    network, a line of the content area and the prompt once more. As long as the line counter is a row
    of the area nothing scrolls, so that the characters are the same whatever stood there before.

        VlsOs OS ⋯⋯  vlsos>  VlsOs[NET DOWN]  Enhanced UI enabled  vlsos>  -/

namespace VlsOs.Shell
open Patterns.Trace VlsOs.Libc VlsOs.Net VlsOs.Ui

/-! ### Characters -/

/-- The characters that functions of `ui/ui.c` put on the screen. -/
def drawnBy {α : Type} (x : Traced UiEvent α) : List UInt8 := shownBy (relabel .ui x)

section Drawn
variable {α β : Type}

theorem drawnBy_eq (x : Traced UiEvent α) : drawnBy x = shownBy (relabel .ui x) := rfl

@[simp] theorem drawnBy_pure (a : α) : drawnBy (pure a) = [] := rfl

@[simp] theorem drawnBy_bind (x : Traced UiEvent α) (f : α → Traced UiEvent β) :
    drawnBy (x >>= f) = drawnBy x ++ drawnBy (f x.val) := by
  simp [drawnBy, shownBy, relabel]

@[simp] theorem drawnBy_onScreen (s : Content) (op : Vga.VgaOp) :
    drawnBy (onScreen s op) = characters op := List.append_nil _

@[simp] theorem drawnBy_setContent (s : Content) (index : ℤ) (c : UInt8) :
    drawnBy (setContent s index c) = [] := rfl

theorem drawnBy_blanks (n : ℕ) (s : Content) :
    drawnBy (loop (fun _ s => onScreen s (.writeChar 0x20)) n s) = List.replicate n 0x20 := by
  induction n with
  | zero => rfl
  | succ n ih =>
    rw [loop, drawnBy_bind, ih, List.replicate_succ']
    simp [characters]

theorem drawnBy_printLoop {t : List UInt8} (ht : 0 ∉ t) : ∀ {col : ℕ} (s : Content),
    col + t.length ≤ 80 → drawnBy (printLoop t col s) = t := by
  induction t with
  | nil => exact fun _ _ => rfl
  | cons c t ih =>
    intro col s hcol
    rw [List.length_cons] at hcol
    have hgo : ¬(c = 0 ∨ col ≥ 80) := by
      rintro (rfl | hwide)
      · exact ht List.mem_cons_self
      · omega
    rw [printLoop, if_neg hgo]
    simp [ih (fun hmem => ht (List.mem_cons_of_mem _ hmem)) _ (show col + 1 + t.length ≤ 80 by omega),
      characters]

end Drawn

/-! ### The functions of `ui/ui.c` -/

section
variable {s : Content} {n : ℤ}

theorem leaves_uiDrawHeader (h : s.contentLines = n) : Leaves n (uiDrawHeader s) := by
  refine (leaves_onScreen h _).bind fun s hs => (leaves_onScreen hs _).bind fun s hs => ?_
  refine Leaves.bind (m := n) ?_ fun s hs => leaves_onScreen hs _
  exact (leaves_onScreen hs _).bind fun s hs =>
    leaves_loop (fun _ s _ hs => leaves_onScreen hs _) hs

theorem leaves_uiDrawFooter (h : s.contentLines = n) (prompt : List UInt8) :
    Leaves n (uiDrawFooter s (some prompt)) :=
  (leaves_onScreen h _).bind fun _ hs => (leaves_onScreen hs _).bind fun _ hs =>
    (leaves_onScreen hs _).bind fun _ hs => leaves_onScreen hs _

theorem leaves_uiUpdateHeader (net : NetState) (h : s.contentLines = n) :
    Leaves n (uiUpdateHeader net s) :=
  (leaves_onScreen h _).bind fun _ hs => (leaves_onScreen hs _).bind fun _ hs =>
    (leaves_onScreen hs _).bind fun _ hs => (leaves_onScreen hs _).bind fun _ hs =>
      (leaves_onScreen hs _).bind fun _ hs => leaves_onScreen hs _

theorem drawnBy_uiDrawHeader (s : Content) :
    drawnBy (uiDrawHeader s) = chars "VlsOs OS" ++ List.replicate 72 0x20 := by
  simp (disch := decide) [uiDrawHeader, headerLine, characters, drawnBy_blanks, text_chars]

theorem drawnBy_uiDrawFooter (s : Content) :
    drawnBy (uiDrawFooter s (some (chars "vlsos> "))) = chars "vlsos> " := by
  simp (disch := decide) [uiDrawFooter, characters, text_chars]

/-- A text that is printed with room in the area. -/
theorem drawnBy_uiPrintContent (h : InRange s) {t : List UInt8} (ht : 0 ∉ t) (hlen : t.length ≤ 80) :
    drawnBy (uiPrintContent s (some t)) = t := by
  have hrows : (contentRows : ℤ) = 23 := rfl
  have hrow : ¬1 + s.contentLines ≥ 24 := by
    have hlt := h.2
    omega
  simp [uiPrintContent, if_neg hrow, characters,
    drawnBy_printLoop ht _ (show 0 + t.length ≤ 80 by omega)]

end

/-! ### `ui on` -/

/-- The header, the prompt, the header with the state of the network, and the prompt again. -/
def uiText : List UInt8 :=
  chars "VlsOs OS" ++ List.replicate 72 0x20 ++ chars "vlsos> " ++ chars "VlsOs" ++ chars "[NET DOWN]" ++
    chars "Enhanced UI enabled" ++ chars "vlsos> "

/-- `ui on`: the counter of the content area stays a row of it, and the characters are known. -/
theorem ui_on {net : NetState} (hnet : net.interfaces = none) {ui : UiState}
    (hui : InRange ui.content) :
    let x : Traced OsEvent (ℤ × UiState) := do
      let s ← relabel .ui (uiEnable ui)
      let content ← relabel .ui (uiUpdateHeader net s.content)
      let content ← relabel .ui (uiPrintContent content (some (chars "Enhanced UI enabled")))
      let content ← relabel .ui (uiDrawFooter content (some (chars "vlsos> ")))
      return (0, { s with content := content })
    InRange x.val.2.content ∧ shownBy x = uiText := by
  have henable : (uiEnable ui).val.content.contentLines = ui.content.contentLines := by
    have hclear := (leaves_onScreen (s := ui.content) rfl .clearScreen).1
    have hfooter := leaves_uiDrawFooter (leaves_uiDrawHeader hclear).1 (chars "vlsos> ")
    simp only [uiEnable, val_bind, val_pure]
    rw [hfooter.1]
  have hheader := (leaves_uiUpdateHeader net henable).1
  have hrange : InRange (uiUpdateHeader net (uiEnable ui).val.content).val := by
    rw [InRange, hheader]
    exact hui
  have hprint := leaves_uiPrintContent hrange (chars "Enhanced UI enabled")
  have hfooter := (leaves_uiDrawFooter hprint.1 (chars "vlsos> ")).1
  have htext := drawnBy_uiPrintContent hrange (t := chars "Enhanced UI enabled") (by decide) (by decide)
  have hdown : netGetInterface net eth0 = none := by rw [netGetInterface, hnet]; rfl
  have hstate : drawnBy (uiUpdateHeader net (uiEnable ui).val.content) =
      chars "VlsOs" ++ chars "[NET DOWN]" := by
    simp (disch := decide) [uiUpdateHeader, hdown, characters, text_chars]
  refine ⟨?_, ?_⟩
  · have hrows : (contentRows : ℤ) = 23 := rfl
    have hnonneg := hrange.1
    simp only [val_bind, val_relabel, val_pure, InRange]
    rw [hfooter]
    omega
  · simp only [shownBy_bind, val_relabel, ← drawnBy_eq, shownBy_pure, List.append_nil]
    rw [htext, hstate, drawnBy_uiDrawFooter, uiText]
    simp [uiEnable, characters, drawnBy_uiDrawHeader, drawnBy_uiDrawFooter]

end VlsOs.Shell
