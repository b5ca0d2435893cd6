import VlsOs.Ui.Content

/-! What `content_buffer` keeps of the texts that are printed.

    The first 22 texts get a row each. The counter then stays at row 22, below the bound at which the
    area scrolls: every later text is written over row 22, and where it is shorter than one before it
    the end of that one stays. A counter that a long list of lines has left behind row 22 sends the
    next text outside of the buffer.

        placed    t₀  t₁  …  t₂₁ │ t₂₂  t₂₃  …
        rows      0   1   …  21  │ 22, one over the other -/

namespace VlsOs.Ui
open Patterns Patterns.Trace Vga

/-! ### Texts in rows -/

/-- A row after a text has been written over it. -/
def written (row : ℕ → UInt8) (text : List UInt8) (col : ℕ) : UInt8 := text[col]?.getD (row col)

/-- What stands in row `i` after the texts of `placed`. -/
def rowOf (placed : List (List UInt8)) (i : ℕ) : ℕ → UInt8 :=
  if i < 22 then written (fun _ => 0) (placed.getD i [])
  else (placed.drop 22).foldl written fun _ => 0

/-- A string as C has it, of a width of the screen at most. -/
def FitsRow (text : List UInt8) : Prop := 0 ∉ text ∧ text.length ≤ 80

instance (text : List UInt8) : Decidable (FitsRow text) :=
  inferInstanceAs (Decidable (0 ∉ text ∧ text.length ≤ 80))

theorem written_of_le {row : ℕ → UInt8} {text : List UInt8} {col : ℕ} (h : text.length ≤ col) :
    written row text col = row col := by
  rw [written, List.getElem?_eq_none h, Option.getD_none]

theorem written_of_lt {row : ℕ → UInt8} {text : List UInt8} {col : ℕ} (h : col < text.length) :
    written row text col = text[col] := by
  rw [written, List.getElem?_eq_getElem h, Option.getD_some]

/-- Where the text is, the row is not zero. -/
theorem written_eq_zero {row : ℕ → UInt8} {text : List UInt8} (htext : 0 ∉ text) {col : ℕ} :
    written row text col = 0 ↔ text.length ≤ col ∧ row col = 0 := by
  rcases Nat.lt_or_ge col text.length with hlt | hge
  · rw [written_of_lt hlt]
    refine iff_of_false (fun hzero => htext ?_) fun h => absurd hlt (Nat.not_lt.mpr h.1)
    exact hzero ▸ List.getElem_mem hlt
  · rw [written_of_le hge]
    exact (and_iff_right hge).symm

/-- A row with zeros behind its text determines the text. -/
theorem eq_of_written {a b : List UInt8} (ha : FitsRow a) (hb : FitsRow b)
    (h : ∀ col < 80, written (fun _ => 0) a col = written (fun _ => 0) b col) : a = b := by
  have hshorter {a b : List UInt8} (ha : FitsRow a) (hb : FitsRow b)
      (h : ∀ col < 80, written (fun _ => 0) a col = written (fun _ => 0) b col) :
      a.length ≤ b.length := by
    by_contra hlong
    have hcol : b.length < 80 := by
      have hle := ha.2
      omega
    have hzero := (h _ hcol).trans (written_of_le (le_refl _))
    exact hlong ((written_eq_zero ha.1).mp hzero).1
  have hlen : a.length = b.length :=
    le_antisymm (hshorter ha hb h) (hshorter hb ha fun col hcol => (h col hcol).symm)
  refine List.ext_getElem hlen fun col hcol hcol' => ?_
  have hcell := h col (lt_of_lt_of_le hcol ha.2)
  rwa [written_of_lt hcol, written_of_lt hcol'] at hcell

/-- Of texts written one over the other a column shows nothing if none of them reaches it. -/
theorem foldl_written_eq_zero {texts : List (List UInt8)} (htexts : ∀ t ∈ texts, 0 ∉ t) (col : ℕ) :
    ∀ row : ℕ → UInt8, texts.foldl written row col = 0 ↔
      row col = 0 ∧ ∀ t ∈ texts, t.length ≤ col := by
  induction texts with
  | nil => simp
  | cons t texts ih =>
    intro row
    rw [List.foldl_cons, ih (fun t ht => htexts t (List.mem_cons_of_mem _ ht)),
      written_eq_zero (htexts t List.mem_cons_self), List.forall_mem_cons]
    tauto

/-- The last of several texts stands alone exactly when it covers all of them. -/
theorem foldl_written_concat_iff {texts : List (List UInt8)} {last : List UInt8}
    (htexts : ∀ t ∈ texts, FitsRow t) :
    (∀ col < 80, (texts ++ [last]).foldl written (fun _ => 0) col = written (fun _ => 0) last col) ↔
      ∀ t ∈ texts, t.length ≤ last.length := by
  have hnul : ∀ t ∈ texts, 0 ∉ t := fun t ht => (htexts t ht).1
  rw [List.foldl_append, List.foldl_cons, List.foldl_nil]
  constructor
  · intro h t ht
    by_contra hlong
    have hcol : last.length < 80 := by
      have hle := (htexts t ht).2
      omega
    have hcell := h _ hcol
    rw [written_of_le (le_refl _), written_of_le (le_refl _)] at hcell
    exact hlong (((foldl_written_eq_zero hnul _ _).mp hcell).2 t ht)
  · intro h col _
    rcases Nat.lt_or_ge col last.length with hlt | hge
    · rw [written_of_lt hlt, written_of_lt hlt]
    · rw [written_of_le hge, written_of_le hge]
      exact (foldl_written_eq_zero hnul _ _).mpr ⟨rfl, fun t ht => (h t ht).trans hge⟩

/-! ### What a call writes -/

/-- SPEC of the loop: the text goes to the buffer from the current place on. -/
theorem printLoop_buffer {text : List UInt8} (htext : 0 ∉ text) : ∀ {col : ℕ},
    col + text.length ≤ 80 → ∀ s : Content,
      (printLoop text col s).val.contentLines = s.contentLines ∧
      ∀ k : ℤ, (printLoop text col s).val.contentBuffer k =
        if k < s.contentLines * 80 + col then s.contentBuffer k
        else text[(k - (s.contentLines * 80 + col)).toNat]?.getD (s.contentBuffer k) := by
  induction text with
  | nil =>
    intro col _ s
    refine ⟨rfl, fun k => ?_⟩
    simp [printLoop]
  | cons c text ih =>
    intro col hcol s
    rw [List.length_cons] at hcol
    rw [List.mem_cons, not_or] at htext
    obtain ⟨hc, htext⟩ := htext
    have hgo : ¬(c = 0 ∨ col ≥ 80) := by
      rintro (hzero | hfull)
      · exact hc hzero.symm
      · omega
    rw [printLoop, if_neg hgo]
    obtain ⟨hlines, hbuffer⟩ := ih htext (show col + 1 + text.length ≤ 80 by omega)
      (setContent (onScreen s (.writeChar c)).val
        (s.contentLines * 80 + col) c).val
    refine ⟨hlines, fun k => (hbuffer k).trans ?_⟩
    simp only [setContent, val_bind, val_pure, contentLines_onScreen, contentBuffer_onScreen,
      Nat.cast_add, Nat.cast_one]
    rcases lt_trichotomy k (s.contentLines * 80 + col) with hlt | heq | hgt
    · rw [if_pos (by omega), if_pos hlt, Function.update_of_ne (by omega)]
    · rw [if_pos (by omega), if_neg (by omega), heq, Function.update_self, sub_self]
      rfl
    · rw [if_neg (by omega), if_neg (by omega), Function.update_of_ne (by omega)]
      rw [show (k - (s.contentLines * 80 + col)).toNat =
        (k - (s.contentLines * 80 + (col + 1))).toNat + 1 by omega, List.getElem?_cons_succ]

section Rows
variable {text : List UInt8} {s : Content} {i col : ℕ}

/-- … in the row of the counter … -/
theorem printLoop_here (htext : FitsRow text) (hcol : col < 80) (hrow : s.contentLines = i) :
    (printLoop text 0 s).val.contentBuffer (i * 80 + col) =
      written (fun col => s.contentBuffer (i * 80 + col)) text col := by
  obtain ⟨hnul, hlen⟩ := htext
  rw [(printLoop_buffer hnul (by omega) s).2, if_neg (by omega), hrow, Nat.cast_zero, add_zero,
    add_sub_cancel_left, Int.toNat_natCast]
  rfl

/-- … and in no other row. -/
theorem printLoop_elsewhere (htext : FitsRow text) (hcol : col < 80) (hrow : s.contentLines ≠ i) :
    (printLoop text 0 s).val.contentBuffer (i * 80 + col) = s.contentBuffer (i * 80 + col) := by
  obtain ⟨hnul, hlen⟩ := htext
  rw [(printLoop_buffer hnul (by omega) s).2]
  split_ifs with hbefore
  · rfl
  · -- a row behind that of the counter: the text ends before it
    rw [List.getElem?_eq_none (by omega), Option.getD_none]

end Rows

/-- All characters of the buffer are of a kind. -/
def Within (p : UInt8 → Prop) (s : Content) : Prop :=
  ∀ k : ℤ, 0 ≤ k → k < contentRows * 80 → p (s.contentBuffer k)

theorem blank_uiInit (s : Content) : Within (· = 0) (uiInit s).val := by
  refine loop_state (I := fun n (s : Content) => ∀ k : ℤ, 0 ≤ k → k < n → s.contentBuffer k = 0)
    (fun i s _ hs k hk hk' => ?_) (fun k hk hk' => by omega)
  simp only [setContent, val_bind, val_pure]
  rcases eq_or_ne k i with rfl | hne
  · rw [Function.update_self]
  · rw [Function.update_of_ne hne]
    exact hs k hk (by omega)

section Within
variable {p : UInt8 → Prop} {s : Content}

theorem Within.setContent (h : Within p s) (index : ℤ) {c : UInt8} (hc : p c) :
    Within p (Ui.setContent s index c).val := by
  intro k hk hk'
  simp only [Ui.setContent, val_bind, val_pure]
  rcases eq_or_ne k index with rfl | hne
  · rwa [Function.update_self]
  · rw [Function.update_of_ne hne]
    exact h k hk hk'

theorem Within.loop {body : ℕ → Content → Traced UiEvent Content} {turns : ℕ} (h : Within p s)
    (hbody : ∀ i s, i < turns → Within p s → Within p (body i s).val) :
    Within p (Trace.loop body turns s).val :=
  loop_state (I := fun _ => Within p) hbody h

/-- What the first two loops of scrolling do to the buffer: nothing but a zero comes in. -/
theorem Within.shifted (h : Within p s) (hzero : p 0) :
    Within p (Trace.loop (fun i s => Ui.setContent s ((contentRows - 1) * 80 + i) 0) 80
      (Trace.loop shiftContent ((contentRows - 1) * 80) s).val).val := by
  refine Within.loop (h.loop fun i s hi hs => ?_) fun i s _ hs => hs.setContent _ hzero
  have hrows : contentRows = 23 := rfl
  rw [shiftContent, val_bind]
  exact hs.setContent _ (hs _ (by omega) (by omega))

theorem Within.onScreen (h : Within p s) (op : VgaOp) : Within p (Ui.onScreen s op).val := h

theorem Within.redraw (h : Within p s) (i col : ℕ) : Within p (redrawContent i col s).val := by
  rw [redrawContent, val_bind]
  exact h.onScreen _

theorem Within.scroll (h : Within p s) (hzero : p 0) : Within p (uiScrollContent s).val := by
  unfold uiScrollContent
  split
  · exact h
  · rw [val_bind, val_bind]
    refine (h.shifted hzero).loop fun i s _ hs => ?_
    rw [contentRow, val_bind]
    exact (hs.onScreen _).loop fun col s _ hs => hs.redraw i col

end Within

theorem uiScrollContent_idle {s : Content} (h : s.contentLines < contentRows) :
    uiScrollContent s = pure s := if_pos h

/-- Printing scrolls in any case: with room in the area that does nothing. -/
theorem uiPrintContent_eq (s : Content) (text : List UInt8) :
    uiPrintContent s (some text) = do
      let s' ← uiScrollContent s
      let s' ← onScreen s' (.setPosition 0 (min (1 + s.contentLines) 23))
      let s' ← onScreen s' (.setColor 7 0)
      let s' ← printLoop text 0 s'
      let lines := s'.contentLines + 1
      return { s' with contentLines := if lines ≥ contentRows then contentRows - 1 else lines } := by
  have hrows : (contentRows : ℤ) = 23 := rfl
  by_cases hrow : 1 + s.contentLines ≥ 24
  · rw [min_eq_right (by omega)]
    simp only [uiPrintContent, if_pos hrow]
  · rw [min_eq_left (by omega), uiScrollContent_idle (by omega)]
    simp only [uiPrintContent, if_neg hrow]

/-- SPEC of printing: a text is written where the counter is, after the area has scrolled if it was
    full, and the counter moves on by one unless it is in the last row. -/
theorem uiPrintContent_spec (s : Content) {text : List UInt8} (htext : FitsRow text) :
    ∃ s' : Content, s'.contentLines = s.contentLines ∧
      s'.contentBuffer = (uiScrollContent s).val.contentBuffer ∧
      (uiPrintContent s (some text)).val.contentBuffer = (printLoop text 0 s').val.contentBuffer ∧
      (uiPrintContent s (some text)).val.contentLines = min (s.contentLines + 1) 22 := by
  have hrows : (contentRows : ℤ) = 23 := rfl
  have hscroll : (uiScrollContent s).val.contentLines = s.contentLines :=
    (leaves_uiScrollContent rfl).1
  rw [uiPrintContent_eq, val_bind, val_bind, val_bind, val_bind]
  refine ⟨_, ?_, ?_, rfl, ?_⟩
  · exact hscroll
  · rfl
  · dsimp only [val_pure]
    rw [(printLoop_buffer htext.1 (by rw [zero_add]; exact htext.2) _).1]
    change (if (uiScrollContent s).val.contentLines + 1 ≥ contentRows then (contentRows : ℤ) - 1
      else (uiScrollContent s).val.contentLines + 1) = min (s.contentLines + 1) 22
    rw [hscroll]
    split <;> omega

/-! ### The texts of a run -/

/-- INVARIANT: the rows hold the texts of `placed`, and the counter is where the next one goes. -/
structure Holds (placed : List (List UInt8)) (s : Content) : Prop where
  lines : s.contentLines = min placed.length 22
  rows : ∀ i < contentRows, ∀ col < 80, s.contentBuffer (i * 80 + col : ℕ) = rowOf placed i col

/-- A text that is placed gets its row, or goes over row 22. -/
theorem rowOf_concat (placed : List (List UInt8)) (text : List UInt8) {i : ℕ} (hi : i < contentRows) :
    rowOf (placed ++ [text]) i =
      if min placed.length 22 = i then written (rowOf placed i) text else rowOf placed i := by
  have hrows : contentRows = 23 := rfl
  unfold rowOf
  rcases Nat.lt_or_ge i 22 with hlt | hge
  · simp only [if_pos hlt]
    split_ifs with hhere
    · rw [List.getD_append_right _ _ _ _ (by omega), List.getD_eq_default placed _ (by omega),
        show i - placed.length = 0 by omega]
      rfl
    · rcases Nat.lt_or_ge i placed.length with hin | hout
      · rw [List.getD_append _ _ _ _ hin]
      · rw [List.getD_eq_default placed _ hout, List.getD_eq_default _ _ (by simp; omega)]
  · simp only [if_neg (Nat.not_lt.mpr hge)]
    split_ifs with hhere
    · rw [List.drop_append_of_le_length (by omega), List.foldl_append]
      rfl
    · rw [List.drop_eq_nil_of_le (by simp; omega), List.drop_eq_nil_of_le (by omega)]

/-- STEP: a printed text is placed. -/
theorem Holds.print {placed : List (List UInt8)} {s : Content} (h : Holds placed s)
    {text : List UInt8} (htext : FitsRow text) :
    Holds (placed ++ [text]) (uiStep s (.printContent (some text))).1 := by
  obtain ⟨s', hlines', hbuffer, hprint, hnext⟩ := uiPrintContent_spec s htext
  have hlines := h.lines
  have hrows : (contentRows : ℤ) = 23 := rfl
  rw [uiScrollContent_idle (by omega), val_pure] at hbuffer
  refine ⟨?_, fun i hi col hcol => ?_⟩
  · refine hnext.trans ?_
    rw [hlines, List.length_append, List.length_singleton]
    omega
  · have hold := h.rows i hi col hcol
    rw [← hbuffer] at hold
    rw [rowOf_concat _ _ hi]
    refine (congrFun hprint _).trans ?_
    push_cast at hold ⊢
    by_cases hhere : s'.contentLines = i
    · rw [printLoop_here htext hcol hhere, if_pos (by omega), written, written, hold]
    · rw [printLoop_elsewhere htext hcol hhere, if_neg (by omega), hold]

/-- RUN: printed texts are placed one after the other. -/
theorem Holds.prints {texts : List (List UInt8)} (htexts : ∀ t ∈ texts, FitsRow t) :
    ∀ {placed : List (List UInt8)} {s : Content}, Holds placed s →
      Holds (placed ++ texts) (Run.after uiStep s (texts.map fun t => .printContent (some t))) := by
  induction texts with
  | nil =>
    intro placed s h
    rwa [List.append_nil]
  | cons t texts ih =>
    intro placed s h
    have hfirst := h.print (htexts t List.mem_cons_self)
    have hrest := ih (fun t ht => htexts t (List.mem_cons_of_mem _ ht)) hfirst
    rwa [List.append_assoc] at hrest

theorem rowOf_replicate (n i col : ℕ) : rowOf (List.replicate n []) i col = 0 := by
  have hempty (row : ℕ → UInt8) (k : ℕ) : (List.replicate k []).foldl written row = row := by
    induction k with
    | zero => rfl
    | succ k ih => exact ih
  unfold rowOf
  split
  · simp [written, List.getD]
  · rw [List.drop_replicate, hempty]

/-- A blank buffer holds as many empty texts as the counter says. -/
theorem Within.holds {s : Content} (h : Within (· = 0) s) {n : ℕ} (hn : n ≤ 22)
    (hlines : s.contentLines = n) : Holds (List.replicate n []) s := by
  refine ⟨?_, fun i hi col hcol => ?_⟩
  · rw [hlines, List.length_replicate, min_eq_left hn]
  · rw [rowOf_replicate]
    exact h _ (by omega) (by omega)

/-- With the counter behind the last row, a text leaves a blank buffer blank and the counter in the
    last row. -/
theorem Within.print {s : Content} (h : Within (· = 0) s) (hfull : s.contentLines ≥ contentRows)
    {text : List UInt8} (htext : FitsRow text) :
    Holds (List.replicate 22 []) (uiStep s (.printContent (some text))).1 := by
  obtain ⟨s', hlines', hbuffer, hprint, hnext⟩ := uiPrintContent_spec s htext
  have hrows : (contentRows : ℤ) = 23 := rfl
  refine Within.holds (fun k hk hk' => ?_) (le_refl 22) (hnext.trans (min_eq_right (by omega)))
  refine (congrFun hprint k).trans ?_
  rw [(printLoop_buffer htext.1 (by rw [zero_add]; exact htext.2) s').2, if_pos (by omega), hbuffer]
  exact h.scroll rfl k hk hk'

/-- The texts as they come to the rows: those above the counter count as empty, and a counter behind
    the last row loses the first text. -/
def placed (lines : ℤ) (texts : List (List UInt8)) : List (List UInt8) :=
  if lines < contentRows then List.replicate lines.toNat [] ++ texts
  else List.replicate 22 [] ++ texts.tail

/-- RUN: the buffer after `ui_init` and some texts. -/
theorem holds_placed {s : Content} (hs : 0 ≤ s.contentLines) {texts : List (List UInt8)}
    (htexts : ∀ t ∈ texts, FitsRow t) (hne : texts ≠ []) :
    Holds (placed s.contentLines texts)
      (Run.after uiStep s (.init :: texts.map fun t => .printContent (some t))) := by
  have hlines : (uiInit s).val.contentLines = s.contentLines := (leaves_uiInit rfl).1
  have hrows : (contentRows : ℤ) = 23 := rfl
  have hinit : UiCall.run s .init = uiInit s := rfl
  rw [Run.after_cons, uiStep_fst, hinit]
  unfold placed
  split
  · refine Holds.prints htexts ((blank_uiInit s).holds (by omega) ?_)
    rw [hlines, Int.toNat_of_nonneg hs]
  · obtain ⟨t, texts, rfl⟩ := List.exists_cons_of_ne_nil hne
    have hfirst := (blank_uiInit s).print (by omega) (htexts t List.mem_cons_self)
    rw [List.map_cons, Run.after_cons]
    exact hfirst.prints fun t ht => htexts t (List.mem_cons_of_mem _ ht)

theorem fitsRow_getD {texts : List (List UInt8)} (h : ∀ t ∈ texts, FitsRow t) (i : ℕ) :
    FitsRow (texts.getD i []) := by
  rcases Nat.lt_or_ge i texts.length with hlt | hge
  · rw [List.getD_eq_getElem _ _ hlt]
    exact h _ (List.getElem_mem hlt)
  · rw [List.getD_eq_default _ _ hge]
    exact ⟨List.not_mem_nil, Nat.zero_le _⟩

theorem fitsRow_placed {texts : List (List UInt8)} (h : ∀ t ∈ texts, FitsRow t) (lines : ℤ) :
    ∀ t ∈ placed lines texts, FitsRow t := by
  have hempty : FitsRow [] := ⟨List.not_mem_nil, Nat.zero_le _⟩
  intro t ht
  unfold placed at ht
  split at ht
  · rcases List.mem_append.mp ht with hrep | hmem
    · rwa [List.eq_of_mem_replicate hrep]
    · exact h t hmem
  · rcases List.mem_append.mp ht with hrep | hmem
    · rwa [List.eq_of_mem_replicate hrep]
    · exact h t (List.mem_of_mem_tail hmem)

theorem placed_concat (lines : ℤ) {texts : List (List UInt8)} (hne : texts ≠ []) (t : List UInt8) :
    placed lines (texts ++ [t]) = placed lines texts ++ [t] := by
  unfold placed
  split
  · rw [List.append_assoc]
  · rw [List.tail_append_of_ne_nil hne, List.append_assoc]

theorem le_length_placed (lines : ℤ) {texts : List (List UInt8)} (h : 22 ≤ texts.length) :
    22 ≤ (placed lines texts).length := by
  unfold placed
  split
  · rw [List.length_append]
    omega
  · rw [List.length_append, List.length_replicate]
    omega

/-- Row 22 holds the last text exactly when no text that came to it is longer. -/
theorem lastRow_iff (lines : ℤ) {texts : List (List UInt8)} (htexts : ∀ t ∈ texts, FitsRow t)
    (hlong : contentRows ≤ texts.length) :
    (∀ col < 80, rowOf (placed lines texts) 22 col = (texts.getLastD []).getD col 0) ↔
      ∀ t ∈ (placed lines texts).drop 22, t.length ≤ (texts.getLastD []).length := by
  have hrows : contentRows = 23 := rfl
  obtain rfl | ⟨front, last, rfl⟩ := List.eq_nil_or_concat texts
  · cases hlong
  rw [List.concat_eq_append] at htexts hlong ⊢
  rw [List.length_append, List.length_singleton] at hlong
  have hfront : front ≠ [] := by
    rintro rfl
    simp at hlong
    omega
  have hlast : (front ++ [last]).getLastD [] = last := by simp
  have hrest := fun t (ht : t ∈ (placed lines front).drop 22) =>
    fitsRow_placed (fun t ht => htexts t (List.mem_append_left _ ht)) lines t (List.mem_of_mem_drop ht)
  rw [hlast, placed_concat lines hfront, rowOf, if_neg (by decide),
    List.drop_append_of_le_length (le_length_placed lines (by omega)), List.forall_mem_append,
    List.forall_mem_singleton, and_iff_left (le_refl _)]
  exact foldl_written_concat_iff hrest

/-- The buffer holds the last texts, row by row from the top, each with zeros behind it. -/
def HoldsLast (texts : List (List UInt8)) (s : Content) : Prop :=
  ∀ i < min texts.length contentRows, ∀ col < 80, s.contentBuffer (i * 80 + col : ℕ) =
    ((texts.drop (texts.length - contentRows)).getD i []).getD col 0

/-- The rows after `ui_init` and some texts are as they should be exactly when the first 22 texts that
    came to them are those that should stand there, and the last one covers all others that came to
    row 22. -/
theorem holdsLast_iff {s : Content} (hs : 0 ≤ s.contentLines) {texts : List (List UInt8)}
    (htexts : ∀ t ∈ texts, FitsRow t) :
    HoldsLast texts (Run.after uiStep s (.init :: texts.map fun t => .printContent (some t))) ↔
      (∀ i < min texts.length 22, (placed s.contentLines texts).getD i [] =
        (texts.drop (texts.length - contentRows)).getD i []) ∧
      (contentRows ≤ texts.length → ∀ t ∈ (placed s.contentLines texts).drop 22,
        t.length ≤ (texts.getLastD []).length) := by
  have hrows : contentRows = 23 := rfl
  rcases eq_or_ne texts [] with rfl | hne
  · simp [HoldsLast, hrows]
  have hholds := (holds_placed hs htexts hne).rows
  have hrecent := fun i => fitsRow_getD (i := i) fun t ht =>
    htexts t (List.mem_of_mem_drop (i := texts.length - contentRows) ht)
  have hsplit (Q : ℕ → Prop) : (∀ i < min texts.length contentRows, Q i) ↔
      (∀ i < min texts.length 22, Q i) ∧ (contentRows ≤ texts.length → Q 22) := by
    constructor
    · exact fun h => ⟨fun i hi => h i (by omega), fun hlong => h 22 (by omega)⟩
    · rintro ⟨hfirst, hlast⟩ i hi
      rcases Nat.lt_or_ge i 22 with hlt | hge
      · exact hfirst i (by omega)
      · rw [show i = 22 by omega]
        exact hlast (by omega)
  unfold HoldsLast
  rw [hsplit]
  refine and_congr (forall₂_congr fun i hi => ?_) (forall_congr' fun hlong => ?_)
  · -- a row of its own
    have hrow (col : ℕ) (hcol : col < 80) := hholds i (by omega) col hcol
    simp only [rowOf, if_pos (show i < 22 by omega)] at hrow
    constructor
    · intro h
      refine eq_of_written (fitsRow_getD (fitsRow_placed htexts _) i) (hrecent i) fun col hcol => ?_
      exact (hrow col hcol).symm.trans (h col hcol)
    · intro heq col hcol
      rw [hrow col hcol, heq]
      rfl
  · -- row 22, where the texts came one over the other
    have hlast : (texts.drop (texts.length - contentRows)).getD 22 [] = texts.getLastD [] := by
      rw [List.getD_eq_getElem?_getD, List.getElem?_drop, List.getLastD_eq_getLast?,
        List.getLast?_eq_getElem?, show texts.length - contentRows + 22 = texts.length - 1 by omega]
    rw [← lastRow_iff _ htexts hlong, hlast]
    exact forall₂_congr fun col hcol => by rw [hholds 22 (by decide) col hcol]

/-! ### Stores outside of the buffer -/

/-- With the counter behind the last row, the first character of a text goes behind the buffer. -/
theorem print_inBuffer_iff {s : Content} (hfull : s.contentLines ≥ contentRows) {text : List UInt8}
    (htext : 0 ∉ text) :
    All UiEvent.InBuffer (uiPrintContent s (some text)) ↔ text = [] := by
  have hscroll := leaves_uiScrollContent (s := s) rfl
  have hdraw (s' : Content) (op : VgaOp) : All UiEvent.InBuffer (onScreen s' op) :=
    (leaves_onScreen rfl op).2
  rw [uiPrintContent_eq]
  simp only [all_bind, hscroll.2, hdraw, all_pure, true_and, and_true]
  cases text with
  | nil => exact iff_of_true (all_pure _ _) rfl
  | cons c text =>
    have hgo : ¬(c = 0 ∨ 0 ≥ 80) := by
      rintro (rfl | hwide)
      · exact htext List.mem_cons_self
      · omega
    refine iff_of_false (fun hall => ?_) (List.cons_ne_nil _ _)
    rw [printLoop, if_neg hgo, all_bind, all_bind, setContent, all_bind, all_emit] at hall
    have hindex := hall.2.1.1
    simp only [UiEvent.InBuffer, contentLines_onScreen, hscroll.1] at hindex
    omega

/-- RUN: of some texts only the first can go outside of the buffer. -/
theorem texts_inBuffer_iff {s : Content} (hs : 0 ≤ s.contentLines) {texts : List (List UInt8)}
    (htexts : ∀ t ∈ texts, FitsRow t) :
    (∀ events ∈ Run.outs uiStep s (texts.map fun t => .printContent (some t)),
        ∀ e ∈ events, e.InBuffer) ↔
      s.contentLines < contentRows ∨ texts.headD [] = [] := by
  have hrows : (contentRows : ℤ) = 23 := rfl
  have hprints {s : Content} (h : InRange s) (texts : List (List UInt8)) :
      ∀ events ∈ Run.outs uiStep s (texts.map fun t => .printContent (some t)),
        ∀ e ∈ events, e.InBuffer := by
    refine ((stays_inRange_iff h _).mpr fun call hcall => ?_).2
    obtain ⟨t, _, rfl⟩ := List.mem_map.mp hcall
    trivial
  rcases lt_or_ge s.contentLines contentRows with hroom | hfull
  · exact iff_of_true (hprints ⟨hs, hroom⟩ texts) (.inl hroom)
  cases texts with
  | nil => exact iff_of_true (fun _ hmem => absurd hmem List.not_mem_nil) (.inr rfl)
  | cons t texts =>
    have ht := htexts t List.mem_cons_self
    obtain ⟨_, _, _, _, hnext⟩ := uiPrintContent_spec s ht
    have hrest : InRange (uiStep s (.printContent (some t))).1 := by
      rw [InRange, uiStep_fst, UiCall.run, hnext]
      omega
    rw [List.map_cons, Run.outs, List.forall_mem_cons, or_iff_right (not_lt.mpr hfull)]
    exact (and_iff_left (hprints hrest texts)).trans (print_inBuffer_iff hfull ht.1)

/-- … and `ui_init` before them stays inside. -/
theorem init_texts_inBuffer_iff {s : Content} (hs : 0 ≤ s.contentLines) {texts : List (List UInt8)}
    (htexts : ∀ t ∈ texts, FitsRow t) :
    (∀ events ∈ Run.outs uiStep s (.init :: texts.map fun t => .printContent (some t)),
        ∀ e ∈ events, e.InBuffer) ↔
      s.contentLines < contentRows ∨ texts.headD [] = [] := by
  obtain ⟨hlines, hinside⟩ := leaves_uiInit (s := s) rfl
  have hstep : uiStep s .init = ((uiInit s).val, (uiInit s).events) := rfl
  rw [Run.outs, List.forall_mem_cons, hstep]
  refine (and_iff_right hinside).trans ?_
  rw [texts_inBuffer_iff (hs.trans_eq hlines.symm) htexts, hlines]

/-- EXACT: after `ui_init` and some texts the buffer holds the last 23 of them, and nothing was stored
    outside of it, exactly when the counter is a row of the buffer or the first text has nothing to
    store, the first 22 texts that came to the rows are those that should stand there, and the last
    one covers all others that came to row 22. (At the largest `int` the row of the counter is no
    number of that type.) -/
theorem content_holds_last_iff {s : Content}
    (hs : 0 ≤ s.contentLines ∧ 1 + s.contentLines < 2 ^ 31) {texts : List (List UInt8)}
    (htexts : ∀ t ∈ texts, FitsRow t) :
    (HoldsLast texts (Run.after uiStep s (.init :: texts.map fun t => .printContent (some t))) ∧
        ∀ events ∈ Run.outs uiStep s (.init :: texts.map fun t => .printContent (some t)),
          ∀ e ∈ events, e.InBuffer) ↔
      (s.contentLines < contentRows ∨ texts.headD [] = []) ∧
      (∀ i < min texts.length 22, (placed s.contentLines texts).getD i [] =
        (texts.drop (texts.length - contentRows)).getD i []) ∧
      (contentRows ≤ texts.length → ∀ t ∈ (placed s.contentLines texts).drop 22,
        t.length ≤ (texts.getLastD []).length) := by
  rw [holdsLast_iff hs.1 htexts, init_texts_inBuffer_iff hs.1 htexts]
  exact and_comm

/-- Some texts of one character each. -/
def letters (n : ℕ) : List (List UInt8) := (List.range n).map fun i => [UInt8.ofNat (65 + i)]

/-- From the static variables on, 23 texts fill the rows. -/
theorem content_holds_last_letters :
    let start := staticContent (staticScreen fun _ => 0)
    let calls : List UiCall := .init :: (letters 23).map fun t => .printContent (some t)
    HoldsLast (letters 23) (Run.after uiStep start calls) ∧
      ∀ events ∈ Run.outs uiStep start calls, ∀ e ∈ events, e.InBuffer :=
  (content_holds_last_iff ⟨le_refl 0, by decide⟩ (by decide)).mpr (by decide)

/-- The 24th text goes over the 23rd, and the first one stays at the top. -/
theorem letters_not_scrolled :
    ¬HoldsLast (letters 24) (Run.after uiStep (staticContent (staticScreen fun _ => 0))
      (.init :: (letters 24).map fun t => .printContent (some t))) := by
  intro h
  have hplaced := holds_placed (s := staticContent (staticScreen fun _ => 0)) (le_refl 0)
    (show ∀ t ∈ letters 24, FitsRow t by decide) (by decide)
  have htop := (hplaced.rows 0 (by decide) 0 (by decide)).symm.trans
    (h 0 (by decide) 0 (by decide))
  exact absurd htop (by decide)

end VlsOs.Ui
