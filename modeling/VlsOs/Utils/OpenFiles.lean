import VlsOs.Utils.Descriptors

/-! How many files can be open.

    A `sys_open` needs a free descriptor of the file system and a free slot of `g_kernel_fds`. Both
    tables have 16 places. A slot is free if it holds `-1`; at boot that is slot 0 alone, since the
    initialiser leaves `0` in the others. Another slot becomes free only when a `sys_close` is made on
    its descriptor, which no `sys_open` has returned.

        slot           0    1    2   ⋯   15
        boot          -1    0    0   ⋯    0      one open, then none
        close(4)      -1   -1    0   ⋯    0      two -/

namespace VlsOs.Syscall
open Patterns VlsOs.Memory VlsOs.Fs

/-- The system with its book of opens, and the slots on whose descriptors a `sys_close` was made. -/
structure Books where
  tracked : Tracked
  closed : Fin kernelMaxFiles → Bool

/-- The slots closed so far, after one more call. -/
def closedBy (closed : Fin kernelMaxFiles → Bool) : SysOp → Fin kernelMaxFiles → Bool
  | .sysClose fd =>
    match Table.slot kernelMaxFiles (fd - firstUserFd) with
    | none => closed
    | some i => Function.update closed i true
  | .sysOpen .. | .sysRead .. | .sysWrite .. | .sysSeek .. => closed

def bookStep (d : Disk) (keys : ℕ → UInt8) (b : Books) (op : SysOp) : Books × Option ℤ :=
  (⟨(trackStep d keys b.tracked op).1, closedBy b.closed op⟩, (trackStep d keys b.tracked op).2)

def bootBooks (d : Disk) (mem : Mem) (h : Heap) : Books := ⟨bootTracked d mem h, fun _ => false⟩

/-- The name is in the root directory, and fewer than 16 descriptors of the file system are in use. -/
def Openable (s : FsState) (name : List UInt8) : Prop :=
  (dirFindEntry s.rootDirCache name).isSome = true ∧ Table.count FsFile.inUse s.files < fsMaxFiles

/-- An open that the file system has room for succeeds. -/
def OpenSucceeds (b : Books) : SysOp → Prop
  | .sysOpen (some name) flags =>
    Openable b.tracked.sys.fs name → 0 ≤ (sysOpen b.tracked.sys (some name) flags).1
  | _ => True

/-- By the books slot `i` is free: it is slot 0 or was closed before, and it is not given out. -/
def Books.Free (b : Books) (i : Fin kernelMaxFiles) : Prop :=
  (i.val = 0 ∨ b.closed i = true) ∧ b.tracked.given i = none

/-- An open that the file system has room for is made with the file system initialised and a slot
    free. -/
def SlotLeft (b : Books) : SysOp → Prop
  | .sysOpen (some name) _ =>
    Openable b.tracked.sys.fs name → b.tracked.sys.fs.initialized = true ∧ ∃ i, b.Free i
  | _ => True

/-! ### The table and the books -/

/-- The slots that hold `-1` are those that are free by the books, and the others hold no negative
    number. -/
structure BooksOk (b : Books) : Prop where
  free : ∀ i, b.tracked.sys.kernelFds i = -1 ↔ b.Free i
  held : ∀ i, b.tracked.sys.kernelFds i = -1 ∨ 0 ≤ b.tracked.sys.kernelFds i

theorem booksOk_boot (d : Disk) (mem : Mem) (h : Heap) : BooksOk (bootBooks d mem h) := by
  have hfds : ∀ i : Fin kernelMaxFiles, (bootBooks d mem h).tracked.sys.kernelFds i =
      if i.val = 0 then -1 else 0 := fun i => if_congr Fin.ext_iff rfl rfl
  refine ⟨fun i => ?_, fun i => ?_⟩
  · rw [hfds]
    split
    · rename_i hi
      exact iff_of_true rfl ⟨.inl hi, rfl⟩
    · rename_i hi
      refine iff_of_false (by decide) ?_
      rintro ⟨hzero | hfalse, -⟩
      · exact hi hzero
      · cases hfalse
  · rw [hfds]
    split
    · exact .inl rfl
    · exact .inr le_rfl

/-- All a `sys_open` does to the table: it fills a free slot, or nothing. -/
theorem sysOpen_table (s : SysState) (filename : Option (List UInt8)) (flags : UInt32) :
    (∃ (i : Fin kernelMaxFiles) (real : ℤ) (fs : FsState), s.kernelFds i = -1 ∧ 0 ≤ real ∧
      sysOpen s filename flags = (firstUserFd + (i : ℤ),
        { s with kernelFds := Function.update s.kernelFds i real, fs := fs })) ∨
    ∃ fs, sysOpen s filename flags = (-1, { s with fs := fs }) := by
  cases filename with
  | none => exact .inr ⟨s.fs, rfl⟩
  | some name =>
    simp only [sysOpen]
    cases fsOpen s.fs (some name) 0 with
    | mk real fs =>
      dsimp only
      split
      · exact .inr ⟨fs, rfl⟩
      · rename_i hreal
        cases hfirst : Table.first fun i => decide (s.kernelFds i = -1) with
        | none => exact .inr ⟨_, rfl⟩
        | some i =>
          have hfree := of_decide_eq_true (Table.first_some hfirst)
          exact .inl ⟨i, real, fs, hfree, not_lt.mp hreal, rfl⟩

/-- All a `sys_close` does to the table: it frees the slot of its descriptor. -/
theorem sysClose_table (s : SysState) (fd : ℤ) :
    (∃ i : Fin kernelMaxFiles, Table.slot kernelMaxFiles (fd - firstUserFd) = some i ∧
      (s.kernelFds i = -1 ∨ 0 ≤ s.kernelFds i →
        (sysClose s fd).2.kernelFds = Function.update s.kernelFds i (-1))) ∨
    Table.slot kernelMaxFiles (fd - firstUserFd) = none ∧
      (sysClose s fd).2.kernelFds = s.kernelFds := by
  cases hslot : Table.slot kernelMaxFiles (fd - firstUserFd) with
  | none =>
    have hreal : realFd s fd = none := by simp only [realFd, hslot]
    refine .inr ⟨rfl, ?_⟩
    simp only [sysClose, hreal]
    split <;> rfl
  | some i =>
    have hstd : ¬ (fd = stdinFd ∨ fd = stdoutFd ∨ fd = stderrFd) := by
      rw [Table.slot_eq_some] at hslot
      unfold firstUserFd at hslot
      unfold stdinFd stdoutFd stderrFd
      omega
    refine .inl ⟨i, rfl, fun hheld => ?_⟩
    by_cases hpos : 0 ≤ s.kernelFds i
    · simp only [sysClose, if_neg hstd, realFd, hslot, if_pos hpos]
    · have hfree := hheld.resolve_right hpos
      simp only [sysClose, if_neg hstd, realFd, hslot, if_neg hpos]
      rw [← hfree, Function.update_eq_self]

section
variable {b : Books} {i : Fin kernelMaxFiles} {sys : SysState}

/-- A change at one slot only. -/
theorem BooksOk.change (h : BooksOk b) {b' : Books}
    (hothers : ∀ j, j ≠ i → b'.tracked.sys.kernelFds j = b.tracked.sys.kernelFds j ∧
      (b'.Free j ↔ b.Free j))
    (hfree : b'.tracked.sys.kernelFds i = -1 ↔ b'.Free i)
    (hheld : b'.tracked.sys.kernelFds i = -1 ∨ 0 ≤ b'.tracked.sys.kernelFds i) : BooksOk b' := by
  refine ⟨fun j => ?_, fun j => ?_⟩
  · rcases eq_or_ne j i with rfl | hne
    · exact hfree
    · rw [(hothers j hne).1, (hothers j hne).2]
      exact h.free j
  · rcases eq_or_ne j i with rfl | hne
    · exact hheld
    · rw [(hothers j hne).1]
      exact h.held j

/-- A slot is given out. -/
theorem BooksOk.fill (h : BooksOk b) {real : ℤ} (hreal : 0 ≤ real)
    (hfds : sys.kernelFds = Function.update b.tracked.sys.kernelFds i real) (x : ℤ) :
    BooksOk ⟨⟨sys, Function.update b.tracked.given i (some x)⟩, b.closed⟩ := by
  refine h.change (i := i) (fun j hne => ?_) ?_ ?_
  · simp [Books.Free, hfds, Function.update_of_ne hne]
  · simp only [Books.Free, hfds, Function.update_self]
    refine iff_of_false (by omega) fun hfree => ?_
    cases hfree.2
  · simp only [hfds, Function.update_self]
    exact .inr hreal

/-- A slot is closed. -/
theorem BooksOk.clear (h : BooksOk b)
    (hfds : sys.kernelFds = Function.update b.tracked.sys.kernelFds i (-1)) :
    BooksOk ⟨⟨sys, Function.update b.tracked.given i none⟩, Function.update b.closed i true⟩ := by
  refine h.change (i := i) (fun j hne => ?_) ?_ ?_
  · simp [Books.Free, hfds, Function.update_of_ne hne]
  · simp only [Books.Free, hfds, Function.update_self]
    exact iff_of_true trivial ⟨.inr trivial, trivial⟩
  · simp only [hfds, Function.update_self]
    exact .inl trivial

/-- Nothing happens to the table. -/
theorem BooksOk.same (h : BooksOk b) {t : Tracked} (hfds : t.sys.kernelFds = b.tracked.sys.kernelFds)
    (hgiven : t.given = b.tracked.given) : BooksOk ⟨t, b.closed⟩ := by
  refine ⟨fun j => ?_, fun j => ?_⟩
  · simp only [Books.Free, hfds, hgiven]
    exact h.free j
  · simp only [hfds]
    exact h.held j

end

/-- INVARIANT, one call. -/
theorem booksOk_step (d : Disk) (keys : ℕ → UInt8) (b : Books) (op : SysOp) (h : BooksOk b) :
    BooksOk (bookStep d keys b op).1 := by
  have hquiet : op.Quiet → closedBy b.closed op = b.closed → BooksOk (bookStep d keys b op).1 := by
    intro hop hclosed
    obtain ⟨⟨hfds, -⟩, hgiven⟩ := trackStep_quiet d keys b.tracked hop
    rw [bookStep, hclosed]
    exact h.same hfds hgiven
  cases op with
  | sysOpen filename flags =>
    rcases sysOpen_table b.tracked.sys filename flags with ⟨i, real, fs, -, hreal, heq⟩ | ⟨fs, heq⟩
    · have hslot := slot_user i
      simp only [bookStep, trackStep, heq, hslot]
      exact h.fill hreal rfl _
    · simp only [bookStep, trackStep, heq, slot_minus_one]
      exact h.same rfl rfl
  | sysClose fd =>
    rcases sysClose_table b.tracked.sys fd with ⟨i, hslot, hfds⟩ | ⟨hslot, hfds⟩
    · simp only [bookStep, trackStep, closedBy, hslot]
      exact h.clear (hfds (h.held i))
    · simp only [bookStep, trackStep, closedBy, hslot]
      exact h.same hfds rfl
  | sysRead fd buffer count => exact hquiet trivial rfl
  | sysWrite fd buffer count => exact hquiet trivial rfl
  | sysSeek fd offset fuel => exact hquiet trivial rfl

/-! ### Opens that succeed -/

/-- `fs_open` on a name that the directory has, with a descriptor left: the flag alone decides. -/
theorem fsOpen_succeeds_iff {s : FsState} {name : List UInt8} (h : Openable s name) (mode : UInt8) :
    0 ≤ (fsOpen s (some name) mode).1 ↔ s.initialized = true := by
  obtain ⟨i, hi⟩ := Table.exists_of_count_lt h.2
  obtain ⟨found, hfind⟩ := Option.isSome_iff_exists.mp h.1
  cases hinit : s.initialized with
  | false =>
    simp only [fsOpen, hinit, if_true]
    decide
  | true =>
    cases hfirst : Table.first fun i => !(s.files i).inUse with
    | none =>
      have := Table.first_none.mp hfirst i
      rw [hi] at this
      cases this
    | some fd =>
      simp only [fsOpen, hinit, Bool.true_eq_false, if_false, hfirst, hfind]
      exact iff_of_true (Int.natCast_nonneg _) trivial

/-- `sys_open` succeeds if `fs_open` does and a slot holds `-1`. -/
theorem sysOpen_succeeds_iff (s : SysState) (name : List UInt8) (flags : UInt32) :
    0 ≤ (sysOpen s (some name) flags).1 ↔
      0 ≤ (fsOpen s.fs (some name) 0).1 ∧ ∃ i, s.kernelFds i = -1 := by
  have hneg : ¬ (0 : ℤ) ≤ -1 := by decide
  simp only [sysOpen]
  cases fsOpen s.fs (some name) 0 with
  | mk real fs =>
    dsimp only
    split
    · rename_i hreal
      exact iff_of_false hneg fun h => absurd h.1 (not_le.mpr hreal)
    · rename_i hreal
      cases hfirst : Table.first fun i => decide (s.kernelFds i = -1) with
      | none =>
        refine iff_of_false hneg ?_
        rintro ⟨-, i, hi⟩
        exact of_decide_eq_false (Table.first_none.mp hfirst i) hi
      | some i =>
        have hfree := of_decide_eq_true (Table.first_some hfirst)
        refine iff_of_true ?_ ⟨not_lt.mp hreal, i, hfree⟩
        change 0 ≤ firstUserFd + (i : ℤ)
        unfold firstUserFd
        omega

theorem BooksOk.openSucceeds_iff {b : Books} (h : BooksOk b) (op : SysOp) :
    OpenSucceeds b op ↔ SlotLeft b op := by
  cases op with
  | sysOpen filename flags =>
    cases filename with
    | none => exact Iff.rfl
    | some name =>
      refine imp_congr_right fun hopenable => ?_
      rw [sysOpen_succeeds_iff, fsOpen_succeeds_iff hopenable]
      exact and_congr_right fun _ => exists_congr h.free
  | sysClose fd => exact Iff.rfl
  | sysRead fd buffer count => exact Iff.rfl
  | sysWrite fd buffer count => exact Iff.rfl
  | sysSeek fd offset fuel => exact Iff.rfl

/-- EXACT: in a run from boot, every `sys_open` of a name in the root directory with fewer than 16
    descriptors of the file system in use succeeds, precisely if each of them is made with the file
    system initialised and with slot 0, or a slot on whose descriptor a `sys_close` was made before,
    not given out. -/
theorem opens_succeed_iff (d : Disk) (keys : ℕ → UInt8) (mem : Mem) (h : Heap) (ops : List SysOp) :
    Run.Along (bookStep d keys) OpenSucceeds (bootBooks d mem h) ops ↔
      Run.Along (bookStep d keys) SlotLeft (bootBooks d mem h) ops :=
  Run.along_congr (fun b op hb _ => booksOk_step d keys b op hb) (fun _ op hb => hb.openSucceeds_iff op)
    ops _ (booksOk_boot d mem h)

/-- On the sample disk 16 opens of the file `A` in a row: the first returns 3, the others fail, and
    one descriptor of the file system is in use. -/
theorem second_open_fails :
    let run := Run.after (bookStep sampleBootDisk fun _ => 0)
      (bootBooks sampleBootDisk (fun _ => 0) (memoryInit ⟨0⟩)) [.sysOpen (some [65]) 0]
    Openable run.tracked.sys.fs [65] ∧
      Table.count FsFile.inUse run.tracked.sys.fs.files = 1 ∧
      Run.outs (bookStep sampleBootDisk fun _ => 0)
        (bootBooks sampleBootDisk (fun _ => 0) (memoryInit ⟨0⟩))
        (List.replicate 16 (.sysOpen (some [65]) 0)) =
      some 3 :: List.replicate 15 (some (-1)) := by
  refine ⟨⟨by decide, by decide⟩, by decide, by decide +kernel⟩

end VlsOs.Syscall
