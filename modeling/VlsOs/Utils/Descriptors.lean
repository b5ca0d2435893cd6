import VlsOs.Utils.Syscall
import VlsOs.Kernel.FileSeek

/-! User descriptors as handles.

    A user descriptor should be a handle: good from the `sys_open` that returned it to the
    `sys_close` on it, and standing for the file-system descriptor of that very open. `Tracked` keeps
    this book beside the real tables. The static table of `syscall.c` starts with `-1` in its first
    slot alone; the other fifteen hold `0`, so the user descriptors 4 to 18 stand for file-system
    descriptor 0 before anyone has opened them. They are the only ones that go wrong.

        boot    slot            0    1    2   ⋯   15
                g_kernel_fds   -1    0    0   ⋯    0
                user fd         3    4    5   ⋯   18 -/

namespace VlsOs.Syscall
open Patterns VlsOs.Memory VlsOs.Fs

/-! ### Calls and the book -/

/-- The file calls of user programs. -/
inductive SysOp
  | sysOpen (filename : Option (List UInt8)) (flags : UInt32)
  | sysClose (fd : ℤ)
  | sysRead (fd : ℤ) (buffer : Bool) (count : UInt32)
  | sysWrite (fd : ℤ) (buffer : Option (ℕ → UInt8)) (count : UInt32)
  | sysSeek (fd : ℤ) (offset : UInt32) (fuel : ℕ)

/-- The system, and for each slot the file-system descriptor that the `sys_open` which returned it
    obtained, until a `sys_close` on it. -/
structure Tracked where
  sys : SysState
  given : Fin kernelMaxFiles → Option ℤ

/-- One call and its result; a seek that has not ended answers nothing and changes nothing. -/
def trackStep (d : Disk) (keys : ℕ → UInt8) (t : Tracked) : SysOp → Tracked × Option ℤ
  | .sysOpen filename flags =>
    let (result, sys) := sysOpen t.sys filename flags
    match Table.slot kernelMaxFiles (result - firstUserFd) with
    | none => (⟨sys, t.given⟩, some result)
    | some i =>
      (⟨sys, Function.update t.given i (some (fsOpen t.sys.fs filename 0).1)⟩, some result)
  | .sysClose fd =>
    let (result, sys) := sysClose t.sys fd
    match Table.slot kernelMaxFiles (fd - firstUserFd) with
    | none => (⟨sys, t.given⟩, some result)
    | some i => (⟨sys, Function.update t.given i none⟩, some result)
  | .sysRead fd buffer count =>
    let (result, _, sys) := sysRead d keys t.sys fd buffer count
    (⟨sys, t.given⟩, some result)
  | .sysWrite fd buffer count =>
    let (result, sys) := sysWrite t.sys fd buffer count
    (⟨sys, t.given⟩, some result)
  | .sysSeek fd offset fuel =>
    match sysSeek fuel t.sys fd offset with
    | none => (t, none)
    | some (result, sys) => (⟨sys, t.given⟩, some result)

/-- The book at boot is empty. -/
def bootTracked (d : Disk) (mem : Mem) (h : Heap) : Tracked := ⟨bootSys d mem h, fun _ => none⟩

/-! ### What is asked of the table -/

/-- The descriptor was returned by a `sys_open` and has not been closed since. -/
def IsOpen (t : Tracked) (fd : ℤ) : Prop :=
  ∃ i : Fin kernelMaxFiles, fd = firstUserFd + (i : ℤ) ∧ (t.given i).isSome = true

/-- A call on a user descriptor is passed on to the file system exactly when it is open. -/
def PassedIffOpen (t : Tracked) (fd : ℤ) : Prop :=
  firstUserFd ≤ fd → ((realFd t.sys fd).isSome = true ↔ IsOpen t fd)

/-- The call is answered as the book says. A read without a buffer or a count is refused anyway. -/
def Faithful (t : Tracked) : SysOp → Prop
  | .sysRead fd buffer count => buffer = true → count ≠ 0 → PassedIffOpen t fd
  | .sysSeek fd _ _ => PassedIffOpen t fd
  | .sysClose fd => PassedIffOpen t fd
  | .sysOpen .. | .sysWrite .. => True

/-- Every open descriptor stands for the file-system descriptor of its open, which is in use, and no
    two stand for the same one. -/
structure HandlesOk (t : Tracked) : Prop where
  designates : ∀ i real, t.given i = some real →
    realFd t.sys (firstUserFd + (i : ℤ)) = some (i, real) ∧
      ∃ f : Fin fsMaxFiles, real = f ∧ (t.sys.fs.files f).inUse = true
  injective : ∀ i j real, t.given i = some real → t.given j = some real → i = j

/-- The call names none of the descriptors 4 to 18. -/
def NamesNoStale : SysOp → Prop
  | .sysRead fd buffer count => buffer = true → count ≠ 0 → ¬ (4 ≤ fd ∧ fd ≤ 18)
  | .sysSeek fd _ _ => ¬ (4 ≤ fd ∧ fd ≤ 18)
  | .sysClose fd => ¬ (4 ≤ fd ∧ fd ≤ 18)
  | .sysOpen .. | .sysWrite .. => True

/-! ### The state of a run that names no stale descriptor -/

/-- Slots 1 to 15 stay as they were at boot; slot 0 follows the book. -/
structure OneSlot (t : Tracked) : Prop where
  stale : ∀ i, i ≠ 0 → t.sys.kernelFds i = 0 ∧ t.given i = none
  zero : (t.given 0 = none ∧ t.sys.kernelFds 0 = -1) ∨
    ∃ f : Fin fsMaxFiles, t.given 0 = some (f : ℤ) ∧ t.sys.kernelFds 0 = f ∧
      (t.sys.fs.files f).inUse = true

theorem slot_user (i : Fin kernelMaxFiles) :
    Table.slot kernelMaxFiles (firstUserFd + (i : ℤ) - firstUserFd) = some i := by
  rw [add_sub_cancel_left, Table.slot_coe]

theorem realFd_eq_some {s : SysState} {fd : ℤ} {i : Fin kernelMaxFiles} {real : ℤ} :
    realFd s fd = some (i, real) ↔
      fd = firstUserFd + (i : ℤ) ∧ s.kernelFds i = real ∧ 0 ≤ real := by
  unfold realFd
  cases hslot : Table.slot kernelMaxFiles (fd - firstUserFd) with
  | none =>
    simp only [reduceCtorEq, false_iff]
    rintro ⟨rfl, -⟩
    rw [slot_user] at hslot
    cases hslot
  | some j =>
    have hfd : fd = firstUserFd + (j : ℤ) := by
      rw [Table.slot_eq_some] at hslot
      omega
    subst hfd
    dsimp only
    by_cases hneg : 0 ≤ s.kernelFds j
    · rw [if_pos hneg, Option.some.injEq, Prod.mk.injEq]
      constructor
      · rintro ⟨rfl, rfl⟩
        exact ⟨rfl, rfl, hneg⟩
      · rintro ⟨hj, rfl, -⟩
        have hij : j = i := Fin.ext (by omega)
        exact ⟨hij, by rw [hij]⟩
    · rw [if_neg hneg]
      simp only [reduceCtorEq, false_iff]
      rintro ⟨hj, rfl, hpos⟩
      have hij : j = i := Fin.ext (by omega)
      exact hneg (hij ▸ hpos)

theorem realFd_isSome {s : SysState} {fd : ℤ} :
    (realFd s fd).isSome = true ↔
      ∃ i : Fin kernelMaxFiles, fd = firstUserFd + (i : ℤ) ∧ 0 ≤ s.kernelFds i := by
  rw [Option.isSome_iff_exists]
  constructor
  · rintro ⟨⟨i, real⟩, h⟩
    obtain ⟨hfd, rfl, hpos⟩ := realFd_eq_some.mp h
    exact ⟨i, hfd, hpos⟩
  · rintro ⟨i, hfd, hpos⟩
    exact ⟨(i, _), realFd_eq_some.mpr ⟨hfd, rfl, hpos⟩⟩

theorem OneSlot.handlesOk {t : Tracked} (h : OneSlot t) : HandlesOk t := by
  have honly : ∀ i real, t.given i = some real → i = 0 := by
    intro i real hi
    by_contra hne
    rw [(h.stale i hne).2] at hi
    cases hi
  constructor
  · intro i real hi
    have hi0 := honly i real hi
    subst hi0
    rcases h.zero with ⟨hnone, -⟩ | ⟨f, hgiven, hfd, huse⟩
    · rw [hnone] at hi
      cases hi
    · rw [hgiven] at hi
      cases hi
      exact ⟨realFd_eq_some.mpr ⟨rfl, hfd, Int.natCast_nonneg _⟩, f, rfl, huse⟩
  · intro i j real hi hj
    rw [honly i real hi, honly j real hj]

/-- A slot other than slot 0 has a descriptor from 4 to 18. -/
theorem stale_iff {fd : ℤ} :
    4 ≤ fd ∧ fd ≤ 18 ↔ ∃ i : Fin kernelMaxFiles, i ≠ 0 ∧ fd = firstUserFd + (i : ℤ) := by
  unfold firstUserFd
  constructor
  · rintro ⟨hlo, hhi⟩
    have hlt : (fd - 3).toNat < 16 := by omega
    refine ⟨⟨(fd - 3).toNat, hlt⟩, ?_, ?_⟩
    · intro h
      have := Fin.ext_iff.mp h
      change (fd - 3).toNat = 0 at this
      omega
    · change fd = 3 + ((fd - 3).toNat : ℤ)
      omega
  · rintro ⟨i, hi, rfl⟩
    have hlt : i.val < 16 := i.isLt
    have hpos : i.val ≠ 0 := fun h => hi (Fin.ext h)
    omega

/-- On such a table the calls on descriptors outside 4 to 18 are the faithful ones. -/
theorem OneSlot.passedIffOpen_iff {t : Tracked} (h : OneSlot t) (fd : ℤ) :
    PassedIffOpen t fd ↔ ¬ (4 ≤ fd ∧ fd ≤ 18) := by
  constructor
  · intro hpass hstale
    obtain ⟨i, hi, rfl⟩ := stale_iff.mp hstale
    have hreal : (realFd t.sys (firstUserFd + (i : ℤ))).isSome = true :=
      realFd_isSome.mpr ⟨i, rfl, le_of_eq (h.stale i hi).1.symm⟩
    obtain ⟨j, hj, hgiven⟩ := (hpass (by omega)).mp hreal
    have hij : j = i := Fin.ext (by omega)
    rw [hij, (h.stale i hi).2] at hgiven
    cases hgiven
  · intro hns _
    have hzero : ∀ i : Fin kernelMaxFiles, fd = firstUserFd + (i : ℤ) → i = 0 := by
      intro i hfd
      by_contra hi
      exact hns (stale_iff.mpr ⟨i, hi, hfd⟩)
    rw [realFd_isSome]
    constructor
    · rintro ⟨i, hfd, hpos⟩
      rw [hzero i hfd] at hpos hfd
      rcases h.zero with ⟨-, hneg⟩ | ⟨f, hgiven, -, -⟩
      · rw [hneg] at hpos
        exact absurd hpos (by decide)
      · exact ⟨0, hfd, by rw [hgiven]; rfl⟩
    · rintro ⟨i, hfd, hsome⟩
      rw [hzero i hfd] at hsome hfd
      rcases h.zero with ⟨hnone, -⟩ | ⟨f, -, hreal, -⟩
      · rw [hnone] at hsome
        cases hsome
      · exact ⟨0, hfd, by rw [hreal]; exact Int.natCast_nonneg _⟩

theorem OneSlot.faithful_iff {t : Tracked} (h : OneSlot t) (op : SysOp) :
    Faithful t op ↔ NamesNoStale op := by
  cases op with
  | sysRead fd buffer count =>
    exact imp_congr_right fun _ => imp_congr_right fun _ => h.passedIffOpen_iff fd
  | sysSeek fd offset fuel => exact h.passedIffOpen_iff fd
  | sysClose fd => exact h.passedIffOpen_iff fd
  | sysOpen filename flags => exact Iff.rfl
  | sysWrite fd buffer count => exact Iff.rfl

/-! ### One call -/

/-- The file system may change under the table as long as it keeps its files in use. -/
theorem OneSlot.setFs {t : Tracked} (h : OneSlot t) {sys : SysState}
    (hfds : sys.kernelFds = t.sys.kernelFds)
    (huse : ∀ f, (t.sys.fs.files f).inUse = true → (sys.fs.files f).inUse = true) :
    OneSlot ⟨sys, t.given⟩ := by
  refine ⟨fun i hi => ?_, ?_⟩
  · rw [hfds]
    exact h.stale i hi
  · rcases h.zero with ⟨hnone, hneg⟩ | ⟨f, hgiven, hreal, hf⟩
    · exact .inl ⟨hnone, by rw [hfds]; exact hneg⟩
    · exact .inr ⟨f, hgiven, by rw [hfds]; exact hreal, huse f hf⟩

/-- The calls other than `sys_open` and `sys_close`. -/
def SysOp.Quiet : SysOp → Prop
  | .sysOpen .. => False
  | .sysClose .. => False
  | .sysRead .. => True
  | .sysWrite .. => True
  | .sysSeek .. => True

/-- A call changes the file system only, and keeps its files in use. -/
def SameTable (s s' : SysState) : Prop :=
  s'.kernelFds = s.kernelFds ∧ ∀ f, (s.fs.files f).inUse = true → (s'.fs.files f).inUse = true

theorem SameTable.refl (s : SysState) : SameTable s s := ⟨rfl, fun _ huse => huse⟩

theorem sysRead_sameTable (d : Disk) (keys : ℕ → UInt8) (s : SysState) (fd : ℤ) (buffer : Bool)
    (count : UInt32) : SameTable s (sysRead d keys s fd buffer count).2.2 := by
  unfold sysRead
  split
  · exact SameTable.refl s
  · split
    · exact ⟨rfl, fun _ huse => huse⟩
    · cases realFd s fd with
      | none => exact SameTable.refl s
      | some found => exact ⟨rfl, (fsRead_keeps d s.fs found.2 buffer _).inUse⟩

theorem sysWrite_sameTable (s : SysState) (fd : ℤ) (buffer : Option (ℕ → UInt8)) (count : UInt32) :
    SameTable s (sysWrite s fd buffer count).2 := by
  cases buffer with
  | none => exact SameTable.refl s
  | some str =>
    simp only [sysWrite]
    split
    · exact SameTable.refl s
    · split
      · exact ⟨rfl, fun _ huse => huse⟩
      · split
        · exact SameTable.refl s
        · cases realFd s fd <;> exact SameTable.refl s

theorem sysSeek_sameTable {fuel : ℕ} {s s' : SysState} {fd : ℤ} {offset : UInt32} {result : ℤ}
    (h : sysSeek fuel s fd offset = some (result, s')) : SameTable s s' := by
  unfold sysSeek at h
  cases hreal : realFd s fd with
  | none =>
    simp only [hreal] at h
    cases h
    exact SameTable.refl s
  | some found =>
    obtain ⟨i, real⟩ := found
    simp only [hreal] at h
    cases hfs : fsSeek fuel s.fs real offset with
    | none =>
      simp only [hfs] at h
      cases h
    | some r =>
      simp only [hfs] at h
      cases h
      exact ⟨rfl, (fsSeek_keeps hfs).inUse⟩

/-- Reads, writes and seeks leave the table and the book alone. -/
theorem trackStep_quiet (d : Disk) (keys : ℕ → UInt8) (t : Tracked) {op : SysOp} (hop : op.Quiet) :
    SameTable t.sys (trackStep d keys t op).1.sys ∧ (trackStep d keys t op).1.given = t.given := by
  cases op with
  | sysOpen filename flags => cases hop
  | sysClose fd => cases hop
  | sysRead fd buffer count => exact ⟨sysRead_sameTable d keys t.sys fd buffer count, rfl⟩
  | sysWrite fd buffer count => exact ⟨sysWrite_sameTable t.sys fd buffer count, rfl⟩
  | sysSeek fd offset fuel =>
    rw [trackStep]
    cases hseek : sysSeek fuel t.sys fd offset with
    | none => exact ⟨SameTable.refl _, rfl⟩
    | some r => exact ⟨sysSeek_sameTable hseek, rfl⟩

theorem oneSlot_quiet {d : Disk} {keys : ℕ → UInt8} {t : Tracked} (h : OneSlot t) {op : SysOp}
    (hop : op.Quiet) : OneSlot (trackStep d keys t op).1 := by
  obtain ⟨⟨hfds, huse⟩, hgiven⟩ := trackStep_quiet d keys t hop
  have hset := h.setFs hfds huse
  rwa [← hgiven] at hset

/-- The first free slot is slot 0, if the book says so; otherwise there is none. -/
theorem OneSlot.first_free {t : Tracked} (h : OneSlot t) :
    (Table.first fun i => decide (t.sys.kernelFds i = -1)) =
      if t.given 0 = none then some 0 else none := by
  have honly : ∀ i, t.sys.kernelFds i = -1 → i = 0 := by
    intro i hi
    by_contra hne
    rw [(h.stale i hne).1] at hi
    cases hi
  cases hfirst : Table.first fun i => decide (t.sys.kernelFds i = -1) with
  | none =>
    rcases h.zero with ⟨-, hneg⟩ | ⟨f, hgiven, -, -⟩
    · exact absurd hneg (of_decide_eq_false (Table.first_none.mp hfirst 0))
    · rw [if_neg (by rw [hgiven]; exact Option.some_ne_none _)]
  | some i =>
    have hi := of_decide_eq_true (Table.first_some hfirst)
    have hi0 := honly i hi
    subst hi0
    rcases h.zero with ⟨hnone, -⟩ | ⟨f, -, hreal, -⟩
    · rw [if_pos hnone]
    · rw [hreal] at hi
      exact absurd hi (by omega)

theorem slot_minus_one : Table.slot kernelMaxFiles (-1 - firstUserFd) = none :=
  Table.slot_eq_none.mpr (.inl (by decide))

/-- An open takes slot 0 if it is free; otherwise it gives the file-system descriptor back. -/
theorem oneSlot_open {d : Disk} {keys : ℕ → UInt8} {t : Tracked} (h : OneSlot t)
    (filename : Option (List UInt8)) (flags : UInt32) :
    OneSlot (trackStep d keys t (.sysOpen filename flags)).1 := by
  cases filename with
  | none =>
    simp only [trackStep, sysOpen, slot_minus_one]
    exact h
  | some name =>
    rcases fsOpen_cases t.sys.fs (some name) 0 with
      ⟨f, _, _, _, file, -, hfree, -, huse, -, -, -, -, heq⟩ | heq
    · have hpos : ¬ (f : ℤ) < 0 := by omega
      rcases h.zero with ⟨hnone, -⟩ | ⟨g, hgiven, hreal, hg⟩
      · have hfirst := h.first_free
        rw [if_pos hnone] at hfirst
        have hslot := slot_user 0
        simp only [trackStep, sysOpen, heq, if_neg hpos, hfirst, hslot]
        refine ⟨fun i hi => ?_, .inr ⟨f, ?_, ?_, ?_⟩⟩
        · simp only [Function.update_of_ne hi]
          exact h.stale i hi
        · simp only [Function.update_self]
        · simp only [Function.update_self]
        · simp only [setFile_files_self, huse]
      · have hfirst := h.first_free
        rw [if_neg (by rw [hgiven]; exact Option.some_ne_none _)] at hfirst
        have hne : g ≠ f := by
          rintro rfl
          rw [hfree] at hg
          cases hg
        have hopen : openFile (t.sys.fs.setFile f file) f = some f :=
          openFile_eq_some.mpr ⟨rfl, by rw [setFile_files_self]; exact huse⟩
        simp only [trackStep, sysOpen, heq, if_neg hpos, hfirst, fsClose, hopen, slot_minus_one]
        refine ⟨h.stale, .inr ⟨g, hgiven, hreal, ?_⟩⟩
        simp only [setFile_files_of_ne _ _ hne, hg]
    · have hneg : (-1 : ℤ) < 0 := by decide
      simp only [trackStep, sysOpen, heq, if_pos hneg, slot_minus_one]
      exact h

/-- A close on descriptor 3 frees slot 0; a close on another descriptor outside 4 to 18 does
    nothing. -/
theorem oneSlot_close {d : Disk} {keys : ℕ → UInt8} {t : Tracked} (h : OneSlot t) {fd : ℤ}
    (hfd : ¬ (4 ≤ fd ∧ fd ≤ 18)) : OneSlot (trackStep d keys t (.sysClose fd)).1 := by
  by_cases hthree : fd = firstUserFd + ((0 : Fin kernelMaxFiles) : ℤ)
  · subst hthree
    have hslot := slot_user 0
    have hstd : ¬ (firstUserFd + ((0 : Fin kernelMaxFiles) : ℤ) = stdinFd ∨
        firstUserFd + ((0 : Fin kernelMaxFiles) : ℤ) = stdoutFd ∨
        firstUserFd + ((0 : Fin kernelMaxFiles) : ℤ) = stderrFd) := by decide
    have hclosed : ∀ sys : SysState, (∀ i, i ≠ 0 → sys.kernelFds i = 0) →
        sys.kernelFds 0 = -1 → OneSlot ⟨sys, Function.update t.given 0 none⟩ := by
      intro sys hstale hzero
      refine ⟨fun i hi => ⟨hstale i hi, ?_⟩, .inl ⟨?_, hzero⟩⟩
      · exact (Function.update_of_ne hi ..).trans (h.stale i hi).2
      · simp only [Function.update_self]
    simp only [trackStep, sysClose, hslot, if_neg hstd]
    cases hreal : realFd t.sys (firstUserFd + ((0 : Fin kernelMaxFiles) : ℤ)) with
    | none =>
      rcases h.zero with ⟨-, hneg⟩ | ⟨f, -, hf, -⟩
      · exact hclosed _ (fun i hi => (h.stale i hi).1) hneg
      · rw [realFd_eq_some.mpr ⟨rfl, hf, Int.natCast_nonneg _⟩] at hreal
        cases hreal
    | some found =>
      obtain ⟨i, real⟩ := found
      obtain ⟨hi, -, -⟩ := realFd_eq_some.mp hreal
      have hi0 : i = 0 := Fin.ext (by omega)
      subst hi0
      refine hclosed _ (fun i hi => ?_) ?_
      · exact (Function.update_of_ne hi ..).trans (h.stale i hi).1
      · simp only [Function.update_self]
  · have hslot : Table.slot kernelMaxFiles (fd - firstUserFd) = none := by
      cases hslot : Table.slot kernelMaxFiles (fd - firstUserFd) with
      | none => rfl
      | some i =>
        rw [Table.slot_eq_some] at hslot
        rcases eq_or_ne i 0 with rfl | hi
        · exact absurd (by omega) hthree
        · exact absurd (stale_iff.mpr ⟨i, hi, by omega⟩) hfd
    have hreal : realFd t.sys fd = none := by simp only [realFd, hslot]
    simp only [trackStep, sysClose, hslot, hreal]
    split <;> exact h

/-- INVARIANT, one call that names no stale descriptor. -/
theorem oneSlot_step {d : Disk} {keys : ℕ → UInt8} {t : Tracked} (op : SysOp) (h : OneSlot t)
    (hop : NamesNoStale op) : OneSlot (trackStep d keys t op).1 := by
  cases op with
  | sysOpen filename flags => exact oneSlot_open h filename flags
  | sysClose fd => exact oneSlot_close h hop
  | sysRead fd buffer count => exact oneSlot_quiet h trivial
  | sysWrite fd buffer count => exact oneSlot_quiet h trivial
  | sysSeek fd offset fuel => exact oneSlot_quiet h trivial

theorem oneSlot_boot (d : Disk) (mem : Mem) (h : Heap) : OneSlot (bootTracked d mem h) :=
  ⟨fun _ hi => ⟨if_neg hi, rfl⟩, .inl ⟨rfl, rfl⟩⟩

/-- EXACT: in a run from boot, every call is answered as the book of opens and closes says and the
    open descriptors are good handles throughout, precisely if no read, seek or close of the run
    names one of the descriptors 4 to 18. -/
theorem user_descriptors_faithful_iff (d : Disk) (keys : ℕ → UInt8) (mem : Mem) (h : Heap)
    (ops : List SysOp) :
    (Run.Along (trackStep d keys) Faithful (bootTracked d mem h) ops ∧
      Run.Always (trackStep d keys) HandlesOk (bootTracked d mem h) ops) ↔
    ∀ op ∈ ops, NamesNoStale op := by
  have hstep : ∀ t op, OneSlot t → NamesNoStale op → OneSlot (trackStep d keys t op).1 :=
    fun t op ht hop => oneSlot_step op ht hop
  have hboot := oneSlot_boot d mem h
  have hguard : Run.Along (trackStep d keys) (fun _ op => NamesNoStale op) (bootTracked d mem h) ops ↔
      ∀ op ∈ ops, NamesNoStale op := Run.along_iff_forall_mem ops _
  rw [← hguard, Run.along_congr hstep (fun t op ht => ht.faithful_iff op) ops _ hboot]
  refine ⟨fun hrun => hrun.1, fun hrun => ⟨hrun, ?_⟩⟩
  exact (Run.always_of_along hstep ops _ hrun hboot).imp fun _ ht => ht.handlesOk

/-- A disk that boots into the sample file system. -/
def sampleBootDisk : Disk where
  sector lba k :=
    if lba = fsFatStartSector then (sampleFs.fatCache.getD fun _ => 0) k
    else if lba = fsRootDirSector then (sampleFs.rootDirCache.getD fun _ => 0) k
    else 0
  stopsAfter _ := none

/-- At boot a read on descriptor 4 goes to file-system descriptor 0 though nothing was ever opened.
    And after open, close of 4, open, the descriptors 3 and 4 stand for the same file-system
    descriptor. -/
theorem stale_descriptor_passed :
    let boot := bootTracked sampleBootDisk (fun _ => 0) (memoryInit ⟨0⟩)
    let t := Run.after (trackStep sampleBootDisk fun _ => 0) boot
      [.sysOpen (some [65]) 0, .sysClose 4, .sysOpen (some [65]) 0]
    (realFd boot.sys 4 = some (1, 0) ∧ ¬ Faithful boot (.sysRead 4 true 1)) ∧
      (t.given 0 = some 0 ∧ t.given 1 = some 0 ∧ ¬ HandlesOk t) := by
  intro boot t
  have hreal : realFd boot.sys 4 = some (1, 0) := by decide
  have hzero : t.given 0 = some 0 := by decide
  have hone : t.given 1 = some 0 := by decide
  refine ⟨⟨hreal, fun hf => ?_⟩, hzero, hone, fun hok => ?_⟩
  · have hpassed : (realFd boot.sys 4).isSome = true := by rw [hreal]; rfl
    obtain ⟨i, -, hgiven⟩ := (hf rfl (by decide) (by decide)).mp hpassed
    cases hgiven
  · exact absurd (hok.injective 0 1 0 hzero hone) (by decide)

end VlsOs.Syscall
