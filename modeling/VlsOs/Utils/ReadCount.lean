import VlsOs.Utils.Descriptors
import VlsOs.Kernel.FileErrors

/-! How many bytes `sys_read` returns.

    `sys_read` takes a 32-bit count and hands it on to `fs_read` as a 16-bit one. What is left of the
    count is its low half: a read of 65536 bytes becomes a read of none, and returns 0 in the middle
    of the file.

        count        1 ⋯ 65535   65536   65537 ⋯ 131071   131072   ⋯
        fs_read      1 ⋯ 65535     0         1 ⋯ 65535       0     ⋯ -/

namespace VlsOs.Syscall
open Patterns VlsOs.Fs

/-- The user descriptor `fd` stands for descriptor `f` of the file system, and `f` is in use. -/
def OpenAs (s : SysState) (fd : ℤ) (f : Fin fsMaxFiles) : Prop :=
  (∃ i, realFd s fd = some (i, (f : ℤ))) ∧ (s.fs.files f).inUse = true

/-- A read of an open user descriptor is a read of the low half of the count. -/
theorem OpenAs.sysRead_eq {s : SysState} {fd : ℤ} {f : Fin fsMaxFiles} (h : OpenAs s fd f) (d : Disk)
    (keys : ℕ → UInt8) {count : UInt32} (hcount : count ≠ 0) :
    (sysRead d keys s fd true count).1 = (fsRead d s.fs f true count.toUInt16).1 := by
  obtain ⟨⟨i, hreal⟩, -⟩ := h
  have huser : fd ≠ stdinFd := by
    rw [(realFd_eq_some.mp hreal).1, firstUserFd, stdinFd]
    omega
  have hgo : ¬ (true = false ∨ count = 0) := by simp [hcount]
  simp only [sysRead, if_neg hgo, if_neg huser, hreal]

/-- EXACT: on a disk without errors, a read of an open user descriptor, with a count that is not 0,
    returns between 1 and `count` bytes before the end of the file, and 0 at its end only, precisely
    if the position is at the end or the count is no multiple of 65536. -/
theorem read_returns_bytes_iff (d : Disk) (hok : ∀ n, d.fails n = false) (keys : ℕ → UInt8)
    {s : SysState} {fd : ℤ} {f : Fin fsMaxFiles} (hopen : OpenAs s fd f) {count : UInt32}
    (hcount : count ≠ 0) :
    (((s.fs.files f).position < (s.fs.files f).fileSize →
        0 < (sysRead d keys s fd true count).1 ∧
          (sysRead d keys s fd true count).1 ≤ (count.toNat : ℤ)) ∧
      ((sysRead d keys s fd true count).1 = 0 →
        (s.fs.files f).fileSize ≤ (s.fs.files f).position)) ↔
    ((s.fs.files f).position < (s.fs.files f).fileSize → ¬ 65536 ∣ count.toNat) := by
  have huse := hopen.2
  have hlow : count.toUInt16.toNat = count.toNat % 65536 := UInt32.toNat_toUInt16 count
  obtain ⟨hleft, hresult⟩ := fsRead_result d count.toUInt16 huse
  rw [hopen.sysRead_eq d keys hcount]
  constructor
  · rintro ⟨hbytes, -⟩ hin hdvd
    -- the low half is 0, and so is what is returned
    have hzero : count.toUInt16.toNat = 0 := hlow.trans (Nat.mod_eq_zero_of_dvd hdvd)
    have hpos := (hbytes hin).1
    rw [hresult, hzero, Nat.zero_sub] at hpos
    exact absurd hpos (lt_irrefl 0)
  · intro hsome
    have hpos : (s.fs.files f).position < (s.fs.files f).fileSize →
        0 < (fsRead d s.fs f true count.toUInt16).1 := by
      intro hin
      refine fsRead_pos d _ huse ?_ hin (hok s.fs.reads)
      rw [UInt16.lt_iff_toNat_lt, hlow]
      exact Nat.pos_of_ne_zero fun h0 => hsome hin (Nat.dvd_of_mod_eq_zero h0)
    refine ⟨fun hin => ⟨hpos hin, ?_⟩, fun hzero => ?_⟩
    · rw [hresult]
      have hle := Nat.mod_le count.toNat 65536
      omega
    · by_contra hend
      exact absurd hzero (hpos (UInt32.not_le.mp hend)).ne'

/-- The system after a `sys_open` of the sample file. -/
def openedSys : SysState :=
  (sysOpen { kernelFds := staticKernelFds, fs := sampleFs, screen := [], keysRead := 0 } (some [65])
    0).2

theorem openedSys_open : OpenAs openedSys 3 0 := ⟨⟨0, by decide⟩, by decide⟩

theorem read_returns_bytes_at_sample :
    (OpenAs openedSys 3 0 ∧ (65537 : UInt32) ≠ 0) ∧
      0 < (sysRead sampleDisk (fun _ => 0) openedSys 3 true 65537).1 := by
  have hcount : (65537 : UInt32) ≠ 0 := by decide
  have hiff := read_returns_bytes_iff sampleDisk (fun _ => rfl) (fun _ => 0) openedSys_open hcount
  exact ⟨⟨openedSys_open, hcount⟩, ((hiff.mpr fun _ => by decide).1 (by decide)).1⟩

/-- The sample file has 600 bytes in two clusters, and none has been read. A read of 65536 bytes
    returns 0 and stays at position 0. -/
theorem read_of_65536_returns_zero :
    WellFormed openedSys.fs.fatCache sampleEntry 2 ∧ OpenAs openedSys 3 0 ∧
      (openedSys.fs.files 0).startCluster = sampleEntry.startCluster ∧
      (openedSys.fs.files 0).fileSize = 600 ∧ (openedSys.fs.files 0).position = 0 ∧
      (sysRead sampleDisk (fun _ => 0) openedSys 3 true 65536).1 = 0 ∧
      ((sysRead sampleDisk (fun _ => 0) openedSys 3 true 65536).2.2.fs.files 0).position = 0 :=
  ⟨sample_wellFormed, openedSys_open, by decide, by decide, by decide, by decide, by decide⟩

end VlsOs.Syscall
