import VlsOs.Kernel.Disk

/-! What `fs_read_cluster` and `fs_write_cluster` ask of the driver.

    Both hand the number that `cluster_to_lba` gives to the driver for one sector, and do nothing else.
    The clusters of the data area are 2 to 2848; the numbers 0 and 1 stand for the root directory.

        sector   0      1 … 18      19 … 32       33 … 2879
                 boot   FAT × 2     root dir      data area
        cluster                     0, 1 ─▶ 19    2 … 2848 ─▶ cluster + 31

    The driver is a parameter: the results are about the number that it is called with. Which sector a
    drive finds under that number is a matter of the registers. -/

namespace VlsOs.Disk
open Patterns Patterns.Trace VlsOs.Fs

def fsTotalSectors : UInt32 := 2880

/-! ### The driver that is called -/

/-- `disk_read_sector` and `disk_write_sector`. -/
structure SectorDriver (m : Type → Type) where
  readSector (drive : UInt8) (lba : UInt32) (buffer : ℕ → UInt8) : m (ℤ × (ℕ → UInt8))
  writeSector (drive : UInt8) (lba : UInt32) (buffer : ℕ → UInt8) : m ℤ

section
variable {m : Type → Type} [Monad m] (driver : SectorDriver m)

def fsReadCluster (cluster : UInt32) (buffer : Option (ℕ → UInt8)) :
    m (ℤ × Option (ℕ → UInt8)) :=
  match buffer with
  | none => return (-1, none)
  | some buffer => do
    let (result, buffer) ← driver.readSector 0 (clusterToLba cluster) buffer
    return (result, some buffer)

def fsWriteCluster (cluster : UInt32) (buffer : Option (ℕ → UInt8)) : m ℤ :=
  match buffer with
  | none => return -1
  | some buffer => driver.writeSector 0 (clusterToLba cluster) buffer

end

/-- The driver of `kernel/disk.c`. -/
def ataDriver (present : Fin maxDrives → Bool) (answer : DriveAnswer) :
    SectorDriver (Traced DiskEvent) where
  readSector := diskReadSector present answer
  writeSector := diskWriteSector present answer

/-- A call of the driver. -/
inductive SectorCall
  | read (drive : UInt8) (lba : UInt32)
  | write (drive : UInt8) (lba : UInt32)
  deriving DecidableEq

/-- A driver with any results, which keeps a record of its calls. -/
def SectorDriver.recorded (driver : SectorDriver Id) : SectorDriver (Traced SectorCall) where
  readSector drive lba buffer := do
    emit (.read drive lba)
    return driver.readSector drive lba buffer
  writeSector drive lba buffer := do
    emit (.write drive lba)
    return driver.writeSector drive lba buffer

/-- The commands among the events. -/
def commands (events : List DiskEvent) : List AtaRegisters :=
  events.filterMap fun e =>
    match e with
    | .command registers => some registers
    | .sectorIn | .sectorOut _ => none

/-- The result is `-1` without a call, or there is this call alone. -/
def AtMostCall (call : SectorCall) (result : ℤ) (calls : List SectorCall) : Prop :=
  result = -1 ∧ calls = [] ∨ calls = [call]

/-- The result is `-1` before the controller sees anything, or there is this command alone. -/
def AtMostCommand (registers : AtaRegisters) (result : ℤ) (events : List DiskEvent) : Prop :=
  result = -1 ∧ events = [] ∨ commands events = [registers]

/-! ### One command -/

/-- The data of a command is no command. -/
theorem commands_sectorLoop (answer : DriveAnswer) {event : ℕ → DiskEvent}
    (hdata : ∀ s, commands [event s] = []) (l : List ℕ) :
    commands (sectorLoop answer event l).events = [] := by
  induction l with
  | nil => rfl
  | cons s rest ih =>
    have hs := hdata s
    rw [sectorLoop]
    split
    · simp_all [commands]
    · rfl

/-- A transfer gives its own command at most. -/
theorem atMostCommand_transfer (command : UInt8) {event : ℕ → DiskEvent}
    (hdata : ∀ s, commands [event s] = []) (present : Fin maxDrives → Bool) (answer : DriveAnswer)
    (drive : UInt8) (lba : UInt32) (count : UInt8) :
    AtMostCommand (ataRegisters command drive lba count)
      (diskTransfer command event present answer drive lba count).val.1
      (diskTransfer command event present answer drive lba count).events := by
  unfold diskTransfer
  split
  · exact .inl ⟨rfl, rfl⟩
  · split
    · exact .inl ⟨rfl, rfl⟩
    · refine .inr ?_
      have hloop := commands_sectorLoop answer hdata (List.range count.toNat)
      simp_all [commands]

theorem atMostCommand_write (present : Fin maxDrives → Bool) (answer : DriveAnswer) (cluster : UInt32)
    (buffer : Option (ℕ → UInt8)) :
    AtMostCommand (ataRegisters ataCmdWritePio 0 (clusterToLba cluster) 1)
      (fsWriteCluster (ataDriver present answer) cluster buffer).val
      (fsWriteCluster (ataDriver present answer) cluster buffer).events := by
  cases buffer with
  | none => exact .inl ⟨rfl, rfl⟩
  | some buffer =>
    simpa [fsWriteCluster, ataDriver, diskWriteSector, diskWriteSectors] using
      @atMostCommand_transfer ataCmdWritePio
        (fun s => .sectorOut (Blocks.stretch buffer (sectorSize * s) sectorSize))
        (fun _ => rfl) present answer 0 (clusterToLba cluster) 1

theorem atMostCommand_read (present : Fin maxDrives → Bool) (answer : DriveAnswer) (cluster : UInt32)
    (buffer : Option (ℕ → UInt8)) :
    AtMostCommand (ataRegisters ataCmdReadPio 0 (clusterToLba cluster) 1)
      (fsReadCluster (ataDriver present answer) cluster buffer).val.1
      (fsReadCluster (ataDriver present answer) cluster buffer).events := by
  cases buffer with
  | none => exact .inl ⟨rfl, rfl⟩
  | some buffer =>
    simpa [fsReadCluster, ataDriver, diskReadSector, diskReadSectors] using
      @atMostCommand_transfer ataCmdReadPio (fun _ => .sectorIn) (fun _ => rfl) present answer 0
        (clusterToLba cluster) 1

/-! ### The number of a cluster -/

/-- A cluster of the data area. -/
def DataCluster (cluster : UInt32) : Prop := 2 ≤ cluster ∧ cluster ≤ 2848

theorem clusterToLba_data {cluster : UInt32} (h : DataCluster cluster) :
    (clusterToLba cluster).toNat = cluster.toNat + 31 := by
  obtain ⟨hlow, hhigh⟩ := h
  have hlow' : 2 ≤ cluster.toNat := UInt32.le_iff_toNat_le.mp hlow
  have hhigh' : cluster.toNat ≤ 2848 := UInt32.le_iff_toNat_le.mp hhigh
  have hstart : fsDataStartSector.toNat = 33 := rfl
  rw [clusterToLba, if_neg (UInt32.not_lt.mpr hlow), UInt32.mul_one, UInt32.toNat_add,
    UInt32.toNat_sub_of_le _ _ hlow, hstart]
  change (33 + (cluster.toNat - 2)) % 2 ^ 32 = _
  omega

/-- The number of a data cluster is one of the data area. -/
theorem clusterToLba_mem {cluster : UInt32} (h : DataCluster cluster) :
    fsDataStartSector ≤ clusterToLba cluster ∧ clusterToLba cluster < fsTotalSectors := by
  have hlba := clusterToLba_data h
  have hlow : 2 ≤ cluster.toNat := UInt32.le_iff_toNat_le.mp h.1
  have hhigh : cluster.toNat ≤ 2848 := UInt32.le_iff_toNat_le.mp h.2
  constructor
  · refine UInt32.le_iff_toNat_le.mpr ?_
    change 33 ≤ (clusterToLba cluster).toNat
    omega
  · refine UInt32.lt_iff_toNat_lt.mpr ?_
    change (clusterToLba cluster).toNat < 2880
    omega

/-- No two data clusters have one number. -/
theorem clusterToLba_inj {cluster other : UInt32} (h : DataCluster cluster) (hother : DataCluster other)
    (hsame : clusterToLba other = clusterToLba cluster) : other = cluster := by
  have hlba := congrArg UInt32.toNat hsame
  rw [clusterToLba_data hother, clusterToLba_data h] at hlba
  exact UInt32.toNat_inj.mp (by omega)

/-- SAFETY: a read or a write of a cluster calls the driver at most once, for the number of the cluster,
    and of `kernel/disk.c` it gets one command for one sector at most, with that number. The number of
    a data cluster lies in the data area and is no other data cluster's; that of 0 and 1 is the first
    one of the root directory. -/
theorem cluster_io_in_place (driver : SectorDriver Id) (present : Fin maxDrives → Bool)
    (answer : DriveAnswer) (cluster : UInt32) (buffer : Option (ℕ → UInt8)) :
    let lba := clusterToLba cluster
    let read := fsReadCluster driver.recorded cluster buffer
    let write := fsWriteCluster driver.recorded cluster buffer
    let ataRead := fsReadCluster (ataDriver present answer) cluster buffer
    let ataWrite := fsWriteCluster (ataDriver present answer) cluster buffer
    (AtMostCall (.read 0 lba) read.val.1 read.events ∧
      AtMostCall (.write 0 lba) write.val write.events) ∧
    (AtMostCommand (ataRegisters ataCmdReadPio 0 lba 1) ataRead.val.1 ataRead.events ∧
      AtMostCommand (ataRegisters ataCmdWritePio 0 lba 1) ataWrite.val ataWrite.events) ∧
    (DataCluster cluster →
      (fsDataStartSector ≤ lba ∧ lba < fsTotalSectors) ∧
      ∀ other, DataCluster other → other ≠ cluster → clusterToLba other ≠ lba) ∧
    (cluster < 2 → lba = fsRootDirSector) := by
  intro lba read write ataRead ataWrite
  refine ⟨?_, ⟨atMostCommand_read present answer cluster buffer,
      atMostCommand_write present answer cluster buffer⟩,
    fun hdata => ⟨clusterToLba_mem hdata, ?_⟩, fun hreserved => if_pos hreserved⟩
  · cases buffer with
    | none => exact ⟨.inl ⟨rfl, rfl⟩, .inl ⟨rfl, rfl⟩⟩
    | some buffer => exact ⟨.inr rfl, .inr rfl⟩
  · exact fun other hother hne hsame => hne (clusterToLba_inj hdata hother hsame)

/-- A write of cluster 0 asks a driver that takes every call for the first sector of the root directory,
    outside the data area, and so does one of cluster 1. -/
theorem cluster_zero_is_root :
    let driver : SectorDriver Id := ⟨fun _ _ buffer => (1, buffer), fun _ _ _ => 1⟩
    let write (cluster : UInt32) := fsWriteCluster driver.recorded cluster (some fun _ => 0)
    (write 0).val = 1 ∧ (write 0).events = [.write 0 19] ∧ fsRootDirSector = 19 ∧
      (∀ lba, fsDataStartSector ≤ lba → ¬AtMostCall (.write 0 lba) (write 0).val (write 0).events) ∧
      (write 0).events = (write 1).events := by
  intro driver write
  have hcalls : (write 0).events = [.write 0 19] := by decide
  refine ⟨by decide, hcalls, by decide, fun lba hlow hmost => ?_, by decide⟩
  rcases hmost with ⟨hfail, -⟩ | hone
  · exact absurd hfail (by decide)
  · rw [hcalls, List.cons.injEq, SectorCall.write.injEq] at hone
    rw [← hone.1.2] at hlow
    exact absurd hlow (by decide)

end VlsOs.Disk
