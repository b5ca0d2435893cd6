import VlsOs.Kernel.Disk

/-! Finding the drives (`disk_init` and `disk_identify` of `kernel/disk.c`).

    Each of the four places for a drive is selected and asked to identify itself. What the controller
    answers is the environment.

        select ──▶ status ──▶ IDENTIFY ──▶ wait for DRQ ──▶ 256 words ──▶ present, counted
                     │ 0xFF                   │ time out
                     ▼                        ▼
                  not present             not present -/

namespace VlsOs.Disk
open Patterns Patterns.Trace

/-- There is a first place. -/
scoped instance neZero_maxDrives : NeZero maxDrives := ⟨by decide⟩

/-- `ata_disk_t`. -/
structure AtaDisk where
  status : UInt8
  cylinders : UInt16
  heads : UInt16
  sectors : UInt16
  totalSectors : UInt32
  model : List UInt8
  present : Bool

/-- `g_disks` and `g_drive_count`. -/
structure Drives where
  disks : Fin maxDrives → AtaDisk
  driveCount : UInt8

/-- The static variables as the loader leaves them. -/
def staticDrives : Drives := ⟨fun _ => ⟨0, 0, 0, 0, 0, List.replicate 41 0, false⟩, 0⟩

def Drives.setDisk (g : Drives) (i : Fin maxDrives) (disk : AtaDisk) : Drives :=
  { g with disks := Function.update g.disks i disk }

/-- How a drive takes an identification: its status when it has been selected, whether it has data
    before the wait is over, and the words it gives. -/
structure IdentifyAnswer where
  status : UInt8
  drq : Bool
  data : ℕ → UInt16

inductive IdentifyEvent
  | outb (port : UInt16) (value : UInt8)
  /-- The 256 words are read from the data port. -/
  | wordsIn (port : UInt16)
  deriving DecidableEq

def ataCmdIdentify : UInt8 := 0xEC

/-- The model: two characters from each of the words 27 to 46, the high byte first, and a NUL. -/
def modelBytes (data : ℕ → UInt16) : List UInt8 :=
  ((List.range 20).flatMap fun i =>
    [(data (27 + i) >>> 8).toUInt8, (data (27 + i)).toUInt8]) ++ [0]

/-- `ata_process_identify`. The product of the geometry is taken in `int`; it is what is stored of it
    in 32 bits. -/
def ataProcessIdentify (disk : AtaDisk) (data : ℕ → UInt16) : AtaDisk :=
  let lbaSectors := (data 61).toUInt32 <<< 16 ||| (data 60).toUInt32
  { disk with
    cylinders := data 1, heads := data 3, sectors := data 6,
    totalSectors :=
      if lbaSectors > 0 then lbaSectors
      else (data 1).toUInt32 * (data 3).toUInt32 * (data 6).toUInt32,
    model := modelBytes data, present := true, status := 1 }

/-- The I/O base and the select byte of a place. -/
def driveSelect (drive : Fin maxDrives) : UInt16 × UInt8 :=
  (if drive < 2 then 0x1F0 else 0x170, if drive = 0 ∨ drive = 2 then 0xA0 else 0xB0)

/-- `disk_identify` of a drive below `MAX_DRIVES`; for others it returns at once. -/
def diskIdentify (g : Drives) (drive : Fin maxDrives) (answer : IdentifyAnswer) :
    Traced IdentifyEvent Drives := do
  let (base, driveSel) := driveSelect drive
  emit (.outb (base + 6) driveSel)
  if answer.status = 0xFF then return g.setDisk drive { g.disks drive with present := false }
  else do
    emit (.outb (base + 7) ataCmdIdentify)
    if answer.drq = false then return g.setDisk drive { g.disks drive with present := false }
    else do
      emit (.wordsIn base)
      return { g.setDisk drive (ataProcessIdentify (g.disks drive) answer.data) with
        driveCount := g.driveCount + 1 }

/-- The loop at the start of `disk_init`; the models are left as they are. -/
def noDrives (g : Drives) : Drives where
  disks i :=
    { g.disks i with
      present := false, status := 0, cylinders := 0, heads := 0, sectors := 0, totalSectors := 0 }
  driveCount := 0

def diskInit (g : Drives) (answer : Fin maxDrives → IdentifyAnswer) : Traced IdentifyEvent Drives := do
  let g ← diskIdentify (noDrives g) 0 (answer 0)
  let g ← diskIdentify g 1 (answer 1)
  let g ← diskIdentify g 2 (answer 2)
  diskIdentify g 3 (answer 3)

/-- `disk_drive_exists`. -/
def diskDriveExists (g : Drives) (drive : UInt8) : Bool :=
  (Table.slot maxDrives drive.toNat).any fun i => (g.disks i).present

/-! ### What is found -/

/-- The drive answers to an identification. -/
def IdentifyAnswer.found (answer : IdentifyAnswer) : Bool := answer.status ≠ 0xFF ∧ answer.drq = true

/-- One identification decides about its place and no other, and counts the drive if it is there. -/
theorem diskIdentify_spec (g : Drives) (drive : Fin maxDrives) (answer : IdentifyAnswer) :
    (∀ i ≠ drive, (diskIdentify g drive answer).val.disks i = g.disks i) ∧
      ((diskIdentify g drive answer).val.disks drive).present = answer.found ∧
      (diskIdentify g drive answer).val.driveCount =
        if answer.found then g.driveCount + 1 else g.driveCount := by
  unfold diskIdentify IdentifyAnswer.found
  by_cases hstatus : answer.status = 0xFF
  · simp +contextual [hstatus, Drives.setDisk, Function.update_of_ne]
  · cases answer.drq <;>
      simp +contextual [hstatus, Drives.setDisk, Function.update_of_ne, ataProcessIdentify]

/-- What is there after `disk_init`: the drives that answer, and their number. -/
theorem diskInit_spec (g : Drives) (answer : Fin maxDrives → IdentifyAnswer) :
    (∀ i, ((diskInit g answer).val.disks i).present = (answer i).found) ∧
      (diskInit g answer).val.driveCount.toNat =
        (Finset.univ.filter fun i => (answer i).found = true).card := by
  obtain ⟨-, hhere₀, hcount₀⟩ := diskIdentify_spec (noDrives g) 0 (answer 0)
  set g₁ := (diskIdentify (noDrives g) 0 (answer 0)).val with hg₁
  obtain ⟨hother₁, hhere₁, hcount₁⟩ := diskIdentify_spec g₁ 1 (answer 1)
  set g₂ := (diskIdentify g₁ 1 (answer 1)).val with hg₂
  obtain ⟨hother₂, hhere₂, hcount₂⟩ := diskIdentify_spec g₂ 2 (answer 2)
  set g₃ := (diskIdentify g₂ 2 (answer 2)).val with hg₃
  obtain ⟨hother₃, hhere₃, hcount₃⟩ := diskIdentify_spec g₃ 3 (answer 3)
  have hinit : (diskInit g answer).val = (diskIdentify g₃ 3 (answer 3)).val := rfl
  rw [hinit]
  constructor
  · intro i
    fin_cases i
    · exact (congrArg AtaDisk.present (((hother₃ 0 (by decide)).trans (hother₂ 0 (by decide))).trans
        (hother₁ 0 (by decide)))).trans hhere₀
    · exact (congrArg AtaDisk.present ((hother₃ 1 (by decide)).trans (hother₂ 1 (by decide)))).trans hhere₁
    · exact (congrArg AtaDisk.present (hother₃ 2 (by decide))).trans hhere₂
    · exact hhere₃
  · have hnone : (noDrives g).driveCount = 0 := rfl
    have hcard : (Finset.univ.filter fun i => (answer i).found = true).card =
        (answer 0).found.toNat + (answer 1).found.toNat + (answer 2).found.toNat +
          (answer 3).found.toNat := by
      rw [Finset.card_filter, Fin.sum_univ_four]
      cases (answer 0).found <;> cases (answer 1).found <;> cases (answer 2).found <;>
        cases (answer 3).found <;> rfl
    rw [hcount₃, hcount₂, hcount₁, hcount₀, hnone, hcard]
    cases (answer 0).found <;> cases (answer 1).found <;> cases (answer 2).found <;>
      cases (answer 3).found <;> rfl

end VlsOs.Disk
