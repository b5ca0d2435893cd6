import VlsOs.Schemes.Trace
import VlsOs.Kernel.Filesystem

/-! The ATA driver of `kernel/disk.c`: commands for whole sectors.

    `disk_read_sectors` and `disk_write_sectors` write the address into four registers, 28 bits of
    it, and then the command; the data follows through the data port, one sector at a time. What the
    controller answers is the environment: `ready` is the wait before the command, `drq s` the wait
    before sector `s`, `data s` what the data port gives for it. The events are what the controller
    sees.

        drive missing, not ready ──▶ -1, no register written
        command ──▶ drq 0 ──▶ sector 0 ──▶ drq 1 ──▶ sector 1 ⋯ ──▶ count
                      └──────────── time out ────────┴──────────▶ -1 -/

namespace VlsOs.Disk
open Patterns Patterns.Trace

abbrev maxDrives : ℕ := 4

abbrev sectorSize : ℕ := 512

def ataCmdReadPio : UInt8 := 0x20

def ataCmdWritePio : UInt8 := 0x30

/-- The registers of a controller when the command register is written. -/
structure AtaRegisters where
  base : UInt16
  seccount : UInt8
  lba0 : UInt8
  lba1 : UInt8
  lba2 : UInt8
  hddevsel : UInt8
  command : UInt8
  deriving DecidableEq

/-- The 28 bits in the address registers. Whether a drive takes them for the number of a sector depends
    on a further bit of `hddevsel`. -/
def AtaRegisters.address (r : AtaRegisters) : ℕ :=
  r.lba0.toNat + 2 ^ 8 * r.lba1.toNat + 2 ^ 16 * r.lba2.toNat + 2 ^ 24 * (r.hddevsel.toNat % 2 ^ 4)

inductive DiskEvent
  | command (registers : AtaRegisters)
  /-- The 256 words of the next sector are read from the data port. -/
  | sectorIn
  /-- The 256 words of a sector are written to the data port. -/
  | sectorOut (bytes : List UInt8)
  deriving DecidableEq

/-- How a controller takes a command. -/
structure DriveAnswer where
  ready : Bool
  drq : ℕ → Bool
  data : ℕ → ℕ → UInt8

/-- The loop over the sectors of a command: how many of them went through. -/
def sectorLoop (answer : DriveAnswer) (event : ℕ → DiskEvent) : List ℕ → Traced DiskEvent ℕ
  | [] => return 0
  | s :: rest =>
    if answer.drq s then do
      emit (event s)
      let done ← sectorLoop answer event rest
      return done + 1
    else return 0

/-- The registers for a command on a drive. -/
def ataRegisters (command drive : UInt8) (lba : UInt32) (count : UInt8) : AtaRegisters where
  base := if drive < 2 then 0x1F0 else 0x170
  seccount := count
  lba0 := (lba &&& 0xFF).toUInt8
  lba1 := ((lba >>> 8) &&& 0xFF).toUInt8
  lba2 := ((lba >>> 16) &&& 0xFF).toUInt8
  hddevsel := (if drive = 0 ∨ drive = 2 then (0xA0 : UInt8) else 0xB0) ||| ((lba >>> 24) &&& 0x0F).toUInt8
  command := command

/-- `disk_read_sectors` and `disk_write_sectors` but for the data: the result and how many sectors
    went through. `present` is the field of that name in `g_disks`. -/
def diskTransfer (command : UInt8) (event : ℕ → DiskEvent) (present : Fin maxDrives → Bool)
    (answer : DriveAnswer) (drive : UInt8) (lba : UInt32) (count : UInt8) :
    Traced DiskEvent (ℤ × ℕ) :=
  if (Table.slot maxDrives drive.toNat).any present = false then return (-1, 0)
  else if answer.ready = false then return (-1, 0)
  else do
    emit (.command (ataRegisters command drive lba count))
    let done ← sectorLoop answer event (List.range count.toNat)
    return (if done = count.toNat then (count.toNat : ℤ) else -1, done)

/-- The buffer after some sectors have arrived in it. -/
def received (answer : DriveAnswer) (done : ℕ) (buffer : ℕ → UInt8) : ℕ → UInt8 :=
  fun k => if k < sectorSize * done then answer.data (k / sectorSize) (k % sectorSize) else buffer k

def diskReadSectors (present : Fin maxDrives → Bool) (answer : DriveAnswer) (drive : UInt8)
    (lba : UInt32) (count : UInt8) (buffer : ℕ → UInt8) : Traced DiskEvent (ℤ × (ℕ → UInt8)) := do
  let (result, done) ← diskTransfer ataCmdReadPio (fun _ => .sectorIn) present answer drive lba count
  return (result, received answer done buffer)

def diskWriteSectors (present : Fin maxDrives → Bool) (answer : DriveAnswer) (drive : UInt8)
    (lba : UInt32) (count : UInt8) (buffer : ℕ → UInt8) : Traced DiskEvent ℤ := do
  let (result, _) ← diskTransfer ataCmdWritePio
    (fun s => .sectorOut (Blocks.stretch buffer (sectorSize * s) sectorSize)) present answer drive
    lba count
  return result

def diskReadSector (present : Fin maxDrives → Bool) (answer : DriveAnswer) (drive : UInt8)
    (lba : UInt32) (buffer : ℕ → UInt8) : Traced DiskEvent (ℤ × (ℕ → UInt8)) :=
  diskReadSectors present answer drive lba 1 buffer

def diskWriteSector (present : Fin maxDrives → Bool) (answer : DriveAnswer) (drive : UInt8)
    (lba : UInt32) (buffer : ℕ → UInt8) : Traced DiskEvent ℤ :=
  diskWriteSectors present answer drive lba 1 buffer

/-! ### The address -/

theorem toNat_low_byte (x : UInt32) : (x &&& 0xFF).toUInt8.toNat = x.toNat % 2 ^ 8 := by
  rw [UInt32.toNat_toUInt8, UInt32.toNat_and]
  refine (congrArg (· % 2 ^ 8) (Nat.and_two_pow_sub_one_eq_mod x.toNat 8)).trans ?_
  exact Nat.mod_mod _ _

theorem toNat_low_nibble (x : UInt32) : (x &&& 0x0F).toUInt8.toNat = x.toNat % 2 ^ 4 := by
  rw [UInt32.toNat_toUInt8, UInt32.toNat_and]
  refine (congrArg (· % 2 ^ 8) (Nat.and_two_pow_sub_one_eq_mod x.toNat 4)).trans ?_
  exact Nat.mod_eq_of_lt (by omega)

/-- The drive bits leave the nibble of the address alone. -/
theorem toNat_hddevsel (c : Prop) [Decidable c] (x : UInt32) :
    ((if c then (0xA0 : UInt8) else 0xB0) ||| (x &&& 0x0F).toUInt8).toNat % 2 ^ 4 =
      x.toNat % 2 ^ 4 := by
  have hlow : (if c then (0xA0 : UInt8) else 0xB0).toNat % 2 ^ 4 = 0 := by split <;> rfl
  rw [UInt8.toNat_or, Nat.or_mod_two_pow, hlow, Nat.zero_or, toNat_low_nibble, Nat.mod_mod]

/-- The registers hold 28 bits of the sector number. -/
theorem address_ataRegisters (command drive : UInt8) (lba : UInt32) (count : UInt8) :
    (ataRegisters command drive lba count).address = lba.toNat % 2 ^ 28 := by
  have hshift : ∀ k : UInt32, (lba >>> k).toNat = lba.toNat / 2 ^ (k.toNat % 32) := by
    intro k
    rw [UInt32.toNat_shiftRight, Nat.shiftRight_eq_div_pow]
  simp only [AtaRegisters.address, ataRegisters, toNat_low_byte, toNat_hddevsel, hshift]
  simp only [UInt32.reduceToNat, Nat.reduceMod, Nat.reducePow]
  omega

/-! ### The driver and the file system's view of it -/

theorem sectorLoop_le (answer : DriveAnswer) (event : ℕ → DiskEvent) (l : List ℕ) :
    (sectorLoop answer event l).val ≤ l.length := by
  induction l with
  | nil => exact Nat.le_refl 0
  | cons s rest ih =>
    rw [sectorLoop]
    split
    · simpa using ih
    · exact Nat.zero_le _

/-- How far a command gets: all the way, or it returns `-1`. -/
theorem diskTransfer_cases (command : UInt8) (event : ℕ → DiskEvent)
    (present : Fin maxDrives → Bool) (answer : DriveAnswer) (drive : UInt8) (lba : UInt32)
    (count : UInt8) :
    let t := (diskTransfer command event present answer drive lba count).val
    t = ((count.toNat : ℤ), count.toNat) ∨ t.1 = -1 ∧ t.2 ≤ count.toNat - 1 := by
  have hle := sectorLoop_le answer event (List.range count.toNat)
  rw [List.length_range] at hle
  simp only [diskTransfer]
  split
  · exact .inr ⟨rfl, Nat.zero_le _⟩
  · split
    · exact .inr ⟨rfl, Nat.zero_le _⟩
    · simp only [val_bind, val_pure]
      split
      · rename_i hdone
        exact .inl (by rw [hdone])
      · exact .inr ⟨rfl, by omega⟩

/-- REFINEMENT: the read commands of the file system's disk are what the driver does, when the disk
    says of the command how far it gets and holds what the data port gives. -/
theorem diskReadSectors_refines (d : Fs.Disk) (n : ℕ) (present : Fin maxDrives → Bool)
    (answer : DriveAnswer) (drive : UInt8) (lba : UInt32) (count : UInt8) (buffer : ℕ → UInt8)
    (hstops : let t := (diskTransfer ataCmdReadPio (fun _ => .sectorIn) present answer drive lba
        count).val
      d.stopsAfter n = if t.1 = -1 then some t.2 else none)
    (hdata : ∀ s < count.toNat, d.sector (lba + UInt32.ofNat s) = answer.data s) :
    (diskReadSectors present answer drive lba count buffer).val =
      Fs.diskReadSectors d n lba count.toNat buffer := by
  have htransfer : ∀ done ≤ count.toNat,
      received answer done buffer = d.transfer lba done buffer := by
    intro done hle
    funext k
    rw [received, Fs.Disk.transfer]
    split
    · rename_i hk
      rw [hdata _ (Nat.lt_of_lt_of_le (Nat.div_lt_of_lt_mul hk) hle)]
    · rfl
  have hval : (diskReadSectors present answer drive lba count buffer).val =
      ((diskTransfer ataCmdReadPio (fun _ => .sectorIn) present answer drive lba count).val.1,
        received answer (diskTransfer ataCmdReadPio (fun _ => .sectorIn) present answer drive lba
          count).val.2 buffer) := rfl
  rw [hval]
  simp only at hstops
  rcases diskTransfer_cases ataCmdReadPio (fun _ => .sectorIn) present answer drive lba count with
    hall | ⟨hfail, hdone⟩
  · rw [hall, if_neg (by simp only; omega)] at hstops
    rw [hall, Fs.diskReadSectors, hstops, htransfer _ (Nat.le_refl _)]
  · rw [if_pos hfail] at hstops
    rw [hfail, Fs.diskReadSectors, hstops, htransfer _ (by omega)]
    simp only [Nat.min_eq_left hdone]

end VlsOs.Disk
