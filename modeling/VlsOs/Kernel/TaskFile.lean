import VlsOs.Kernel.Disk

/-! What a command names, by the rules of ATA.

    The registers that a command is issued with (its task file) say which drive is meant, how its
    sectors are addressed and how many of them are wanted.

        device register   1  LBA  1  DRV  │ address bits 27 ⋯ 24
        0xA0              1   0   1   0   │
        0xB0              1   0   1   1   │

    Without the LBA bit the address registers hold a cylinder, a head and a sector. The driver puts
    `0xA0` or `0xB0` into the upper half and never sets it. -/

namespace VlsOs.Disk
open Patterns Patterns.Trace

/-- The drive that is selected: the channel by its ports, master or slave by bit 4. -/
def AtaRegisters.drive (r : AtaRegisters) : ℕ :=
  (if r.base = 0x1F0 then 0 else 2) + (r.hddevsel.toNat.testBit 4).toNat

/-- The number of the first sector, if the LBA bit says that the registers hold one. -/
def AtaRegisters.lba (r : AtaRegisters) : Option ℕ :=
  if r.hddevsel.toNat.testBit 6 then some r.address else none

/-- How many sectors the command names: a count of `0` stands for 256. -/
def AtaRegisters.named (r : AtaRegisters) : ℕ := if r.seccount = 0 then 256 else r.seccount.toNat

/-- The words that go through the data port in an event. -/
def DiskEvent.words : DiskEvent → ℕ
  | .command _ => 0
  | .sectorIn => 256
  | .sectorOut bytes => bytes.length / 2

/-- A call that returns `-1`, or whose command names the given drive and sector and that moves 256
    words for each sector named. -/
def AddressesSectors (drive : UInt8) (lba : UInt32) (result : ℤ) (events : List DiskEvent) : Prop :=
  result = -1 ∨ ∃ r, .command r ∈ events ∧ r.drive = drive.toNat ∧ r.lba = some lba.toNat ∧
    (events.map DiskEvent.words).sum = 256 * r.named

/-! ### The registers -/

/-- The upper half of the device register is that of the drive select byte. -/
theorem testBit_hddevsel (command drive : UInt8) (lba : UInt32) (count : UInt8) {i : ℕ} (hi : 4 ≤ i) :
    (ataRegisters command drive lba count).hddevsel.toNat.testBit i =
      (if drive = 0 ∨ drive = 2 then (0xA0 : UInt8) else 0xB0).toNat.testBit i := by
  rw [ataRegisters, UInt8.toNat_or, Nat.testBit_or, toNat_low_nibble, Nat.testBit_mod_two_pow,
    decide_eq_false (not_lt.mpr hi), Bool.false_and, Bool.or_false]

/-- The drive is the one that was asked for. -/
theorem drive_ataRegisters (command : UInt8) {drive : UInt8} (hdrive : drive < 4) (lba : UInt32)
    (count : UInt8) : (ataRegisters command drive lba count).drive = drive.toNat := by
  have hall : ∀ d : Fin 4, (if UInt8.ofNat d < 2 then 0 else 2) +
      ((if UInt8.ofNat d = 0 ∨ UInt8.ofNat d = 2 then (0xA0 : UInt8) else 0xB0).toNat.testBit 4).toNat =
        (UInt8.ofNat d).toNat := by decide
  have hd := hall ⟨drive.toNat, UInt8.lt_iff_toNat_lt.mp hdrive⟩
  dsimp only at hd
  rw [UInt8.ofNat_toNat] at hd
  rw [AtaRegisters.drive, testBit_hddevsel command drive lba count le_rfl]
  refine Eq.trans ?_ hd
  refine congrArg (· + _) ?_
  rw [ataRegisters]
  split <;> rfl

/-- The LBA bit is never set. -/
theorem lba_ataRegisters (command drive : UInt8) (lba : UInt32) (count : UInt8) :
    (ataRegisters command drive lba count).lba = none := by
  have hselect : (if drive = 0 ∨ drive = 2 then (0xA0 : UInt8) else 0xB0).toNat.testBit 6 = false := by
    split <;> decide
  rw [AtaRegisters.lba, testBit_hddevsel command drive lba count (by decide), hselect]
  rfl

/-! ### The transfer -/

section
variable {answer : DriveAnswer} {event : ℕ → DiskEvent} {present : Fin maxDrives → Bool}
variable {command drive : UInt8} {lba : UInt32} {count : UInt8}

theorem sectorLoop_eq_length_iff (l : List ℕ) :
    (sectorLoop answer event l).val = l.length ↔ ∀ s ∈ l, answer.drq s = true := by
  induction l with
  | nil => simp [sectorLoop]
  | cons s rest ih =>
    rw [sectorLoop]
    by_cases hdrq : answer.drq s = true
    · simp [hdrq, ih]
    · simp [hdrq]

/-- A drive that is there returns `-1` exactly when it is not ready or a wait for a sector times out. -/
theorem result_diskTransfer (hpresent : (Table.slot maxDrives drive.toNat).any present = true) :
    (diskTransfer command event present answer drive lba count).val.1 = -1 ↔
      answer.ready = false ∨ ∃ s < count.toNat, answer.drq s = false := by
  rw [diskTransfer, if_neg (by rw [hpresent]; decide)]
  cases hready : answer.ready with
  | false => simp
  | true =>
    have hall : (sectorLoop answer event (List.range count.toNat)).val =
        (List.range count.toNat).length ↔ _ := sectorLoop_eq_length_iff _
    rw [List.length_range] at hall
    rw [if_neg (by decide), val_bind, val_bind, val_pure]
    dsimp only
    by_cases hdone : (sectorLoop answer event (List.range count.toNat)).val = count.toNat
    · rw [if_pos hdone]
      refine iff_of_false (by omega) ?_
      rintro (hno | ⟨s, hs, hdrq⟩)
      · cases hno
      · rw [hall.mp hdone s (List.mem_range.mpr hs)] at hdrq
        cases hdrq
    · rw [if_neg hdone]
      refine iff_of_true rfl (.inr ?_)
      by_contra hnone
      refine hdone (hall.mpr fun s hs => ?_)
      by_contra hdrq
      exact hnone ⟨s, List.mem_range.mp hs, Bool.eq_false_iff.mpr hdrq⟩

/-- No event of a transfer is a command other than the one for the call. -/
theorem command_diskTransfer (hevent : ∀ s r, event s ≠ .command r) {r : AtaRegisters}
    (h : .command r ∈ (diskTransfer command event present answer drive lba count).events) :
    r = ataRegisters command drive lba count := by
  have hloop : ∀ l, .command r ∉ (sectorLoop answer event l).events := by
    intro l
    induction l with
    | nil => exact List.not_mem_nil
    | cons s rest ih =>
      rw [sectorLoop]
      split
      · simpa [Ne.symm (hevent s r)] using ih
      · exact List.not_mem_nil
  rw [diskTransfer] at h
  split at h
  · cases h
  · split at h
    · cases h
    · simpa [hloop] using h

theorem addressesSectors_diskTransfer (hevent : ∀ s r, event s ≠ .command r)
    (hpresent : (Table.slot maxDrives drive.toNat).any present = true) :
    AddressesSectors drive lba (diskTransfer command event present answer drive lba count).val.1
        (diskTransfer command event present answer drive lba count).events ↔
      answer.ready = false ∨ ∃ s < count.toNat, answer.drq s = false := by
  rw [AddressesSectors, result_diskTransfer hpresent]
  refine or_iff_left ?_
  rintro ⟨r, hcommand, -, hlba, -⟩
  rw [command_diskTransfer hevent hcommand, lba_ataRegisters] at hlba
  cases hlba

end

/-- CORRECT: on a drive that is there, the calls do what they are asked to exactly when they return `-1`:
    no command that is issued names a sector. -/
theorem disk_commands_address_iff (present : Fin maxDrives → Bool) (answer : DriveAnswer) (drive : UInt8)
    (lba : UInt32) (count : UInt8) (buffer : ℕ → UInt8)
    (hpresent : (Table.slot maxDrives drive.toNat).any present = true) :
    (AddressesSectors drive lba (diskReadSectors present answer drive lba count buffer).val.1
        (diskReadSectors present answer drive lba count buffer).events ∧
      AddressesSectors drive lba (diskWriteSectors present answer drive lba count buffer).val
        (diskWriteSectors present answer drive lba count buffer).events) ↔
      answer.ready = false ∨ ∃ s < count.toNat, answer.drq s = false := by
  refine Iff.trans (and_congr ?_ ?_) and_self_iff
  · rw [diskReadSectors, events_bind, events_pure, List.append_nil]
    exact addressesSectors_diskTransfer (by simp) hpresent
  · rw [diskWriteSectors, events_bind, events_pure, List.append_nil]
    exact addressesSectors_diskTransfer (by simp) hpresent

/-- A drive that takes every command at once. -/
def readyDrive : DriveAnswer := ⟨true, fun _ => true, fun _ _ => 0⟩

theorem disk_commands_address_first :
    (Table.slot maxDrives (0 : UInt8).toNat).any (fun _ => true) = true ∧
      ((AddressesSectors 0 5 (diskReadSectors (fun _ => true) readyDrive 0 5 1 fun _ => 0).val.1
          (diskReadSectors (fun _ => true) readyDrive 0 5 1 fun _ => 0).events ∧
        AddressesSectors 0 5 (diskWriteSectors (fun _ => true) readyDrive 0 5 1 fun _ => 0).val
          (diskWriteSectors (fun _ => true) readyDrive 0 5 1 fun _ => 0).events) ↔
        readyDrive.ready = false ∨ ∃ s < (1 : UInt8).toNat, readyDrive.drq s = false) :=
  ⟨by decide, disk_commands_address_iff _ _ _ _ _ _ (by decide)⟩

/-- A read of sector 5 goes out without the LBA bit. With a count of `0` a command for 256 sectors is
    issued, none of them is read, and the call returns `0`. -/
theorem disk_command_without_lba :
    (diskReadSectors (fun _ => true) readyDrive 0 5 1 fun _ => 0).val.1 = 1 ∧
      (diskReadSectors (fun _ => true) readyDrive 0 5 1 fun _ => 0).events =
        [.command (ataRegisters ataCmdReadPio 0 5 1), .sectorIn] ∧
      (ataRegisters ataCmdReadPio 0 5 1).lba = none ∧
      (diskReadSectors (fun _ => true) readyDrive 0 5 0 fun _ => 0).val.1 = 0 ∧
      (diskReadSectors (fun _ => true) readyDrive 0 5 0 fun _ => 0).events =
        [.command (ataRegisters ataCmdReadPio 0 5 0)] ∧
      (ataRegisters ataCmdReadPio 0 5 0).named = 256 ∧
      ¬ AddressesSectors 0 5 (diskReadSectors (fun _ => true) readyDrive 0 5 1 fun _ => 0).val.1
        (diskReadSectors (fun _ => true) readyDrive 0 5 1 fun _ => 0).events := by
  refine ⟨rfl, rfl, lba_ataRegisters .., rfl, rfl, rfl, ?_⟩
  have hevents : (diskReadSectors (fun _ => true) readyDrive 0 5 1 fun _ => 0).events =
      [.command (ataRegisters ataCmdReadPio 0 5 1), .sectorIn] := rfl
  rintro (hresult | ⟨r, hcommand, -, hlba, -⟩)
  · cases hresult
  · rw [hevents] at hcommand
    simp only [List.mem_cons, DiskEvent.command.injEq, List.not_mem_nil, or_false, reduceCtorEq]
      at hcommand
    rw [hcommand, lba_ataRegisters] at hlba
    cases hlba

end VlsOs.Disk
