import VlsOs.Kernel.ClusterIo
import VlsOs.Kernel.TaskFile
import VlsOs.Schemes.Run

/-! The driver and what it finds on the other side of the ports (`kernel/disk.c`).

    The drives are not part of the kernel. Here they are any device that answers commands and takes
    data, and what is needed of it stands in two structures: `KeepsBlocks` says that what is written
    under an address is read under it, and `ReadsChs` that a command without the LBA bit names its
    first sector by cylinder, head and sector, where the sectors of a track count from 1.

        registers   hddevsel   lba2 lba1   lba0
        LBA         27 ⋯ 24    23  ⋯   8   7 ⋯ 0
        CHS         head       cylinder    sector        ──▶ (cylinder · heads + head) · sectors + sector - 1

    By the first, the driver is a store of blocks by number. By the second, the block of a number is
    not in the sector of this number: a volume that was written by someone else is not found. -/

namespace VlsOs.Disk
open Patterns Patterns.Run Patterns.Trace

/-- The bytes of a sector. -/
abbrev Block : Type := Fin sectorSize → UInt8

/-! ### Calls for one sector -/

inductive SectorOp
  | read (drive : UInt8) (lba : UInt32) (buffer : ℕ → UInt8)
  | write (drive : UInt8) (lba : UInt32) (buffer : ℕ → UInt8)

def SectorOp.drive : SectorOp → UInt8
  | .read drive _ _ => drive
  | .write drive _ _ => drive

/-- The registers of its command. -/
def SectorOp.registers : SectorOp → AtaRegisters
  | .read drive lba _ => ataRegisters ataCmdReadPio drive lba 1
  | .write drive lba _ => ataRegisters ataCmdWritePio drive lba 1

section
-- a device: how it answers a command, and what the driver's actions do to it
variable {σ : Type} (answer : σ → AtaRegisters → DriveAnswer) (takes : σ → DiskEvent → σ)

/-- A call of `disk_read_sector` or `disk_write_sector`, with the result and what is in the buffer. -/
def deviceStep (present : Fin maxDrives → Bool) (s : σ) (op : SectorOp) : σ × ℤ × Block :=
  match op with
  | .read drive lba buffer =>
    let x := diskReadSector present (answer s op.registers) drive lba buffer
    (x.events.foldl takes s, x.val.1, fun k => x.val.2 k)
  | .write drive lba buffer =>
    let x := diskWriteSector present (answer s op.registers) drive lba buffer
    (x.events.foldl takes s, x.val, fun k => buffer k)

/-- The drive is there, it is ready in time, and it gives or asks for the data in time. -/
def accepted (present : Fin maxDrives → Bool) (s : σ) (op : SectorOp) : Bool :=
  ((Table.slot maxDrives op.drive.toNat).any present && (answer s op.registers).ready) &&
    (answer s op.registers).drq 0

/-- ASSUMPTION: the device has a block for each drive and address. It gives the block that the registers
    name, only data that comes after a write command changes a block, and it changes the one that the
    registers named. -/
structure KeepsBlocks (block : σ → ℕ → ℕ → Block) : Prop where
  gives : ∀ s r, r.command = ataCmdReadPio → (answer s r).drq 0 = true →
    ∀ k : Fin sectorSize, (answer s r).data 0 k = block s r.drive r.address k
  command : ∀ s r, block (takes s (.command r)) = block s
  sectorIn : ∀ s, block (takes s .sectorIn) = block s
  stores : ∀ s r bytes, r.command = ataCmdWritePio →
    block (takes (takes s (.command r)) (.sectorOut bytes)) =
      Function.update (block s) r.drive
        (Function.update (block s r.drive) r.address fun k => bytes.getD k 0)

end

/-- The same calls on blocks by drive and number. Only 28 bits of the number count. A call that does not
    go through returns `-1` and changes nothing. -/
def blockStep (m : ℕ → ℕ → Block) : SectorOp × Bool → (ℕ → ℕ → Block) × ℤ × Block
  | (.read drive lba _, true) => (m, 1, m drive.toNat (lba.toNat % 2 ^ 28))
  | (.write drive lba buffer, true) =>
    (Function.update m drive.toNat
      (Function.update (m drive.toNat) (lba.toNat % 2 ^ 28) fun k => buffer k), 1, fun k => buffer k)
  | (.read _ _ buffer, false) => (m, -1, fun k => buffer k)
  | (.write _ _ buffer, false) => (m, -1, fun k => buffer k)

/-! ### One call -/

/-- What becomes of a transfer of one sector. -/
theorem diskTransfer_one (command : UInt8) (event : ℕ → DiskEvent) (present : Fin maxDrives → Bool)
    (answer : DriveAnswer) (drive : UInt8) (lba : UInt32) :
    diskTransfer command event present answer drive lba 1 =
      if ((Table.slot maxDrives drive.toNat).any present && answer.ready) = true then
        if answer.drq 0 = true then ⟨(1, 1), [.command (ataRegisters command drive lba 1), event 0]⟩
        else ⟨(-1, 0), [.command (ataRegisters command drive lba 1)]⟩
      else ⟨(-1, 0), []⟩ := by
  have hloop : sectorLoop answer event (List.range (1 : UInt8).toNat) =
      if answer.drq 0 then ⟨1, [event 0]⟩ else return 0 := rfl
  rw [diskTransfer, hloop]
  cases (Table.slot maxDrives drive.toNat).any present with
  | false => rfl
  | true => cases answer.ready <;> cases answer.drq 0 <;> rfl

theorem received_zero (answer : DriveAnswer) (buffer : ℕ → UInt8) : received answer 0 buffer = buffer := by
  funext k
  rw [received, if_neg (by omega)]

theorem drive_lt_of_slot {drive : UInt8} {present : Fin maxDrives → Bool}
    (h : (Table.slot maxDrives drive.toNat).any present = true) : drive < 4 := by
  obtain ⟨i, hi, -⟩ := (Option.any_eq_true _ _).mp h
  have hdrive : (drive.toNat : ℤ) = i := Table.slot_eq_some.mp hi
  have hlt : (i : ℕ) < 4 := i.isLt
  refine UInt8.lt_iff_toNat_lt.mpr ?_
  show drive.toNat < 4
  omega

section
variable {σ : Type} {answer : σ → AtaRegisters → DriveAnswer} {takes : σ → DiskEvent → σ}
variable {block : σ → ℕ → ℕ → Block} (h : KeepsBlocks answer takes block)
variable (present : Fin maxDrives → Bool)

include h

theorem deviceStep_read (s : σ) (drive : UInt8) (lba : UInt32) (buffer : ℕ → UInt8) :
    let op := SectorOp.read drive lba buffer
    (deviceStep answer takes present s op).2 =
        (blockStep (block s) (op, accepted answer present s op)).2 ∧
      block (deviceStep answer takes present s op).1 =
        (blockStep (block s) (op, accepted answer present s op)).1 := by
  intro op
  have hgives := h.gives s (ataRegisters ataCmdReadPio drive lba 1) rfl
  have hnone (k : Fin sectorSize) :
      received (answer s (ataRegisters ataCmdReadPio drive lba 1)) 0 buffer k = buffer k := by
    rw [received_zero]
  simp only [op, deviceStep, accepted, SectorOp.drive, SectorOp.registers, diskReadSector,
    diskReadSectors, diskTransfer_one]
  generalize hready : ((Table.slot maxDrives drive.toNat).any present &&
    (answer s (ataRegisters ataCmdReadPio drive lba 1)).ready) = ready
  cases ready with
  | false => exact ⟨Prod.ext rfl (funext hnone), rfl⟩
  | true =>
    cases hdrq : (answer s (ataRegisters ataCmdReadPio drive lba 1)).drq 0 with
    | false => exact ⟨Prod.ext rfl (funext hnone), h.command s _⟩
    | true =>
      have hdrive := drive_ataRegisters ataCmdReadPio
        (drive_lt_of_slot ((Bool.and_eq_true _ _).mp hready).1) lba 1
      refine ⟨Prod.ext rfl (funext fun k => ?_), (h.sectorIn _).trans (h.command s _)⟩
      have hk : (k : ℕ) < sectorSize * 1 := k.isLt
      have hdata := hgives hdrq k
      rw [hdrive, address_ataRegisters] at hdata
      refine Eq.trans ?_ hdata
      show received _ 1 buffer k = _
      rw [received, if_pos hk, Nat.div_eq_of_lt k.isLt, Nat.mod_eq_of_lt k.isLt]

theorem deviceStep_write (s : σ) (drive : UInt8) (lba : UInt32) (buffer : ℕ → UInt8) :
    let op := SectorOp.write drive lba buffer
    (deviceStep answer takes present s op).2 =
        (blockStep (block s) (op, accepted answer present s op)).2 ∧
      block (deviceStep answer takes present s op).1 =
        (blockStep (block s) (op, accepted answer present s op)).1 := by
  intro op
  have hstores := h.stores s (ataRegisters ataCmdWritePio drive lba 1)
    (Blocks.stretch buffer (sectorSize * 0) sectorSize) rfl
  simp only [op, deviceStep, accepted, SectorOp.drive, SectorOp.registers, diskWriteSector,
    diskWriteSectors, diskTransfer_one]
  generalize hready : ((Table.slot maxDrives drive.toNat).any present &&
    (answer s (ataRegisters ataCmdWritePio drive lba 1)).ready) = ready
  cases ready with
  | false => exact ⟨rfl, rfl⟩
  | true =>
    cases hdrq : (answer s (ataRegisters ataCmdWritePio drive lba 1)).drq 0 with
    | false => exact ⟨rfl, h.command s _⟩
    | true =>
      have hdrive := drive_ataRegisters ataCmdWritePio
        (drive_lt_of_slot ((Bool.and_eq_true _ _).mp hready).1) lba 1
      have hbytes : (fun k : Fin sectorSize =>
          (Blocks.stretch buffer (sectorSize * 0) sectorSize).getD k 0) =
          fun k : Fin sectorSize => buffer k := by
        funext k
        simp [Blocks.stretch, k.isLt]
      rw [hdrive, address_ataRegisters, hbytes] at hstores
      exact ⟨rfl, hstores⟩

/-- STEP: a call of the driver is a call on the blocks. -/
theorem deviceStep_sim (s : σ) (op : SectorOp) :
    (deviceStep answer takes present s op).2 =
        (blockStep (block s) (op, accepted answer present s op)).2 ∧
      block (deviceStep answer takes present s op).1 =
        (blockStep (block s) (op, accepted answer present s op)).1 := by
  cases op with
  | read drive lba buffer => exact deviceStep_read h present s drive lba buffer
  | write drive lba buffer => exact deviceStep_write h present s drive lba buffer

end

/-- A device that has a block for every address and remembers the last command. -/
def sampleDevice : (ℕ → ℕ → Block) × AtaRegisters → DiskEvent → (ℕ → ℕ → Block) × AtaRegisters
  | (m, _), .command r => (m, r)
  | (m, r), .sectorIn => (m, r)
  | (m, r), .sectorOut bytes =>
    (Function.update m r.drive (Function.update (m r.drive) r.address fun k => bytes.getD k 0), r)

/-- … and is always ready. -/
def sampleAnswer (s : (ℕ → ℕ → Block) × AtaRegisters) (r : AtaRegisters) : DriveAnswer :=
  ⟨true, fun _ => true, fun _ k => s.1 r.drive r.address (Fin.ofNat sectorSize k)⟩

/-- A block is written and read back, and one of a drive that is not there is not. -/
def sampleCalls : List SectorOp :=
  [.write 0 5 fun _ => 7, .read 0 5 fun _ => 0, .read 3 5 fun _ => 1]

/-- The sector that the registers for a number name on a drive with that many heads and sectors in a
    track. -/
def chsSector (heads sectors a : ℕ) : ℕ :=
  (a / 2 ^ 8 % 2 ^ 16 * heads + a / 2 ^ 24 % 2 ^ 4) * sectors + (a % 2 ^ 8 - 1)

/-- ASSUMPTION: the device has its sectors in tracks. A read command without the LBA bit that gives data
    names a sector of a track, and gives this sector and those after it. -/
structure ReadsChs (heads sectors : ℕ) (medium : ℕ → ℕ → UInt8) (answer : AtaRegisters → DriveAnswer) :
    Prop where
  track : ∀ r s, r.lba = none → r.command = ataCmdReadPio → (answer r).drq s = true →
    1 ≤ r.lba0.toNat ∧ r.lba0.toNat ≤ sectors
  data : ∀ r s k, r.lba = none → r.command = ataCmdReadPio → (answer r).drq s = true → k < sectorSize →
    (answer r).data s k = medium (chsSector heads sectors r.address + s) k

/-- The low byte of the address is in `lba0`. -/
theorem address_mod (r : AtaRegisters) : r.address % 2 ^ 8 = r.lba0.toNat := by
  have hlow := r.lba0.toNat_lt
  rw [AtaRegisters.address]
  omega

/-- A sequence of sectors in a buffer. -/
def Holds (medium : ℕ → ℕ → UInt8) (first count : ℕ) (buffer : ℕ → UInt8) : Prop :=
  ∀ k < sectorSize * count, buffer k = medium (first + k / sectorSize) (k % sectorSize)

section
variable {heads sectors : ℕ} {medium : ℕ → ℕ → UInt8} {answer : AtaRegisters → DriveAnswer}

/-- SPEC of a read that returns its count: it has the sectors from the named one on. -/
theorem read_holds (h : ReadsChs heads sectors medium answer) (present : Fin maxDrives → Bool)
    {drive : UInt8} {lba : UInt32} {count : UInt8} (hcount : 0 < count.toNat) {buffer : ℕ → UInt8}
    (hread : (diskReadSectors present (answer (ataRegisters ataCmdReadPio drive lba count)) drive lba count
      buffer).val.1 = count.toNat) :
    (1 ≤ lba.toNat % 2 ^ 8 ∧ lba.toNat % 2 ^ 8 ≤ sectors) ∧
      Holds medium (chsSector heads sectors (lba.toNat % 2 ^ 28)) count.toNat
        (diskReadSectors present (answer (ataRegisters ataCmdReadPio drive lba count)) drive lba count
          buffer).val.2 := by
  have haddress := address_ataRegisters ataCmdReadPio drive lba count
  have hlba := lba_ataRegisters ataCmdReadPio drive lba count
  have hcommand : (ataRegisters ataCmdReadPio drive lba count).command = ataCmdReadPio := rfl
  generalize ataRegisters ataCmdReadPio drive lba count = r at hread haddress hlba hcommand ⊢
  have hval : (diskReadSectors present (answer r) drive lba count buffer).val =
      ((diskTransfer ataCmdReadPio (fun _ => .sectorIn) present (answer r) drive lba count).val.1,
        received (answer r) (diskTransfer ataCmdReadPio (fun _ => .sectorIn) present (answer r) drive lba
          count).val.2 buffer) := rfl
  rw [hval] at hread ⊢
  have hdone : (diskTransfer ataCmdReadPio (fun _ => .sectorIn) present (answer r) drive lba count).val.2 =
      count.toNat := by
    rcases diskTransfer_cases ataCmdReadPio (fun _ => .sectorIn) present (answer r) drive lba count with
      hall | ⟨hfail, -⟩
    · exact congrArg Prod.snd hall
    · rw [hfail] at hread
      omega
  have hdrq : ∀ s < count.toNat, (answer r).drq s = true := by
    have hpresent : (Table.slot maxDrives drive.toNat).any present = true := by
      by_contra habsent
      rw [diskTransfer, if_pos (Bool.eq_false_iff.mpr habsent), val_pure] at hread
      dsimp only at hread
      omega
    intro s hs
    by_contra hno
    have hfail : (diskTransfer ataCmdReadPio (fun _ => .sectorIn) present (answer r) drive lba count).val.1 =
        -1 := (result_diskTransfer hpresent).mpr (.inr ⟨s, hs, Bool.eq_false_iff.mpr hno⟩)
    dsimp only at hread
    rw [hfail] at hread
    omega
  have hlow : lba.toNat % 2 ^ 8 = r.lba0.toNat := by
    rw [← address_mod, haddress]
    omega
  rw [hlow, ← haddress]
  refine ⟨h.track r 0 hlba hcommand (hdrq 0 hcount), fun k hk => ?_⟩
  show received (answer r) _ buffer k = _
  rw [hdone, received, if_pos hk]
  exact h.data r _ _ hlba hcommand (hdrq _ (Nat.div_lt_of_lt_mul hk)) (Nat.mod_lt _ (by decide))

/-- On a drive with a geometry that ATA allows, no number below 2^24 leads to the sector of this number. -/
theorem chsSector_ne (hheads : heads ≤ 16) (hsectors : sectors ≤ 255) {a : ℕ} (ha : a < 2 ^ 24)
    (hone : 1 ≤ a % 2 ^ 8) : chsSector heads sectors a ≠ a := by
  intro hn
  have hcylinder : a / 2 ^ 8 % 2 ^ 16 = a / 2 ^ 8 := by omega
  have hhead : a / 2 ^ 24 % 2 ^ 4 = 0 := by omega
  rw [chsSector, hcylinder, hhead, Nat.add_zero] at hn
  have hprod : a / 2 ^ 8 * (heads * sectors) = a / 2 ^ 8 * 2 ^ 8 + 1 := by
    rw [← Nat.mul_assoc]
    omega
  -- The cylinder divides 1, and a cylinder would have 257 sectors.
  have hcyl : a / 2 ^ 8 = 1 := by
    have hdvd : a / 2 ^ 8 ∣ a / 2 ^ 8 * 2 ^ 8 + 1 := hprod ▸ Nat.dvd_mul_right _ _
    exact Nat.dvd_one.mp ((Nat.dvd_add_right (Nat.dvd_mul_right _ _)).mp hdvd)
  rw [hcyl] at hprod
  interval_cases heads <;> omega

end

/-- A drive with 16 heads and 63 sectors in a track, of which every byte of a sector has its number. -/
def sampleChs (r : AtaRegisters) : DriveAnswer where
  ready := true
  drq _ := decide (1 ≤ r.lba0.toNat ∧ r.lba0.toNat ≤ 63)
  data s _ := UInt8.ofNat (chsSector 16 63 r.address + s)

end VlsOs.Disk
