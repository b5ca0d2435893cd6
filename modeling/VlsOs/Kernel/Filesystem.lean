import VlsOs.Schemes.Table
import VlsOs.Schemes.Blocks
import VlsOs.Schemes.Trace
import VlsOs.Kernel.Memory
import VlsOs.Libc.String

/-! The FAT12 file system of `kernel/filesystem.c`.

    The static variables are the fields of `FsState`. The two caches are known by their bytes
    (`none` is the NULL pointer), so a byte past the end of a cache is whatever stands there: `fs_init`
    reads both off one memory. The disk is the environment: `sector` is what it holds, and `stopsAfter` says of the `n`-th read
    command whether it completes or stops after some sectors. `reads` counts the read commands.

        directory entry ──▶ c₀ ──fat12_get_next──▶ c₁ ──▶ c₂ ──▶ … ──▶ end mark
                             │                      │      │
        file contents    sector(c₀)           sector(c₁)  sector(c₂) … -/

namespace VlsOs.Fs
open Patterns VlsOs.Libc VlsOs.Memory

/-! ### Geometry -/

abbrev fsBytesPerSector : ℕ := 512

abbrev fsRootEntries : ℕ := 224

abbrev fsSectorsPerFat : ℕ := 9

abbrev fsRootDirSectors : ℕ := fsRootEntries * 32 / fsBytesPerSector

def fsFatStartSector : UInt32 := 1

def fsRootDirSector : UInt32 := fsFatStartSector + 2 * 9

def fsDataStartSector : UInt32 := fsRootDirSector + 14

def fsClusterMax : UInt32 := 0xFF8

def fsClusterEof : UInt32 := 0xFFF

abbrev fsMaxFiles : ℕ := 16

/-! ### The disk -/

/-- What the disk holds, and how its read commands go: the `n`-th one completes (`none`) or stops
    with an error after some sectors. -/
structure Disk where
  sector : UInt32 → ℕ → UInt8
  stopsAfter : ℕ → Option ℕ

/-- The `n`-th read command fails. -/
def Disk.fails (d : Disk) (n : ℕ) : Bool := (d.stopsAfter n).isSome

/-- The buffer after `count` sectors from `lba` on have arrived in it. -/
def Disk.transfer (d : Disk) (lba : UInt32) (count : ℕ) (buffer : ℕ → UInt8) : ℕ → UInt8 :=
  fun k =>
    if k < fsBytesPerSector * count then
      d.sector (lba + UInt32.ofNat (k / fsBytesPerSector)) (k % fsBytesPerSector)
    else buffer k

/-- `disk_read_sectors` as the `n`-th read command. -/
def diskReadSectors (d : Disk) (n : ℕ) (lba : UInt32) (count : ℕ) (buffer : ℕ → UInt8) :
    ℤ × (ℕ → UInt8) :=
  match d.stopsAfter n with
  | none => (count, d.transfer lba count buffer)
  | some sectors => (-1, d.transfer lba (min sectors (count - 1)) buffer)

/-- `disk_read_sector`. -/
def diskReadSector (d : Disk) (n : ℕ) (lba : UInt32) (buffer : ℕ → UInt8) : ℤ × (ℕ → UInt8) :=
  diskReadSectors d n lba 1 buffer

/-! ### State -/

/-- The fields of `fs_dir_entry_t` that the file system reads. -/
structure FsDirEntry where
  filename : List UInt8
  extension : List UInt8
  attributes : UInt8
  lowCluster : UInt16
  fileSize : UInt32
  deriving DecidableEq, Repr

/-- `fs_file_t`. -/
structure FsFile where
  startCluster : UInt32
  currentCluster : UInt32
  currentOffset : UInt32
  fileSize : UInt32
  position : UInt32
  attributes : UInt8
  inUse : Bool
  filename : List UInt8
  deriving DecidableEq, Repr

/-- The static variables of `filesystem.c`, and the number of read commands sent to the disk. -/
structure FsState where
  files : Fin fsMaxFiles → FsFile
  fatCache : Option (ℕ → UInt8)
  rootDirCache : Option (ℕ → UInt8)
  initialized : Bool
  clusterBuffer : ℕ → UInt8
  reads : ℕ

/-- A write through a pointer to descriptor `i`. -/
def FsState.setFile (s : FsState) (i : Fin fsMaxFiles) (f : FsFile) : FsState :=
  { s with files := Function.update s.files i f }

/-- The static variables as the loader leaves them. -/
def staticFs : FsState :=
  { files := fun _ => ⟨0, 0, 0, 0, 0, 0, false, List.replicate 16 0⟩, fatCache := none,
    rootDirCache := none, initialized := false, clusterBuffer := fun _ => 0, reads := 0 }

/-! ### Directory and FAT -/

/-- `cluster_to_lba`. -/
def clusterToLba (cluster : UInt32) : UInt32 :=
  if cluster < 2 then fsRootDirSector else fsDataStartSector + (cluster - 2) * 1

/-- Two bytes at `p`, little endian. -/
def word16 (bytes : ℕ → UInt8) (p : ℕ) : UInt16 :=
  (bytes p).toUInt16 ||| (bytes (p + 1)).toUInt16 <<< 8

/-- Four bytes at `p`, little endian. -/
def word32 (bytes : ℕ → UInt8) (p : ℕ) : UInt32 :=
  (word16 bytes p).toUInt32 ||| (word16 bytes (p + 2)).toUInt32 <<< 16

/-- The `i`-th 32-byte record of the root directory. -/
def dirEntry (dir : ℕ → UInt8) (i : ℕ) : FsDirEntry where
  filename := Blocks.stretch dir (32 * i) 8
  extension := Blocks.stretch dir (32 * i + 8) 3
  attributes := dir (32 * i + 11)
  lowCluster := word16 dir (32 * i + 26)
  fileSize := word32 dir (32 * i + 28)

/-- The 8.3 name as text: blanks end either part, and the dot stands before an extension only. -/
def fullName (e : FsDirEntry) : List UInt8 :=
  let name := e.filename.takeWhile (· ≠ 0x20)
  if e.extension.headD 0 ≠ 0x20 then name ++ 0x2E :: e.extension.takeWhile (· ≠ 0x20) else name

/-- The search loop of `dir_find_entry` over the given record numbers. -/
def dirSearch (dir : ℕ → UInt8) (filename : List UInt8) : List ℕ → Option (ℕ × FsDirEntry)
  | [] => none
  | i :: is =>
    let entry := dirEntry dir i
    if dir (32 * i) = 0x00 then none
    else if dir (32 * i) = 0xE5 then dirSearch dir filename is
    else if strcmp (fullName entry) filename = 0 then some (i, entry)
    else dirSearch dir filename is

/-- `dir_find_entry`; `none` is `-1`. -/
def dirFindEntry (rootDirCache : Option (ℕ → UInt8)) (filename : List UInt8) :
    Option (ℕ × FsDirEntry) :=
  match rootDirCache with
  | none => none
  | some dir => dirSearch dir filename (List.range fsRootEntries)

end VlsOs.Fs

namespace VlsOs.Fat
open Patterns Patterns.Trace VlsOs.Fs

/-! ### The FAT -/

/-- A byte of the FAT cache is read or written. -/
inductive FatAccess
  | read (offset : ℕ)
  | write (offset : ℕ)
  deriving DecidableEq

/-- `*(uint16_t*)(g_fat_cache + offset)`. -/
def loadWord (fat : ℕ → UInt8) (offset : ℕ) : Traced FatAccess UInt16 := do
  emit (.read offset)
  emit (.read (offset + 1))
  return word16 fat offset

def fat12GetNext (fatCache : Option (ℕ → UInt8)) (cluster : UInt32) : Traced FatAccess UInt32 :=
  match fatCache with
  | none => return fsClusterEof
  | some fat =>
    let fatOffset := cluster + cluster / 2
    if fatOffset ≥ 9 * 512 then return fsClusterEof
    else do
      let value ← loadWord fat fatOffset.toNat
      if cluster &&& 1 ≠ 0 then return (value.toUInt32 >>> 4) &&& 0xFFF
      else return value.toUInt32 &&& 0xFFF

/-- The value below the bound that is tested. -/
theorem fat12GetNext_val {fat : ℕ → UInt8} {cluster : UInt32} (h : ¬cluster + cluster / 2 ≥ 9 * 512) :
    (fat12GetNext (some fat) cluster).val =
      if cluster &&& 1 ≠ 0 then ((word16 fat (cluster + cluster / 2).toNat).toUInt32 >>> 4) &&& 0xFFF
      else (word16 fat (cluster + cluster / 2).toNat).toUInt32 &&& 0xFFF := by
  simp only [fat12GetNext, if_neg h]
  split <;> rfl

end VlsOs.Fat

namespace VlsOs.Fs
open Patterns VlsOs.Libc VlsOs.Memory

/-- `fat12_get_next`, without its accesses. -/
def fat12GetNext (fatCache : Option (ℕ → UInt8)) (cluster : UInt32) : UInt32 :=
  (Fat.fat12GetNext fatCache cluster).val

/-! ### Operations -/

/-- `fs_init`, over the bytes `mem` that the memory holds. Both caches are parts of the one memory: what
    stands behind the FAT cache is the directory cache, if the second `malloc` follows the first. -/
def fsInit (d : Disk) (mem : Mem) (h : Heap) (s : FsState) : ℤ × Heap × FsState :=
  if s.initialized then (0, h, s)
  else
    let s := { s with files := fun i => { s.files i with inUse := false } }
    let (fatPtr, h) := malloc h (9 * 512)
    if fatPtr = null then (-1, h, { s with fatCache := none })
    else
      let (rootPtr, h) := malloc h (14 * 512)
      if rootPtr = null then
        (-1, free h fatPtr, { s with fatCache := some (cells mem fatPtr), rootDirCache := none })
      else
        let (got, fat) := diskReadSectors d s.reads fsFatStartSector fsSectorsPerFat
          (cells mem fatPtr)
        let mem := memFrom fatPtr fat
        let s := { s with fatCache := some (cells mem fatPtr), rootDirCache := some (cells mem rootPtr),
                          reads := s.reads + 1 }
        if got < 0 then (-1, h, s)
        else
          let (got, dir) := diskReadSectors d s.reads fsRootDirSector fsRootDirSectors
            (cells mem rootPtr)
          let mem := memFrom rootPtr dir
          let s := { s with fatCache := some (cells mem fatPtr), rootDirCache := some (cells mem rootPtr),
                            reads := s.reads + 1 }
          if got < 0 then (-1, h, s) else (0, h, { s with initialized := true })

/-- `fs_open`; `none` is a NULL filename. -/
def fsOpen (s : FsState) (filename : Option (List UInt8)) (_mode : UInt8) : ℤ × FsState :=
  match filename with
  | none => (-1, s)
  | some filename =>
    if s.initialized = false then (-1, s)
    else
      match Table.first fun i => !(s.files i).inUse with
      | none => (-1, s)
      | some fd =>
        match dirFindEntry s.rootDirCache filename with
        | none => (-1, s)
        | some (_, entry) =>
          ((fd : ℤ), s.setFile fd
            { inUse := true, startCluster := entry.lowCluster.toUInt32,
              currentCluster := entry.lowCluster.toUInt32, currentOffset := 0,
              fileSize := entry.fileSize, position := 0, attributes := entry.attributes,
              filename := strncpy (s.files fd).filename filename 15 })

/-- The check every call on a descriptor starts with. -/
def openFile (s : FsState) (fd : ℤ) : Option (Fin fsMaxFiles) :=
  match Table.slot fsMaxFiles fd with
  | none => none
  | some i => if (s.files i).inUse then some i else none

/-- `fs_close`. -/
def fsClose (s : FsState) (fd : ℤ) : ℤ × FsState :=
  match openFile s fd with
  | none => (-1, s)
  | some i => (0, s.setFile i { s.files i with inUse := false })

/-- The variables of the loop of `fs_read`; `out` is what has been copied to the buffer. -/
structure ReadState where
  file : FsFile
  clusterBuffer : ℕ → UInt8
  reads : ℕ
  bytesRead : UInt32
  remaining : UInt32
  out : List UInt8

/-- How many bytes one turn of the read loop copies. -/
def toCopy (file : FsFile) (remaining : UInt32) : UInt32 :=
  let rest := 512 - file.position % 512
  let wanted := if rest > remaining then remaining else rest
  if file.position + wanted > file.fileSize then file.fileSize - file.position else wanted

/-- The copy from the cluster buffer, and the variables it moves on. -/
def ReadState.advance (r : ReadState) (buffer : ℕ → UInt8) : ReadState :=
  let n := toCopy r.file r.remaining
  { file := { r.file with position := r.file.position + n }, clusterBuffer := buffer,
    reads := r.reads + 1, bytesRead := r.bytesRead + n, remaining := r.remaining - n,
    out := r.out ++ Blocks.stretch buffer (r.file.position % 512).toNat n.toNat }

/-- One turn of the read loop; `false` says that it leaves the loop by `break`. -/
def readTurn (d : Disk) (fatCache : Option (ℕ → UInt8)) (r : ReadState) : Bool × ReadState :=
  let (got, buffer) :=
    diskReadSector d r.reads (clusterToLba r.file.currentCluster) r.clusterBuffer
  if got < 0 then (false, { r with clusterBuffer := buffer, reads := r.reads + 1 })
  else
    let r := r.advance buffer
    if r.file.position % 512 = 0 ∧ r.file.position < r.file.fileSize then
      let next := fat12GetNext fatCache r.file.currentCluster
      if next ≥ fsClusterMax then (false, r)
      else (true, { r with file := { r.file with currentCluster := next } })
    else (true, r)

/-- The read loop, for at most `fuel` turns. -/
def readLoop (d : Disk) (fatCache : Option (ℕ → UInt8)) : ℕ → ReadState → ReadState
  | 0, r => r
  | fuel + 1, r =>
    if 0 < r.remaining ∧ r.file.position < r.file.fileSize then
      match readTurn d fatCache r with
      | (true, r) => readLoop d fatCache fuel r
      | (false, r) => r
    else r

/-- The variables of `fs_read` before its loop. -/
def readStart (s : FsState) (i : Fin fsMaxFiles) (count : UInt16) : ReadState :=
  { file := s.files i, clusterBuffer := s.clusterBuffer, reads := s.reads, bytesRead := 0,
    remaining := count.toUInt32, out := [] }

/-- `fs_read`: the result, the bytes copied to the buffer, and the state after it. A turn of the
    loop copies a byte at least, so `count` turns are enough. -/
def fsRead (d : Disk) (s : FsState) (fd : ℤ) (buffer : Bool) (count : UInt16) :
    ℤ × List UInt8 × FsState :=
  match openFile s fd with
  | none => (-1, [], s)
  | some i =>
    if buffer = false then (-1, [], s)
    else
      let r := readLoop d s.fatCache count.toNat (readStart s i count)
      (r.bytesRead.toNat, r.out,
        { s.setFile i r.file with clusterBuffer := r.clusterBuffer, reads := r.reads })

/-- `fs_write`. -/
def fsWrite (_fd : ℤ) (_count : UInt16) : ℤ := -1

/-- The loop of `fs_seek`; `none` says that it has not ended after `fuel` tests of its condition. -/
def seekLoop (fatCache : Option (ℕ → UInt8)) (offset : UInt32) :
    ℕ → FsFile → UInt32 → Option (ℤ × FsFile)
  | 0, _, _ => none
  | fuel + 1, file, pos =>
    if pos < offset ∧ pos < file.fileSize then
      let next := fat12GetNext fatCache file.currentCluster
      if next ≥ fsClusterMax then some (-1, file)
      else seekLoop fatCache offset fuel { file with currentCluster := next } (pos + 512)
    else some (0, file)

/-- `fs_seek`, with the loop run for at most `fuel` tests. -/
def fsSeek (fuel : ℕ) (s : FsState) (fd : ℤ) (offset : UInt32) : Option (ℤ × FsState) :=
  match openFile s fd with
  | none => some (-1, s)
  | some i =>
    let file := s.files i
    if offset > file.fileSize then some (-1, s)
    else
      match seekLoop s.fatCache offset fuel
          { file with position := offset, currentCluster := file.startCluster } 0 with
      | none => none
      | some (result, file) => some (result, s.setFile i file)

/-- `fs_get_size`. -/
def fsGetSize (s : FsState) (fd : ℤ) : UInt32 :=
  match openFile s fd with
  | none => 0
  | some i => (s.files i).fileSize

end VlsOs.Fs
