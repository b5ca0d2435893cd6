import VlsOs.Kernel.Filesystem
import VlsOs.Schemes.Run

/-! The file system calls of `utils/syscall.c`.

    A user descriptor is `3` plus a slot of the table `g_kernel_fds`, which holds the descriptor of
    the file system, or `-1` when the slot is free. The disk and the keyboard are the environment.

        fd = 3 + i ──g_kernel_fds[i]──▶ real fd ──g_files──▶ open file
                          -1 ──▶ refused -/

namespace VlsOs.Syscall
open Patterns VlsOs.Libc VlsOs.Memory VlsOs.Fs

abbrev kernelMaxFiles : ℕ := 16

def stdinFd : ℤ := 0

def stdoutFd : ℤ := 1

def stderrFd : ℤ := 2

def firstUserFd : ℤ := 3

/-- The table of `syscall.c`, the file system under it, what has been written to the screen and how
    many keys have been read. -/
structure SysState where
  kernelFds : Fin kernelMaxFiles → ℤ
  fs : FsState
  screen : List UInt8
  keysRead : ℕ

/-- `static int g_kernel_fds[KERNEL_MAX_FILES] = {-1}`: C fills the other slots with `0`. -/
def staticKernelFds : Fin kernelMaxFiles → ℤ := fun i => if i = 0 then -1 else 0

/-- The state after `fs_init` at boot, whether it succeeds or not. -/
def bootSys (d : Disk) (mem : Mem) (h : Heap) : SysState :=
  { kernelFds := staticKernelFds, fs := (fsInit d mem h staticFs).2.2, screen := [], keysRead := 0 }

/-- The test in front of every file operation: the slot and the real descriptor that a user
    descriptor stands for, if the call is passed on to the file system. -/
def realFd (s : SysState) (fd : ℤ) : Option (Fin kernelMaxFiles × ℤ) :=
  match Table.slot kernelMaxFiles (fd - firstUserFd) with
  | none => none
  | some i => if 0 ≤ s.kernelFds i then some (i, s.kernelFds i) else none

/-- `sys_write`; `buffer` is `none` for NULL. -/
def sysWrite (s : SysState) (fd : ℤ) (buffer : Option (ℕ → UInt8)) (count : UInt32) :
    ℤ × SysState :=
  match buffer with
  | none => (-1, s)
  | some str =>
    if count = 0 then (-1, s)
    else if fd = stdoutFd ∨ fd = stderrFd then
      let written := (Blocks.stretch str 0 count.toNat).takeWhile (· ≠ 0)
      (cInt count, { s with screen := s.screen ++ written })
    else if fd = stdinFd then (-1, s)
    else
      match realFd s fd with
      | some (_, real) => (fsWrite real count.toUInt16, s)
      | none => (-1, s)

/-- The keyboard loop of `sys_read`: how many characters it stores, all bytes it stores, and the
    number of keys read after it. A newline is stored as NUL and ends the line. -/
def keyboardLine (keys : ℕ → UInt8) : ℕ → ℕ → ℕ × List UInt8 × ℕ
  | 0, keysRead => (0, [], keysRead)
  | left + 1, keysRead =>
    if keys keysRead = 10 then (0, [0], keysRead + 1)
    else
      let (n, bytes, after) := keyboardLine keys left (keysRead + 1)
      (n + 1, keys keysRead :: bytes, after)

/-- `sys_read`: the result, the bytes stored in the buffer, and the state after it. -/
def sysRead (d : Disk) (keys : ℕ → UInt8) (s : SysState) (fd : ℤ) (buffer : Bool)
    (count : UInt32) : ℤ × List UInt8 × SysState :=
  if buffer = false ∨ count = 0 then (-1, [], s)
  else if fd = stdinFd then
    let (n, bytes, keysRead) := keyboardLine keys count.toNat s.keysRead
    (cInt (UInt32.ofNat n), bytes, { s with keysRead := keysRead })
  else
    match realFd s fd with
    | some (_, real) =>
      let (result, bytes, fs) := fsRead d s.fs real buffer count.toUInt16
      (result, bytes, { s with fs := fs })
    | none => (-1, [], s)

/-- `sys_open`. -/
def sysOpen (s : SysState) (filename : Option (List UInt8)) (_flags : UInt32) : ℤ × SysState :=
  match filename with
  | none => (-1, s)
  | some filename =>
    let (real, fs) := fsOpen s.fs (some filename) 0
    if real < 0 then (-1, { s with fs := fs })
    else
      match Table.first fun i => decide (s.kernelFds i = -1) with
      | some i =>
        (firstUserFd + (i : ℤ), { s with kernelFds := Function.update s.kernelFds i real, fs := fs })
      | none => (-1, { s with fs := (fsClose fs real).2 })

/-- `sys_close`. -/
def sysClose (s : SysState) (fd : ℤ) : ℤ × SysState :=
  if fd = stdinFd ∨ fd = stdoutFd ∨ fd = stderrFd then (0, s)
  else
    match realFd s fd with
    | some (i, real) =>
      let (result, fs) := fsClose s.fs real
      (result, { s with kernelFds := Function.update s.kernelFds i (-1), fs := fs })
    | none => (-1, s)

/-- `sys_seek`; `none` as for `fsSeek`. -/
def sysSeek (fuel : ℕ) (s : SysState) (fd : ℤ) (offset : UInt32) : Option (ℤ × SysState) :=
  match realFd s fd with
  | some (_, real) =>
    match fsSeek fuel s.fs real offset with
    | none => none
    | some (result, fs) => some (result, { s with fs := fs })
  | none => some (-1, s)

end VlsOs.Syscall
