import VlsOs.Kernel.Directory
import VlsOs.Kernel.Ipc
import VlsOs.Shell.Console

/-! Commands that print 32-bit quantities: `cmd_uptime` (`shell/shell.c`) and `cmd_ls`, `cmd_file`,
    `cmd_pipe` (`net/netcmd.c`).

    Tick counts, file sizes and messages are `uint32_t`; `itoa` takes an `int`. The upper half of the
    range arrives there as negative numbers, so a minus sign comes out where a digit belongs.

        ticks            itoa sees        printed
        2147483647        2147483647       2147483647
        2147483648       -2147483648       -
        3000000000       -1294967296       -1294967296 -/

namespace VlsOs.Shell
open Patterns Patterns.Trace VlsOs.Libc VlsOs.Ipc VlsOs.Fs

/-! ### The commands -/

/-- `cmd_uptime`, where `ticks` is what `pit_get_ticks` returns. -/
def cmdUptime (ticks : UInt32) (buffer : List UInt8) : Traced CmdEvent ℤ := do
  vgaWriteString (chars "Uptime: ")
  let _ ← printNumber 16 buffer ticks.toInt32 10
  vgaWriteString (chars " ticks\n")
  return 0

/-- `cmd_pipe` with the two messages that it writes. `msg1` and `msg2` are the local variables that the
    messages are read back into. -/
def pipeTest (message1 message2 : UInt32) (s : IpcState) (proc : Option ℕ) (buf : List UInt8)
    (msg1 msg2 : UInt32) : Traced CmdEvent (ℤ × IpcState) := do
  vgaWriteString (chars "Creating pipe...\n")
  let (pipeId, s) := ipcPipeCreate s proc
  if pipeId < 0 then do
    vgaWriteString (chars "Failed to create pipe\n")
    return (1, s)
  else do
    vgaWriteString (chars "Pipe created: ID=")
    let buf ← printNumber 32 buf (Int32.ofInt pipeId) 10
    vgaWriteChar 10
    vgaWriteString (chars "Writing test message...\n")
    let s := (ipcPipeWrite s pipeId message1).2
    let s := (ipcPipeWrite s pipeId message2).2
    let (_, read1, s) := ipcPipeRead s pipeId true
    let (_, read2, s) := ipcPipeRead s pipeId true
    vgaWriteString (chars "Read from pipe: 0x")
    let buf ← printNumber 32 buf (read1.getD msg1).toInt32 16
    vgaWriteString (chars " and 0x")
    let _ ← printNumber 32 buf (read2.getD msg2).toInt32 16
    vgaWriteChar 10
    let s := (ipcPipeClose s pipeId).2
    vgaWriteString (chars "Pipe closed\n")
    return (0, s)

def cmdPipe (s : IpcState) (proc : Option ℕ) (buf : List UInt8) (msg1 msg2 : UInt32) :
    Traced CmdEvent (ℤ × IpcState) :=
  pipeTest 0x12345678 0xDEADBEEF s proc buf msg1 msg2

/-- What `cmd_file` prints about the record that it has found. -/
def fileReport (info : FsDirInfo) (buf : List UInt8) : Traced CmdEvent ℤ := do
  vgaWriteString (chars "File: ")
  vgaWriteString info.filename
  vgaWriteChar 10
  vgaWriteString (chars "Size: ")
  let buf ← printNumber 32 buf info.fileSize.toInt32 10
  vgaWriteString (chars " bytes\n")
  vgaWriteString (chars "Start cluster: ")
  let buf ← printNumber 32 buf info.startCluster.toInt32 10
  vgaWriteChar 10
  vgaWriteString (chars "Attributes: ")
  let _ ← printNumber 32 buf (Int32.ofNat info.attributes.toNat) 16
  vgaWriteChar 10
  return 0

def cmdFile (s : FsState) (argv : List (List UInt8)) (info : FsDirInfo) (buf : List UInt8) :
    Traced CmdEvent ℤ :=
  match argv with
  | _ :: filename :: _ =>
    let (result, found) := fsGetFileInfo s filename (some info)
    if result < 0 then do
      vgaWriteString (chars "File not found\n")
      return 1
    else fileReport (found.getD info) buf
  | _ => do
    vgaWriteString (chars "Usage: file <filename>\n")
    return 1

def fsAttrDirectory : UInt8 := 0x10

/-- `for (int j = from; j < width; j++) vga_write_char(' ')`. -/
def writeSpaces (start width : ℕ) : Traced CmdEvent Unit :=
  loop (fun _ _ => vgaWriteChar 32) (width - start) ()

/-- One line of `cmd_ls`. -/
def lsLine (entry : FsDirInfo) (buf : List UInt8) : Traced CmdEvent (List UInt8) := do
  vgaWriteString entry.filename
  writeSpaces (text entry.filename).length 16
  let buf ← printNumber 32 buf entry.fileSize.toInt32 10
  writeSpaces (text buf).length 9
  if entry.attributes &&& fsAttrDirectory ≠ 0 then vgaWriteString (chars "<DIR>")
  else vgaWriteString (chars "-")
  vgaWriteChar 10
  return buf

/-- What `cmd_ls` prints about the entries that it has got. -/
def lsReport (count : ℕ) (entries : ℕ → FsDirInfo) (buf : List UInt8) : Traced CmdEvent ℤ := do
  vgaWriteString (chars "NAME             SIZE      ATTR\n")
  vgaWriteString (chars "================ ========= ======\n")
  let buf ← loop (fun i buf => lsLine (entries i) buf) count buf
  vgaWriteString (chars "\nTotal: ")
  let _ ← printNumber 32 buf (Int32.ofNat count) 10
  vgaWriteString (chars " entries\n")
  return 0

def cmdLs (s : FsState) (entries : ℕ → FsDirInfo) (buf : List UInt8) : Traced CmdEvent ℤ :=
  let (count, listed) := fsListDir s (some entries) fsRootEntries
  if count < 0 then do
    vgaWriteString (chars "Failed to list directory\n")
    return 1
  else lsReport count.toNat (listed.getD entries) buf

/-! ### Texts that cannot be mistaken for each other -/

/-- The texts are the same exactly when `P` holds, whatever is printed after them. -/
def SameIff (x y : List UInt8) (P : Prop) : Prop := ∀ s t, x ++ s = y ++ t ↔ P ∧ s = t

theorem SameIff.refl (x : List UInt8) : SameIff x x True := by
  intro s t
  rw [List.append_cancel_left_eq, true_and]

/-- One text after the other; the second ones need be compared only when the first are the same. -/
theorem SameIff.append {x y x' y' : List UInt8} {P Q : Prop} (h : SameIff x y P)
    (h' : P → SameIff x' y' Q) : SameIff (x ++ x') (y ++ y') (P ∧ Q) := by
  intro s t
  rw [List.append_assoc, List.append_assoc, h, and_assoc]
  exact and_congr_right fun hP => h' hP s t

/-- The same text before and after changes nothing. -/
theorem SameIff.between {x y : List UInt8} {P : Prop} (h : SameIff x y P) (before after : List UInt8) :
    SameIff (before ++ (x ++ after)) (before ++ (y ++ after)) P := by
  intro s t
  simp only [List.append_assoc, List.append_cancel_left_eq]
  rw [h, List.append_cancel_left_eq]

theorem SameIff.congr {x y : List UInt8} {P Q : Prop} (h : SameIff x y P) (hPQ : P ↔ Q) :
    SameIff x y Q := by
  rwa [← propext hPQ]

theorem SameIff.eq_iff {x y : List UInt8} {P : Prop} (h : SameIff x y P) : x = y ↔ P := by
  have hnil := h [] []
  rwa [List.append_nil, List.append_nil, and_iff_left rfl] at hnil

theorem SameIff.flatMap {f g : ℕ → List UInt8} {P : ℕ → Prop} (h : ∀ i, SameIff (f i) (g i) (P i))
    (n : ℕ) : SameIff ((List.range n).flatMap f) ((List.range n).flatMap g) (∀ i < n, P i) := by
  induction n with
  | zero => exact (SameIff.refl []).congr (by simp)
  | succ n ih =>
    rw [List.range_succ, List.flatMap_append, List.flatMap_append, List.flatMap_singleton,
      List.flatMap_singleton]
    exact (ih.append fun _ => h n).congr Nat.forall_lt_succ_right.symm

/-- A minus sign is no digit. -/
theorem digitChars_ne_minus {d : ℕ} (hd : d < 36) : digitChars.getD d 0 ≠ 45 := by
  have h : ∀ d : Fin 36, digitChars.getD d 0 ≠ 45 := by decide
  exact h ⟨d, hd⟩

theorem toInt32_neg {v : UInt32} (h : 2 ^ 31 ≤ v.toNat) : v.toInt32 < 0 := by
  rw [Int32.lt_iff_toInt_lt]
  change v.toBitVec.toInt < 0
  rw [BitVec.toInt_neg_iff]
  change 2 ^ 32 ≤ 2 * v.toNat
  omega

/-- What `itoa` writes for an unsigned value is its numeral below `2 ^ 31` only. -/
theorem sameIff_itoaText {b : ℕ} (hlow : 2 ≤ b) (hhigh : b ≤ 36) (v : UInt32) :
    SameIff (itoaText v.toInt32 (Int32.ofNat b)) (numeralText b v.toNat) (v.toNat < 2 ^ 31) := by
  intro s t
  by_cases hv : v.toNat < 2 ^ 31
  · have hcast : v.toInt32 = Int32.ofNat v.toNat := by
      rw [← UInt32.toInt32_ofNat', UInt32.ofNat_toNat]
    rw [hcast, itoaText_ofNat hlow hhigh hv, List.append_cancel_left_eq, and_iff_right hv]
  · refine iff_of_false (fun heq => ?_) (fun h => hv h.1)
    obtain ⟨d, rest, hrest⟩ := List.exists_cons_of_ne_nil (numeralText_ne_nil hlow v.toNat)
    rw [hrest, itoaText, if_pos (toInt32_neg (not_lt.mp hv)), List.append_assoc, List.singleton_append,
      List.cons_append, List.cons_eq_cons] at heq
    have hd : d ∈ numeralText b v.toNat := by
      rw [hrest]
      exact List.mem_cons_self
    obtain ⟨k, hk, rfl⟩ := List.mem_map.mp hd
    have hlt := (Numerals.isNumeral_numeral hlow v.toNat).digit_lt k hk
    exact digitChars_ne_minus (by omega) heq.1.symm

theorem sameIff_decimal (v : UInt32) :
    SameIff (itoaText v.toInt32 10) (numeralText 10 v.toNat) (v.toNat < 2 ^ 31) :=
  sameIff_itoaText (b := 10) (by decide) (by decide) v

theorem sameIff_hex (v : UInt32) :
    SameIff (itoaText v.toInt32 16) (numeralText 16 v.toNat) (v.toNat < 2 ^ 31) :=
  sameIff_itoaText (b := 16) (by decide) (by decide) v

/-! ### What the commands print -/

@[simp] theorem output_writeSpaces (start width : ℕ) :
    output (writeSpaces start width) = List.replicate (width - start) 32 := by
  rw [writeSpaces, output_loop, List.eq_replicate_iff]
  simp

/-- The screen after `cmd_uptime`. -/
def uptimeOutput (ticks : UInt32) : List UInt8 :=
  chars "Uptime: " ++ (numeralText 10 ticks.toNat ++ chars " ticks\n")

theorem output_cmdUptime (ticks : UInt32) (buffer : List UInt8) :
    output (cmdUptime ticks buffer) =
      chars "Uptime: " ++ (itoaText ticks.toInt32 10 ++ chars " ticks\n") := by
  simp (disch := decide) [cmdUptime, text_chars]

theorem cmdUptime_iff (ticks : UInt32) (buffer : List UInt8) :
    output (cmdUptime ticks buffer) = uptimeOutput ticks ↔ ticks.toNat < 2 ^ 31 := by
  rw [output_cmdUptime, uptimeOutput]
  exact ((sameIff_decimal ticks).between _ _).eq_iff

/-- The first free pipe slot is what the command gets. -/
def GetsPipe (s : IpcState) (i : Fin ipcMaxPipes) : Prop :=
  Table.first (fun i => !(s.pipes i).inUse) = some i

/-- Two messages written to a new pipe are read back in order. -/
theorem pipe_messages {s : IpcState} {i : Fin ipcMaxPipes} (hfree : GetsPipe s i) (proc : Option ℕ)
    (message1 message2 : UInt32) :
    let s1 := (ipcPipeCreate s proc).2
    let s2 := (ipcPipeWrite (ipcPipeWrite s1 i message1).2 i message2).2
    (ipcPipeCreate s proc).1 = i ∧ (ipcPipeRead s2 i true).2.1 = some message1 ∧
      (ipcPipeRead (ipcPipeRead s2 i true).2.2 i true).2.1 = some message2 := by
  rw [GetsPipe] at hfree
  simp [ipcPipeCreate, hfree, ipcPipeWrite, ipcPipeRead, IpcState.setPipe, ipcBufferSize]

/-- The screen after a test with the pipe `i`. -/
def pipeOutput (i : Fin ipcMaxPipes) (number1 number2 : List UInt8) : List UInt8 :=
  (chars "Creating pipe...\n" ++ chars "Pipe created: ID=" ++ numeralText 10 i ++ [10] ++
    chars "Writing test message...\n" ++ chars "Read from pipe: 0x") ++
    (number1 ++ (chars " and 0x" ++ (number2 ++ ([10] ++ chars "Pipe closed\n"))))

theorem output_pipeTest {s : IpcState} {i : Fin ipcMaxPipes} (hfree : GetsPipe s i) (proc : Option ℕ)
    (buf : List UInt8) (message1 message2 msg1 msg2 : UInt32) :
    output (pipeTest message1 message2 s proc buf msg1 msg2) =
      pipeOutput i (itoaText message1.toInt32 16) (itoaText message2.toInt32 16) := by
  obtain ⟨hid, hread1, hread2⟩ := pipe_messages hfree proc message1 message2
  have hpos : ¬ ((i : ℕ) : ℤ) < 0 := by omega
  have hlt : (i : ℕ) < 32 := i.isLt
  have hnumber : itoaText (Int32.ofInt ((i : ℕ) : ℤ)) 10 = numeralText 10 i :=
    itoaText_ofNat (b := 10) (by decide) (by decide) (by omega)
  simp (disch := decide) [pipeTest, pipeOutput, hid, hpos, hread1, hread2, hnumber, text_chars]

theorem pipeTest_iff {s : IpcState} {i : Fin ipcMaxPipes} (hfree : GetsPipe s i) (proc : Option ℕ)
    (buf : List UInt8) (message1 message2 msg1 msg2 : UInt32) :
    output (pipeTest message1 message2 s proc buf msg1 msg2) =
        pipeOutput i (numeralText 16 message1.toNat) (numeralText 16 message2.toNat) ↔
      message1.toNat < 2 ^ 31 ∧ message2.toNat < 2 ^ 31 := by
  rw [output_pipeTest hfree, pipeOutput, pipeOutput]
  refine ((SameIff.refl _).append fun _ => (sameIff_hex message1).append fun _ =>
    (sameIff_hex message2).between _ _).eq_iff.trans ?_
  rw [true_and]

/-- The screen after `cmd_file` has found a record, with `number` for its size. -/
def fileOutput (info : FsDirInfo) (number : List UInt8) : List UInt8 :=
  (chars "File: " ++ text info.filename ++ [10] ++ chars "Size: ") ++ (number ++
    (chars " bytes\n" ++ chars "Start cluster: " ++ itoaText info.startCluster.toInt32 10 ++ [10] ++
      chars "Attributes: " ++ itoaText (Int32.ofNat info.attributes.toNat) 16 ++ [10]))

theorem output_fileReport (info : FsDirInfo) (buf : List UInt8) :
    output (fileReport info buf) = fileOutput info (itoaText info.fileSize.toInt32 10) := by
  simp (disch := decide) [fileReport, fileOutput, text_chars]

theorem fileReport_iff (info : FsDirInfo) (buf : List UInt8) :
    output (fileReport info buf) = fileOutput info (numeralText 10 info.fileSize.toNat) ↔
      info.fileSize.toNat < 2 ^ 31 := by
  rw [output_fileReport, fileOutput, fileOutput]
  exact ((sameIff_decimal info.fileSize).between _ _).eq_iff

/-- The line of `cmd_ls` for an entry, with `number` for its size. -/
def lineOutput (entry : FsDirInfo) (number : List UInt8) : List UInt8 :=
  (text entry.filename ++ List.replicate (16 - (text entry.filename).length) 32) ++
    (number ++ (List.replicate (9 - number.length) 32 ++
      (if entry.attributes &&& fsAttrDirectory ≠ 0 then chars "<DIR>" else chars "-") ++ [10]))

theorem output_lsLine (entry : FsDirInfo) (buf : List UInt8) :
    output (lsLine entry buf) = lineOutput entry (itoaText entry.fileSize.toInt32 10) := by
  rw [lsLine, lineOutput]
  split <;> simp (disch := decide) [text_chars]

theorem sameIff_lineOutput (entry : FsDirInfo) :
    SameIff (lineOutput entry (itoaText entry.fileSize.toInt32 10))
      (lineOutput entry (numeralText 10 entry.fileSize.toNat)) (entry.fileSize.toNat < 2 ^ 31) := by
  have hsize := sameIff_decimal entry.fileSize
  refine ((SameIff.refl _).append fun _ => hsize.append (Q := True) fun hlt => ?_).congr
    (by rw [true_and, and_true])
  -- the padding after the same digits is the same
  rw [hsize.eq_iff.mpr hlt]
  exact SameIff.refl _

/-- The screen after `cmd_ls` has listed `count` entries. -/
def lsOutput (count : ℕ) (line : ℕ → List UInt8) : List UInt8 :=
  (chars "NAME             SIZE      ATTR\n" ++ chars "================ ========= ======\n") ++
    ((List.range count).flatMap line ++
      (chars "\nTotal: " ++ itoaText (Int32.ofNat count) 10 ++ chars " entries\n"))

theorem output_lsReport (count : ℕ) (entries : ℕ → FsDirInfo) (buf : List UInt8) :
    output (lsReport count entries buf) =
      lsOutput count fun i => lineOutput (entries i) (itoaText (entries i).fileSize.toInt32 10) := by
  simp (disch := decide) [lsReport, lsOutput, text_chars, output_loop, output_lsLine]

theorem lsReport_iff (count : ℕ) (entries : ℕ → FsDirInfo) (buf : List UInt8) :
    output (lsReport count entries buf) =
        (lsOutput count fun i => lineOutput (entries i) (numeralText 10 (entries i).fileSize.toNat)) ↔
      ∀ i < count, (entries i).fileSize.toNat < 2 ^ 31 := by
  rw [output_lsReport, lsOutput, lsOutput]
  have hlines := SameIff.flatMap (fun i => sameIff_lineOutput (entries i)) count
  exact (hlines.between _ _).eq_iff

theorem cmdFile_of_found {s : FsState} {filename : List UInt8} {info found : FsDirInfo}
    (h : fsGetFileInfo s filename (some info) = (0, some found)) (command : List UInt8)
    (others : List (List UInt8)) (buf : List UInt8) :
    cmdFile s (command :: filename :: others) info buf = fileReport found buf := by
  rw [cmdFile, h]
  rfl

theorem cmdLs_of_listed {s : FsState} {entries listed : ℕ → FsDirInfo} {count : ℕ}
    (h : fsListDir s (some entries) fsRootEntries = ((count : ℤ), some listed)) (buf : List UInt8) :
    cmdLs s entries buf = lsReport count listed buf := by
  rw [cmdLs, h]
  rfl

/-- CORRECT: the commands print the numerals of the tick count, of the messages that they have read back
    and of the file sizes exactly when those are below `2 ^ 31`. -/
theorem unsigned_numbers_shown_iff (ticks message1 message2 msg1 msg2 : UInt32) (ipc : IpcState)
    (proc : Option ℕ) (fs : FsState) (command filename : List UInt8) (others : List (List UInt8))
    (info : FsDirInfo) (entries : ℕ → FsDirInfo) (buf : List UInt8) :
    (output (cmdUptime ticks buf) = uptimeOutput ticks ∧
      (∀ i, GetsPipe ipc i → output (pipeTest message1 message2 ipc proc buf msg1 msg2) =
        pipeOutput i (numeralText 16 message1.toNat) (numeralText 16 message2.toNat)) ∧
      (∀ found, fsGetFileInfo fs filename (some info) = (0, some found) →
        output (cmdFile fs (command :: filename :: others) info buf) =
          fileOutput found (numeralText 10 found.fileSize.toNat)) ∧
      ∀ count listed, fsListDir fs (some entries) fsRootEntries = (Nat.cast count, some listed) →
        output (cmdLs fs entries buf) = lsOutput count fun i =>
          lineOutput (listed i) (numeralText 10 (listed i).fileSize.toNat)) ↔
      ticks.toNat < 2 ^ 31 ∧
        (∀ i, GetsPipe ipc i → message1.toNat < 2 ^ 31 ∧ message2.toNat < 2 ^ 31) ∧
        (∀ found, fsGetFileInfo fs filename (some info) = (0, some found) →
          found.fileSize.toNat < 2 ^ 31) ∧
        ∀ count listed, fsListDir fs (some entries) fsRootEntries = (Nat.cast count, some listed) →
          ∀ i < count, (listed i).fileSize.toNat < 2 ^ 31 := by
  refine and_congr (cmdUptime_iff ticks buf) (and_congr ?_ (and_congr ?_ ?_))
  · exact forall_congr' fun i => imp_congr_right fun hfree => pipeTest_iff hfree proc buf ..
  · refine forall_congr' fun found => imp_congr_right fun hfound => ?_
    rw [cmdFile_of_found hfound]
    exact fileReport_iff found buf
  · refine forall_congr' fun count => forall_congr' fun listed => imp_congr_right fun hlisted => ?_
    rw [cmdLs_of_listed hlisted]
    exact lsReport_iff count listed buf

/-- A tick count of `2 ^ 31` is printed as a sign alone, and `cmd_pipe` prints the second of its own
    messages, `0xDEADBEEF`, as the negative number that it is for `itoa`. -/
theorem unsigned_numbers_shown_signed :
    output (cmdUptime 2147483648 []) = chars "Uptime: - ticks\n" ∧
      output (cmdUptime 2147483648 []) ≠ uptimeOutput 2147483648 ∧
      output (cmdUptime 3000000000 []) = chars "Uptime: -1294967296 ticks\n" ∧
      output (cmdPipe bootIpc none [] 0 0) =
        pipeOutput ⟨0, by decide⟩ (chars "12345678") (chars "-21524111") := by
  refine ⟨by decide +kernel, fun h => ?_, by decide +kernel, by decide +kernel⟩
  have hlt := (cmdUptime_iff 2147483648 []).mp h
  exact absurd hlt (by decide)

end VlsOs.Shell
