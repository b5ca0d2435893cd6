import VlsOs.Kernel.Directory
import VlsOs.Kernel.FileErrors
import VlsOs.Shell.Console

/-! Showing a file (`cmd_cat` of `net/netcmd.c`).

    The file is opened, read in pieces of 256 bytes until a read returns nothing, and closed. Whatever
    the FAT says, a read that does not fail makes progress while the position is below the size, so the
    command comes to an end and shows as many bytes as the size says; the chain decides which bytes.

        open ──▶ read 256 ──▶ show them ──┐
                    ▲    └── 0 ──▶ close  │
                    └─────────────────────┘ -/

namespace VlsOs.Shell
open Patterns Patterns.Trace VlsOs.Fs VlsOs.Libc

/-! ### The source -/

/-- The loop of `cmd_cat` on an open descriptor, with `buffer` the local array; `none` if the turns
    run out. -/
def catLoop (d : Disk) (fd : ℤ) : ℕ → (ℕ → UInt8) → FsState → Traced CmdEvent (Option FsState)
  | 0, _, _ => return none
  | fuel + 1, buffer, s =>
    let (bytesRead, bytes, s) := fsRead d s fd true 256
    let buffer : ℕ → UInt8 := fun i => bytes.getD i (buffer i)
    if bytesRead > 0 then do
      loop (fun i _ => vgaWriteChar (buffer i)) bytesRead.toNat ()
      catLoop d fd fuel buffer s
    else return some s

def cmdCat (fuel : ℕ) (d : Disk) (s : FsState) (argv : List (List UInt8)) (buffer : ℕ → UInt8) :
    Traced CmdEvent (Option (ℤ × FsState)) :=
  if argv.length < 2 then do
    vgaWriteString (chars "Usage: cat <filename>\n")
    return some (1, s)
  else
    let name := argv.getD 1 []
    if fsFileExists s name = 0 then do
      vgaWriteString (chars "File not found: ")
      vgaWriteString name
      vgaWriteChar 10
      return some (1, s)
    else
      let (fd, s) := fsOpen s (some name) 0
      if fd < 0 then do
        vgaWriteString (chars "Failed to open file\n")
        return some (1, s)
      else do
        let ended ← catLoop d fd fuel buffer s
        match ended with
        | none => return none
        | some s => do
          let s := (fsClose s fd).2
          vgaWriteChar 10
          return some (0, s)

/-! ### One read -/

/-- The file is the same, `k` bytes further on. -/
structure Advances (file file' : FsFile) (k : ℕ) : Prop where
  size : file'.fileSize = file.fileSize
  inUse : file'.inUse = file.inUse
  position : file'.position.toNat = file.position.toNat + k
  inside : file'.position.toNat ≤ file'.fileSize.toNat

/-- A position in a file of a size from which no turn wraps around. -/
structure Positioned (file : FsFile) : Prop where
  small : file.fileSize.toNat + 512 ≤ 2 ^ 32
  inside : file.position.toNat ≤ file.fileSize.toNat

theorem Advances.positioned {file file' : FsFile} {k : ℕ} (h : Advances file file' k)
    (hpos : Positioned file) : Positioned file' :=
  ⟨h.size ▸ hpos.small, h.inside⟩

theorem Advances.refl {file : FsFile} (h : Positioned file) : Advances file file 0 :=
  ⟨rfl, rfl, rfl, h.inside⟩

theorem Advances.trans {file file' file'' : FsFile} {k l : ℕ} (h : Advances file file' k)
    (h' : Advances file' file'' l) : Advances file file'' (k + l) where
  size := h'.size.trans h.size
  inUse := h'.inUse.trans h.inUse
  position := by rw [h'.position, h.position, Nat.add_assoc]
  inside := h'.inside

/-- What the loop of a read has done: it is `k` bytes further on. -/
structure Progress (r r' : ReadState) (k : ℕ) : Prop where
  file : Advances r.file r'.file k
  bytesRead : r'.bytesRead = r.bytesRead + UInt32.ofNat k
  remaining : r'.remaining.toNat + k = r.remaining.toNat
  out : r'.out.length = r.out.length + k
  reads : r.reads ≤ r'.reads

theorem Progress.refl {r : ReadState} (h : Positioned r.file) : Progress r r 0 :=
  ⟨.refl h, (UInt32.add_zero _).symm, rfl, rfl, le_refl _⟩

theorem Progress.trans {r r' r'' : ReadState} {k l : ℕ} (h : Progress r r' k)
    (h' : Progress r' r'' l) : Progress r r'' (k + l) where
  file := h.file.trans h'.file
  bytesRead := by rw [h'.bytesRead, h.bytesRead, UInt32.ofNat_add, UInt32.add_assoc]
  remaining := by
    have hfirst := h.remaining
    have hsecond := h'.remaining
    omega
  out := by rw [h'.out, h.out, Nat.add_assoc]
  reads := h.reads.trans h'.reads

theorem progress_readTurn (d : Disk) (fatCache : Option (ℕ → UInt8)) {r : ReadState}
    (hr : 0 < r.remaining) (hp : r.file.position < r.file.fileSize) (hpos : Positioned r.file) :
    ∃ k, Progress r (readTurn d fatCache r).2 k := by
  rcases readTurn_cases d fatCache r with ⟨-, buffer, heq⟩ | ⟨-, buffer, goOn, cluster, heq⟩
  · rw [heq]
    exact ⟨0, .refl hpos, (UInt32.add_zero _).symm, rfl, rfl, Nat.le_succ _⟩
  · obtain ⟨hone, hleft⟩ := toCopy_pos_le hr hp
    have hcopy := toCopy_toNat r.remaining hp hpos.small
    have hsmall := hpos.small
    have hlt := UInt32.lt_iff_toNat_lt.mp hp
    have hend : r.file.position.toNat + (toCopy r.file r.remaining).toNat ≤ r.file.fileSize.toNat := by
      omega
    have hmoved : (r.file.position + toCopy r.file r.remaining).toNat =
        r.file.position.toNat + (toCopy r.file r.remaining).toNat := by
      rw [UInt32.toNat_add, Nat.mod_eq_of_lt (hend.trans_lt (by omega))]
    rw [heq]
    unfold ReadState.advance
    dsimp only
    generalize toCopy r.file r.remaining = n at *
    have hsub := UInt32.toNat_sub_of_le _ _ (UInt32.le_iff_toNat_le.mpr hleft)
    exact
      ⟨n.toNat,
        { file := ⟨rfl, rfl, hmoved, hmoved.le.trans hend⟩
          bytesRead := by rw [UInt32.ofNat_toNat]
          remaining := by dsimp only; omega
          out := by rw [List.length_append, Blocks.length_stretch]
          reads := Nat.le_succ _ }⟩

theorem progress_readLoop (d : Disk) (fatCache : Option (ℕ → UInt8)) (fuel : ℕ) (r : ReadState)
    (h : Positioned r.file) : ∃ k, Progress r (readLoop d fatCache fuel r) k := by
  refine readLoop_rel (R := fun r r' => Positioned r.file → ∃ k, Progress r r' k)
    (fun r h => ⟨0, .refl h⟩) ?_ (fun r hr hp h => progress_readTurn d fatCache hr hp h) fuel r h
  intro r r₁ r₂ h₁ h₂ hpos
  obtain ⟨k, hk⟩ := h₁ hpos
  obtain ⟨l, hl⟩ := h₂ (hk.file.positioned hpos)
  exact ⟨k + l, hk.trans hl⟩

/-- SPEC of a read of 256 bytes from an open file, whatever the FAT says: it is a number of bytes
    further on, has returned so many, and returns none only at the end or if the first read command
    fails. On a well-formed file the bytes are the next ones of its contents. -/
theorem fsRead_advances {d : Disk} {s : FsState} {i : Fin fsMaxFiles}
    (huse : (s.files i).inUse = true) (hpos : Positioned (s.files i)) :
    ∃ (bytes : List UInt8) (file : FsFile) (clusterBuffer : ℕ → UInt8) (reads : ℕ),
      fsRead d s i true 256 = ((bytes.length : ℤ), bytes,
        { s.setFile i file with clusterBuffer := clusterBuffer, reads := reads }) ∧
      Advances (s.files i) file bytes.length ∧ s.reads ≤ reads ∧
      (bytes = [] → (s.files i).position < (s.files i).fileSize →
        d.fails s.reads = true ∧ s.reads < reads) ∧
      ∀ e m got, Serves d s.fatCache e m (s.files i) got →
        Serves d s.fatCache e m file (got ++ bytes) := by
  set r := readLoop d s.fatCache 256 (readStart s i 256) with hr
  obtain ⟨k, hk⟩ := progress_readLoop d s.fatCache 256 (readStart s i 256) hpos
  have hlength : r.out.length = k := hk.out.trans (Nat.zero_add k)
  have hremaining : r.remaining.toNat + k = 256 := hk.remaining
  have hbytes : r.bytesRead.toNat = r.out.length := by
    rw [hk.bytesRead, hlength]
    show (0 + UInt32.ofNat k).toNat = k
    rw [UInt32.zero_add, UInt32.toNat_ofNat_of_lt' (by show k < 2 ^ 32; omega)]
  have heq := fsRead_eq d huse 256
  refine ⟨r.out, r.file, r.clusterBuffer, r.reads, ?_, hlength ▸ hk.file, hk.reads, ?_, ?_⟩
  · rw [heq, ← hbytes]
    rfl
  · intro hnone hin
    have hzero : (fsRead d s i true 256).1 = 0 := by
      rw [heq]
      show (r.bytesRead.toNat : ℤ) = 0
      rw [hbytes, hnone]
      rfl
    have hfails : d.fails s.reads = true := by
      by_contra hok
      have hsome := fsRead_pos d 256 huse (by decide) hin (Bool.eq_false_iff.mpr hok)
      omega
    obtain ⟨buffer, hturn⟩ := readTurn_fails s.fatCache (r := readStart s i 256) hfails
    have hgo : 0 < (readStart s i 256).remaining ∧
        (readStart s i 256).file.position < (readStart s i 256).file.fileSize :=
      ⟨(by decide : 0 < (256 : UInt16).toUInt32), hin⟩
    have hreads : r.reads = s.reads + 1 := by
      rw [hr, readLoop, if_pos hgo, hturn]
      rfl
    exact ⟨hfails, by omega⟩
  · intro e m got hserves
    obtain ⟨j, bytes, file, clusterBuffer, reads, hread, -, hnext, -⟩ := hserves.read huse 256
    rw [heq] at hread
    obtain ⟨-, hrest⟩ := Prod.mk.inj hread
    obtain ⟨hout, hstate⟩ := Prod.mk.inj hrest
    have hfile := congrArg (fun t : FsState => t.files i) hstate
    dsimp only at hfile
    rw [setFile_files_self, setFile_files_self] at hfile
    show Serves d s.fatCache e m r.file (got ++ r.out)
    rw [show r.file = file from hfile, show r.out = bytes from hout]
    exact hnext

/-! ### The loop -/

theorem output_writeBytes (bytes : List UInt8) (buffer : ℕ → UInt8) :
    output (loop (fun i _ => vgaWriteChar (bytes.getD i (buffer i))) bytes.length ()) = bytes := by
  rw [output_loop]
  simp only [output_vgaWriteChar]
  rw [← List.map_eq_flatMap]
  refine List.ext_getElem (by simp) fun i _ hi => ?_
  simp [List.getElem?_eq_getElem hi]

/-- TERMINATION and frame of the loop: with a turn more than there are bytes to the end, it ends. What
    it has shown takes the descriptor from its position to its last one, which is the end of the file if
    no read command failed. -/
theorem catLoop_spec (d : Disk) (i : Fin fsMaxFiles) :
    ∀ (fuel : ℕ) (buffer : ℕ → UInt8) (s : FsState), (s.files i).inUse = true →
      Positioned (s.files i) → (s.files i).fileSize.toNat - (s.files i).position.toNat < fuel →
      ∃ (file : FsFile) (clusterBuffer : ℕ → UInt8) (reads : ℕ),
        (catLoop d i fuel buffer s).val =
          some { s.setFile i file with clusterBuffer := clusterBuffer, reads := reads } ∧
        Advances (s.files i) file (output (catLoop d i fuel buffer s)).length ∧ s.reads ≤ reads ∧
        ((∀ n, s.reads ≤ n → n < reads → d.fails n = false) →
          file.position.toNat = file.fileSize.toNat) ∧
        ∀ e m got, Serves d s.fatCache e m (s.files i) got →
          Serves d s.fatCache e m file (got ++ output (catLoop d i fuel buffer s)) := by
  intro fuel
  induction fuel with
  | zero =>
    intro buffer s _ _ hfuel
    exact absurd hfuel (Nat.not_lt_zero _)
  | succ fuel ih =>
    intro buffer s huse hpos hfuel
    obtain ⟨bytes, file, clusterBuffer, reads, hread, hadv, hreads, hnone, hserves⟩ :=
      fsRead_advances (d := d) huse hpos
    cases hbytes : bytes with
    | nil =>
      subst hbytes
      have hidle : catLoop d i (fuel + 1) buffer s =
          pure (some { s.setFile i file with clusterBuffer := clusterBuffer, reads := reads }) := by
        rw [catLoop, hread]
        rfl
      rw [hidle]
      refine ⟨file, clusterBuffer, reads, rfl, hadv, hreads, fun hok => ?_, hserves⟩
      -- a read that returns nothing below the end has failed
      have hstays : file.position.toNat = (s.files i).position.toNat := hadv.position
      have hend : ¬(s.files i).position < (s.files i).fileSize := by
        intro hin
        obtain ⟨hfails, hlt⟩ := hnone rfl hin
        rw [hok s.reads (le_refl _) hlt] at hfails
        cases hfails
      rw [UInt32.lt_iff_toNat_lt, ← hstays, ← hadv.size] at hend
      exact le_antisymm hadv.inside (Nat.not_lt.mp hend)
    | cons b rest =>
      have hlong : 0 < bytes.length := by
        rw [hbytes]
        exact Nat.succ_pos _
      set next : FsState := { s.setFile i file with clusterBuffer := clusterBuffer, reads := reads }
      have hfile : next.files i = file := setFile_files_self s i file
      have hmoved := hadv.position
      have hinside := hadv.inside
      have hsize := congrArg UInt32.toNat hadv.size
      obtain ⟨file', clusterBuffer', reads', hval, hadv', hreads', hend, hserves'⟩ :=
        ih (fun j => bytes.getD j (buffer j)) next (by rw [hfile, hadv.inUse, huse])
          (by rw [hfile]; exact hadv.positioned hpos) (by rw [hfile]; omega)
      have hturn : catLoop d i (fuel + 1) buffer s =
          loop (fun j _ => vgaWriteChar (bytes.getD j (buffer j))) bytes.length () >>= fun _ =>
            catLoop d i fuel (fun j => bytes.getD j (buffer j)) next := by
        rw [catLoop, hread]
        dsimp only
        rw [if_pos (Int.natCast_pos.mpr hlong), Int.toNat_natCast]
      have hshown : output (catLoop d i (fuel + 1) buffer s) = bytes ++
          output (catLoop d i fuel (fun j => bytes.getD j (buffer j)) next) := by
        rw [hturn, output_bind, output_writeBytes]
      rw [hfile] at hadv' hserves'
      refine ⟨file', clusterBuffer', reads', ?_, ?_, hreads.trans hreads', fun hok => ?_,
        fun e m got hgot => ?_⟩
      · rw [hturn, val_bind, hval]
        simp only [next, FsState.setFile, Function.update_idem]
      · rw [hshown, List.length_append]
        exact hadv.trans hadv'
      · exact hend fun n hn hlt => hok n (hreads.trans hn) hlt
      · rw [hshown, ← List.append_assoc]
        exact hserves' e m _ (hserves e m got hgot)

/-! ### The command -/

/-- `fs_open` on a file that is there, with a descriptor free. -/
theorem fsOpen_found {s : FsState} (hinit : s.initialized = true) {name : List UInt8} {n : ℕ}
    {e : FsDirEntry} (hfound : dirFindEntry s.rootDirCache name = some (n, e)) {j : Fin fsMaxFiles}
    (hfree : (s.files j).inUse = false) (mode : UInt8) :
    ∃ (fd : Fin fsMaxFiles) (file : FsFile), (s.files fd).inUse = false ∧ file.inUse = true ∧
      file.currentCluster = e.startCluster ∧ file.fileSize = e.fileSize ∧ file.position = 0 ∧
      fsOpen s (some name) mode = ((fd : ℤ), s.setFile fd file) := by
  rcases fsOpen_cases s (some name) mode with
    ⟨fd, name', n', e', file, hname, hslot, hfind, huse, -, hcl, hsize, hpos, heq⟩ | hfail
  · obtain rfl := Option.some.inj hname
    obtain ⟨rfl, rfl⟩ := Prod.mk.inj (Option.some.inj (hfound.symm.trans hfind))
    exact ⟨fd, file, hslot, huse, hcl, hsize, hpos, heq⟩
  · exfalso
    unfold fsOpen at hfail
    cases hfirst : Table.first fun i => !(s.files i).inUse with
    | none =>
      have hbusy := Table.first_none.mp hfirst j
      rw [hfree] at hbusy
      cases hbusy
    | some fd =>
      simp only [hinit, hfirst, hfound, Bool.true_eq_false, if_false] at hfail
      have hneg : ((fd : ℕ) : ℤ) = -1 := (Prod.mk.inj hfail).1
      omega

/-- What `cat` leaves when it has shown the file of a record: the descriptors in use or not as they were,
    the caches as they were, and on the screen no more bytes than the file has, all of them if no read
    command fails, and those of a well-formed file from the start on. -/
structure CatLeaves (d : Disk) (s : FsState) (e : FsDirEntry) (shown : List UInt8) (s' : FsState) :
    Prop where
  inUse : ∀ j, (s'.files j).inUse = (s.files j).inUse
  fat : s'.fatCache = s.fatCache
  root : s'.rootDirCache = s.rootDirCache
  initialized : s'.initialized = s.initialized
  le : shown.length ≤ e.fileSize.toNat
  whole : (∀ k, s.reads ≤ k → k < s'.reads → d.fails k = false) → shown.length = e.fileSize.toNat
  start : ∀ m, WellFormed s.fatCache e m → shown <+: contents d s.fatCache e

/-- `cat` on a file that is there, with a descriptor free. -/
theorem cmdCat_found (d : Disk) {s : FsState} (hinit : s.initialized = true)
    (command : List UInt8) {name : List UInt8} (args : List (List UInt8)) (buffer : ℕ → UInt8) {n : ℕ}
    {e : FsDirEntry} (hfound : dirFindEntry s.rootDirCache name = some (n, e)) {j : Fin fsMaxFiles}
    (hfree : (s.files j).inUse = false) (hsmall : e.fileSize.toNat + 512 ≤ 2 ^ 32) {fuel : ℕ}
    (hfuel : e.fileSize.toNat < fuel) :
    ∃ shown s', output (cmdCat fuel d s (command :: name :: args) buffer) = shown ++ [10] ∧
      (cmdCat fuel d s (command :: name :: args) buffer).val = some (0, s') ∧
      CatLeaves d s e shown s' := by
  obtain ⟨fd, file, hslot, huse, hcl, hsize, hzero, hopen⟩ := fsOpen_found hinit hfound hfree 0
  have hfile : (s.setFile fd file).files fd = file := setFile_files_self ..
  have hstart : file.position.toNat = 0 := by
    rw [hzero]
    rfl
  obtain ⟨file', clusterBuffer, reads, hval, hadv, -, hend, hserves⟩ :=
    catLoop_spec d fd fuel buffer (s.setFile fd file) (by rw [hfile, huse])
      (by rw [hfile]; exact ⟨by rw [hsize]; exact hsmall, by omega⟩) (by rw [hfile, hsize]; omega)
  rw [hfile] at hadv
  set shown := output (catLoop d fd fuel buffer (s.setFile fd file)) with hshown
  have hlength : file'.position.toNat = shown.length := by rw [hadv.position, hstart, Nat.zero_add]
  have hlast : file'.fileSize = e.fileSize := hadv.size.trans hsize
  set closed : FsState := { (s.setFile fd file).setFile fd file' with
    clusterBuffer := clusterBuffer, reads := reads } with hclosed
  have hclose : fsClose closed fd = (0, closed.setFile fd { file' with inUse := false }) := by
    have hin : closed.files fd = file' := setFile_files_self ..
    have hopened : openFile closed fd = some fd :=
      openFile_eq_some.mpr ⟨rfl, by rw [hin, hadv.inUse, huse]⟩
    simp only [fsClose, hopened, hin]
  have hexists : fsFileExists s name ≠ 0 := by
    rw [fsFileExists, hfound]
    exact one_ne_zero
  have hrun : cmdCat fuel d s (command :: name :: args) buffer =
      catLoop d fd fuel buffer (s.setFile fd file) >>= fun ended =>
        match ended with
        | none => pure none
        | some s => vgaWriteChar 10 >>= fun _ => pure (some ((0 : ℤ), (fsClose s fd).2)) := by
    have hargs : ¬(command :: name :: args).length < 2 := by simp
    have hfd : ¬((fd : ℕ) : ℤ) < 0 := by omega
    have hname : (command :: name :: args).getD 1 [] = name := rfl
    unfold cmdCat
    rw [if_neg hargs]
    dsimp only
    rw [hname, if_neg hexists, hopen]
    dsimp only
    rw [if_neg hfd]
  refine ⟨shown, closed.setFile fd { file' with inUse := false }, ?_, ?_, fun j => ?_, rfl, rfl, rfl, ?_,
    fun hok => ?_, fun m hwf => ?_⟩
  · rw [hrun, output_bind, hval]
    rfl
  · rw [hrun, val_bind, hval]
    show some (0, (fsClose closed fd).2) = _
    rw [hclose]
  · rcases eq_or_ne j fd with rfl | hne
    · rw [setFile_files_self, hslot]
    · rw [setFile_files_of_ne _ _ hne]
      show (((s.setFile fd file).setFile fd file').files j).inUse = _
      rw [setFile_files_of_ne _ _ hne, setFile_files_of_ne _ _ hne]
  · rw [← hlength, ← hlast]
    exact hadv.inside
  · rw [← hlength, ← hlast]
    exact hend hok
  · have hread := hserves e m [] (by rw [hfile]; exact serves_opened hwf hcl hsize hzero)
    have hbytes := hread.got
    rw [List.nil_append, hlength] at hbytes
    have hle : shown.length ≤ e.fileSize.toNat := by
      rw [← hlength, ← hlast]
      exact hadv.inside
    rw [contents_eq, hbytes, ← Nat.min_eq_left hle, ← Blocks.stretch_take]
    exact List.take_prefix ..

/-- CORRECT: `cat` on a file that is there, with a descriptor free, on every disk and every FAT. It comes
    to an end, and leaves every descriptor in use or not as it was. It shows at most as many bytes as the
    size in the directory record says, and exactly so many if no read command fails; on a well-formed
    file they are its contents from the start on. The size must not be within 512 bytes of `2 ^ 32`. -/
theorem cat_shows_file (d : Disk) {s : FsState} (hinit : s.initialized = true)
    (command : List UInt8) {name : List UInt8} (args : List (List UInt8)) (buffer : ℕ → UInt8) {n : ℕ}
    {e : FsDirEntry} (hfound : dirFindEntry s.rootDirCache name = some (n, e)) {j : Fin fsMaxFiles}
    (hfree : (s.files j).inUse = false) (hsmall : e.fileSize.toNat + 512 ≤ 2 ^ 32) {fuel : ℕ}
    (hfuel : e.fileSize.toNat < fuel) :
    ∃ shown s', output (cmdCat fuel d s (command :: name :: args) buffer) = shown ++ [10] ∧
      (cmdCat fuel d s (command :: name :: args) buffer).val = some (0, s') ∧
      (∀ j, (s'.files j).inUse = (s.files j).inUse) ∧ shown.length ≤ e.fileSize.toNat ∧
      ((∀ k, s.reads ≤ k → k < s'.reads → d.fails k = false) → shown.length = e.fileSize.toNat) ∧
      ∀ m, WellFormed s.fatCache e m → shown <+: contents d s.fatCache e := by
  obtain ⟨shown, s', hshown, hval, hleaves⟩ :=
    cmdCat_found d hinit command args buffer hfound hfree hsmall hfuel
  exact ⟨shown, s', hshown, hval, hleaves.inUse, hleaves.le, hleaves.whole, hleaves.start⟩

theorem cat_shows_sample :
    ∃ shown s', output (cmdCat 601 sampleDisk sampleFs [chars "cat", [65]] fun _ => 0) = shown ++ [10] ∧
      (cmdCat 601 sampleDisk sampleFs [chars "cat", [65]] fun _ => 0).val = some (0, s') ∧
      (∀ j, (s'.files j).inUse = (sampleFs.files j).inUse) ∧ shown.length ≤ 600 ∧
      ((∀ k, sampleFs.reads ≤ k → k < s'.reads → sampleDisk.fails k = false) → shown.length = 600) ∧
      ∀ m, WellFormed sampleFs.fatCache sampleEntry m →
        shown <+: contents sampleDisk sampleFs.fatCache sampleEntry :=
  cat_shows_file sampleDisk rfl (chars "cat") [] (fun _ => 0) sample_found
    (rfl : (sampleFs.files 0).inUse = false) (by decide) (by decide)

end VlsOs.Shell
