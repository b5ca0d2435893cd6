import VlsOs.Kernel.FileRead

/-! Runs of `fs_open`, `fs_read` and `fs_close`.

    A `Reader` is a file system together with a record of its use: for every descriptor the name it
    was opened with and all bytes that `fs_read` has returned on it since. The invariant `Serves`
    says that these bytes are the contents of the file up to the position; sixteen descriptors share
    one cluster buffer, and no read relies on what an earlier one left in it.

        fs_open ── got = [] ──read──▶ got = contents[0 .. p) ──read──▶ got = contents[0 .. q) -/

namespace VlsOs.Fs
open Patterns Patterns.Blocks

/-! ### Well-formed files -/

/-- The `i`-th cluster from `start` on. -/
def chain (fatCache : Option (ℕ → UInt8)) (start : UInt32) (i : ℕ) : UInt32 :=
  (fat12GetNext fatCache)^[i] start

/-- The first cluster of a directory entry. -/
def FsDirEntry.startCluster (e : FsDirEntry) : UInt32 := e.lowCluster.toUInt32

/-- The file has a chain of `m` different clusters of the data area, enough for its size. -/
structure WellFormed (fatCache : Option (ℕ → UInt8)) (e : FsDirEntry) (m : ℕ) : Prop where
  inData : ∀ i, i < m → 2 ≤ chain fatCache e.startCluster i ∧ chain fatCache e.startCluster i ≤ 2848
  distinct : ∀ i, i < m → ∀ j, j < m →
    chain fatCache e.startCluster i = chain fatCache e.startCluster j → i = j
  covers : e.fileSize.toNat ≤ 512 * m

/-- The sectors of the first `m` clusters of a file, end to end. -/
def chainBytes (d : Disk) (fatCache : Option (ℕ → UInt8)) (e : FsDirEntry) (m : ℕ) : List UInt8 :=
  (List.range m).flatMap fun i =>
    stretch (d.sector (clusterToLba (chain fatCache e.startCluster i))) 0 512

/-- The contents of a file: as many bytes as its size says of the sectors of its chain. -/
def contents (d : Disk) (fatCache : Option (ℕ → UInt8)) (e : FsDirEntry) : List UInt8 :=
  (chainBytes d fatCache e ((e.fileSize.toNat + 511) / 512)).take e.fileSize.toNat

theorem chainBytes_eq (d : Disk) (fatCache : Option (ℕ → UInt8)) (e : FsDirEntry) (m : ℕ) :
    chainBytes d fatCache e m = stretch (stream d (chain fatCache e.startCluster)) 0 (512 * m) :=
  flatMap_blocks 512 (fun j => d.sector (clusterToLba (chain fatCache e.startCluster j))) m

theorem contents_eq (d : Disk) (fatCache : Option (ℕ → UInt8)) (e : FsDirEntry) :
    contents d fatCache e =
      stretch (stream d (chain fatCache e.startCluster)) 0 e.fileSize.toNat := by
  rw [contents, chainBytes_eq, stretch_take, Nat.min_eq_left (by omega)]

theorem chain_succ (fatCache : Option (ℕ → UInt8)) (start : UInt32) (i : ℕ) :
    fat12GetNext fatCache (chain fatCache start i) = chain fatCache start (i + 1) :=
  (Function.iterate_succ_apply' ..).symm

/-- Different clusters of the data area: there are `2847` at most. -/
theorem WellFormed.clusters_le {fatCache : Option (ℕ → UInt8)} {e : FsDirEntry} {m : ℕ}
    (h : WellFormed fatCache e m) : m ≤ 2847 := by
  have hmap : ∀ i ∈ Finset.range m,
      (chain fatCache e.startCluster i).toNat ∈ Finset.Icc 2 2848 := by
    intro i hi
    obtain ⟨hlo, hhi⟩ := h.inData i (Finset.mem_range.mp hi)
    exact Finset.mem_Icc.mpr
      ⟨UInt32.le_iff_toNat_le.mp hlo, UInt32.le_iff_toNat_le.mp hhi⟩
  have hinj : Set.InjOn (fun i => (chain fatCache e.startCluster i).toNat) (Finset.range m) := by
    intro i hi j hj hij
    exact h.distinct i (Finset.mem_range.mp hi) j (Finset.mem_range.mp hj) (UInt32.toNat_inj.mp hij)
  have hcard := Finset.card_le_card_of_injOn _ hmap hinj
  rwa [Finset.card_range, Nat.card_Icc] at hcard

theorem WellFormed.small {fatCache : Option (ℕ → UInt8)} {e : FsDirEntry} {m : ℕ}
    (h : WellFormed fatCache e m) : e.fileSize.toNat + 512 ≤ 2 ^ 32 := by
  have h1 := h.covers
  have h2 := h.clusters_le
  omega

theorem WellFormed.linked {fatCache : Option (ℕ → UInt8)} {e : FsDirEntry} {m : ℕ}
    (h : WellFormed fatCache e m) :
    Linked fatCache (chain fatCache e.startCluster) m e.fileSize.toNat where
  link j _ := chain_succ fatCache e.startCluster j
  inner j hj := UInt32.lt_of_le_of_lt (h.inData (j + 1) hj).2 (by decide)
  last j _ hlt := absurd h.covers (Nat.not_le.mpr hlt)

/-! ### The calls -/

theorem openFile_eq_some {s : FsState} {fd : ℤ} {i : Fin fsMaxFiles} :
    openFile s fd = some i ↔ fd = i ∧ (s.files i).inUse = true := by
  unfold openFile
  cases hslot : Table.slot fsMaxFiles fd with
  | none =>
    simp only [reduceCtorEq, false_iff]
    rintro ⟨rfl, -⟩
    rw [Table.slot_coe] at hslot
    cases hslot
  | some j =>
    rw [Table.slot_eq_some] at hslot
    subst hslot
    constructor
    · intro h
      by_cases huse : (s.files j).inUse = true
      · simp only [huse, if_true, Option.some.injEq] at h
        subst h
        exact ⟨rfl, huse⟩
      · simp only [huse, if_false, reduceCtorEq] at h
    · rintro ⟨hij, huse⟩
      have : j = i := Fin.ext (Int.ofNat_inj.mp hij)
      subst this
      simp [huse]

/-- A successful open fills a free descriptor from the directory entry of the name. -/
theorem fsOpen_cases (s : FsState) (filename : Option (List UInt8)) (mode : UInt8) :
    (∃ (fd : Fin fsMaxFiles) (name : List UInt8) (i : ℕ) (e : FsDirEntry) (file : FsFile),
      filename = some name ∧ (s.files fd).inUse = false ∧
      dirFindEntry s.rootDirCache name = some (i, e) ∧
      file.inUse = true ∧ file.startCluster = e.startCluster ∧
      file.currentCluster = e.startCluster ∧ file.fileSize = e.fileSize ∧ file.position = 0 ∧
      fsOpen s filename mode = ((fd : ℤ), s.setFile fd file)) ∨
    fsOpen s filename mode = (-1, s) := by
  unfold fsOpen
  cases filename with
  | none => exact .inr rfl
  | some name =>
    dsimp only
    split
    · exact .inr rfl
    · cases hfree : Table.first fun i => !(s.files i).inUse with
      | none => exact .inr rfl
      | some fd =>
        cases hfind : dirFindEntry s.rootDirCache name with
        | none => exact .inr rfl
        | some found =>
          obtain ⟨i, e⟩ := found
          have huse : (s.files fd).inUse = false := by
            simpa using Table.first_some hfree
          exact .inl ⟨fd, name, i, e, _, rfl, huse, hfind, rfl, rfl, rfl, rfl, rfl, rfl⟩

/-- A call on a closed or bad descriptor, or without a buffer, returns `-1` and does nothing. -/
theorem fsRead_rejects {d : Disk} {s : FsState} {fd : ℤ} {buffer : Bool} {count : UInt16}
    (h : openFile s fd = none ∨ buffer = false) : fsRead d s fd buffer count = (-1, [], s) := by
  unfold fsRead
  rcases h with h | rfl
  · rw [h]
  · cases openFile s fd <;> rfl

/-- Any other call is for an open file. -/
theorem openFile_of_not_rejected {s : FsState} {fd : ℤ} {buffer : Bool}
    (h : ¬(openFile s fd = none ∨ buffer = false)) :
    buffer = true ∧ ∃ i : Fin fsMaxFiles, fd = i ∧ (s.files i).inUse = true := by
  rw [not_or, Bool.not_eq_false] at h
  obtain ⟨i, hi⟩ := Option.ne_none_iff_exists'.mp h.1
  exact ⟨h.2, i, openFile_eq_some.mp hi⟩

theorem fsRead_eq (d : Disk) {s : FsState} {i : Fin fsMaxFiles} (huse : (s.files i).inUse = true)
    (count : UInt16) :
    fsRead d s i true count =
      let r := readLoop d s.fatCache count.toNat (readStart s i count)
      ((r.bytesRead.toNat : ℤ), r.out,
        { s.setFile i r.file with clusterBuffer := r.clusterBuffer, reads := r.reads }) := by
  have hopen : openFile s i = some i := openFile_eq_some.mpr ⟨rfl, huse⟩
  simp only [fsRead, hopen, Bool.true_eq_false, if_false]

/-- CORRECT: a read on a chain returns a stretch of its stream, and all there is if no read command
    fails. -/
theorem fsRead_spec {d : Disk} {s : FsState} {i : Fin fsMaxFiles} {cl : ℕ → UInt32} {limit : ℕ}
    (huse : (s.files i).inUse = true) (count : UInt16)
    (hl : Linked s.fatCache cl limit (s.files i).fileSize.toNat)
    (h : OnChain cl limit (s.files i))
    (hin : (s.files i).position < (s.files i).fileSize →
      (s.files i).position.toNat < readable limit (s.files i)) :
    ∃ (j : ℕ) (file : FsFile) (clusterBuffer : ℕ → UInt8) (reads : ℕ),
      fsRead d s i true count =
        ((j : ℤ), stretch (stream d cl) (s.files i).position.toNat j,
          { s.setFile i file with clusterBuffer := clusterBuffer, reads := reads }) ∧
      file.position.toNat = (s.files i).position.toNat + j ∧
      file = { s.files i with
        position := file.position, currentCluster := file.currentCluster } ∧
      OnChain cl limit file ∧
      j ≤ min count.toNat (readable limit (s.files i) - (s.files i).position.toNat) ∧
      ((∀ k, s.reads ≤ k → k < reads → d.fails k = false) →
        j = min count.toNat (readable limit (s.files i) - (s.files i).position.toNat)) := by
  have hcount : count.toUInt32.toNat = count.toNat := UInt16.toNat_toUInt32 count
  have heq := fsRead_eq d huse count
  obtain ⟨j, hj, hj'⟩ :=
    readLoop_spec (d := d) count.toNat (readStart s i count) (le_of_eq hcount) hl h hin
  have hle : j ≤ min count.toUInt32.toNat _ := hj.within
  have hbytes : (UInt32.ofNat j).toNat = j := by
    have := count.toNat_lt
    exact UInt32.toNat_ofNat_of_lt' (by change j < 2 ^ 32; omega)
  have hresult := hj.bytesRead.trans (UInt32.zero_add _)
  dsimp only at heq
  rw [hresult, hbytes, hj.out] at heq
  refine ⟨j, _, _, _, heq, hj.position, hj.file, hj', ?_, fun hok => ?_⟩
  · rwa [hcount] at hle
  · rw [← hcount]
    exact hj.complete hok

theorem fsClose_cases (s : FsState) (fd : ℤ) :
    (∃ i : Fin fsMaxFiles, fd = i ∧ (s.files i).inUse = true ∧
      fsClose s fd = (0, s.setFile i { s.files i with inUse := false })) ∨
    fsClose s fd = (-1, s) := by
  unfold fsClose
  cases hopen : openFile s fd with
  | none => exact .inr rfl
  | some i =>
    obtain ⟨hfd, huse⟩ := openFile_eq_some.mp hopen
    exact .inl ⟨i, hfd, huse, rfl⟩

/-! ### Runs -/

/-- The calls of a reader. -/
inductive FileOp
  | fsOpen (filename : Option (List UInt8)) (mode : UInt8)
  | fsRead (fd : ℤ) (buffer : Bool) (count : UInt16)
  | fsClose (fd : ℤ)

/-- A file system, and for each descriptor the name it was last opened with and the bytes read
    from it since. -/
structure Reader where
  fs : FsState
  name : Fin fsMaxFiles → List UInt8
  got : Fin fsMaxFiles → List UInt8

/-- One call, written down in the record; the answer is what the call returns. -/
def readerStep (d : Disk) (r : Reader) : FileOp → Reader × ℤ
  | .fsOpen filename mode =>
    let (result, fs) := fsOpen r.fs filename mode
    match Table.slot fsMaxFiles result with
    | none => ({ r with fs := fs }, result)
    | some fd =>
      ({ fs := fs, name := Function.update r.name fd (filename.getD []),
         got := Function.update r.got fd [] }, result)
  | .fsRead fd buffer count =>
    let (result, bytes, fs) := fsRead d r.fs fd buffer count
    match Table.slot fsMaxFiles fd with
    | none => ({ r with fs := fs }, result)
    | some i => ({ r with fs := fs, got := Function.update r.got i (r.got i ++ bytes) }, result)
  | .fsClose fd =>
    let (result, fs) := fsClose r.fs fd
    ({ r with fs := fs }, result)

/-- A reader that starts on a file system with nothing in its record. -/
def freshReader (s : FsState) : Reader := ⟨s, fun _ => [], fun _ => []⟩

/-- Descriptor contents `file` is an open of the well-formed file `e`, with `got` read so far. -/
structure Serves (d : Disk) (fatCache : Option (ℕ → UInt8)) (e : FsDirEntry) (m : ℕ)
    (file : FsFile) (got : List UInt8) : Prop where
  wellFormed : WellFormed fatCache e m
  size : file.fileSize = e.fileSize
  onChain : OnChain (chain fatCache e.startCluster) m file
  got : got = stretch (stream d (chain fatCache e.startCluster)) 0 file.position.toNat

/-- INVARIANT of the runs: the caches stay, and every descriptor in use serves its file. -/
structure ReaderOk (d : Disk) (s : FsState) (r : Reader) : Prop where
  fat : r.fs.fatCache = s.fatCache
  dir : r.fs.rootDirCache = s.rootDirCache
  serves : ∀ fd, (r.fs.files fd).inUse = true → ∃ i e m,
    dirFindEntry s.rootDirCache (r.name fd) = some (i, e) ∧
      Serves d s.fatCache e m (r.fs.files fd) (r.got fd)

/-- The call opens no damaged file. -/
def OpensWellFormed (s : FsState) : FileOp → Prop
  | .fsOpen (some name) _ => ∀ i e, dirFindEntry s.rootDirCache name = some (i, e) →
    ∃ m, WellFormed s.fatCache e m
  | _ => True

theorem setFile_files_self (s : FsState) (i : Fin fsMaxFiles) (f : FsFile) :
    (s.setFile i f).files i = f := Function.update_self ..

theorem setFile_files_of_ne (s : FsState) {i j : Fin fsMaxFiles} (f : FsFile) (h : j ≠ i) :
    (s.setFile i f).files j = s.files j := Function.update_of_ne h ..

/-- On a well-formed file the chain goes as far as the file. -/
theorem Serves.readable_eq {d : Disk} {fatCache : Option (ℕ → UInt8)} {e : FsDirEntry} {m : ℕ}
    {file : FsFile} {got : List UInt8} (h : Serves d fatCache e m file got) :
    readable m file = e.fileSize.toNat := by
  rw [readable, h.size, Nat.min_eq_left h.wellFormed.covers]

/-- A descriptor that has just been opened has read nothing. -/
theorem serves_opened {d : Disk} {fatCache : Option (ℕ → UInt8)} {e : FsDirEntry} {m : ℕ}
    (hwf : WellFormed fatCache e m) {file : FsFile} (hcl : file.currentCluster = e.startCluster)
    (hsize : file.fileSize = e.fileSize) (hpos : file.position = 0) :
    Serves d fatCache e m file [] := by
  have hzero : file.position.toNat = 0 := by rw [hpos]; rfl
  refine ⟨hwf, hsize, ⟨?_, ?_, ?_⟩, ?_⟩
  · rw [hsize]
    exact hwf.small
  · rw [hzero]
    exact Nat.zero_le _
  · intro _
    rw [hcl, hzero]
    rfl
  · rw [hzero, stretch_zero]

/-- A read on a descriptor that serves a file appends to what was got, and returns all that is asked
    for and left if no read command fails. -/
theorem Serves.read {d : Disk} {s : FsState} {i : Fin fsMaxFiles} {e : FsDirEntry} {m : ℕ}
    {got : List UInt8} (h : Serves d s.fatCache e m (s.files i) got)
    (huse : (s.files i).inUse = true) (count : UInt16) :
    ∃ (j : ℕ) (bytes : List UInt8) (file : FsFile) (clusterBuffer : ℕ → UInt8) (reads : ℕ),
      fsRead d s i true count = ((j : ℤ), bytes,
        { s.setFile i file with clusterBuffer := clusterBuffer, reads := reads }) ∧
      bytes.length = j ∧ Serves d s.fatCache e m file (got ++ bytes) ∧
      ((∀ k, s.reads ≤ k → k < reads → d.fails k = false) →
        j = min count.toNat (e.fileSize.toNat - (s.files i).position.toNat)) := by
  have hl : Linked s.fatCache (chain s.fatCache e.startCluster) m (s.files i).fileSize.toNat := by
    rw [h.size]
    exact h.wellFormed.linked
  have hin : (s.files i).position < (s.files i).fileSize →
      (s.files i).position.toNat < readable m (s.files i) := by
    intro hlt
    rw [h.readable_eq, ← h.size]
    exact UInt32.lt_iff_toNat_lt.mp hlt
  obtain ⟨j, file, clusterBuffer, reads, heq, hpos, hfile, hon, -, hall⟩ :=
    fsRead_spec (d := d) huse count hl h.onChain hin
  rw [h.readable_eq] at hall
  refine ⟨j, _, file, clusterBuffer, reads, heq, length_stretch .., ?_, hall⟩
  refine ⟨h.wellFormed, ?_, hon, ?_⟩
  · rw [hfile]
    exact h.size
  · have happend := stretch_append (stream d (chain s.fatCache e.startCluster)) 0
      (s.files i).position.toNat j
    rw [Nat.zero_add] at happend
    rw [h.got, happend, hpos]

/-- INVARIANT, for a write to one descriptor: it is free after it, or it serves a file. -/
theorem ReaderOk.setFile {d : Disk} {s : FsState} {r : Reader} (h : ReaderOk d s r)
    (i : Fin fsMaxFiles) (file : FsFile) (name got : List UInt8) (buffer : ℕ → UInt8) (reads : ℕ)
    (hfile : file.inUse = true → ∃ n e m, dirFindEntry s.rootDirCache name = some (n, e) ∧
      Serves d s.fatCache e m file got) :
    ReaderOk d s
      { fs := { r.fs.setFile i file with clusterBuffer := buffer, reads := reads }
        name := Function.update r.name i name
        got := Function.update r.got i got } := by
  refine ⟨h.fat, h.dir, fun fd huse => ?_⟩
  rcases eq_or_ne fd i with rfl | hne
  · simp only [setFile_files_self, Function.update_self] at huse ⊢
    exact hfile huse
  · simp only [setFile_files_of_ne _ _ hne, Function.update_of_ne hne] at huse ⊢
    exact h.serves fd huse

theorem readerOk_open {d : Disk} {s : FsState} {r : Reader} (h : ReaderOk d s r)
    (filename : Option (List UInt8)) (mode : UInt8)
    (hop : OpensWellFormed s (.fsOpen filename mode)) :
    ReaderOk d s (readerStep d r (.fsOpen filename mode)).1 := by
  rcases fsOpen_cases r.fs filename mode with
    ⟨fd, name, i, e, file, rfl, -, hfind, -, -, hcl, hsize, hpos, heq⟩ | heq
  · rw [h.dir] at hfind
    obtain ⟨m, hwf⟩ := hop i e hfind
    simp only [readerStep, heq, Table.slot_coe]
    exact h.setFile fd file name [] r.fs.clusterBuffer r.fs.reads fun _ =>
      ⟨i, e, m, hfind, serves_opened hwf hcl hsize hpos⟩
  · have hslot : Table.slot fsMaxFiles (-1) = none := Table.slot_eq_none.mpr (.inl (by decide))
    simp only [readerStep, heq, hslot]
    exact h

theorem readerOk_read {d : Disk} {s : FsState} {r : Reader} (h : ReaderOk d s r) (fd : ℤ)
    (buffer : Bool) (count : UInt16) :
    ReaderOk d s (readerStep d r (.fsRead fd buffer count)).1 := by
  by_cases hrej : openFile r.fs fd = none ∨ buffer = false
  · simp only [readerStep, fsRead_rejects hrej]
    split
    · exact h
    · rw [List.append_nil, Function.update_eq_self]
      exact h
  · obtain ⟨rfl, i, rfl, huse⟩ := openFile_of_not_rejected hrej
    obtain ⟨n, e, m, hfind, hserves⟩ := h.serves i huse
    rw [← h.fat] at hserves
    obtain ⟨j, bytes, file, clusterBuffer, reads, heq, -, hserves', -⟩ := hserves.read huse count
    rw [h.fat] at hserves'
    simp only [readerStep, heq, Table.slot_coe]
    have hset := h.setFile i file (r.name i) (r.got i ++ bytes) clusterBuffer reads fun _ =>
      ⟨n, e, m, hfind, hserves'⟩
    rwa [Function.update_eq_self] at hset

theorem readerOk_close {d : Disk} {s : FsState} {r : Reader} (h : ReaderOk d s r) (fd : ℤ) :
    ReaderOk d s (readerStep d r (.fsClose fd)).1 := by
  rcases fsClose_cases r.fs fd with ⟨i, -, -, heq⟩ | heq
  · have hset := h.setFile i { r.fs.files i with inUse := false } (r.name i) (r.got i)
      r.fs.clusterBuffer r.fs.reads fun huse => by cases huse
    rw [Function.update_eq_self, Function.update_eq_self] at hset
    simp only [readerStep, heq]
    exact hset
  · simp only [readerStep, heq]
    exact h

/-- INVARIANT, one call. -/
theorem readerOk_step {d : Disk} {s : FsState} {r : Reader} (op : FileOp) (h : ReaderOk d s r)
    (hop : OpensWellFormed s op) : ReaderOk d s (readerStep d r op).1 := by
  cases op with
  | fsOpen filename mode => exact readerOk_open h filename mode hop
  | fsRead fd buffer count => exact readerOk_read h fd buffer count
  | fsClose fd => exact readerOk_close h fd

/-- RUN: it holds from a file system with no descriptor in use on. -/
theorem readerOk_after (d : Disk) {s : FsState} (hfree : ∀ i, (s.files i).inUse = false)
    {ops : List FileOp} (hops : ∀ op ∈ ops, OpensWellFormed s op) :
    ReaderOk d s (Run.after (readerStep d) (freshReader s) ops) := by
  refine Run.after_inv_along (fun r op h hop => readerOk_step op h hop) ops (freshReader s)
    ((Run.along_iff_forall_mem ops _).mpr hops) ⟨rfl, rfl, fun i hi => ?_⟩
  rw [freshReader, hfree i] at hi
  cases hi

/-- CORRECT: start from a file system with no descriptor in use and let every file that the run
    opens be well formed. Whatever the order of the calls and whichever read commands fail, the
    bytes read from an open descriptor are the contents of its file up to the position; and a read
    in which no read command fails returns as many bytes as are asked for and left. -/
theorem file_reads_faithful (d : Disk) (s : FsState) (hfree : ∀ i, (s.files i).inUse = false)
    (ops : List FileOp) (hops : ∀ op ∈ ops, OpensWellFormed s op) :
    let r := Run.after (readerStep d) (freshReader s) ops
    ∀ fd, (r.fs.files fd).inUse = true → ∃ i e,
      dirFindEntry s.rootDirCache (r.name fd) = some (i, e) ∧
      (r.fs.files fd).position.toNat ≤ e.fileSize.toNat ∧
      r.got fd = (contents d s.fatCache e).take (r.fs.files fd).position.toNat ∧
      ∀ count result bytes fs, fsRead d r.fs fd true count = (result, bytes, fs) →
        result = bytes.length ∧
        ((∀ k, r.fs.reads ≤ k → k < fs.reads → d.fails k = false) →
          bytes.length = min count.toNat (e.fileSize.toNat - (r.fs.files fd).position.toNat)) := by
  intro r fd huse
  have hok : ReaderOk d s r := readerOk_after d hfree hops
  obtain ⟨i, e, m, hfind, hserves⟩ := hok.serves fd huse
  have hbound := hserves.onChain.bound
  rw [hserves.readable_eq] at hbound
  refine ⟨i, e, hfind, hbound, ?_, ?_⟩
  · rw [hserves.got, contents_eq, stretch_take, Nat.min_eq_left hbound]
  · intro count result bytes fs hread
    rw [← hok.fat] at hserves
    obtain ⟨j, bytes', file, clusterBuffer, reads, heq, hlen, -, hall⟩ := hserves.read huse count
    rw [heq] at hread
    cases hread
    exact ⟨by rw [hlen], fun hnofail => hlen.trans (hall hnofail)⟩

/-- CORRECT: in the same runs `fs_get_size` returns the length of the contents of the file that a
    descriptor is open on, and `0` for any other descriptor. -/
theorem fsGetSize_after (d : Disk) {s : FsState} (hfree : ∀ i, (s.files i).inUse = false)
    {ops : List FileOp} (hops : ∀ op ∈ ops, OpensWellFormed s op) (fd : ℤ) :
    let r := Run.after (readerStep d) (freshReader s) ops
    match openFile r.fs fd with
    | none => fsGetSize r.fs fd = 0
    | some i => ∃ n e, dirFindEntry s.rootDirCache (r.name i) = some (n, e) ∧
        (fsGetSize r.fs fd).toNat = (contents d s.fatCache e).length := by
  intro r
  have hok : ReaderOk d s r := readerOk_after d hfree hops
  rw [fsGetSize]
  cases hopen : openFile r.fs fd with
  | none => rfl
  | some i =>
    obtain ⟨n, e, m, hfind, hserves⟩ := hok.serves i (openFile_eq_some.mp hopen).2
    refine ⟨n, e, hfind, ?_⟩
    rw [contents_eq, length_stretch]
    exact congrArg UInt32.toNat hserves.size

/-! ### A sample -/

/-- A disk without errors, with different sectors. -/
def sampleDisk : Disk := ⟨fun lba k => UInt8.ofNat (7 * lba.toNat + k), fun _ => none⟩

/-- The file `A`: 600 bytes in the clusters 2 and 3. -/
def sampleEntry : FsDirEntry := ⟨[65, 32, 32, 32, 32, 32, 32, 32], [32, 32, 32], 0, 2, 600⟩

/-- A file system that holds just this file. -/
def sampleFs : FsState :=
  { staticFs with
    initialized := true
    rootDirCache := some fun k =>
      if k = 0 then 65 else if k < 11 then 32 else if k = 26 then 2 else if k = 28 then 88
      else if k = 29 then 2 else 0
    fatCache := some fun k =>
      if k = 3 then 0x03 else if k = 4 then 0xF0 else if k = 5 then 0xFF else 0 }

theorem sample_found : dirFindEntry sampleFs.rootDirCache [65] = some (0, sampleEntry) := by decide

theorem sample_wellFormed : WellFormed sampleFs.fatCache sampleEntry 2 where
  inData := by decide
  distinct := by decide
  covers := by decide

theorem file_reads_faithful_at_sample :
    let r := Run.after (readerStep sampleDisk) (freshReader sampleFs)
      [.fsOpen (some [65]) 0, .fsRead 0 true 3]
    (r.fs.files 0).inUse = true ∧ ∃ i e,
      dirFindEntry sampleFs.rootDirCache (r.name 0) = some (i, e) ∧
      r.got 0 = (contents sampleDisk sampleFs.fatCache e).take (r.fs.files 0).position.toNat := by
  have huse : ((Run.after (readerStep sampleDisk) (freshReader sampleFs)
      [.fsOpen (some [65]) 0, .fsRead 0 true 3]).fs.files 0).inUse = true := by decide
  have hops : ∀ op ∈ [FileOp.fsOpen (some [65]) 0, .fsRead 0 true 3],
      OpensWellFormed sampleFs op := by
    intro op hop
    rcases List.mem_cons.mp hop with rfl | hop
    · intro i e hfind
      rw [sample_found] at hfind
      cases hfind
      exact ⟨2, sample_wellFormed⟩
    · rw [List.mem_singleton.mp hop]
      trivial
  obtain ⟨i, e, hfind, -, hgot, -⟩ :=
    file_reads_faithful sampleDisk sampleFs (fun _ => rfl) _ hops 0 huse
  exact ⟨huse, i, e, hfind, hgot⟩

end VlsOs.Fs
