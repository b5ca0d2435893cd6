import VlsOs.Kernel.Directory
import VlsOs.Kernel.Fat

/-! The file system after a failed `fs_init`.

    `fs_init` puts the cache pointers in place before it knows whether the caches get filled. The
    queries look at different variables: `fs_open` and `fs_list_dir` at the flag, `fs_file_exists` and
    `fs_get_file_info` at the directory cache, `fs_get_next_cluster` at the FAT cache. So after a
    failure they answer from whatever bytes the heap held, or from part of the disk.

        fs_init fails at      FAT cache           directory cache
        first malloc          NULL                what it was
        second malloc         a freed block       NULL
        read of the FAT       some sectors        a fresh block
        read of the root      the FAT             some sectors

    In the last two cases some query always answers. The two blocks lie side by side, so that the word
    at the last byte of the FAT cache reaches into the first directory record:

        fatPtr              fatPtr + 4608 = rootPtr
        ├─── FAT cache ─────┼─── directory cache ─── ⋯
                        └ word ┘ -/

namespace VlsOs.Fs
open Patterns Patterns.Nibbles VlsOs.Libc VlsOs.Memory

/-! ### Queries -/

inductive Query
  | fsFileExists (filename : List UInt8)
  | fsGetFileInfo (filename : List UInt8) (info : Option FsDirInfo)
  | fsOpen (filename : Option (List UInt8)) (mode : UInt8)
  | fsListDir (entries : Option (ℕ → FsDirInfo)) (maxEntries : ℤ)
  | fsGetNextCluster (cluster : UInt32)

/-- A call, with its result. -/
def queryStep (s : FsState) : Query → FsState × ℤ
  | .fsFileExists filename => (s, fsFileExists s filename)
  | .fsGetFileInfo filename info => (s, (fsGetFileInfo s filename info).1)
  | .fsOpen filename mode => ((fsOpen s filename mode).2, (fsOpen s filename mode).1)
  | .fsListDir entries maxEntries => (s, (fsListDir s entries maxEntries).1)
  | .fsGetNextCluster cluster => (s, (Fat.fsGetNextCluster s cluster).val.toNat)

/-- What the call answers if there is no file system. -/
def refusal : Query → ℤ
  | .fsFileExists _ => 0
  | .fsGetFileInfo _ _ => -1
  | .fsOpen _ _ => -1
  | .fsListDir _ _ => -1
  | .fsGetNextCluster _ => 0xFFF

/-- No record of the directory is in use. -/
def BlankDir (dir : ℕ → UInt8) : Prop := ∀ i, ¬ InUse dir i

/-- All the nibbles that a cluster number can lead to are ones, up to the low one of the byte after the
    cache. -/
def BlankFat (fat : ℕ → UInt8) : Prop := ∀ k, k ≤ 9216 → nibble fat k = 15

/-- Where `fs_init` fails, it fails for want of memory, and the bytes that it leaves in the caches say
    nothing. -/
def LeavesNothing (d : Disk) (mem : Mem) (h : Heap) (s : FsState) : Prop :=
  if s.initialized then True
  else
    let (fatPtr, h) := malloc h (9 * 512)
    if fatPtr = null then ∀ dir, s.rootDirCache = some dir → BlankDir dir
    else
      let (rootPtr, _) := malloc h (14 * 512)
      if rootPtr = null then BlankFat (cells mem fatPtr)
      else d.stopsAfter s.reads = none ∧ d.stopsAfter (s.reads + 1) = none

/-! ### What the caches say -/

/-- Nothing is found in a directory cache exactly when no record of it is in use: a record in use is
    found under its own name. -/
theorem blankDir_iff (dir : ℕ → UInt8) :
    BlankDir dir ↔ ∀ name, dirFindEntry (some dir) name = none := by
  constructor
  · intro h name
    exact (dirFindEntry_none_iff dir name).mpr fun i huse => absurd huse (h i)
  · intro h i huse
    exact (dirFindEntry_none_iff dir _).mp (h (fullName (dirEntry dir i))) i huse rfl

/-- Every cluster number leads to the end mark exactly when the FAT is all ones. The offsets that wrap
    reach one nibble further than the entries. -/
theorem blankFat_iff (fat : ℕ → UInt8) :
    BlankFat fat ↔ ∀ c, (Fat.fat12GetNext (some fat) c).val = fsClusterEof := by
  constructor
  · intro h c
    have hlt := c.toNat_lt
    have hoff := Fat.offset_nibble c
    rcases Nat.lt_or_ge (c + c / 2).toNat (9 * 512) with hin | hout
    · -- an odd cluster never has its word at the last byte of the cache
      have hlast : 3 * c.toNat % 2 ^ 33 ≤ 9214 := by
        rcases Nat.lt_or_ge (3 * c.toNat) (2 ^ 33) with hsmall | hwrap
        · rw [Nat.mod_eq_of_lt hsmall] at hoff ⊢
          omega
        · have hsub : 3 * c.toNat % 2 ^ 33 = 3 * c.toNat - 2 ^ 33 := by omega
          rw [hsub] at hoff ⊢
          omega
      have hones := (number_eq_max_iff fat (3 * c.toNat % 2 ^ 33) 3).mpr fun i hi => h _ (by omega)
      rw [← UInt32.toNat_inj, Fat.getNext_toNat fat hin]
      change _ = 0xFFF
      omega
    · rw [Fat.getNext_past fat hout]
      rfl
  · intro h k hk
    have hcell : ∀ c : UInt32, (c + c / 2).toNat < 9 * 512 → ∀ i, i < 3 →
        nibble fat (3 * c.toNat % 2 ^ 33 + i) = 15 := by
      intro c hin
      have hnext := congrArg UInt32.toNat (h c)
      rw [Fat.getNext_toNat fat hin] at hnext
      change _ = 0xFFF at hnext
      exact (number_eq_max_iff fat _ 3).mp (by omega)
    rcases Nat.eq_or_lt_of_le hk with rfl | hk
    · exact hcell 0xAAAAB6AA (by decide) 2 (by decide)
    · have hc : (UInt32.ofNat (k / 3)).toNat = k / 3 := UInt32.toNat_ofNat_of_lt' (by
        change k / 3 < 2 ^ 32
        omega)
      have hoff := Fat.offset_nibble (UInt32.ofNat (k / 3))
      rw [hc] at hoff
      have hnib := hcell (UInt32.ofNat (k / 3)) (by omega) (k % 3) (by omega)
      rw [hc, show 3 * (k / 3) % 2 ^ 33 + k % 3 = k by omega] at hnib
      exact hnib

/-- The byte behind the FAT cache is the first one of the directory cache. It cannot both be all ones
    below and say that there is no record. -/
theorem not_blank (mem : Mem) (fatPtr : UInt32) :
    ¬(BlankDir (cells mem (fatPtr + 9 * 512)) ∧ BlankFat (cells mem fatPtr)) := by
  rintro ⟨hdir, hfat⟩
  have hbyte : cells mem (fatPtr + 9 * 512) 0 = cells mem fatPtr 4608 := by
    rw [cells, add_offset]
    rfl
  have hfirst : cells mem fatPtr 4608 = 0x00 ∨ cells mem fatPtr 4608 = 0xE5 := by
    by_contra hused
    rw [not_or, ← hbyte] at hused
    refine hdir 0 ⟨by decide, fun j hj => ?_, hused.2⟩
    rw [Nat.le_zero.mp hj]
    exact hused.1
  have hones : nibble (cells mem fatPtr) 9216 = 15 := hfat 9216 le_rfl
  have hlow : nibble (cells mem fatPtr) 9216 = (cells mem fatPtr 4608).toNat % 16 := by
    rw [nibble]
    norm_num
  rw [hlow] at hones
  rcases hfirst with hzero | hdeleted
  · rw [hzero] at hones
    exact absurd hones (by decide)
  · rw [hdeleted] at hones
    exact absurd hones (by decide)

/-- EXACT, without the flag: the queries are refused precisely if the caches say nothing. -/
theorem queries_refused_iff {s : FsState} (hinit : s.initialized = false) :
    (∀ qs, Run.outs queryStep s qs = qs.map refusal) ↔
      (∀ dir, s.rootDirCache = some dir → BlankDir dir) ∧
        ∀ fat, s.fatCache = some fat → BlankFat fat := by
  have hopen : ∀ filename mode, fsOpen s filename mode = (-1, s) := by
    intro filename mode
    cases filename with
    | none => rfl
    | some name => simp only [fsOpen, hinit, if_true]
  have hidle : ∀ q, (queryStep s q).1 = s := by
    intro q
    cases q with
    | fsOpen filename mode => exact congrArg Prod.snd (hopen filename mode)
    | _ => rfl
  constructor
  · intro h
    have hquery : ∀ q, (queryStep s q).2 = refusal q := fun q => (List.cons.inj (h [q])).1
    refine ⟨fun dir hdir => (blankDir_iff dir).mpr fun name => ?_,
      fun fat hfat => (blankFat_iff fat).mpr fun c => ?_⟩
    · have hexists : fsFileExists s name = 0 := hquery (.fsFileExists name)
      cases hfind : dirFindEntry (some dir) name with
      | none => rfl
      | some found =>
        rw [fsFileExists, hdir, hfind] at hexists
        cases hexists
    · have hnext : ((Fat.fsGetNextCluster s c).val.toNat : ℤ) = 0xFFF :=
        hquery (.fsGetNextCluster c)
      rw [Fat.fsGetNextCluster, hfat] at hnext
      rw [← UInt32.toNat_inj]
      change _ = 0xFFF
      omega
  · rintro ⟨hdir, hfat⟩ qs
    have hnone : ∀ name, dirFindEntry s.rootDirCache name = none := by
      intro name
      cases hcache : s.rootDirCache with
      | none => rfl
      | some dir => exact (blankDir_iff dir).mp (hdir dir hcache) name
    rw [Run.outs_idle hidle]
    refine List.map_congr_left fun q _ => ?_
    cases q with
    | fsFileExists name =>
      change fsFileExists s name = 0
      rw [fsFileExists, hnone]
    | fsGetFileInfo name info =>
      cases info with
      | none => rfl
      | some info =>
        change (fsGetFileInfo s name (some info)).1 = -1
        rw [fsGetFileInfo]
        cases hcache : s.rootDirCache with
        | none => rfl
        | some dir =>
          have hname := hnone name
          rw [hcache] at hname
          simp only [hname]
    | fsOpen filename mode => exact congrArg Prod.fst (hopen filename mode)
    | fsListDir entries maxEntries =>
      cases entries with
      | none => rfl
      | some entries =>
        change (fsListDir s (some entries) maxEntries).1 = -1
        simp only [fsListDir, hinit, if_true]
    | fsGetNextCluster c =>
      change ((Fat.fsGetNextCluster s c).val.toNat : ℤ) = 0xFFF
      rw [Fat.fsGetNextCluster]
      cases hcache : s.fatCache with
      | none => rfl
      | some fat =>
        rw [(blankFat_iff fat).mp (hfat fat hcache) c]
        rfl

/-- EXACT: after a failed `fs_init` every query is refused precisely if there was no memory for the two
    caches, and the bytes that it leaves in one of them say nothing. -/
theorem failed_init_refuses_iff (d : Disk) (mem : Mem) (h : Heap) (s : FsState) :
    ((fsInit d mem h s).1 = -1 →
      ∀ qs, Run.outs queryStep (fsInit d mem h s).2.2 qs = qs.map refusal) ↔
    LeavesNothing d mem h s := by
  have hdone : ∀ t : FsState, ((0 : ℤ) = -1 → ∀ qs, Run.outs queryStep t qs = qs.map refusal) :=
    fun t hfail => absurd hfail (by decide)
  have hexit : ∀ {p : Prop} (_ : p) (t : FsState), t.initialized = false →
      ((p → ∀ qs, Run.outs queryStep t qs = qs.map refusal) ↔
        (∀ dir, t.rootDirCache = some dir → BlankDir dir) ∧
          ∀ fat, t.fatCache = some fat → BlankFat fat) :=
    fun hp t ht => (forall_prop_of_true hp).trans (queries_refused_iff ht)
  have hneg : (-1 : ℤ) < 0 := by decide
  have hcount : ∀ n : ℕ, ¬ (n : ℤ) < 0 := by omega
  unfold fsInit LeavesNothing
  by_cases hinit : s.initialized = true
  · rw [if_pos hinit, if_pos hinit]
    exact iff_of_true (hdone s) trivial
  have hflag : s.initialized = false := Bool.eq_false_iff.mpr hinit
  rw [if_neg hinit, if_neg hinit]
  -- one case for each way out of `fs_init`
  cases hfirstMalloc : malloc h (9 * 512) with
  | mk fatPtr h₁ =>
    dsimp only
    by_cases hfatPtr : fatPtr = null
    · rw [if_pos hfatPtr, if_pos hfatPtr]
      refine (hexit rfl _ ?_).trans (and_iff_left fun fat hcache => ?_)
      · exact hflag
      · cases hcache
    rw [if_neg hfatPtr, if_neg hfatPtr]
    cases hsecondMalloc : malloc h₁ (14 * 512) with
    | mk rootPtr h₂ =>
      dsimp only
      by_cases hrootPtr : rootPtr = null
      · rw [if_pos hrootPtr, if_pos hrootPtr]
        refine (hexit rfl _ ?_).trans ?_
        · exact hflag
        · simp
      rw [if_neg hrootPtr, if_neg hrootPtr]
      -- the second block follows the first
      have hnext : rootPtr = fatPtr + 9 * 512 := by
        rw [(malloc_granted hsecondMalloc hrootPtr).1, (malloc_granted hfirstMalloc hfatPtr).2]
      subst hnext
      cases hfirst : d.stopsAfter s.reads with
      | some sectors =>
        simp only [diskReadSectors, hfirst, if_pos hneg]
        refine (hexit trivial _ ?_).trans ?_
        · exact hflag
        · simpa using fun hdir hfat => not_blank _ fatPtr ⟨hdir, hfat⟩
      | none =>
        simp only [diskReadSectors, hfirst, if_neg (hcount _)]
        cases hsecond : d.stopsAfter (s.reads + 1) with
        | some sectors =>
          simp only [if_pos hneg]
          refine (hexit trivial _ ?_).trans ?_
          · exact hflag
          · simpa using fun hdir hfat => not_blank _ fatPtr ⟨hdir, hfat⟩
        | none =>
          simp only [if_neg (hcount _)]
          exact iff_of_true (hdone _) ⟨trivial, trivial⟩

/-- A heap full of `A`s and a disk that reads nothing: the file `AAAAAAAA.AAA` exists, and cluster 2
    leads to cluster 0x141. -/
theorem failed_init_finds_file :
    let r := fsInit { sampleDisk with stopsAfter := fun _ => some 0 } (fun _ => 0x41)
      (memoryInit ⟨0⟩) staticFs
    r.1 = -1 ∧ fsFileExists r.2.2 (List.replicate 8 0x41 ++ 0x2E :: List.replicate 3 0x41) = 1 ∧
      (Fat.fsGetNextCluster r.2.2 2).val = 0x141 := by
  decide

end VlsOs.Fs
