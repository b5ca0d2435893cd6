import VlsOs.Kernel.FileRun

/-! Listing the root directory and looking a name up in it.

    `dir_find_entry` and `fs_list_dir` walk the same 224 records, each in a loop of its own. Both stop
    at the end mark and pass over deleted records. The listing passes over volume labels as well, which
    the lookup does not.

        record     A.TXT   (deleted)   LABEL   A.TXT   B     end   C
                     │                   │       │     │
        used         0                   2       3     4
        listed       0                           3     4
        found by     A.TXT               LABEL         B -/

namespace VlsOs.Fs
open Patterns VlsOs.Libc

def fsAttrVolume : UInt8 := 0x08

/-- `fs_dir_info_t`; the name is the whole array of characters. -/
structure FsDirInfo where
  filename : List UInt8
  attributes : UInt8
  fileSize : UInt32
  startCluster : UInt32
  writeDate : UInt16
  writeTime : UInt16
  deriving DecidableEq, Repr

/-- The two records agree in all but the name. -/
def FsDirInfo.SameData (a b : FsDirInfo) : Prop :=
  a.attributes = b.attributes ∧ a.fileSize = b.fileSize ∧ a.startCluster = b.startCluster ∧
    a.writeDate = b.writeDate ∧ a.writeTime = b.writeTime

/-- The array of a caller after the name of a record has been built in it. -/
def buildName (array : List UInt8) (e : FsDirEntry) : List UInt8 :=
  fullName e ++ 0 :: array.drop ((fullName e).length + 1)

/-- The information record of a caller after it has been filled from directory record `i`. -/
def dirInfo (dir : ℕ → UInt8) (i : ℕ) (info : FsDirInfo) : FsDirInfo where
  filename := buildName info.filename (dirEntry dir i)
  attributes := (dirEntry dir i).attributes
  fileSize := (dirEntry dir i).fileSize
  startCluster := (dirEntry dir i).lowCluster.toUInt32
  writeDate := word16 dir (32 * i + 24)
  writeTime := word16 dir (32 * i + 22)

/-- The loop of `fs_list_dir` over the given record numbers, from an array and a count. -/
def listLoop (dir : ℕ → UInt8) (maxEntries : ℤ) :
    List ℕ → (ℕ → FsDirInfo) → ℕ → ℕ × (ℕ → FsDirInfo)
  | [], entries, count => (count, entries)
  | i :: is, entries, count =>
    if (count : ℤ) < maxEntries then
      if dir (32 * i) = 0x00 then (count, entries)
      else if dir (32 * i) = 0xE5 ∨ (dirEntry dir i).attributes &&& fsAttrVolume ≠ 0 then
        listLoop dir maxEntries is entries count
      else
        listLoop dir maxEntries is
          (Function.update entries count (dirInfo dir i (entries count))) (count + 1)
    else (count, entries)

/-- `fs_list_dir`: the result, and the array of the caller after it (`none` is NULL). The name of the
    directory is not looked at. The flag is set with both caches in place only, so the NULL cache
    behind it is never read. -/
def fsListDir (s : FsState) (entries : Option (ℕ → FsDirInfo)) (maxEntries : ℤ) :
    ℤ × Option (ℕ → FsDirInfo) :=
  match entries with
  | none => (-1, none)
  | some entries =>
    if s.initialized = false then (-1, some entries)
    else
      match s.rootDirCache with
      | none => (0, some entries)
      | some dir =>
        let (count, entries) := listLoop dir maxEntries (List.range fsRootEntries) entries 0
        ((count : ℤ), some entries)

def fsFileExists (s : FsState) (filename : List UInt8) : ℤ :=
  match dirFindEntry s.rootDirCache filename with
  | some _ => 1
  | none => 0

/-- `fs_get_file_info`: the result, and the record of the caller after it (`none` is NULL). The
    directory record that is found is copied whole, so its date and time are those in the cache. -/
def fsGetFileInfo (s : FsState) (filename : List UInt8) (info : Option FsDirInfo) :
    ℤ × Option FsDirInfo :=
  match info with
  | none => (-1, none)
  | some info =>
    match s.rootDirCache with
    | none => (-1, some info)
    | some dir =>
      match dirFindEntry (some dir) filename with
      | none => (-1, some info)
      | some (i, _) => (0, some (dirInfo dir i info))

/-! ### Names -/

/-- The name a directory record renders to, as a C string. -/
def entryName (dir : ℕ → UInt8) (i : ℕ) : List UInt8 := text (fullName (dirEntry dir i))

theorem text_dirInfo (dir : ℕ → UInt8) (i : ℕ) (info : FsDirInfo) :
    text (dirInfo dir i info).filename = entryName dir i :=
  text_append_nul _ _

/-- A rendered name fits in the 13 characters of the array, with its terminator. -/
theorem fullName_fits (dir : ℕ → UInt8) (i : ℕ) : (fullName (dirEntry dir i)).length + 1 ≤ 13 := by
  have hname : ((dirEntry dir i).filename.takeWhile (· ≠ 0x20)).length ≤ 8 := by
    refine (List.takeWhile_sublist _).length_le.trans_eq ?_
    exact Blocks.length_stretch ..
  have hext : ((dirEntry dir i).extension.takeWhile (· ≠ 0x20)).length ≤ 3 := by
    refine (List.takeWhile_sublist _).length_le.trans_eq ?_
    exact Blocks.length_stretch ..
  rw [fullName]
  split
  · rw [List.length_append, List.length_cons]
    omega
  · omega

/-! ### The records in use -/

/-- A directory record is in use: it comes before the end mark and is not deleted. -/
structure InUse (dir : ℕ → UInt8) (i : ℕ) : Prop where
  bound : i < fsRootEntries
  before : ∀ j, j ≤ i → dir (32 * j) ≠ 0x00
  kept : dir (32 * i) ≠ 0xE5

/-- The records in use among the given ones, in order. -/
def used (dir : ℕ → UInt8) (is : List ℕ) : List ℕ :=
  (is.takeWhile fun i => dir (32 * i) ≠ 0x00).filter fun i => dir (32 * i) ≠ 0xE5

/-- Those of them that are no volume label. -/
def listed (dir : ℕ → UInt8) (is : List ℕ) : List ℕ :=
  (used dir is).filter fun i => (dirEntry dir i).attributes &&& fsAttrVolume = 0

section
variable (dir : ℕ → UInt8)

theorem mem_takeWhile_range' (p : ℕ → Bool) (i : ℕ) : ∀ n k : ℕ,
    i ∈ (List.range' k n).takeWhile p ↔
      k ≤ i ∧ i < k + n ∧ ∀ j, k ≤ j → j ≤ i → p j = true := by
  intro n
  induction n with
  | zero =>
    intro k
    exact iff_of_false List.not_mem_nil fun h => by omega
  | succ n ih =>
    intro k
    rw [List.range'_succ, List.takeWhile_cons]
    split
    · rename_i hk
      rw [List.mem_cons, ih]
      constructor
      · rintro (rfl | ⟨hle, hlt, hall⟩)
        · refine ⟨le_rfl, by omega, fun j hj hji => ?_⟩
          rwa [le_antisymm hji hj]
        · refine ⟨by omega, by omega, fun j hj hji => ?_⟩
          rcases Nat.eq_or_lt_of_le hj with rfl | hj
          · exact hk
          · exact hall j hj hji
      · rintro ⟨hle, hlt, hall⟩
        rcases Nat.eq_or_lt_of_le hle with rfl | hle
        · exact .inl rfl
        · exact .inr ⟨hle, by omega, fun j hj hji => hall j (by omega) hji⟩
    · rename_i hk
      exact iff_of_false List.not_mem_nil fun h => hk (h.2.2 k le_rfl h.1)

theorem mem_used (i : ℕ) : i ∈ used dir (List.range fsRootEntries) ↔ InUse dir i := by
  rw [used, List.mem_filter, List.range_eq_range', mem_takeWhile_range', decide_eq_true_iff]
  constructor
  · rintro ⟨⟨-, hlt, hall⟩, hkept⟩
    exact ⟨by omega, fun j hj => of_decide_eq_true (hall j (Nat.zero_le j) hj), hkept⟩
  · intro h
    have := h.bound
    exact ⟨⟨Nat.zero_le i, by omega, fun j _ hj => decide_eq_true (h.before j hj)⟩, h.kept⟩

theorem mem_listed (i : ℕ) : i ∈ listed dir (List.range fsRootEntries) ↔
    InUse dir i ∧ (dirEntry dir i).attributes &&& fsAttrVolume = 0 := by
  rw [listed, List.mem_filter, mem_used, decide_eq_true_iff]

theorem used_sublist (is : List ℕ) : (used dir is).Sublist is :=
  List.filter_sublist.trans (List.takeWhile_sublist _)

theorem used_cons (i : ℕ) (is : List ℕ) :
    used dir (i :: is) =
      if dir (32 * i) = 0x00 then []
      else if dir (32 * i) = 0xE5 then used dir is else i :: used dir is := by
  by_cases hend : dir (32 * i) = 0x00
  · simp [used, hend]
  · by_cases hdel : dir (32 * i) = 0xE5
    · simp [used, hdel]
    · simp [used, hend, hdel]

/-! ### Lookup -/

/-- REFINEMENT: the lookup loop finds a name in the list of the records in use. -/
theorem dirSearch_eq (name : List UInt8) (is : List ℕ) :
    dirSearch dir name is =
      ((used dir is).find? fun i => entryName dir i = text name).map fun i => (i, dirEntry dir i) := by
  induction is with
  | nil => rfl
  | cons i is ih =>
    rw [dirSearch, used_cons]
    split
    · rfl
    · split
      · exact ih
      · rw [List.find?_cons]
        by_cases hname : strcmp (fullName (dirEntry dir i)) name = 0
        · have heq : entryName dir i = text name := (strcmp_eq_zero _ _).mp hname
          rw [if_pos hname, decide_eq_true heq]
          rfl
        · have hne : ¬ entryName dir i = text name := mt (strcmp_eq_zero _ _).mpr hname
          rw [if_neg hname, decide_eq_false hne]
          exact ih

/-- Record `i` is the first one in use with that name. -/
structure FirstNamed (name : List UInt8) (i : ℕ) : Prop where
  inUse : InUse dir i
  named : entryName dir i = text name
  first : ∀ j, j < i → InUse dir j → entryName dir j ≠ text name

/-- SPEC of `dir_find_entry`: the first record in use with the name, … -/
theorem dirFindEntry_some {dir : ℕ → UInt8} {name : List UInt8} {i : ℕ} {e : FsDirEntry}
    (h : dirFindEntry (some dir) name = some (i, e)) : FirstNamed dir name i := by
  rw [dirFindEntry, dirSearch_eq, Option.map_eq_some_iff] at h
  obtain ⟨k, hfind, heq⟩ := h
  cases heq
  obtain ⟨hnamed, before, after, hsplit, hbefore⟩ := List.find?_eq_some_iff_append.mp hfind
  have hmem : i ∈ used dir (List.range fsRootEntries) := List.mem_of_find?_eq_some hfind
  refine ⟨(mem_used dir i).mp hmem, of_decide_eq_true hnamed, fun j hj huse => ?_⟩
  -- the records are in order, so an earlier one stands before the one that was found
  have hjmem := (mem_used dir j).mpr huse
  have hsorted := List.pairwise_lt_range.sublist (used_sublist dir (List.range fsRootEntries))
  rw [hsplit] at hjmem hsorted
  have hafter := (List.pairwise_cons.mp (List.pairwise_append.mp hsorted).2.1).1
  rcases List.mem_append.mp hjmem with hj' | hj'
  · have hnot := hbefore j hj'
    simpa using hnot
  · rcases List.mem_cons.mp hj' with rfl | hj'
    · omega
    · have := hafter j hj'
      omega

/-- … if there is one. -/
theorem dirFindEntry_none_iff (name : List UInt8) :
    dirFindEntry (some dir) name = none ↔ ∀ i, InUse dir i → entryName dir i ≠ text name := by
  rw [dirFindEntry, dirSearch_eq, Option.map_eq_none_iff, List.find?_eq_none]
  refine forall_congr' fun i => ?_
  rw [mem_used, decide_eq_true_iff]

/-! ### Listing -/

theorem listed_cons (i : ℕ) (is : List ℕ) :
    listed dir (i :: is) =
      if dir (32 * i) = 0x00 then []
      else if dir (32 * i) = 0xE5 ∨ (dirEntry dir i).attributes &&& fsAttrVolume ≠ 0 then
        listed dir is
      else i :: listed dir is := by
  rw [listed, used_cons]
  by_cases hend : dir (32 * i) = 0x00
  · simp [hend]
  · by_cases hdel : dir (32 * i) = 0xE5
    · simp [hdel, listed]
    · by_cases hvol : (dirEntry dir i).attributes &&& fsAttrVolume = 0
      · simp [hend, hdel, hvol, listed]
      · simp [hend, hdel, hvol, listed]

/-- REFINEMENT: the listing loop fills the array from the records in use that are no label, as far as
    there is room, and leaves the rest of it. -/
theorem listLoop_spec (maxEntries : ℤ) : ∀ (is : List ℕ) (entries : ℕ → FsDirInfo) (count : ℕ),
    let shown := (listed dir is).take (maxEntries - count).toNat
    let r := listLoop dir maxEntries is entries count
    r.1 = count + shown.length ∧ (∀ k, k < count → r.2 k = entries k) ∧
      ∀ m, r.2 (count + m) =
        shown[m]?.elim (entries (count + m)) fun i => dirInfo dir i (entries (count + m)) := by
  intro is
  induction is with
  | nil =>
    intro entries count
    have hnone : (listed dir []).take (maxEntries - count).toNat = [] := List.take_nil
    dsimp only
    rw [hnone]
    exact ⟨rfl, fun _ _ => rfl, fun _ => rfl⟩
  | cons i is ih =>
    intro entries count
    dsimp only
    rw [listLoop, listed_cons]
    by_cases hroom : (count : ℤ) < maxEntries
    · rw [if_pos hroom]
      split
      · rw [List.take_nil]
        exact ⟨rfl, fun _ _ => rfl, fun _ => rfl⟩
      · split
        · exact ih entries count
        · -- one more record: the array is written at `count`
          obtain ⟨hcount, hbelow, habove⟩ :=
            ih (Function.update entries count (dirInfo dir i (entries count))) (count + 1)
          have hrest : (maxEntries - count).toNat = (maxEntries - (count + 1 : ℕ)).toNat + 1 := by
            omega
          rw [hrest, List.take_succ_cons]
          refine ⟨?_, fun k hk => ?_, fun m => ?_⟩
          · rw [hcount, List.length_cons]
            omega
          · rw [hbelow k (by omega), Function.update_of_ne (by omega)]
          · cases m with
            | zero =>
              exact (hbelow count (by omega)).trans (Function.update_self ..)
            | succ m =>
              rw [show count + (m + 1) = count + 1 + m by omega, habove m,
                Function.update_of_ne (by omega), List.getElem?_cons_succ]
    · have hfull : (maxEntries - count).toNat = 0 := by omega
      rw [if_neg hroom, hfull, List.take_zero]
      exact ⟨rfl, fun _ _ => rfl, fun _ => rfl⟩

end

/-- SPEC of `fs_list_dir`, with room for all records. -/
theorem fsListDir_spec {s : FsState} {dir : ℕ → UInt8} (hinit : s.initialized = true)
    (hdir : s.rootDirCache = some dir) {maxEntries : ℤ} (hmax : fsRootEntries ≤ maxEntries)
    (entries : ℕ → FsDirInfo) : ∃ infos : ℕ → FsDirInfo,
      fsListDir s (some entries) maxEntries =
        (((listed dir (List.range fsRootEntries)).length : ℤ), some infos) ∧
      ∀ k i, (listed dir (List.range fsRootEntries))[k]? = some i →
        infos k = dirInfo dir i (entries k) := by
  obtain ⟨hcount, -, habove⟩ := listLoop_spec dir maxEntries (List.range fsRootEntries) entries 0
  have hlen : (listed dir (List.range fsRootEntries)).length ≤ fsRootEntries := by
    have hsub : (listed dir (List.range fsRootEntries)).Sublist (List.range fsRootEntries) :=
      List.filter_sublist.trans (used_sublist dir _)
    exact hsub.length_le.trans_eq List.length_range
  have hall : (listed dir (List.range fsRootEntries)).take (maxEntries - (0 : ℕ)).toNat =
      listed dir (List.range fsRootEntries) := by
    refine List.take_of_length_le (hlen.trans ?_)
    omega
  rw [hall] at hcount habove
  refine ⟨(listLoop dir maxEntries (List.range fsRootEntries) entries 0).2, ?_, fun k i hk => ?_⟩
  · rw [Nat.zero_add] at hcount
    simp only [fsListDir, hinit, hdir, ← hcount, Bool.true_eq_false, if_false]
  · have hvalue := habove k
    rwa [hk, Nat.zero_add] at hvalue

/-! ### The two together -/

/-- CORRECT: what is listed is found. A record of the listing describes a record in use that is no
    label; under its name the lookup functions find the first record in use with that name, and that
    is the listed one unless an earlier one renders to the same name. Rendered names fit. -/
theorem listed_is_found {s : FsState} {dir : ℕ → UInt8} (hinit : s.initialized = true)
    (hdir : s.rootDirCache = some dir) {maxEntries : ℤ} (hmax : fsRootEntries ≤ maxEntries)
    (entries : ℕ → FsDirInfo) : ∃ (count : ℕ) (infos : ℕ → FsDirInfo),
      fsListDir s (some entries) maxEntries = ((count : ℤ), some infos) ∧
      (∀ k, k < count → ∃ j i, InUse dir j ∧ infos k = dirInfo dir j (entries k) ∧
        fsFileExists s (infos k).filename = 1 ∧ FirstNamed dir (infos k).filename i ∧
        ∀ info, ∃ info', fsGetFileInfo s (infos k).filename (some info) = (0, some info') ∧
          text info'.filename = text (infos k).filename ∧ info' = dirInfo dir i info ∧
          ((∀ b, b < j → InUse dir b → entryName dir b ≠ text (infos k).filename) →
            info'.SameData (infos k))) ∧
      ∀ i, (fullName (dirEntry dir i)).length + 1 ≤ 13 := by
  obtain ⟨infos, hlist, hinfos⟩ := fsListDir_spec hinit hdir hmax entries
  refine ⟨_, infos, hlist, fun k hk => ?_, fullName_fits dir⟩
  have hget := List.getElem?_eq_getElem hk
  generalize (listed dir (List.range fsRootEntries))[k] = j at hget
  have huse := ((mem_listed dir j).mp (List.mem_of_getElem? hget)).1
  have hk := hinfos k j hget
  have hname : entryName dir j = text (infos k).filename := by
    rw [hk, text_dirInfo]
  cases hfind : dirFindEntry (some dir) (infos k).filename with
  | none => exact absurd hname ((dirFindEntry_none_iff dir _).mp hfind j huse)
  | some found =>
    obtain ⟨i, e⟩ := found
    have hfirst := dirFindEntry_some hfind
    refine ⟨j, i, huse, hk, ?_, hfirst, fun info => ⟨dirInfo dir i info, ?_, ?_, rfl, fun hnone => ?_⟩⟩
    · rw [fsFileExists, hdir, hfind]
    · simp only [fsGetFileInfo, hdir, hfind]
    · rw [text_dirInfo, hfirst.named]
    · have hij : i = j := by
        rcases lt_trichotomy i j with hlt | heq | hgt
        · exact absurd hfirst.named (hnone i hlt hfirst.inUse)
        · exact heq
        · exact absurd hname (hfirst.first j hgt huse)
      rw [hk, hij]
      exact ⟨rfl, rfl, rfl, rfl, rfl⟩

/-- An empty information record. -/
def blankInfo : FsDirInfo := ⟨List.replicate 13 0, 0, 0, 0, 0, 0⟩

theorem sample_listed_is_found :
    sampleFs.initialized = true ∧ fsRootEntries ≤ (224 : ℤ) ∧
      ∃ infos : ℕ → FsDirInfo,
        fsListDir sampleFs (some fun _ => blankInfo) 224 = (1, some infos) ∧
        fsFileExists sampleFs (infos 0).filename = 1 := by
  have hmax : (fsRootEntries : ℤ) ≤ 224 := le_rfl
  obtain ⟨count, infos, hlist, hfound, -⟩ :=
    listed_is_found (s := sampleFs) rfl rfl hmax fun _ => blankInfo
  have hcount : (count : ℤ) = 1 := (congrArg Prod.fst hlist).symm.trans (by decide)
  obtain ⟨j, i, -, -, hexists, -⟩ := hfound 0 (by omega)
  exact ⟨rfl, hmax, infos, by rw [hlist, hcount], hexists⟩

section
variable {s : FsState} {name : List UInt8}

theorem found_of_fsOpen {mode : UInt8} (h : 0 ≤ (fsOpen s (some name) mode).1) :
    ∃ i e, dirFindEntry s.rootDirCache name = some (i, e) := by
  rcases fsOpen_cases s (some name) mode with ⟨fd, found, i, e, file, hname, -, hfind, -⟩ | hfail
  · cases hname
    exact ⟨i, e, hfind⟩
  · rw [hfail] at h
    have hneg : ¬ (0 : ℤ) ≤ -1 := by decide
    exact absurd h hneg

theorem found_of_fsFileExists (h : fsFileExists s name = 1) :
    ∃ i e, dirFindEntry s.rootDirCache name = some (i, e) := by
  cases hfind : dirFindEntry s.rootDirCache name with
  | none =>
    rw [fsFileExists, hfind] at h
    cases h
  | some found => exact ⟨found.1, found.2, rfl⟩

theorem found_of_fsGetFileInfo {info : FsDirInfo} (h : (fsGetFileInfo s name (some info)).1 = 0) :
    ∃ i e, dirFindEntry s.rootDirCache name = some (i, e) := by
  cases hdir : s.rootDirCache with
  | none =>
    simp only [fsGetFileInfo, hdir] at h
    cases h
  | some dir =>
    cases hfind : dirFindEntry (some dir) name with
    | none =>
      simp only [fsGetFileInfo, hdir, hfind] at h
      cases h
    | some found => exact ⟨found.1, found.2, rfl⟩

end

/-- EXACT: what can be found is listed precisely if, whenever a record in use has the name, the file
    system is initialised and one of them is no volume label. -/
theorem found_is_listed_iff (s : FsState) (name : List UInt8) :
    (∀ (mode : UInt8) (info : FsDirInfo) (entries : ℕ → FsDirInfo) (maxEntries : ℤ),
      fsRootEntries ≤ maxEntries →
      (0 ≤ (fsOpen s (some name) mode).1 ∨ fsFileExists s name = 1 ∨
        (fsGetFileInfo s name (some info)).1 = 0) →
      ∃ (count : ℕ) (infos : ℕ → FsDirInfo),
        fsListDir s (some entries) maxEntries = ((count : ℤ), some infos) ∧
        ∃ k, k < count ∧ text (infos k).filename = text name) ↔
    ∀ dir i, s.rootDirCache = some dir → InUse dir i → entryName dir i = text name →
      s.initialized = true ∧ ∃ j, InUse dir j ∧ entryName dir j = text name ∧
        (dirEntry dir j).attributes &&& fsAttrVolume = 0 := by
  constructor
  · intro h dir i hdir huse hname
    have hexists : fsFileExists s name = 1 := by
      cases hfind : dirFindEntry (some dir) name with
      | none => exact absurd hname ((dirFindEntry_none_iff dir name).mp hfind i huse)
      | some found => rw [fsFileExists, hdir, hfind]
    have hmax : (fsRootEntries : ℤ) ≤ fsRootEntries := le_rfl
    obtain ⟨count, infos, hlist, k, hk, htext⟩ :=
      h 0 blankInfo (fun _ => blankInfo) fsRootEntries hmax (.inr (.inl hexists))
    cases hinit : s.initialized with
    | false =>
      simp only [fsListDir, hinit, if_true] at hlist
      cases hlist
    | true =>
      obtain ⟨infos', hlist', hinfos⟩ := fsListDir_spec hinit hdir hmax fun _ => blankInfo
      rw [hlist'] at hlist
      cases hlist
      have hget := List.getElem?_eq_getElem hk
      generalize (listed dir (List.range fsRootEntries))[k] = j at hget
      obtain ⟨hjuse, hjfile⟩ := (mem_listed dir j).mp (List.mem_of_getElem? hget)
      rw [hinfos k j hget, text_dirInfo] at htext
      exact ⟨rfl, j, hjuse, htext, hjfile⟩
  · intro h mode info entries maxEntries hmax hfound
    -- all three find a name through `dir_find_entry`
    have hsome : ∃ i e, dirFindEntry s.rootDirCache name = some (i, e) := by
      rcases hfound with hopen | hexists | hinfo
      · exact found_of_fsOpen hopen
      · exact found_of_fsFileExists hexists
      · exact found_of_fsGetFileInfo hinfo
    obtain ⟨i, e, hfind⟩ := hsome
    obtain ⟨dir, hdir⟩ : ∃ dir, s.rootDirCache = some dir := by
      cases hdir : s.rootDirCache with
      | none =>
        rw [hdir] at hfind
        cases hfind
      | some dir => exact ⟨dir, rfl⟩
    rw [hdir] at hfind
    have hfirst := dirFindEntry_some hfind
    obtain ⟨hinit, j, hjuse, hjname, hjfile⟩ := h dir i hdir hfirst.inUse hfirst.named
    obtain ⟨infos, hlist, hinfos⟩ := fsListDir_spec hinit hdir hmax entries
    obtain ⟨k, hk, hget⟩ := List.getElem_of_mem ((mem_listed dir j).mpr ⟨hjuse, hjfile⟩)
    refine ⟨_, infos, hlist, k, hk, ?_⟩
    rw [hinfos k j (by rw [List.getElem?_eq_getElem hk, hget]), text_dirInfo, hjname]

/-- A directory with one record, the volume label `V`: it is opened and found, and not listed. -/
theorem label_opened_not_listed :
    let s := { sampleFs with
      rootDirCache := some fun k =>
        if k = 0 then 0x56 else if k < 11 then 0x20 else if k = 11 then 0x08 else 0 }
    (fsOpen s (some [0x56]) 0).1 = 0 ∧ fsFileExists s [0x56] = 1 ∧
      (fsGetFileInfo s [0x56] (some blankInfo)).1 = 0 ∧
      (fsListDir s (some fun _ => blankInfo) 224).1 = 0 := by
  decide

end VlsOs.Fs
