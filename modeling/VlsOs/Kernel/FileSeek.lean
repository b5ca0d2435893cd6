import VlsOs.Kernel.FileRun

/-! Seeking in a file.

    `fs_seek` goes back to the start cluster and follows one link for every `512` bytes begun before
    the offset, that is `⌈offset / 512⌉` links. The cluster that holds the offset is
    `⌊offset / 512⌋` links away. The two agree at a cluster boundary only; elsewhere the next read
    takes its bytes one cluster too far, or the seek fails because there is no such cluster.

        offset       0 ····· 512 ····· 1024 ····· 1536
        holds it       c₀         c₁          c₂
        seek ends at  c₀│   c₁   │    c₂     │    c₃ -/

namespace VlsOs.Fs
open Patterns Patterns.Blocks

/-! ### What a descriptor is open on -/

/-- The record of a file that reading and seeking leave alone. -/
def SameFile (f g : FsFile) : Prop :=
  g.startCluster = f.startCluster ∧ g.fileSize = f.fileSize ∧ g.inUse = f.inUse

theorem SameFile.refl (f : FsFile) : SameFile f f := ⟨rfl, rfl, rfl⟩

theorem SameFile.trans {f g h : FsFile} (hfg : SameFile f g) (hgh : SameFile g h) :
    SameFile f h :=
  ⟨hgh.1.trans hfg.1, hgh.2.1.trans hfg.2.1, hgh.2.2.trans hfg.2.2⟩

theorem readTurn_sameFile (d : Disk) (fatCache : Option (ℕ → UInt8)) (r : ReadState) :
    SameFile r.file (readTurn d fatCache r).2.file := by
  rcases readTurn_cases d fatCache r with ⟨-, buffer, heq⟩ | ⟨-, buffer, goOn, cluster, heq⟩
  · rw [heq]
    exact SameFile.refl _
  · rw [heq, advance_file]
    exact ⟨rfl, rfl, rfl⟩

theorem readLoop_sameFile (d : Disk) (fatCache : Option (ℕ → UInt8)) :
    ∀ (fuel : ℕ) (r : ReadState), SameFile r.file (readLoop d fatCache fuel r).file :=
  readLoop_rel (R := fun r r' => SameFile r.file r'.file) (fun _ => SameFile.refl _)
    (fun _ _ _ h h' => h.trans h') fun r _ _ => readTurn_sameFile d fatCache r

theorem seekLoop_sameFile (fatCache : Option (ℕ → UInt8)) (offset : UInt32) :
    ∀ (fuel : ℕ) (file : FsFile) (pos : UInt32) {result : ℤ} {file' : FsFile},
      seekLoop fatCache offset fuel file pos = some (result, file') → SameFile file file' := by
  intro fuel
  induction fuel with
  | zero =>
    intro file pos result file' h
    cases h
  | succ fuel ih =>
    intro file pos result file' h
    rw [seekLoop] at h
    split at h
    · dsimp only at h
      split at h
      · cases h
        exact SameFile.refl _
      · obtain ⟨hstart, hsize, huse⟩ := ih _ _ h
        exact ⟨hstart, hsize, huse⟩
    · cases h
      exact SameFile.refl _

/-- The caches stay, and every descriptor stays open on its file. -/
structure Keeps (s s' : FsState) : Prop where
  fat : s'.fatCache = s.fatCache
  dir : s'.rootDirCache = s.rootDirCache
  files : ∀ i, SameFile (s.files i) (s'.files i)

theorem Keeps.refl (s : FsState) : Keeps s s := ⟨rfl, rfl, fun _ => SameFile.refl _⟩

theorem Keeps.inUse {s s' : FsState} (h : Keeps s s') (f : Fin fsMaxFiles)
    (huse : (s.files f).inUse = true) : (s'.files f).inUse = true :=
  (h.files f).2.2.trans huse

theorem keeps_setFile {s : FsState} {i : Fin fsMaxFiles} {f : FsFile}
    (h : SameFile (s.files i) f) : Keeps s (s.setFile i f) := by
  refine ⟨rfl, rfl, fun j => ?_⟩
  rcases eq_or_ne j i with rfl | hne
  · rw [setFile_files_self]
    exact h
  · rw [setFile_files_of_ne _ _ hne]
    exact SameFile.refl _

theorem fsRead_keeps (d : Disk) (s : FsState) (fd : ℤ) (buffer : Bool) (count : UInt16) :
    Keeps s (fsRead d s fd buffer count).2.2 := by
  by_cases hrej : openFile s fd = none ∨ buffer = false
  · rw [fsRead_rejects hrej]
    exact Keeps.refl s
  · obtain ⟨rfl, i, rfl, huse⟩ := openFile_of_not_rejected hrej
    have hset := keeps_setFile (readLoop_sameFile d s.fatCache count.toNat (readStart s i count))
    rw [fsRead_eq d huse count]
    exact ⟨hset.fat, hset.dir, hset.files⟩

theorem fsSeek_keeps {s s' : FsState} {fuel : ℕ} {fd : ℤ} {offset : UInt32} {result : ℤ}
    (hseek : fsSeek fuel s fd offset = some (result, s')) : Keeps s s' := by
  unfold fsSeek at hseek
  cases hopen : openFile s fd with
  | none =>
    rw [hopen] at hseek
    cases hseek
    exact Keeps.refl s
  | some i =>
    simp only [hopen] at hseek
    split at hseek
    · cases hseek
      exact Keeps.refl s
    · split at hseek
      · cases hseek
      · rename_i file hloop
        cases hseek
        obtain ⟨hstart, hsize, huse⟩ := seekLoop_sameFile _ _ _ _ _ hloop
        exact keeps_setFile ⟨hstart, hsize, huse⟩

/-- The states that calls on files lead to from `s₀`, with the name each descriptor was last opened
    with. A seek leads on if its loop ends. -/
inductive Reached (d : Disk) (s₀ : FsState) : FsState → (Fin fsMaxFiles → List UInt8) → Prop
  | start : Reached d s₀ s₀ fun _ => []
  | opened {s names} (filename : Option (List UInt8)) (mode : UInt8) (fd : Fin fsMaxFiles) :
    Reached d s₀ s names → (fsOpen s filename mode).1 = fd →
      Reached d s₀ (fsOpen s filename mode).2 (Function.update names fd (filename.getD []))
  | notOpened {s names} (filename : Option (List UInt8)) (mode : UInt8) :
    Reached d s₀ s names → (fsOpen s filename mode).1 = -1 →
      Reached d s₀ (fsOpen s filename mode).2 names
  | read {s names} (fd : ℤ) (buffer : Bool) (count : UInt16) :
    Reached d s₀ s names → Reached d s₀ (fsRead d s fd buffer count).2.2 names
  | seek {s s' names} (fuel : ℕ) (fd : ℤ) (offset : UInt32) (result : ℤ) :
    Reached d s₀ s names → fsSeek fuel s fd offset = some (result, s') → Reached d s₀ s' names
  | close {s names} (fd : ℤ) : Reached d s₀ s names → Reached d s₀ (fsClose s fd).2 names

/-- The descriptor is open on the file of this directory entry. -/
def OpenOn (e : FsDirEntry) (file : FsFile) : Prop :=
  file.startCluster = e.startCluster ∧ file.fileSize = e.fileSize

/-- INVARIANT of the reached states: the caches stay, and every descriptor in use is open on the
    file of the name it was opened with. -/
structure NamesOk (s₀ s : FsState) (names : Fin fsMaxFiles → List UInt8) : Prop where
  fat : s.fatCache = s₀.fatCache
  dir : s.rootDirCache = s₀.rootDirCache
  openOn : ∀ fd, (s.files fd).inUse = true → ∃ i e,
    dirFindEntry s₀.rootDirCache (names fd) = some (i, e) ∧ OpenOn e (s.files fd)

theorem NamesOk.keeps {s₀ s s' : FsState} {names : Fin fsMaxFiles → List UInt8}
    (h : NamesOk s₀ s names) (hk : Keeps s s') : NamesOk s₀ s' names := by
  refine ⟨hk.fat.trans h.fat, hk.dir.trans h.dir, fun fd huse => ?_⟩
  obtain ⟨hstart, hsize, hsame⟩ := hk.files fd
  rw [hsame] at huse
  obtain ⟨i, e, hfind, hon⟩ := h.openOn fd huse
  exact ⟨i, e, hfind, hstart.trans hon.1, hsize.trans hon.2⟩

theorem NamesOk.setFile {s₀ s : FsState} {names : Fin fsMaxFiles → List UInt8}
    (h : NamesOk s₀ s names) (i : Fin fsMaxFiles) (file : FsFile) (name : List UInt8)
    (hfile : file.inUse = true → ∃ n e,
      dirFindEntry s₀.rootDirCache name = some (n, e) ∧ OpenOn e file) :
    NamesOk s₀ (s.setFile i file) (Function.update names i name) := by
  refine ⟨h.fat, h.dir, fun fd huse => ?_⟩
  rcases eq_or_ne fd i with rfl | hne
  · rw [setFile_files_self] at huse ⊢
    rw [Function.update_self]
    exact hfile huse
  · rw [setFile_files_of_ne _ _ hne] at huse ⊢
    rw [Function.update_of_ne hne]
    exact h.openOn fd huse

/-- INVARIANT: it holds in every reached state. -/
theorem Reached.namesOk {d : Disk} {s₀ s : FsState} {names : Fin fsMaxFiles → List UInt8}
    (hfree : ∀ i, (s₀.files i).inUse = false) (h : Reached d s₀ s names) :
    NamesOk s₀ s names := by
  induction h with
  | start =>
    refine ⟨rfl, rfl, fun fd huse => ?_⟩
    rw [hfree fd] at huse
    cases huse
  | @opened s names filename mode fd _ hret ih =>
    rcases fsOpen_cases s filename mode with
      ⟨fd', name, i, e, file, rfl, -, hfind, -, hstart, -, hsize, -, heq⟩ | heq
    · rw [heq] at hret ⊢
      obtain rfl : fd' = fd := Fin.ext (Int.ofNat_inj.mp hret)
      rw [ih.dir] at hfind
      exact ih.setFile fd' file name fun _ => ⟨i, e, hfind, hstart, hsize⟩
    · rw [heq] at hret
      exact absurd hret (by simp only; omega)
  | @notOpened s names filename mode _ hret ih =>
    rcases fsOpen_cases s filename mode with ⟨fd, _, _, _, _, _, _, _, _, _, _, _, _, heq⟩ | heq
    · rw [heq] at hret
      exact absurd hret (by simp only; omega)
    · rw [heq]
      exact ih
  | read fd buffer count _ ih => exact ih.keeps (fsRead_keeps d _ fd buffer count)
  | seek fuel fd offset result _ hseek ih => exact ih.keeps (fsSeek_keeps hseek)
  | @close s names fd _ ih =>
    rcases fsClose_cases s fd with ⟨i, -, -, heq⟩ | heq
    · have hset := ih.setFile i { s.files i with inUse := false } (names i) fun huse => by cases huse
      rw [Function.update_eq_self] at hset
      rw [heq]
      exact hset
    · rw [heq]
      exact ih

/-! ### The seek loop -/

/-- A loop that has ended stays ended with more turns. -/
theorem seekLoop_mono (fatCache : Option (ℕ → UInt8)) (offset : UInt32) :
    ∀ (fuel : ℕ) (file : FsFile) (pos : UInt32) {result : ℤ × FsFile},
      seekLoop fatCache offset fuel file pos = some result → ∀ more,
        seekLoop fatCache offset (fuel + more) file pos = some result := by
  intro fuel
  induction fuel with
  | zero =>
    intro file pos result h
    cases h
  | succ fuel ih =>
    intro file pos result h more
    rw [seekLoop] at h
    rw [Nat.add_right_comm, seekLoop]
    split
    · rename_i hgo
      rw [if_pos hgo] at h
      dsimp only at h ⊢
      split
      · rename_i hend
        rwa [if_pos hend] at h
      · rename_i hend
        rw [if_neg hend] at h
        exact ih _ _ h more
    · rename_i hstop
      rwa [if_neg hstop] at h

/-- Two numbers of turns that end the loop end it alike. -/
theorem seekLoop_unique {fatCache : Option (ℕ → UInt8)} {offset : UInt32} {file : FsFile}
    {pos : UInt32} {n₁ n₂ : ℕ} {r₁ r₂ : ℤ × FsFile}
    (h₁ : seekLoop fatCache offset n₁ file pos = some r₁)
    (h₂ : seekLoop fatCache offset n₂ file pos = some r₂) : r₁ = r₂ := by
  have h₁' := seekLoop_mono fatCache offset n₁ file pos h₁ n₂
  have h₂' := seekLoop_mono fatCache offset n₂ file pos h₂ n₁
  rw [Nat.add_comm, h₂'] at h₁'
  exact (Option.some.inj h₁').symm

/-- How many links a seek to `offset` follows. -/
def links (offset : UInt32) : ℕ := (offset.toNat + 511) / 512

/-- The file record of a seek that has come to cluster number `j`. -/
def atCluster (fatCache : Option (ℕ → UInt8)) (file : FsFile) (j : ℕ) : FsFile :=
  { file with currentCluster := chain fatCache file.startCluster j }

theorem toNat_mul_512 {j : ℕ} (h : 512 * j < 2 ^ 32) :
    (UInt32.ofNat (512 * j)).toNat = 512 * j :=
  UInt32.toNat_ofNat_of_lt' h

/-- One test of the loop and its turn, from cluster number `j` of any chain. -/
theorem seekLoop_atCluster (fatCache : Option (ℕ → UInt8)) (offset : UInt32) (fuel : ℕ)
    (file : FsFile) (j : ℕ) (pos : UInt32) :
    seekLoop fatCache offset (fuel + 1) (atCluster fatCache file j) pos =
      if pos < offset ∧ pos < file.fileSize then
        if chain fatCache file.startCluster (j + 1) ≥ fsClusterMax then
          some (-1, atCluster fatCache file j)
        else seekLoop fatCache offset fuel (atCluster fatCache file (j + 1)) (pos + 512)
      else some (0, atCluster fatCache file j) := by
  have hnext : fat12GetNext fatCache (atCluster fatCache file j).currentCluster =
      chain fatCache file.startCluster (j + 1) := chain_succ ..
  rw [seekLoop]
  dsimp only
  rw [hnext]
  rfl

theorem pos_succ (j : ℕ) : UInt32.ofNat (512 * j) + 512 = UInt32.ofNat (512 * (j + 1)) := by
  rw [Nat.mul_succ, UInt32.ofNat_add]
  rfl

/-- No step is at `2 ^ 32 - 512` or beyond it: an offset past that is always ahead. -/
theorem step_lt {offset : UInt32} (hoff : 2 ^ 32 - 512 < offset.toNat) (j : ℕ) :
    UInt32.ofNat (512 * j) < offset := by
  rw [UInt32.lt_iff_toNat_lt, UInt32.toNat_ofNat']
  omega

/-- The walk of a seek stops at cluster number `k` of the chain: the links up to it lead on, the next
    one is an end mark, and the position is still before the offset. -/
structure StopsAt (fatCache : Option (ℕ → UInt8)) (start offset : UInt32) (k : ℕ) : Prop where
  live : ∀ i, i < k → chain fatCache start (i + 1) < fsClusterMax
  mark : fsClusterMax ≤ chain fatCache start (k + 1)
  ahead : k < links offset ∨ 2 ^ 32 - 512 < offset.toNat

/-- The steps before the offset: all of them, for an offset that is never reached. -/
theorem steps_ahead_iff (offset : UInt32) (k : ℕ) :
    (∀ i, i ≤ k → UInt32.ofNat (512 * i) < offset) ↔
      k < links offset ∨ 2 ^ 32 - 512 < offset.toNat := by
  constructor
  · intro h
    by_contra hnot
    rw [not_or, not_lt, not_lt] at hnot
    have hlinks : links offset = (offset.toNat + 511) / 512 := rfl
    have hreached := UInt32.lt_iff_toNat_lt.mp (h (links offset) hnot.1)
    rw [toNat_mul_512 (by omega)] at hreached
    omega
  · rintro (hk | hoff) i hi
    · have hlt := offset.toNat_lt
      have hlinks : links offset = (offset.toNat + 511) / 512 := rfl
      rw [UInt32.lt_iff_toNat_lt, toNat_mul_512 (by omega)]
      omega
    · exact step_lt hoff i

/-- A walk that stops in the chain makes the loop return `-1` from there. -/
theorem seekLoop_stops {fatCache : Option (ℕ → UInt8)} {offset : UInt32} (file : FsFile)
    (hsize : offset ≤ file.fileSize) {k : ℕ}
    (h : StopsAt fatCache file.startCluster offset k) : ∀ n j : ℕ, j + n = k →
    seekLoop fatCache offset (n + 1) (atCluster fatCache file j) (UInt32.ofNat (512 * j)) =
      some (-1, atCluster fatCache file k) := by
  have hahead := (steps_ahead_iff offset k).mpr h.ahead
  intro n
  induction n with
  | zero =>
    intro j hj
    have hpos := hahead j (by omega)
    obtain rfl : j = k := by omega
    rw [seekLoop_atCluster, if_pos ⟨hpos, UInt32.lt_of_lt_of_le hpos hsize⟩, if_pos h.mark]
  | succ n ih =>
    intro j hj
    have hpos := hahead j (by omega)
    rw [seekLoop_atCluster, if_pos ⟨hpos, UInt32.lt_of_lt_of_le hpos hsize⟩,
      if_neg (UInt32.not_le.mpr (h.live j (by omega))), pos_succ]
    exact ih (j + 1) (by omega)

section
variable {fatCache : Option (ℕ → UInt8)} {e : FsDirEntry} {m : ℕ} {file : FsFile} {offset : UInt32}

/-- The test of the loop after `j` links. -/
theorem seek_test (hwf : WellFormed fatCache e m) (hon : OpenOn e file)
    (hoff : offset ≤ e.fileSize) {j : ℕ} (hj : j ≤ links offset) :
    (UInt32.ofNat (512 * j) < offset ∧ UInt32.ofNat (512 * j) < file.fileSize) ↔
      j < links offset := by
  have hsmall := hwf.small
  have hoff' := UInt32.le_iff_toNat_le.mp hoff
  unfold links at hj ⊢
  rw [UInt32.lt_iff_toNat_lt, UInt32.lt_iff_toNat_lt, toNat_mul_512 (by omega), hon.2]
  omega

/-- One turn of the loop, from cluster number `j`: it follows the link, or it meets an end mark. -/
theorem seekLoop_turn (hwf : WellFormed fatCache e m) (hon : OpenOn e file)
    (hoff : offset ≤ e.fileSize) {j : ℕ} (hj : j < links offset) (fuel : ℕ) :
    seekLoop fatCache offset (fuel + 1) (atCluster fatCache file j) (UInt32.ofNat (512 * j)) =
      if chain fatCache e.startCluster (j + 1) ≥ fsClusterMax then
        some (-1, atCluster fatCache file j)
      else
        seekLoop fatCache offset fuel (atCluster fatCache file (j + 1))
          (UInt32.ofNat (512 * (j + 1))) := by
  rw [seekLoop_atCluster, if_pos ((seek_test hwf hon hoff (le_of_lt hj)).mpr hj), pos_succ, hon.1]

/-- A link inside the chain leads to a cluster, not to an end mark. -/
theorem chain_live (hwf : WellFormed fatCache e m) {j : ℕ} (hj : j + 1 < m) :
    ¬ chain fatCache e.startCluster (j + 1) ≥ fsClusterMax :=
  UInt32.not_le.mpr (hwf.linked.inner j hj)

/-- With a cluster for every link, the loop ends at the last of them. -/
theorem seekLoop_reaches (hwf : WellFormed fatCache e m) (hon : OpenOn e file)
    (hoff : offset ≤ e.fileSize) (hm : links offset = 0 ∨ links offset < m) :
    ∀ k j, j + k = links offset →
      seekLoop fatCache offset (k + 1) (atCluster fatCache file j) (UInt32.ofNat (512 * j)) =
        some (0, atCluster fatCache file (links offset)) := by
  intro k
  induction k with
  | zero =>
    intro j hj
    have hstop : ¬ (UInt32.ofNat (512 * j) < offset ∧
        UInt32.ofNat (512 * j) < (atCluster fatCache file j).fileSize) := by
      intro hgo
      have := (seek_test hwf hon hoff (le_of_eq hj)).mp hgo
      omega
    rw [seekLoop, if_neg hstop, ← hj]
    rfl
  | succ k ih =>
    intro j hj
    rw [seekLoop_turn hwf hon hoff (by omega), if_neg (chain_live hwf (by omega))]
    exact ih (j + 1) (by omega)

/-- With a link too many, the walk stops at the last cluster. -/
theorem WellFormed.stopsAt (hwf : WellFormed fatCache e m) (hpos : 0 < m)
    (hend : fsClusterMax ≤ chain fatCache e.startCluster m) (hm : m ≤ links offset) :
    StopsAt fatCache e.startCluster offset (m - 1) where
  live i hi := hwf.linked.inner i (by omega)
  mark := by rwa [Nat.sub_add_cancel hpos]
  ahead := .inl (by omega)

end

/-- The file record after a successful seek. -/
def soughtFile (fatCache : Option (ℕ → UInt8)) (file : FsFile) (offset : UInt32) : FsFile :=
  atCluster fatCache { file with position := offset } (links offset)

/-- A seek runs its loop from the start cluster. -/
theorem fsSeek_eq {s : FsState} {i : Fin fsMaxFiles} (huse : (s.files i).inUse = true)
    {offset : UInt32} (hoff : offset ≤ (s.files i).fileSize) (fuel : ℕ) :
    fsSeek fuel s i offset =
      (seekLoop s.fatCache offset fuel
        (atCluster s.fatCache { s.files i with position := offset } 0) (UInt32.ofNat (512 * 0))).map
          fun r => (r.1, s.setFile i r.2) := by
  have hopen : openFile s i = some i := openFile_eq_some.mpr ⟨rfl, huse⟩
  have hin : ¬ offset > (s.files i).fileSize := UInt32.not_lt.mpr hoff
  simp only [fsSeek, hopen, if_neg hin]
  -- the record the loop starts from is, by computation, the one at cluster number 0 of the chain
  split <;> symm
  · rename_i hloop
    exact Option.map_eq_none_iff.mpr hloop
  · rename_i result file hloop
    exact Option.map_eq_some_iff.mpr ⟨(result, file), hloop, rfl⟩

/-- EXACT, for the seek: it returns `0` precisely if the chain has as many links as it follows, and
    then the current cluster is the one after the last of these links. -/
theorem fsSeek_succeeds_iff {s : FsState} {i : Fin fsMaxFiles} {e : FsDirEntry} {m : ℕ}
    (huse : (s.files i).inUse = true) (hon : OpenOn e (s.files i))
    (hwf : WellFormed s.fatCache e m)
    (hend : 0 < m → fsClusterMax ≤ chain s.fatCache e.startCluster m) {offset : UInt32}
    (hoff : offset ≤ e.fileSize) (s' : FsState) :
    (∃ fuel, fsSeek fuel s i offset = some (0, s')) ↔
      (links offset = 0 ∨ links offset < m) ∧
        s' = s.setFile i (soughtFile s.fatCache (s.files i) offset) := by
  have hoff' : offset ≤ (s.files i).fileSize := by
    rw [hon.2]
    exact hoff
  have hon' : OpenOn e { s.files i with position := offset } := hon
  by_cases hm : links offset = 0 ∨ links offset < m
  · have hreach := seekLoop_reaches hwf hon' hoff hm (links offset) 0 (Nat.zero_add _)
    constructor
    · rintro ⟨fuel, hseek⟩
      rw [fsSeek_eq huse hoff', Option.map_eq_some_iff] at hseek
      obtain ⟨r, hr, hres⟩ := hseek
      rw [seekLoop_unique hr hreach] at hres
      cases hres
      exact ⟨hm, rfl⟩
    · rintro ⟨-, rfl⟩
      refine ⟨links offset + 1, ?_⟩
      rw [fsSeek_eq huse hoff', hreach]
      rfl
  · have hcovers := hwf.covers
    have hle := UInt32.le_iff_toNat_le.mp hoff
    have hpos : 0 < m := by
      rw [links] at hm
      omega
    have hstops : StopsAt s.fatCache (s.files i).startCluster offset (m - 1) := by
      rw [hon.1]
      exact hwf.stopsAt hpos (hend hpos) (by omega)
    have hfail := seekLoop_stops { s.files i with position := offset } hoff' hstops (m - 1) 0
      (Nat.zero_add _)
    refine iff_of_false ?_ fun h => hm h.1
    rintro ⟨fuel, hseek⟩
    rw [fsSeek_eq huse hoff', Option.map_eq_some_iff] at hseek
    obtain ⟨r, hr, hres⟩ := hseek
    rw [seekLoop_unique hr hfail] at hres
    cases hres

/-! ### The read after a seek -/

/-- By how many clusters a seek to `offset` goes too far. -/
def overshoot (offset : UInt32) : ℕ := if offset.toNat % 512 = 0 then 0 else 1

theorem links_eq (offset : UInt32) : links offset = offset.toNat / 512 + overshoot offset := by
  unfold links overshoot
  split <;> omega

/-- A chain that starts `k` clusters on spells the stream from `512 * k` on. -/
theorem stream_shift (d : Disk) (cl : ℕ → UInt32) (k q : ℕ) :
    stream d (fun j => cl (j + k)) q = stream d cl (512 * k + q) := by
  unfold stream blockwise
  rw [Nat.mul_add_div (by decide), Nat.mul_add_mod, Nat.add_comm k]

/-- The chain that starts as many clusters on as the seek overshoots. -/
theorem linked_overshoot {fatCache : Option (ℕ → UInt8)} {e : FsDirEntry} {m : ℕ}
    (hwf : WellFormed fatCache e m)
    (hend : 0 < m → fsClusterMax ≤ chain fatCache e.startCluster m) (k : ℕ) :
    Linked fatCache (fun j => chain fatCache e.startCluster (j + k)) (m - k)
      e.fileSize.toNat where
  link j _ := by
    rw [chain_succ, Nat.add_right_comm]
  inner j hj := by
    rw [Nat.add_right_comm]
    exact hwf.linked.inner (j + k) (by omega)
  last j hj _ := by
    rw [chain_succ, show j + k + 1 = m by omega]
    exact hend (by omega)

/-- The descriptor after a seek is at the offset of the shifted chain. -/
theorem onChain_sought {fatCache : Option (ℕ → UInt8)} {e : FsDirEntry} {m : ℕ} {file : FsFile}
    (hwf : WellFormed fatCache e m) (hon : OpenOn e file) {offset : UInt32}
    (hoff : offset ≤ e.fileSize) (hm : links offset = 0 ∨ links offset < m) :
    OnChain (fun j => chain fatCache e.startCluster (j + overshoot offset)) (m - overshoot offset)
        (soughtFile fatCache file offset) ∧
      (offset < e.fileSize → offset.toNat <
        readable (m - overshoot offset) (soughtFile fatCache file offset)) := by
  have hsize : (soughtFile fatCache file offset).fileSize = e.fileSize := hon.2
  have hpos : (soughtFile fatCache file offset).position = offset := rfl
  have hread : readable (m - overshoot offset) (soughtFile fatCache file offset) =
      min e.fileSize.toNat (512 * (m - overshoot offset)) := by rw [readable, hsize]
  have hle := UInt32.le_iff_toNat_le.mp hoff
  have hcovers := hwf.covers
  rw [links_eq] at hm
  refine ⟨⟨?_, ?_, fun _ => ?_⟩, fun hlt => ?_⟩
  · rw [hsize]
    exact hwf.small
  · rw [hpos, hread]
    omega
  · change chain fatCache file.startCluster (links offset) = _
    rw [hon.1, links_eq, hpos]
  · have hlt' := UInt32.lt_iff_toNat_lt.mp hlt
    rw [hread]
    omega

/-- CORRECT, as far as it goes: after a successful seek a read returns the bytes of the chain that
    stand `512 * overshoot` after the offset. -/
theorem read_after_seek {d : Disk} {s : FsState} {i : Fin fsMaxFiles} {e : FsDirEntry} {m : ℕ}
    (huse : (s.files i).inUse = true) (hon : OpenOn e (s.files i))
    (hwf : WellFormed s.fatCache e m)
    (hend : 0 < m → fsClusterMax ≤ chain s.fatCache e.startCluster m) {offset : UInt32}
    (hoff : offset ≤ e.fileSize) (hm : links offset = 0 ∨ links offset < m) (count : UInt16)
    (hok : ∀ k, s.reads ≤ k → d.fails k = false) :
    ∃ j, j = min count.toNat
        (min e.fileSize.toNat (512 * (m - overshoot offset)) - offset.toNat) ∧
      (fsRead d (s.setFile i (soughtFile s.fatCache (s.files i) offset)) i true count).1 = j ∧
      (fsRead d (s.setFile i (soughtFile s.fatCache (s.files i) offset)) i true count).2.1 =
        stretch (stream d (chain s.fatCache e.startCluster))
          (512 * overshoot offset + offset.toNat) j := by
  obtain ⟨honChain, hin⟩ := onChain_sought hwf hon hoff hm
  have hsize : (soughtFile s.fatCache (s.files i) offset).fileSize = e.fileSize := hon.2
  have hpos : (soughtFile s.fatCache (s.files i) offset).position = offset := rfl
  have hself := setFile_files_self s i (soughtFile s.fatCache (s.files i) offset)
  generalize hs' : s.setFile i (soughtFile s.fatCache (s.files i) offset) = s' at hself
  have hfat : s'.fatCache = s.fatCache := by rw [← hs']; rfl
  have hreads : s'.reads = s.reads := by rw [← hs']; rfl
  rw [← hself] at honChain hin
  have hlinked : Linked s'.fatCache (fun j => chain s.fatCache e.startCluster (j + overshoot offset))
      (m - overshoot offset) (s'.files i).fileSize.toNat := by
    rw [hfat, hself, hsize]
    exact linked_overshoot hwf hend (overshoot offset)
  obtain ⟨j, file, clusterBuffer, reads, heq, -, -, -, -, hall⟩ :=
    fsRead_spec (d := d) (by rw [hself]; exact huse) count hlinked honChain
      (by rw [hself, hsize, hpos, ← hself]; exact hin)
  rw [hself, hpos] at heq hall
  have hj := hall fun k hk _ => hok k (hreads ▸ hk)
  rw [readable, hsize] at hj
  refine ⟨j, hj, by rw [heq], ?_⟩
  rw [heq]
  refine stretch_congr fun q _ => ?_
  rw [stream_shift, Nat.add_assoc]

/-- How much there is to read from the offset on when the chain starts one cluster later. -/
theorem shifted_length (count size offset m : ℕ) :
    min count (min size (512 * (m - 1)) - offset) =
      min (min count (size - offset)) (512 * m - (offset + 512)) := by
  rw [Nat.mul_sub_one, ← Nat.sub_min_sub_right, Nat.sub_sub, Nat.add_comm 512, min_assoc]

/-- EXACT: take any reached state, a descriptor open on a well-formed file whose last link is an
    end mark, an offset in the file, and no disk errors from here on. Then the seek returns `0` and
    the read after it returns the contents from the offset on precisely if the chain has a cluster
    for every link the seek follows, and the offset is a multiple of the cluster size or the bytes
    of the chain one cluster on happen to be the same. -/
theorem seek_then_read_iff {d : Disk} {s₀ s : FsState} {names : Fin fsMaxFiles → List UInt8}
    (hfree : ∀ i, (s₀.files i).inUse = false) (hreached : Reached d s₀ s names)
    {fd : Fin fsMaxFiles} (huse : (s.files fd).inUse = true) {i : ℕ} {e : FsDirEntry}
    (hfind : dirFindEntry s₀.rootDirCache (names fd) = some (i, e)) {m : ℕ}
    (hwf : WellFormed s₀.fatCache e m)
    (hend : 0 < m → fsClusterMax ≤ chain s₀.fatCache e.startCluster m)
    {offset : UInt32} (hoff : offset ≤ e.fileSize) (count : UInt16)
    (hok : ∀ k, s.reads ≤ k → d.fails k = false) :
    (∃ fuel s', fsSeek fuel s fd offset = some (0, s') ∧
      (fsRead d s' fd true count).2.1 =
        ((contents d s₀.fatCache e).drop offset.toNat).take count.toNat ∧
      (fsRead d s' fd true count).1 =
        (((contents d s₀.fatCache e).drop offset.toNat).take count.toNat).length) ↔
    (links offset = 0 ∨ links offset < m) ∧
      (offset.toNat % 512 = 0 ∨
        ((chainBytes d s₀.fatCache e m).drop offset.toNat).take
            (min count.toNat (e.fileSize.toNat - offset.toNat)) =
          ((chainBytes d s₀.fatCache e m).drop (offset.toNat + 512)).take
            (min count.toNat (e.fileSize.toNat - offset.toNat))) := by
  have hnames := hreached.namesOk hfree
  obtain ⟨i', e', hfind', hon⟩ := hnames.openOn fd huse
  rw [hfind] at hfind'
  cases hfind'
  have hcovers := hwf.covers
  simp only [contents_eq, chainBytes_eq, stretch_drop, stretch_take, Nat.zero_add, length_stretch]
  rw [← hnames.fat] at hwf hend ⊢
  -- the two lengths of the condition, and the length of the read in the two cases
  have hlen : min (min count.toNat (e.fileSize.toNat - offset.toNat)) (512 * m - offset.toNat) =
      min count.toNat (e.fileSize.toNat - offset.toNat) :=
    Nat.min_eq_left ((Nat.min_le_right ..).trans (Nat.sub_le_sub_right hcovers _))
  rw [hlen]
  have haligned : offset.toNat % 512 = 0 → overshoot offset = 0 := fun h => if_pos h
  have hinside : offset.toNat % 512 ≠ 0 → overshoot offset = 1 := fun h => if_neg h
  constructor
  · rintro ⟨fuel, s', hseek, hbytes, -⟩
    obtain ⟨hm, rfl⟩ := (fsSeek_succeeds_iff huse hon hwf hend hoff s').mp ⟨fuel, hseek⟩
    obtain ⟨j, hj, -, hread⟩ := read_after_seek huse hon hwf hend hoff hm count hok
    refine ⟨hm, ?_⟩
    by_cases hzero : offset.toNat % 512 = 0
    · exact .inl hzero
    · rw [hinside hzero] at hj hread
      rw [shifted_length] at hj
      rw [← hbytes, hread, ← hj, Nat.mul_one, Nat.add_comm]
      exact .inr rfl
  · rintro ⟨hm, hsame⟩
    obtain ⟨fuel, hseek⟩ := (fsSeek_succeeds_iff huse hon hwf hend hoff _).mpr ⟨hm, rfl⟩
    obtain ⟨j, hj, hret, hread⟩ := read_after_seek huse hon hwf hend hoff hm count hok
    have hbytes : stretch (stream d (chain s.fatCache e.startCluster))
        (512 * overshoot offset + offset.toNat) j =
        stretch (stream d (chain s.fatCache e.startCluster)) offset.toNat
          (min count.toNat (e.fileSize.toNat - offset.toNat)) := by
      by_cases hzero : offset.toNat % 512 = 0
      · rw [haligned hzero] at hj ⊢
        rw [Nat.sub_zero, Nat.min_eq_left hcovers] at hj
        rw [Nat.mul_zero, Nat.zero_add, hj]
      · rw [hinside hzero] at hj ⊢
        rw [shifted_length] at hj
        rw [hsame.resolve_left hzero, ← hj, Nat.mul_one, Nat.add_comm]
    refine ⟨fuel, _, hseek, hread.trans hbytes, ?_⟩
    have hlength := congrArg List.length hbytes
    rw [length_stretch, length_stretch] at hlength
    rw [hret, hlength]

/-- The sample file system with its file open as descriptor 0. -/
def openedSample : FsState := (fsOpen sampleFs (some [65]) 0).2

theorem openedSample_reached :
    Reached sampleDisk sampleFs openedSample (Function.update (fun _ => []) 0 [65]) :=
  .opened (some [65]) 0 0 .start (by decide)

theorem seek_to_second_cluster :
    ∃ fuel s', fsSeek fuel openedSample (0 : Fin fsMaxFiles) 512 = some (0, s') ∧
      (fsRead sampleDisk s' (0 : Fin fsMaxFiles) true 10).2.1 =
        ((contents sampleDisk sampleFs.fatCache sampleEntry).drop (512 : UInt32).toNat).take
          (10 : UInt16).toNat ∧
      (fsRead sampleDisk s' (0 : Fin fsMaxFiles) true 10).1 =
        (((contents sampleDisk sampleFs.fatCache sampleEntry).drop (512 : UInt32).toNat).take
          (10 : UInt16).toNat).length := by
  have hoff : (512 : UInt32) ≤ sampleEntry.fileSize := by decide
  have hcond : links 512 = 0 ∨ links 512 < 2 := by decide
  have haligned : (512 : UInt32).toNat % 512 = 0 := by decide
  have hfind : dirFindEntry sampleFs.rootDirCache
      (Function.update (fun _ => []) (0 : Fin fsMaxFiles) [65] 0) = some (0, sampleEntry) := by
    rw [Function.update_self]
    exact sample_found
  exact (seek_then_read_iff (fun _ => rfl) openedSample_reached (by decide) hfind
    sample_wellFormed (by decide) hoff 10 fun _ _ => rfl).mpr ⟨hcond, .inl haligned⟩

/-- Byte 100 of the file is 75. A seek to 100 succeeds, and the next read returns 82, byte 100 of
    the second cluster; a seek to the end of the file fails. -/
theorem seek_reads_next_cluster :
    Reached sampleDisk sampleFs openedSample (Function.update (fun _ => []) 0 [65]) ∧
      (fsSeek 2 openedSample 0 100).map
          (fun r => (r.1, (fsRead sampleDisk r.2 0 true 1).2.1)) = some (0, [82]) ∧
      ((contents sampleDisk sampleFs.fatCache sampleEntry).drop 100).take 1 = [75] ∧
      (fsSeek 2 openedSample 0 600).map Prod.fst = some (-1) := by
  refine ⟨openedSample_reached, by decide, ?_, by decide⟩
  rw [contents_eq, stretch_drop, stretch_take]
  decide

end VlsOs.Fs
