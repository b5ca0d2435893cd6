import VlsOs.Kernel.FileSeek

/-! Reading along a damaged chain.

    The valid chain of a file is the longest sequence of data clusters, 2 to `0xFEF`, from its start
    cluster on. `fs_read` does not look at the start cluster. It follows every link below `0xFF8`, a
    free, reserved or bad one too. And where it meets an end mark before the end of the file it
    leaves the position at the boundary and the cluster where it was, so that the next call reads the
    last cluster once more.

        valid chain    c₀ ──▶ c₁ ──▶ ⋯ ──▶ cₘ ──▶ end mark, free, reserved or bad
        fs_read        c₀     c₁     ⋯     cₘ, and then again or beyond, up to file_size

    So what is read stays on the valid chain exactly if the valid chain covers the file. The size may
    be up to `2 ^ 32 - 1`. Near that the position wraps to 0 and the reads go round, but a valid chain
    that covers such a file never ends. -/

namespace VlsOs.Fs
open Patterns Patterns.Blocks

/-- A cluster of the data area, as far as the number tells. -/
def ValidCluster (c : UInt32) : Prop := 2 ≤ c ∧ c ≤ 0xFEF

/-- The bytes are a prefix of the sectors of the valid chain. -/
def OnValidChain (d : Disk) (fatCache : Option (ℕ → UInt8)) (e : FsDirEntry)
    (bytes : List UInt8) : Prop :=
  ∃ n, (∀ j, j < n → ValidCluster (chain fatCache e.startCluster j)) ∧
    bytes <+: chainBytes d fatCache e n

/-- The valid chain has a cluster for every byte of the file. -/
def Covered (fatCache : Option (ℕ → UInt8)) (e : FsDirEntry) : Prop :=
  ∀ j, 512 * j < e.fileSize.toNat → ValidCluster (chain fatCache e.startCluster j)

def FileOp.IsRead : FileOp → Prop
  | .fsRead .. => True
  | .fsOpen .. => False
  | .fsClose .. => False

/-! ### A chain that comes back -/

/-- Once an iterate comes back, every iterate is among those before. -/
theorem iterate_before {α : Type*} {f : α → α} {x : α} {a b : ℕ} (hab : a < b)
    (h : f^[a] x = f^[b] x) (j : ℕ) : ∃ i, i < b ∧ f^[j] x = f^[i] x := by
  induction j using Nat.strong_induction_on with
  | _ j ih =>
    rcases Nat.lt_or_ge j b with hlt | hge
    · exact ⟨j, hlt, rfl⟩
    · obtain ⟨i, hi, heq⟩ := ih (j - b + a) (by omega)
      have hback : f^[j] x = f^[j - b + a] x := by
        rw [Function.iterate_add_apply, h, ← Function.iterate_add_apply, Nat.sub_add_cancel hge]
      exact ⟨i, hi, hback.trans heq⟩

section
variable {fatCache : Option (ℕ → UInt8)} {e : FsDirEntry}

/-- There are 4078 valid cluster numbers, so a valid chain that covers a file near the limit of the
    sizes never ends. -/
theorem Covered.endless (h : Covered fatCache e) (hsize : 2 ^ 32 < e.fileSize.toNat + 512) (j : ℕ) :
    ValidCluster (chain fatCache e.startCluster j) := by
  have hmaps : Set.MapsTo (fun i => (chain fatCache e.startCluster i).toNat)
      (Finset.range 4079) (Finset.Icc 2 0xFEF) := by
    intro i hi
    have hi := Finset.mem_range.mp hi
    obtain ⟨hlow, hhigh⟩ := h i (by omega)
    exact Finset.mem_Icc.mpr ⟨UInt32.le_iff_toNat_le.mp hlow, UInt32.le_iff_toNat_le.mp hhigh⟩
  have hcard : (Finset.Icc 2 0xFEF).card < (Finset.range 4079).card := by
    rw [Nat.card_Icc, Finset.card_range]
    decide
  obtain ⟨a, ha, b, hb, hne, heq⟩ := Finset.exists_ne_map_eq_of_card_lt_of_maps_to hcard hmaps
  have heq := UInt32.toNat_inj.mp heq
  rw [Finset.mem_range] at ha hb
  have hbelow : ∃ i, i < 4079 ∧ chain fatCache e.startCluster j = chain fatCache e.startCluster i := by
    rcases Nat.lt_or_gt_of_ne hne with hab | hba
    · obtain ⟨i, hi, hji⟩ := iterate_before hab heq j
      exact ⟨i, by omega, hji⟩
    · obtain ⟨i, hi, hji⟩ := iterate_before hba heq.symm j
      exact ⟨i, by omega, hji⟩
  obtain ⟨i, hi, hji⟩ := hbelow
  rw [hji]
  exact h i (by omega)

/-! ### Following the chain -/

/-- After `t` bytes from the chain of the file: the position is `t`, modulo `2 ^ 32`, and the current
    cluster is the one that holds byte `t`. -/
structure Follows (fatCache : Option (ℕ → UInt8)) (e : FsDirEntry) (file : FsFile) (t : ℕ) :
    Prop where
  size : file.fileSize = e.fileSize
  position : file.position.toNat = t % 2 ^ 32
  cluster : file.position < file.fileSize →
    file.currentCluster = chain fatCache e.startCluster (t / 512)
  bound : e.fileSize.toNat + 512 ≤ 2 ^ 32 → t ≤ e.fileSize.toNat

/-- A byte of a covered file is in a valid cluster, also the second time round. -/
theorem Covered.valid_at (h : Covered fatCache e) {t : ℕ} (hlt : t % 2 ^ 32 < e.fileSize.toNat)
    (hbound : e.fileSize.toNat + 512 ≤ 2 ^ 32 → t ≤ e.fileSize.toNat) :
    ValidCluster (chain fatCache e.startCluster (t / 512)) := by
  rcases Nat.lt_or_ge (2 ^ 32) (e.fileSize.toNat + 512) with hlarge | hsmall
  · exact h.endless hlarge _
  · have hsize := e.fileSize.toNat_lt
    have ht := hbound hsmall
    rw [Nat.mod_eq_of_lt (by omega)] at hlt
    exact h _ (by omega)

/-- … so the bytes that have been read are on the valid chain. -/
theorem Covered.onValidChain (h : Covered fatCache e) (d : Disk) {t : ℕ}
    (hbound : e.fileSize.toNat + 512 ≤ 2 ^ 32 → t ≤ e.fileSize.toNat) :
    OnValidChain d fatCache e (stretch (stream d (chain fatCache e.startCluster)) 0 t) := by
  refine ⟨(t + 511) / 512, fun j hj => ?_, ?_⟩
  · rcases Nat.lt_or_ge (2 ^ 32) (e.fileSize.toNat + 512) with hlarge | hsmall
    · exact h.endless hlarge j
    · have ht := hbound hsmall
      exact h j (by omega)
  · have htake := stretch_take (stream d (chain fatCache e.startCluster)) 0
      (512 * ((t + 511) / 512)) t
    rw [Nat.min_eq_left (by omega)] at htake
    rw [chainBytes_eq, ← htake]
    exact List.take_prefix _ _

/-- The copy of one turn: `k` bytes of the cluster that holds byte `t`, one at least, and the place is
    `t + k` but for the cluster. -/
theorem Follows.advance (d : Disk) {r : ReadState} {t : ℕ} (h : Follows fatCache e r.file t)
    (hr : 0 < r.remaining) (hp : r.file.position < r.file.fileSize) {buffer : ℕ → UInt8}
    (hbuf : ∀ k, k < 512 → buffer k = d.sector (clusterToLba r.file.currentCluster) k) :
    ∃ k, 1 ≤ k ∧ t % 512 + k ≤ 512 ∧
      (r.advance buffer).out = r.out ++ stretch (stream d (chain fatCache e.startCluster)) t k ∧
      (r.advance buffer).file.fileSize = e.fileSize ∧
      (r.advance buffer).file.position.toNat = (t + k) % 2 ^ 32 ∧
      (r.advance buffer).file.currentCluster = chain fatCache e.startCluster (t / 512) ∧
      (e.fileSize.toNat + 512 ≤ 2 ^ 32 → t + k ≤ e.fileSize.toNat) := by
  have hpos := h.position
  have hmod : (r.file.position % 512).toNat = t % 512 := by
    rw [UInt32.toNat_mod, hpos]
    change t % 2 ^ 32 % 512 = t % 512
    omega
  have hk := (toCopy_pos_le hr hp).1
  have hp' := UInt32.lt_iff_toNat_lt.mp hp
  have hsizeLt := e.fileSize.toNat_lt
  obtain ⟨w, hw, hcases⟩ := toCopy_cases r.remaining hp
  rw [h.size] at hp' hcases
  have hsector : t % 512 + (toCopy r.file r.remaining).toNat ≤ 512 := by
    rcases hcases with ⟨heq, -⟩ | ⟨heq, hlt⟩
    · omega
    · omega
  refine ⟨(toCopy r.file r.remaining).toNat, hk, hsector, ?_, ?_, ?_,
    (advance_currentCluster r buffer).trans (h.cluster hp), fun hsmall => ?_⟩
  · have hblock : stretch (stream d (chain fatCache e.startCluster)) t
        (toCopy r.file r.remaining).toNat =
        stretch (d.sector (clusterToLba r.file.currentCluster)) (t % 512)
          (toCopy r.file r.remaining).toNat := by
      rw [h.cluster hp]
      exact stretch_in_block _ hsector
    rw [hblock]
    change r.out ++ stretch buffer (r.file.position % 512).toNat _ = _
    rw [hmod]
    exact congrArg (r.out ++ ·) (stretch_congr fun i hi => hbuf _ (by omega))
  · rw [advance_file]
    exact h.size
  · change (r.file.position + toCopy r.file r.remaining).toNat = _
    rw [UInt32.toNat_add, hpos, Nat.mod_add_mod]
  · have ht := h.bound hsmall
    rcases hcases with ⟨heq, hle⟩ | ⟨heq, hlt⟩
    · have hle := hle hsmall
      omega
    · omega

/-- INVARIANT, one turn of the read loop: it copies the next bytes of the chain. -/
theorem Follows.turn (hcov : Covered fatCache e) (d : Disk) {r : ReadState} {t : ℕ}
    (h : Follows fatCache e r.file t) (hr : 0 < r.remaining)
    (hp : r.file.position < r.file.fileSize) :
    ∃ k, Follows fatCache e (readTurn d fatCache r).2.file (t + k) ∧
      (readTurn d fatCache r).2.out =
        r.out ++ stretch (stream d (chain fatCache e.startCluster)) t k := by
  cases hf : d.fails r.reads with
  | true =>
    obtain ⟨buffer, heq⟩ := readTurn_fails fatCache hf
    rw [heq]
    exact ⟨0, h, (List.append_nil _).symm⟩
  | false =>
    obtain ⟨buffer, hbuf, heq⟩ := readTurn_copies fatCache hf
    obtain ⟨k, hk, hsector, hout, hsize, hpos, hcl, hbound⟩ := h.advance d hr hp hbuf
    rw [heq]
    dsimp only
    generalize r.advance buffer = r₁ at hout hsize hpos hcl
    have hmod : (r₁.file.position % 512).toNat = (t + k) % 512 := by
      rw [UInt32.toNat_mod, hpos]
      change (t + k) % 2 ^ 32 % 512 = (t + k) % 512
      omega
    split
    · rename_i hnext
      -- the cluster is done: the next one is valid, so its link is followed
      have hzero : (t + k) % 512 = 0 := by
        rw [← hmod, hnext.1]
        rfl
      have hlt : (t + k) % 2 ^ 32 < e.fileSize.toNat := by
        rw [← hpos, ← hsize]
        exact UInt32.lt_iff_toNat_lt.mp hnext.2
      have hvalid := hcov.valid_at hlt hbound
      have hplace : (t + k) / 512 = t / 512 + 1 := by omega
      have hmax : 0xFEF < fsClusterMax := by decide
      have hlive := UInt32.lt_of_le_of_lt hvalid.2 hmax
      rw [hcl, chain_succ, ← hplace, if_neg (UInt32.not_le.mpr hlive)]
      exact ⟨k, ⟨hsize, hpos, fun _ => rfl, hbound⟩, hout⟩
    · rename_i hsame
      refine ⟨k, ⟨hsize, hpos, fun hlt => ?_, hbound⟩, hout⟩
      have hinside : (t + k) % 512 ≠ 0 := by
        rw [← hmod]
        exact fun hzero => hsame ⟨UInt32.toNat_inj.mp hzero, hlt⟩
      rw [hcl]
      congr 1
      omega

theorem Follows.loop (hcov : Covered fatCache e) (d : Disk) :
    ∀ (fuel : ℕ) (r : ReadState) (t : ℕ), Follows fatCache e r.file t →
      ∃ k, Follows fatCache e (readLoop d fatCache fuel r).file (t + k) ∧
        (readLoop d fatCache fuel r).out =
          r.out ++ stretch (stream d (chain fatCache e.startCluster)) t k := by
  refine readLoop_rel (R := fun r r' => ∀ t, Follows fatCache e r.file t →
    ∃ k, Follows fatCache e r'.file (t + k) ∧
      r'.out = r.out ++ stretch (stream d (chain fatCache e.startCluster)) t k) ?_ ?_ ?_
  · exact fun r t h => ⟨0, h, (List.append_nil _).symm⟩
  · intro r r₁ r₂ h₁ h₂ t h
    obtain ⟨k, hfollows, hout⟩ := h₁ t h
    obtain ⟨k', hfollows', hout'⟩ := h₂ (t + k) hfollows
    refine ⟨k + k', by rwa [← Nat.add_assoc], ?_⟩
    rw [hout', hout, List.append_assoc, stretch_append]
  · exact fun r hr hp t h => h.turn hcov d hr hp

/-! ### Runs of reads -/

/-- INVARIANT of the runs: what has been got on the descriptor is a stretch of the chain, up to the
    place where the descriptor is. -/
structure ReadsAlong (d : Disk) (fatCache : Option (ℕ → UInt8)) (e : FsDirEntry)
    (fd : Fin fsMaxFiles) (r : Reader) : Prop where
  fat : r.fs.fatCache = fatCache
  place : ∃ t, Follows fatCache e (r.fs.files fd) t ∧
    r.got fd = stretch (stream d (chain fatCache e.startCluster)) 0 t

theorem ReadsAlong.step (hcov : Covered fatCache e) {d : Disk} {fd : Fin fsMaxFiles} {r : Reader}
    (h : ReadsAlong d fatCache e fd r) {op : FileOp} (hop : op.IsRead) :
    ReadsAlong d fatCache e fd (readerStep d r op).1 := by
  cases op with
  | fsOpen filename mode => cases hop
  | fsClose fd' => cases hop
  | fsRead fd' buffer count =>
    by_cases hrej : openFile r.fs fd' = none ∨ buffer = false
    · simp only [readerStep, fsRead_rejects hrej]
      split
      · exact h
      · rw [List.append_nil, Function.update_eq_self]
        exact h
    · rw [not_or, Bool.not_eq_false] at hrej
      obtain ⟨hopen, rfl⟩ := hrej
      obtain ⟨j, hj⟩ := Option.ne_none_iff_exists'.mp hopen
      obtain ⟨rfl, huse⟩ := openFile_eq_some.mp hj
      obtain ⟨t, hfollows, hgot⟩ := h.place
      simp only [readerStep, fsRead_eq d huse, Table.slot_coe]
      refine ⟨h.fat, ?_⟩
      rcases eq_or_ne fd j with rfl | hne
      · simp only [setFile_files_self, Function.update_self]
        rw [h.fat]
        obtain ⟨k, hloop, hout⟩ :=
          Follows.loop hcov d count.toNat (readStart r.fs fd count) t hfollows
        have happend := stretch_append (stream d (chain fatCache e.startCluster)) 0 t k
        rw [Nat.zero_add] at happend
        exact ⟨t + k, hloop, by rw [hout, hgot, ← happend]; rfl⟩
      · simp only [setFile_files_of_ne _ _ hne, Function.update_of_ne hne]
        exact ⟨t, hfollows, hgot⟩

end

/-- Without disk errors a read of one byte before the end of the file returns one byte, whatever the
    chain. -/
theorem fsRead_one {d : Disk} (hok : ∀ n, d.fails n = false) {s : FsState} {fd : Fin fsMaxFiles}
    (huse : (s.files fd).inUse = true) (hp : (s.files fd).position < (s.files fd).fileSize) :
    (fsRead d s fd true 1).2.1.length = 1 ∧
      ((fsRead d s fd true 1).2.2.files fd).position.toNat = (s.files fd).position.toNat + 1 := by
  have hrem : (0 : UInt32) < 1 := by decide
  have hgo : 0 < (readStart s fd 1).remaining ∧
      (readStart s fd 1).file.position < (readStart s fd 1).file.fileSize := ⟨hrem, hp⟩
  have hcopy : (toCopy (s.files fd) 1).toNat = 1 := by
    obtain ⟨hlow, hhigh⟩ := toCopy_pos_le hrem hp
    exact le_antisymm hhigh hlow
  have hsum : (s.files fd).position.toNat + 1 < 2 ^ 32 := by
    have := UInt32.lt_iff_toNat_lt.mp hp
    have := (s.files fd).fileSize.toNat_lt
    omega
  rcases readTurn_cases d s.fatCache (readStart s fd 1) with
    ⟨hf, -⟩ | ⟨-, buffer, goOn, cluster, hturn⟩
  · rw [hok] at hf
    cases hf
  have hloop : readLoop d s.fatCache (1 : UInt16).toNat (readStart s fd 1) =
      (readTurn d s.fatCache (readStart s fd 1)).2 := by
    change readLoop d s.fatCache (0 + 1) (readStart s fd 1) = _
    rw [readLoop, if_pos hgo]
    cases readTurn d s.fatCache (readStart s fd 1) with
    | mk goOn r => cases goOn <;> rfl
  rw [fsRead_eq d huse, hloop, hturn]
  refine ⟨?_, ?_⟩
  · change ([] ++ stretch buffer _ (toCopy (s.files fd) 1).toNat).length = 1
    rw [List.nil_append, length_stretch, hcopy]
  · dsimp only
    rw [setFile_files_self]
    change ((s.files fd).position + toCopy (s.files fd) 1).toNat = _
    rw [UInt32.toNat_add, hcopy, Nat.mod_eq_of_lt hsum]

/-- So `m` such reads return `m` bytes, up to the end of the file. -/
theorem got_of_single_reads {d : Disk} (hok : ∀ n, d.fails n = false) {s : FsState}
    {fd : Fin fsMaxFiles} (huse : (s.files fd).inUse = true) (hstart : (s.files fd).position = 0) :
    ∀ m, m ≤ (s.files fd).fileSize.toNat →
      let r := Run.after (readerStep d) (freshReader s) (List.replicate m (.fsRead fd true 1))
      SameFile (s.files fd) (r.fs.files fd) ∧ (r.fs.files fd).position.toNat = m ∧
        (r.got fd).length = m := by
  intro m
  induction m with
  | zero => exact fun _ => ⟨SameFile.refl _, congrArg UInt32.toNat hstart, rfl⟩
  | succ m ih =>
    intro hm
    obtain ⟨hsame, hpos, hlen⟩ := ih (by omega)
    rw [List.replicate_succ', Run.after_append]
    generalize Run.after (readerStep d) (freshReader s) (List.replicate m (.fsRead fd true 1)) = r
      at hsame hpos hlen
    have hp : (r.fs.files fd).position < (r.fs.files fd).fileSize := by
      rw [UInt32.lt_iff_toNat_lt, hpos, hsame.2.1]
      omega
    have hkeeps := (fsRead_keeps d r.fs fd true 1).files fd
    obtain ⟨hbytes, hnext⟩ := fsRead_one hok (hsame.2.2.trans huse) hp
    rw [Run.after_cons, Run.after_nil]
    simp only [readerStep, Table.slot_coe, Function.update_self, List.length_append]
    exact ⟨hsame.trans hkeeps, by rw [hnext, hpos], by rw [hlen, hbytes]⟩

/-- EXACT: open a name and let it be that of the entry `e`. Whichever read commands fail and whatever
    reads follow, the bytes got on the descriptor are a prefix of the sectors of the valid chain,
    precisely if the valid chain has a cluster for every byte of the file. -/
theorem reads_on_valid_chain_iff {s s' : FsState} {name : List UInt8} {mode : UInt8}
    {fd : Fin fsMaxFiles} {i : ℕ} {e : FsDirEntry}
    (hfind : dirFindEntry s.rootDirCache name = some (i, e))
    (hopen : fsOpen s (some name) mode = ((fd : ℤ), s')) (sector : UInt32 → ℕ → UInt8) :
    (∀ stopsAfter ops, (∀ op ∈ ops, FileOp.IsRead op) →
      OnValidChain ⟨sector, stopsAfter⟩ s.fatCache e
        ((Run.after (readerStep ⟨sector, stopsAfter⟩) (freshReader s') ops).got fd)) ↔
    Covered s.fatCache e := by
  -- what the open leaves in the descriptor
  rcases fsOpen_cases s (some name) mode with
    ⟨fd', _, _, _, file, hname, -, hfind', huse, -, hcl, hsize, hpos, heq⟩ | heq
  · cases hname
    rw [hfind] at hfind'
    cases hfind'
    rw [heq] at hopen
    obtain ⟨hfd, rfl⟩ := Prod.mk.inj hopen
    obtain rfl : fd' = fd := Fin.ext (Int.ofNat_inj.mp hfd)
    have hfile : (s.setFile fd' file).files fd' = file := setFile_files_self ..
    constructor
    · intro h j hj
      -- one byte more than the first `j` clusters hold, on a disk without errors
      obtain ⟨n, hvalid, hprefix⟩ := h (fun _ => none)
        (List.replicate (512 * j + 1) (.fsRead fd' true 1)) fun op hop => by
          rw [List.eq_of_mem_replicate hop]
          trivial
      have hgot := got_of_single_reads (d := ⟨sector, fun _ => none⟩) (fun _ => rfl)
        ((congrArg FsFile.inUse hfile).trans huse) ((congrArg FsFile.position hfile).trans hpos)
        (512 * j + 1) (by rw [hfile, hsize]; omega)
      have hlen := hprefix.length_le
      rw [hgot.2.2, chainBytes_eq, length_stretch] at hlen
      exact hvalid j (by omega)
    · intro hcov stopsAfter ops hops
      have hboot : ReadsAlong ⟨sector, stopsAfter⟩ s.fatCache e fd'
          (freshReader (s.setFile fd' file)) := by
        refine ⟨rfl, 0, ⟨?_, ?_, fun _ => ?_, fun _ => Nat.zero_le _⟩, rfl⟩
        · exact (congrArg FsFile.fileSize hfile).trans hsize
        · change ((s.setFile fd' file).files fd').position.toNat = 0
          rw [hfile, hpos]
          rfl
        · exact (congrArg FsFile.currentCluster hfile).trans hcl
      have halong := Run.after_inv_along (fun r op h hop => h.step hcov hop) ops _
        ((Run.along_iff_forall_mem ops _).mpr hops) hboot
      obtain ⟨t, hfollows, hgot⟩ := halong.place
      rw [hgot]
      exact hcov.onValidChain _ hfollows.bound
  · rw [heq] at hopen
    have hneg := (Prod.mk.inj hopen).1
    omega

theorem sample_reads_on_valid_chain :
    Covered sampleFs.fatCache sampleEntry ∧
      ∀ stopsAfter ops, (∀ op ∈ ops, FileOp.IsRead op) →
        OnValidChain ⟨sampleDisk.sector, stopsAfter⟩ sampleFs.fatCache sampleEntry
          ((Run.after (readerStep ⟨sampleDisk.sector, stopsAfter⟩) (freshReader openedSample) ops).got
            0) := by
  have hcov : Covered sampleFs.fatCache sampleEntry := by
    intro j hj
    change 512 * j < 600 at hj
    have hj : j < 2 := by omega
    interval_cases j
    · exact ⟨by decide, by decide⟩
    · exact ⟨by decide, by decide⟩
  have hopen : fsOpen sampleFs (some [65]) 0 = (((0 : Fin fsMaxFiles) : ℤ), openedSample) := rfl
  exact ⟨hcov, (reads_on_valid_chain_iff sample_found hopen sampleDisk.sector).mpr hcov⟩

/-- The file `A` with its second cluster cut off: cluster 2 leads to the end mark. Read to there, the
    next read returns the first byte of cluster 2 again. -/
theorem read_past_end_mark :
    let fs := { sampleFs with fatCache := some fun k => if k = 3 then 0xFF else 0x0F }
    let s := (fsOpen fs (some [65]) 0).2
    let r := fsRead sampleDisk s 0 true 512
    chain fs.fatCache 2 1 = 0xFFF ∧ r.1 = 512 ∧ (fsRead sampleDisk r.2.2 0 true 1).1 = 1 ∧
      (fsRead sampleDisk r.2.2 0 true 1).2.1 = [231] := by
  decide

end VlsOs.Fs
