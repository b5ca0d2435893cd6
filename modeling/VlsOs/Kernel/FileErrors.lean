import VlsOs.Kernel.SeekEnds

/-! What a failing call leaves behind.

    `fs_seek` moves the position and goes back to the start cluster before it knows that the chain is
    long enough. A seek that then meets an end mark returns `-1` from the middle of the chain and
    leaves the descriptor there.

        fs_seek     position := offset, cluster := c₀ ──▶ c₁ ──▶ ⋯ ──▶ cₖ ──▶ end mark: return -1

    `fs_read` returns the number of bytes it has copied, whatever ended its loop. If the first read
    command of the call fails that number is `0`, as at the end of the file. -/

namespace VlsOs.Fs
open Patterns Patterns.Blocks

/-! ### Seeks that fail -/

section
variable {fatCache : Option (ℕ → UInt8)} {file : FsFile} {offset : UInt32}

theorem atCluster_self {k : ℕ} (h : file.currentCluster = chain fatCache file.startCluster k) :
    atCluster fatCache file k = file := by
  rw [atCluster, ← h]

/-- A loop that returns `-1` has come to the cluster before an end mark. -/
theorem seekLoop_stopped : ∀ (fuel j : ℕ) {file' : FsFile},
    seekLoop fatCache offset fuel (atCluster fatCache file j) (UInt32.ofNat (512 * j)) =
      some (-1, file') →
    ∃ k, j ≤ k ∧ (∀ i, j ≤ i → i < k → chain fatCache file.startCluster (i + 1) < fsClusterMax) ∧
      fsClusterMax ≤ chain fatCache file.startCluster (k + 1) ∧
      (∀ i, j ≤ i → i ≤ k → UInt32.ofNat (512 * i) < offset) ∧
      file' = atCluster fatCache file k := by
  intro fuel
  induction fuel with
  | zero =>
    intro j file' h
    cases h
  | succ fuel ih =>
    intro j file' h
    rw [seekLoop_atCluster] at h
    split at h
    · rename_i htest
      split at h
      · rename_i hmark
        cases h
        refine ⟨j, le_rfl, fun i hi hlt => absurd hlt (by omega), hmark, fun i hi hle => ?_, rfl⟩
        rw [le_antisymm hle hi]
        exact htest.1
      · rename_i hlive
        rw [pos_succ] at h
        obtain ⟨k, hjk, hlinks, hmark, hahead, hfile⟩ := ih (j + 1) h
        refine ⟨k, by omega, fun i hi hlt => ?_, hmark, fun i hi hle => ?_, hfile⟩
        · rcases Nat.eq_or_lt_of_le hi with rfl | hi
          · exact UInt32.not_le.mp hlive
          · exact hlinks i hi hlt
        · rcases Nat.eq_or_lt_of_le hi with rfl | hi
          · exact htest.1
          · exact hahead i hi hle
    · cases h

end

/-- EXACT, for a descriptor in use and an offset in the file: the states that a failing seek leads
    to. -/
theorem fsSeek_fails_iff {s : FsState} {i : Fin fsMaxFiles} (huse : (s.files i).inUse = true)
    {offset : UInt32} (hoff : offset ≤ (s.files i).fileSize) (s' : FsState) :
    (∃ fuel, fsSeek fuel s i offset = some (-1, s')) ↔
      ∃ k, StopsAt s.fatCache (s.files i).startCluster offset k ∧
        s' = s.setFile i (atCluster s.fatCache { s.files i with position := offset } k) := by
  constructor
  · rintro ⟨fuel, hseek⟩
    rw [fsSeek_eq huse hoff, Option.map_eq_some_iff] at hseek
    obtain ⟨⟨result, file'⟩, hloop, heq⟩ := hseek
    cases heq
    obtain ⟨k, -, hlive, hmark, hahead, rfl⟩ := seekLoop_stopped fuel 0 hloop
    have hstops : StopsAt s.fatCache (s.files i).startCluster offset k :=
      ⟨fun j hj => hlive j (Nat.zero_le j) hj, hmark,
        (steps_ahead_iff offset k).mp fun j hj => hahead j (Nat.zero_le j) hj⟩
    exact ⟨k, hstops, rfl⟩
  · rintro ⟨k, hstops, rfl⟩
    refine ⟨k + 1, ?_⟩
    have hloop := seekLoop_stops { s.files i with position := offset } hoff hstops k 0
      (Nat.zero_add k)
    rw [fsSeek_eq huse hoff]
    exact congrArg (Option.map _) hloop

/-- EXACT: in every state, a failing seek leaves all descriptors as they were, and the next read on
    this one returns what it would have returned, precisely if the walk does not stop in the chain or
    the descriptor was at that offset and that cluster already. -/
theorem failed_seek_keeps_iff (d : Disk) (s : FsState) (fd : ℤ) (offset : UInt32) :
    (∀ fuel s', fsSeek fuel s fd offset = some (-1, s') →
      (∀ i, s'.files i = s.files i) ∧
      ∀ buffer count, (fsRead d s' fd buffer count).1 = (fsRead d s fd buffer count).1 ∧
        (fsRead d s' fd buffer count).2.1 = (fsRead d s fd buffer count).2.1) ↔
    ∀ i k, openFile s fd = some i → offset ≤ (s.files i).fileSize →
      StopsAt s.fatCache (s.files i).startCluster offset k →
      (s.files i).position = offset ∧
        (s.files i).currentCluster = chain s.fatCache (s.files i).startCluster k := by
  constructor
  · intro h i k hopen hoff hstops
    obtain ⟨rfl, huse⟩ := openFile_eq_some.mp hopen
    obtain ⟨fuel, hseek⟩ := (fsSeek_fails_iff huse hoff _).mpr ⟨k, hstops, rfl⟩
    have hsame := (h fuel _ hseek).1 i
    rw [setFile_files_self] at hsame
    exact ⟨(congrArg FsFile.position hsame).symm, (congrArg FsFile.currentCluster hsame).symm⟩
  · intro h fuel s' hseek
    -- the state as a whole is what it was
    have hsame : s' = s := by
      cases hopen : openFile s fd with
      | none =>
        rw [fsSeek, hopen] at hseek
        cases hseek
        rfl
      | some i =>
        obtain ⟨rfl, huse⟩ := openFile_eq_some.mp hopen
        by_cases hoff : offset ≤ (s.files i).fileSize
        · obtain ⟨k, hstops, rfl⟩ := (fsSeek_fails_iff huse hoff s').mp ⟨fuel, hseek⟩
          obtain ⟨hpos, hcl⟩ := h i k hopen hoff hstops
          have hfile : atCluster s.fatCache { s.files i with position := offset } k = s.files i := by
            rw [← hpos]
            exact atCluster_self hcl
          rw [hfile, FsState.setFile, Function.update_eq_self]
        · simp only [fsSeek, hopen, if_pos (UInt32.not_le.mp hoff)] at hseek
          cases hseek
          rfl
    rw [hsame]
    exact ⟨fun _ => rfl, fun _ _ => ⟨rfl, rfl⟩⟩

/-- A seek to the end of the sample file fails; the descriptor is at byte 600 after it, and the next
    read returns nothing where it would have returned the first byte. -/
theorem failed_seek_moves :
    Reached sampleDisk sampleFs openedSample (Function.update (fun _ => []) 0 [65]) ∧
      (fsSeek 2 openedSample 0 600).map
          (fun r => (r.1, (r.2.files 0).position, (fsRead sampleDisk r.2 0 true 1).2.1)) =
        some (-1, 600, []) ∧
      (openedSample.files 0).position = 0 ∧ (fsRead sampleDisk openedSample 0 true 1).2.1 = [231] :=
  ⟨openedSample_reached, by decide, by decide, by decide⟩

/-! ### Reads that return nothing -/

theorem readLoop_budget (d : Disk) (fatCache : Option (ℕ → UInt8)) :
    ∀ (fuel : ℕ) (r : ReadState),
      (readLoop d fatCache fuel r).bytesRead + (readLoop d fatCache fuel r).remaining =
          r.bytesRead + r.remaining ∧
        (readLoop d fatCache fuel r).remaining ≤ r.remaining := by
  refine readLoop_rel (R := fun r r' => r'.bytesRead + r'.remaining = r.bytesRead + r.remaining ∧
    r'.remaining ≤ r.remaining) (fun r => ⟨rfl, UInt32.le_refl _⟩) ?_ ?_
  · rintro r r₁ r₂ ⟨hsum, hle⟩ ⟨hsum', hle'⟩
    exact ⟨hsum'.trans hsum, UInt32.le_trans hle' hle⟩
  · intro r hr hp
    obtain ⟨hsum, hle, -⟩ := readTurn_budget d fatCache hr hp
    exact ⟨hsum, hle⟩

section
variable {d : Disk} (fatCache : Option (ℕ → UInt8)) (fuel : ℕ) {r : ReadState}

/-- At the end of the file, or with a first read command that fails, the loop changes nothing. -/
theorem readLoop_idle (h : r.file.fileSize ≤ r.file.position ∨ d.fails r.reads = true) :
    (readLoop d fatCache fuel r).bytesRead = r.bytesRead ∧
      (readLoop d fatCache fuel r).file = r.file := by
  cases fuel with
  | zero => exact ⟨rfl, rfl⟩
  | succ fuel =>
    rw [readLoop]
    split
    · rename_i hgo
      have hfails := h.resolve_left (UInt32.not_le.mpr hgo.2)
      obtain ⟨buffer, heq⟩ := readTurn_fails fatCache hfails
      rw [heq]
      exact ⟨rfl, rfl⟩
    · exact ⟨rfl, rfl⟩

/-- Otherwise its first turn takes a byte at least from what remains. -/
theorem readLoop_takes (hr : 0 < r.remaining) (hp : r.file.position < r.file.fileSize)
    (hf : d.fails r.reads = false) :
    (readLoop d fatCache (fuel + 1) r).remaining < r.remaining := by
  have hless := (readTurn_budget d fatCache hr hp).2.2 hf
  rw [readLoop, if_pos ⟨hr, hp⟩]
  cases heq : readTurn d fatCache r with
  | mk goOn r' =>
    rw [heq] at hless
    cases goOn with
    | false => exact hless
    | true => exact UInt32.lt_of_le_of_lt (readLoop_budget d fatCache fuel r').2 hless

end

section
variable (d : Disk) {s : FsState} {i : Fin fsMaxFiles} (count : UInt16)

/-- SPEC of the result of `fs_read`: what the loop has taken from what was asked for. -/
theorem fsRead_result (huse : (s.files i).inUse = true) :
    let left := (readLoop d s.fatCache count.toNat (readStart s i count)).remaining.toNat
    left ≤ count.toNat ∧ (fsRead d s i true count).1 = (count.toNat - left : ℕ) := by
  intro left
  obtain ⟨hsum, hle⟩ := readLoop_budget d s.fatCache count.toNat (readStart s i count)
  have hstart : (readStart s i count).remaining.toNat = count.toNat := UInt16.toNat_toUInt32 count
  have hbytes : (readLoop d s.fatCache count.toNat (readStart s i count)).bytesRead =
      (readStart s i count).remaining -
        (readLoop d s.fatCache count.toNat (readStart s i count)).remaining := by
    rw [eq_sub_iff_add_eq, hsum]
    exact UInt32.zero_add _
  have hleft : left ≤ count.toNat := hstart ▸ UInt32.le_iff_toNat_le.mp hle
  refine ⟨hleft, ?_⟩
  rw [fsRead_eq d huse]
  dsimp only
  rw [hbytes, UInt32.toNat_sub_of_le _ _ hle, hstart]

/-- … which is a byte at least, if there is one to read and the first read command succeeds. -/
theorem fsRead_pos (huse : (s.files i).inUse = true) (hcount : 0 < count)
    (hin : (s.files i).position < (s.files i).fileSize) (hok : d.fails s.reads = false) :
    0 < (fsRead d s i true count).1 := by
  have hpos : 0 < count.toNat := UInt16.lt_iff_toNat_lt.mp hcount
  have hstart : (readStart s i count).remaining.toNat = count.toNat := UInt16.toNat_toUInt32 count
  have hremaining : 0 < (readStart s i count).remaining := by
    rw [UInt32.lt_iff_toNat_lt, hstart]
    exact hpos
  have hless := UInt32.lt_iff_toNat_lt.mp
    (readLoop_takes s.fatCache (count.toNat - 1) hremaining hin hok)
  rw [Nat.sub_add_cancel hpos, hstart] at hless
  obtain ⟨-, hresult⟩ := fsRead_result d count huse
  rw [hresult]
  omega

/-- … and nothing at the end of the file, or if the first read command fails. -/
theorem fsRead_idle (huse : (s.files i).inUse = true)
    (h : (s.files i).fileSize ≤ (s.files i).position ∨ d.fails s.reads = true) :
    (fsRead d s i true count).1 = 0 ∧ (fsRead d s i true count).2.2.files i = s.files i := by
  obtain ⟨hbytes, hfile⟩ := readLoop_idle s.fatCache count.toNat (r := readStart s i count) h
  rw [fsRead_eq d huse]
  refine ⟨congrArg (fun n : UInt32 => (n.toNat : ℤ)) hbytes, ?_⟩
  exact (setFile_files_self ..).trans hfile

end

/-- EXACT: for an open descriptor and a count that is not 0, the result 0 means that the position has
    come to the end of the file precisely if the position is there before the call or the first read
    command of the call succeeds. -/
theorem read_zero_is_end_iff (d : Disk) {s : FsState} {i : Fin fsMaxFiles}
    (huse : (s.files i).inUse = true) {count : UInt16} (hcount : 0 < count) :
    ((fsRead d s i true count).1 = 0 →
        (s.files i).fileSize ≤ ((fsRead d s i true count).2.2.files i).position) ↔
      ((s.files i).position < (s.files i).fileSize → d.fails s.reads = false) := by
  by_cases hidle : (s.files i).fileSize ≤ (s.files i).position ∨ d.fails s.reads = true
  · -- the result is 0 and the position stays
    obtain ⟨hresult, hfile⟩ := fsRead_idle d count huse hidle
    rw [hresult, hfile]
    constructor
    · exact fun h hp => absurd (h rfl) (UInt32.not_le.mpr hp)
    · intro h _
      by_contra hend
      have hok := h (UInt32.not_le.mp hend)
      rw [hidle.resolve_left hend] at hok
      cases hok
  · -- the result is not 0
    rw [not_or, UInt32.not_le, Bool.not_eq_true] at hidle
    refine iff_of_true (fun hzero => ?_) fun _ => hidle.2
    exact absurd hzero (fsRead_pos d count huse hcount hidle.1 hidle.2).ne'

theorem read_zero_is_end_sample :
    (openedSample.files 0).inUse = true ∧ (0 : UInt16) < 10 ∧
      ((fsRead sampleDisk openedSample (0 : Fin fsMaxFiles) true 10).1 = 0 →
        (openedSample.files 0).fileSize ≤
          ((fsRead sampleDisk openedSample (0 : Fin fsMaxFiles) true 10).2.2.files 0).position) :=
  ⟨by decide, by decide, (read_zero_is_end_iff sampleDisk (by decide) (by decide)).mpr fun _ => rfl⟩

/-- A disk whose read commands all fail: the first read of the sample file returns 0 at position 0 of
    600. -/
theorem failed_read_returns_zero :
    let d : Disk := { sampleDisk with stopsAfter := fun _ => some 0 }
    (fsRead d openedSample 0 true 10).1 = 0 ∧
      ((fsRead d openedSample 0 true 10).2.2.files 0).position = 0 ∧
      (openedSample.files 0).fileSize = 600 := by
  decide

end VlsOs.Fs
