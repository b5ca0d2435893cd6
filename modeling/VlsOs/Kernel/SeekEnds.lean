import VlsOs.Kernel.FileSeek

/-! When a seek ends.

    The position of the loop of `fs_seek` goes up in steps of 512, in 32 bits. The last step before it
    wraps around is `2 ^ 32 - 512`, and an offset beyond that is never reached: from there the loop
    starts over at 0, further down the chain. It ends then only if the chain does.

        pos   0 ──▶ 512 ──▶ ⋯ ──▶ 0xFFFFFE00 ─┐
              ▲                               │ + 512, while 0xFFFFFE00 < offset
              └───────────────────────────────┘ -/

namespace VlsOs.Fs

section
variable {fatCache : Option (ℕ → UInt8)} {file : FsFile} {offset : UInt32}

/-- An end mark ends the loop, whatever the position. -/
theorem seekLoop_ends_at_mark : ∀ (k j : ℕ) (pos : UInt32),
    fsClusterMax ≤ chain fatCache file.startCluster (j + k + 1) →
      (seekLoop fatCache offset (k + 1) (atCluster fatCache file j) pos).isSome := by
  intro k
  induction k with
  | zero =>
    intro j pos hmark
    rw [seekLoop_atCluster, if_pos hmark]
    split <;> rfl
  | succ k ih =>
    intro j pos hmark
    rw [seekLoop_atCluster]
    split
    · split
      · rfl
      · exact ih (j + 1) (pos + 512) (by rwa [show j + 1 + k + 1 = j + (k + 1) + 1 by omega])
    · rfl

/-- An offset that some step reaches ends the loop, whatever the chain. -/
theorem seekLoop_ends_at_offset (hoff : offset.toNat ≤ 2 ^ 32 - 512) : ∀ k j : ℕ,
    j + k = links offset →
      (seekLoop fatCache offset (k + 1) (atCluster fatCache file j)
        (UInt32.ofNat (512 * j))).isSome := by
  intro k
  induction k with
  | zero =>
    intro j hj
    have hpos : ¬ UInt32.ofNat (512 * j) < offset := by
      unfold links at hj
      rw [UInt32.lt_iff_toNat_lt, toNat_mul_512 (by omega)]
      omega
    rw [seekLoop_atCluster, if_neg fun h => hpos h.1]
    rfl
  | succ k ih =>
    intro j hj
    rw [seekLoop_atCluster]
    split
    · split
      · rfl
      · rw [pos_succ]
        exact ih (j + 1) (by omega)
    · rfl

/-- An offset past the last step and a chain without an end mark: the loop goes on for ever. -/
theorem seekLoop_forever (hoff : 2 ^ 32 - 512 < offset.toNat) (hsize : offset ≤ file.fileSize)
    (hlive : ∀ j, chain fatCache file.startCluster (j + 1) < fsClusterMax) : ∀ fuel j : ℕ,
    seekLoop fatCache offset fuel (atCluster fatCache file j) (UInt32.ofNat (512 * j)) = none := by
  intro fuel
  induction fuel with
  | zero => exact fun _ => rfl
  | succ fuel ih =>
    intro j
    have hahead := step_lt hoff j
    rw [seekLoop_atCluster, if_pos ⟨hahead, UInt32.lt_of_lt_of_le hahead hsize⟩,
      if_neg (UInt32.not_le.mpr (hlive j)), pos_succ]
    exact ih (j + 1)

end

/-- The loop of a seek ends. -/
theorem seekLoop_ends_iff {fatCache : Option (ℕ → UInt8)} {file : FsFile} {offset : UInt32}
    (hsize : offset ≤ file.fileSize) :
    (∃ fuel, (seekLoop fatCache offset fuel (atCluster fatCache file 0)
        (UInt32.ofNat (512 * 0))).isSome) ↔
      offset.toNat ≤ 2 ^ 32 - 512 ∨
        ∃ j, fsClusterMax ≤ chain fatCache file.startCluster (j + 1) := by
  constructor
  · rintro ⟨fuel, hends⟩
    by_contra hnot
    obtain ⟨hoff, hlive⟩ := not_or.mp hnot
    have hlive' : ∀ j, chain fatCache file.startCluster (j + 1) < fsClusterMax :=
      fun j => UInt32.not_le.mp fun hmark => hlive ⟨j, hmark⟩
    rw [seekLoop_forever (not_le.mp hoff) hsize hlive'] at hends
    cases hends
  · rintro (hoff | ⟨j, hmark⟩)
    · exact ⟨links offset + 1, seekLoop_ends_at_offset hoff _ 0 (Nat.zero_add _)⟩
    · exact ⟨j + 1, seekLoop_ends_at_mark j 0 _ (by rwa [Nat.zero_add])⟩

/-- EXACT: a seek ends, with any FAT and any file record, precisely if the descriptor or the offset
    is refused, the offset is at most `2 ^ 32 - 512`, or the chain comes to an end mark. -/
theorem fsSeek_ends_iff (s : FsState) (fd : ℤ) (offset : UInt32) :
    (∃ fuel, (fsSeek fuel s fd offset).isSome) ↔
      ∀ i, openFile s fd = some i → offset ≤ (s.files i).fileSize →
        offset.toNat ≤ 2 ^ 32 - 512 ∨
          ∃ j, fsClusterMax ≤ chain s.fatCache (s.files i).startCluster (j + 1) := by
  cases hopen : openFile s fd with
  | none =>
    refine iff_of_true ⟨0, ?_⟩ fun i hi => by cases hi
    rw [fsSeek, hopen]
    rfl
  | some i =>
    obtain ⟨rfl, huse⟩ := openFile_eq_some.mp hopen
    by_cases hsize : offset ≤ (s.files i).fileSize
    · have hloop := @seekLoop_ends_iff s.fatCache { s.files i with position := offset } offset hsize
      simp only [fsSeek_eq huse hsize, Option.isSome_map]
      rw [hloop]
      constructor
      · intro h i' hi' _
        cases hi'
        exact h
      · intro h
        exact h i rfl hsize
    · refine iff_of_true ⟨0, ?_⟩ fun i' hi' hle => ?_
      · simp only [fsSeek, hopen, if_pos (UInt32.not_le.mp hsize)]
        rfl
      · cases hi'
        exact absurd hle hsize

/-- A file system with one file, of `2 ^ 32 - 1` bytes, whose cluster 2 is linked to itself. -/
def cyclicFs : FsState :=
  { staticFs with
    initialized := true
    rootDirCache := some fun k =>
      if k = 0 then 65 else if k < 11 then 32 else if k = 26 then 2
      else if 28 ≤ k ∧ k < 32 then 0xFF else 0
    fatCache := some fun k => if k = 3 then 2 else 0 }

/-- Opened as descriptor 0, the file can be sought for ever. -/
theorem seek_never_ends :
    (fsOpen cyclicFs (some [65]) 0).1 = 0 ∧
      ∀ fuel, fsSeek fuel (fsOpen cyclicFs (some [65]) 0).2 0 0xFFFFFFFF = none := by
  refine ⟨by decide, fun fuel => ?_⟩
  have hlive (j : ℕ) : chain cyclicFs.fatCache 2 (j + 1) < fsClusterMax := by
    have hloop : fat12GetNext cyclicFs.fatCache 2 = 2 := by decide
    rw [chain, Function.iterate_fixed hloop]
    decide
  have hrun := @seekLoop_forever cyclicFs.fatCache
    { (fsOpen cyclicFs (some [65]) 0).2.files 0 with position := 0xFFFFFFFF } 0xFFFFFFFF
    (by decide) (by decide) hlive fuel 0
  have heq := @fsSeek_eq (fsOpen cyclicFs (some [65]) 0).2 0 (by decide) 0xFFFFFFFF (by decide) fuel
  exact heq.trans (Option.map_eq_none_iff.mpr hrun)

end VlsOs.Fs
