import VlsOs.Schemes.Run
import VlsOs.Kernel.ClusterIo

/-! Allocating clusters.

    `fs_allocate_cluster` returns the first cluster that the FAT says is free and writes nothing, so
    the next call returns the same one. The search goes on to cluster `0xFEF`; the disk ends with
    cluster 2848 and the FAT with entry 3071.

        2 ─────────────────── 2848 ───── 3071 ───────── 0xFEF
        └─ clusters of the disk ─┘
        └──────── entries of the FAT ──────┘
        └──────────────── searched ─────────────────────────┘ -/

namespace VlsOs.Fs
open Patterns VlsOs.Disk

def fsClusterFree : UInt32 := 0x000

/-- `fat12_find_free_cluster`. -/
def fat12FindFreeCluster (fatCache : Option (ℕ → UInt8)) : UInt32 :=
  match (List.range' 2 (0xFF0 - 2)).find? fun i =>
      fat12GetNext fatCache (UInt32.ofNat i) = fsClusterFree with
  | some i => UInt32.ofNat i
  | none => fsClusterEof

def fsAllocateCluster (s : FsState) : UInt32 := fat12FindFreeCluster s.fatCache

/-- A call of `fs_allocate_cluster`: it leaves the state alone. -/
def allocStep (s : FsState) (_ : Unit) : FsState × UInt32 := (s, fsAllocateCluster s)

/-- What the results of successive calls owe their caller. -/
structure SoundAlloc (fatCache : Option (ℕ → UInt8)) (got : List UInt32) : Prop where
  distinct : fsClusterEof ∉ got → got.Nodup
  free : fsClusterEof ∉ got → ∀ c ∈ got, fat12GetNext fatCache c = fsClusterFree
  onDisk : fsClusterEof ∉ got → ∀ c ∈ got, clusterToLba c < fsTotalSectors
  full : fsClusterEof ∈ got →
    ∀ c, 2 ≤ c → c ≤ 2848 → fat12GetNext fatCache c ≠ fsClusterFree

/-! ### One call -/

section
variable (fatCache : Option (ℕ → UInt8))

/-- SPEC of `fat12_find_free_cluster`: the first free cluster of the range, or the end mark. -/
theorem findFree_cases :
    (∃ c, fat12FindFreeCluster fatCache = c ∧ 2 ≤ c ∧ c < 0xFF0 ∧
        fat12GetNext fatCache c = fsClusterFree ∧
        ∀ b, 2 ≤ b → b < c → fat12GetNext fatCache b ≠ fsClusterFree) ∨
      fat12FindFreeCluster fatCache = fsClusterEof ∧
        ∀ b, 2 ≤ b → b < 0xFF0 → fat12GetNext fatCache b ≠ fsClusterFree := by
  rw [fat12FindFreeCluster]
  cases hfind : (List.range' 2 (0xFF0 - 2)).find? fun i =>
      fat12GetNext fatCache (UInt32.ofNat i) = fsClusterFree with
  | none =>
    rw [List.find?_range'_eq_none] at hfind
    refine .inr ⟨rfl, fun b hb hlt hfree => ?_⟩
    have hb : 2 ≤ b.toNat := UInt32.le_iff_toNat_le.mp hb
    have hlt : b.toNat < 0xFF0 := UInt32.lt_iff_toNat_lt.mp hlt
    have hnot := hfind b.toNat hb (by omega)
    rw [UInt32.ofNat_toNat] at hnot
    simp [hfree] at hnot
  | some i =>
    rw [List.find?_range'_eq_some, List.mem_range'_1] at hfind
    obtain ⟨hfree, hmem, hfirst⟩ := hfind
    have hi : (UInt32.ofNat i).toNat = i := UInt32.toNat_ofNat_of_lt' (by
      change i < 2 ^ 32
      omega)
    refine .inl ⟨UInt32.ofNat i, rfl, ?_, ?_, of_decide_eq_true hfree, fun b hb hlt hbfree => ?_⟩
    · rw [UInt32.le_iff_toNat_le, hi]
      exact hmem.1
    · rw [UInt32.lt_iff_toNat_lt, hi]
      change i < 0xFF0
      omega
    · have hb : 2 ≤ b.toNat := UInt32.le_iff_toNat_le.mp hb
      have hlt : b.toNat < i := by rwa [UInt32.lt_iff_toNat_lt, hi] at hlt
      have hnot := hfirst b.toNat hb hlt
      rw [UInt32.ofNat_toNat] at hnot
      simp [hbfree] at hnot

end

/-- The clusters of the range whose sector is on the disk. -/
theorem onDisk_iff {c : UInt32} (hc : 2 ≤ c) (hlt : c < 0xFF0) :
    clusterToLba c < fsTotalSectors ↔ c ≤ 2848 := by
  have hc' : 2 ≤ c.toNat := UInt32.le_iff_toNat_le.mp hc
  have hlt' : c.toNat < 0xFF0 := UInt32.lt_iff_toNat_lt.mp hlt
  have hlba : (clusterToLba c).toNat = c.toNat + 31 := by
    rw [clusterToLba, if_neg (UInt32.not_lt.mpr hc), UInt32.mul_one, UInt32.toNat_add,
      UInt32.toNat_sub_of_le _ _ hc]
    change (33 + (c.toNat - 2)) % 2 ^ 32 = _
    omega
  rw [UInt32.lt_iff_toNat_lt, hlba, UInt32.le_iff_toNat_le]
  change c.toNat + 31 < 2880 ↔ c.toNat ≤ 2848
  omega

/-! ### Successive calls -/

theorem outs_allocStep (s : FsState) (n : ℕ) :
    Run.outs allocStep s (List.replicate n ()) = List.replicate n (fsAllocateCluster s) := by
  rw [Run.outs_idle fun _ => rfl, List.map_replicate]
  rfl

/-- EXACT: successive allocations are sound precisely if there are none, or the search finds nothing,
    or there is a single one and a cluster of the disk is free. -/
theorem allocation_sound_iff (s : FsState) (n : ℕ) :
    SoundAlloc s.fatCache (Run.outs allocStep s (List.replicate n ())) ↔
      n = 0 ∨
      (∀ c, 2 ≤ c → c < 0xFF0 → fat12GetNext s.fatCache c ≠ fsClusterFree) ∨
      n = 1 ∧ ∃ c, 2 ≤ c ∧ c ≤ 2848 ∧ fat12GetNext s.fatCache c = fsClusterFree := by
  rw [outs_allocStep]
  rcases Nat.eq_zero_or_pos n with rfl | hn
  · refine iff_of_true ⟨fun _ => List.nodup_nil, ?_, ?_, ?_⟩ (.inl rfl)
    · exact fun _ c hc => absurd hc List.not_mem_nil
    · exact fun _ c hc => absurd hc List.not_mem_nil
    · exact fun h => absurd h List.not_mem_nil
  have hmem : ∀ c, c ∈ List.replicate n (fsAllocateCluster s) ↔ c = fsAllocateCluster s :=
    fun c => List.mem_replicate.trans (and_iff_right (by omega))
  rcases findFree_cases s.fatCache with ⟨c, heq, hc, hlt, hfree, hfirst⟩ | ⟨heq, hnone⟩
  · -- a cluster is found, so no call returns the end mark
    have heq : fsAllocateCluster s = c := heq
    have hne : fsClusterEof ≠ c := by
      rintro rfl
      exact absurd hlt (by decide)
    rw [heq] at hmem ⊢
    have hgot : fsClusterEof ∉ List.replicate n c := fun h => hne ((hmem _).mp h)
    constructor
    · intro hsound
      have hone : n = 1 := by
        have hle := List.nodup_replicate.mp (hsound.distinct hgot)
        omega
      have hdisk := hsound.onDisk hgot c ((hmem c).mpr rfl)
      exact .inr (.inr ⟨hone, c, hc, (onDisk_iff hc hlt).mp hdisk, hfree⟩)
    · rintro (rfl | hnone | ⟨rfl, b, hb, hble, hbfree⟩)
      · omega
      · exact absurd hfree (hnone c hc hlt)
      · -- the first free cluster is at or before the one that is known
        have hcb : c ≤ b := UInt32.not_lt.mp fun h => hfirst b hb h hbfree
        have hdisk := (onDisk_iff hc hlt).mpr (UInt32.le_trans hcb hble)
        refine ⟨fun _ => List.nodup_singleton c, fun _ a ha => ?_, fun _ a ha => ?_,
          fun h => absurd h hgot⟩
        · rwa [(hmem a).mp ha]
        · rwa [(hmem a).mp ha]
  · have heq : fsAllocateCluster s = fsClusterEof := heq
    have hgot : fsClusterEof ∈ List.replicate n (fsAllocateCluster s) := (hmem _).mpr heq.symm
    refine iff_of_true ⟨fun h => absurd hgot h, fun h => absurd hgot h, fun h => absurd hgot h,
      fun _ c hc hle => hnone c hc (UInt32.lt_of_le_of_lt hle (by decide))⟩ (.inr (.inl hnone))

/-- On an empty FAT two calls return cluster 2 both times. -/
theorem allocated_twice :
    Run.outs allocStep { staticFs with fatCache := some fun _ => 0 } [(), ()] = [2, 2] := by
  decide

end VlsOs.Fs
