import VlsOs.Kernel.Filesystem
import VlsOs.Schemes.Run

/-! Reading a file along its cluster chain.

    The loop of `fs_read` keeps `current_cluster` at the cluster that holds `position`. Its turns are
    described once, for a chain of clusters `cl 0, cl 1, …` laid over the positions of the file
    (`Linked`): the bytes returned are a stretch of the stream that the chain spells (`ReadsOn`).

        position     0        512       1024      1536
                     ├─────────┼─────────┼─────────┼──
        cluster         cl 0      cl 1      cl 2
                          └─ link ─▶└─ link ─▶└─ end mark, if the chain is over before the file -/

namespace VlsOs.Fs
open Patterns Patterns.Blocks

/-! ### One turn of the loop -/

theorem Disk.transfer_one (d : Disk) (lba : UInt32) (buffer : ℕ → UInt8) {k : ℕ}
    (hk : k < fsBytesPerSector) : d.transfer lba 1 buffer k = d.sector lba k := by
  rw [Disk.transfer, if_pos (by simpa using hk), Nat.div_eq_of_lt hk, Nat.mod_eq_of_lt hk]
  exact congrArg (fun a => d.sector a k) (UInt32.add_zero lba)

/-- What a turn would copy if the file did not end: the rest of the sector or of the request. -/
theorem wanted_toNat (position remaining : UInt32) :
    (if 512 - position % 512 > remaining then remaining else 512 - position % 512).toNat =
      min (512 - position.toNat % 512) remaining.toNat := by
  have hmod : (position % 512).toNat = position.toNat % 512 := UInt32.toNat_mod ..
  have hrest : (512 - position % 512).toNat = 512 - position.toNat % 512 := by
    rw [UInt32.toNat_sub_of_le, hmod]
    · rfl
    · rw [UInt32.le_iff_toNat_le, hmod]
      exact Nat.le_of_lt (Nat.mod_lt _ (by decide))
  split
  · rename_i h
    have hlt := UInt32.lt_iff_toNat_lt.mp h
    rw [hrest] at hlt
    exact (Nat.min_eq_right (Nat.le_of_lt hlt)).symm
  · rename_i h
    have hle := UInt32.le_iff_toNat_le.mp (UInt32.not_lt.mp h)
    rw [hrest] at hle
    rw [hrest, Nat.min_eq_left hle]

/-- A turn copies up to the end of the sector, the request and the file, whatever the sizes: the
    sum of the end-of-file test may wrap, but then the request ends before the file. -/
theorem toCopy_cases {file : FsFile} (remaining : UInt32) (hp : file.position < file.fileSize) :
    ∃ wanted, wanted = min (512 - file.position.toNat % 512) remaining.toNat ∧
      ((toCopy file remaining).toNat = wanted ∧
          (file.fileSize.toNat + 512 ≤ 2 ^ 32 → wanted ≤ file.fileSize.toNat - file.position.toNat) ∨
        (toCopy file remaining).toNat = file.fileSize.toNat - file.position.toNat ∧
          file.fileSize.toNat - file.position.toNat < wanted) := by
  have hp' := UInt32.lt_iff_toNat_lt.mp hp
  have hw := wanted_toNat file.position remaining
  have hsize := file.fileSize.toNat_lt
  refine ⟨_, rfl, ?_⟩
  unfold toCopy
  dsimp only
  generalize (if 512 - file.position % 512 > remaining then remaining else
    512 - file.position % 512) = w at hw ⊢
  split
  · rename_i h
    have hlt := UInt32.lt_iff_toNat_lt.mp h
    rw [UInt32.toNat_add] at hlt
    refine .inr ⟨UInt32.toNat_sub_of_le _ _ (UInt32.le_of_lt hp), ?_⟩
    omega
  · rename_i h
    have hle := UInt32.le_iff_toNat_le.mp (UInt32.not_lt.mp h)
    rw [UInt32.toNat_add] at hle
    refine .inl ⟨hw, fun _ => ?_⟩
    omega

theorem toCopy_pos_le {file : FsFile} {remaining : UInt32} (hr : 0 < remaining)
    (hp : file.position < file.fileSize) :
    1 ≤ (toCopy file remaining).toNat ∧ (toCopy file remaining).toNat ≤ remaining.toNat := by
  have hp' := UInt32.lt_iff_toNat_lt.mp hp
  have hr' : 0 < remaining.toNat := UInt32.lt_iff_toNat_lt.mp hr
  obtain ⟨w, hw, ⟨heq, -⟩ | ⟨heq, hlt⟩⟩ := toCopy_cases remaining hp
  · omega
  · omega

/-- Without overflow a turn copies the least of the three. -/
theorem toCopy_toNat {file : FsFile} (remaining : UInt32) (hp : file.position < file.fileSize)
    (hsize : file.fileSize.toNat + 512 ≤ 2 ^ 32) :
    (toCopy file remaining).toNat =
      min (512 - file.position.toNat % 512)
        (min remaining.toNat (file.fileSize.toNat - file.position.toNat)) := by
  obtain ⟨w, hw, ⟨heq, hle⟩ | ⟨heq, hlt⟩⟩ := toCopy_cases remaining hp
  · have := hle hsize
    omega
  · omega

/-- A read command that fails ends the loop. -/
theorem readTurn_fails {d : Disk} (fatCache : Option (ℕ → UInt8)) {r : ReadState}
    (h : d.fails r.reads = true) :
    ∃ buffer, readTurn d fatCache r =
      (false, { r with clusterBuffer := buffer, reads := r.reads + 1 }) := by
  obtain ⟨sectors, hs⟩ := Option.isSome_iff_exists.mp h
  refine ⟨d.transfer (clusterToLba r.file.currentCluster) (min sectors (1 - 1)) r.clusterBuffer, ?_⟩
  have hneg : (-1 : ℤ) < 0 := by decide
  simp only [readTurn, diskReadSector, diskReadSectors, hs, if_pos hneg]

/-- A read command that succeeds puts the sector in the buffer, and the turn copies from it. -/
theorem readTurn_copies {d : Disk} (fatCache : Option (ℕ → UInt8)) {r : ReadState}
    (h : d.fails r.reads = false) :
    ∃ buffer : ℕ → UInt8,
      (∀ k, k < 512 → buffer k = d.sector (clusterToLba r.file.currentCluster) k) ∧
      readTurn d fatCache r =
        let r := r.advance buffer
        if r.file.position % 512 = 0 ∧ r.file.position < r.file.fileSize then
          let next := fat12GetNext fatCache r.file.currentCluster
          if next ≥ fsClusterMax then (false, r)
          else (true, { r with file := { r.file with currentCluster := next } })
        else (true, r) := by
  have hs : d.stopsAfter r.reads = none :=
    Option.isNone_iff_eq_none.mp (Option.isSome_eq_false_iff.mp h)
  refine ⟨d.transfer (clusterToLba r.file.currentCluster) 1 r.clusterBuffer,
    fun k hk => d.transfer_one _ _ hk, ?_⟩
  have hpos : ¬ ((1 : ℕ) : ℤ) < 0 := by decide
  simp only [readTurn, diskReadSector, diskReadSectors, hs, if_neg hpos]

/-- All a turn can do, but for the choice of the next cluster: its read command fails, or it copies
    from the sector. -/
theorem readTurn_cases (d : Disk) (fatCache : Option (ℕ → UInt8)) (r : ReadState) :
    (d.fails r.reads = true ∧ ∃ buffer, readTurn d fatCache r =
      (false, { r with clusterBuffer := buffer, reads := r.reads + 1 })) ∨
    d.fails r.reads = false ∧ ∃ buffer goOn cluster, readTurn d fatCache r =
      (goOn, { r.advance buffer with
        file := { (r.advance buffer).file with currentCluster := cluster } }) := by
  cases hf : d.fails r.reads with
  | true => exact .inl ⟨rfl, readTurn_fails fatCache hf⟩
  | false =>
    obtain ⟨buffer, -, heq⟩ := readTurn_copies fatCache hf
    refine .inr ⟨rfl, buffer, ?_⟩
    rw [heq]
    dsimp only
    generalize r.advance buffer = r₁
    split
    · split
      · exact ⟨false, r₁.file.currentCluster, rfl⟩
      · exact ⟨true, fat12GetNext fatCache r₁.file.currentCluster, rfl⟩
    · exact ⟨true, r₁.file.currentCluster, rfl⟩

/-- A turn moves bytes from what remains to what has been read, some if its read command succeeds. -/
theorem readTurn_budget (d : Disk) (fatCache : Option (ℕ → UInt8)) {r : ReadState}
    (hr : 0 < r.remaining) (hp : r.file.position < r.file.fileSize) :
    (readTurn d fatCache r).2.bytesRead + (readTurn d fatCache r).2.remaining =
        r.bytesRead + r.remaining ∧
      (readTurn d fatCache r).2.remaining ≤ r.remaining ∧
      (d.fails r.reads = false → (readTurn d fatCache r).2.remaining < r.remaining) := by
  rcases readTurn_cases d fatCache r with ⟨hf, buffer, heq⟩ | ⟨hf, buffer, goOn, cluster, heq⟩
  · rw [heq, hf]
    exact ⟨rfl, UInt32.le_refl _, fun h => by cases h⟩
  · obtain ⟨hpos, hle⟩ := toCopy_pos_le hr hp
    have hless : r.remaining - toCopy r.file r.remaining < r.remaining := by
      rw [UInt32.lt_iff_toNat_lt, UInt32.toNat_sub_of_le _ _ (UInt32.le_iff_toNat_le.mpr hle)]
      omega
    rw [heq]
    refine ⟨?_, UInt32.le_of_lt hless, fun _ => hless⟩
    change r.bytesRead + toCopy r.file r.remaining + (r.remaining - toCopy r.file r.remaining) = _
    rw [UInt32.add_assoc, UInt32.add_comm (toCopy _ _), UInt32.sub_add_cancel]

/-- A turn that goes on has less left to read. -/
theorem readTurn_remaining {d : Disk} {fatCache : Option (ℕ → UInt8)} {r r' : ReadState}
    (hr : 0 < r.remaining) (hp : r.file.position < r.file.fileSize)
    (h : readTurn d fatCache r = (true, r')) : r'.remaining.toNat < r.remaining.toNat := by
  cases hf : d.fails r.reads with
  | true =>
    obtain ⟨buffer, heq⟩ := readTurn_fails fatCache hf
    rw [heq] at h
    cases h
  | false =>
    have hless := (readTurn_budget d fatCache hr hp).2.2 hf
    rw [h] at hless
    exact UInt32.lt_iff_toNat_lt.mp hless

/-- LOOP RULE: what every turn does to the variables, if it can be repeated, is what the loop does. -/
theorem readLoop_rel {d : Disk} {fatCache : Option (ℕ → UInt8)} {R : ReadState → ReadState → Prop}
    (hrefl : ∀ r, R r r) (htrans : ∀ r r₁ r₂, R r r₁ → R r₁ r₂ → R r r₂)
    (hturn : ∀ r, 0 < r.remaining → r.file.position < r.file.fileSize →
      R r (readTurn d fatCache r).2) :
    ∀ (fuel : ℕ) (r : ReadState), R r (readLoop d fatCache fuel r) := by
  intro fuel
  induction fuel with
  | zero => exact hrefl
  | succ fuel ih =>
    intro r
    rw [readLoop]
    split
    · rename_i hgo
      have hstep := hturn r hgo.1 hgo.2
      cases heq : readTurn d fatCache r with
      | mk goOn r' =>
        rw [heq] at hstep
        cases goOn with
        | false => exact hstep
        | true => exact htrans r r' _ hstep (ih r')
    · exact hrefl r

/-- TERMINATION: `count` turns are enough, so the bound on the turns cuts nothing off. -/
theorem readLoop_enough (d : Disk) (fatCache : Option (ℕ → UInt8)) :
    ∀ (fuel : ℕ) (r : ReadState), r.remaining.toNat ≤ fuel → ∀ more,
      readLoop d fatCache (fuel + more) r = readLoop d fatCache fuel r := by
  intro fuel
  induction fuel with
  | zero =>
    intro r h more
    have hdone : ¬ (0 < r.remaining ∧ r.file.position < r.file.fileSize) := by
      rintro ⟨hr, -⟩
      exact absurd (UInt32.lt_iff_toNat_lt.mp hr) (Nat.not_lt.mpr h)
    cases more with
    | zero => rfl
    | succ more =>
      change readLoop d fatCache (0 + (more + 1)) r = r
      rw [Nat.zero_add, readLoop, if_neg hdone]
  | succ fuel ih =>
    intro r h more
    rw [Nat.add_right_comm, readLoop, readLoop]
    split
    · rename_i hgo
      cases hturn : readTurn d fatCache r with
      | mk goOn r' =>
        cases goOn with
        | false => rfl
        | true =>
          have hless := readTurn_remaining hgo.1 hgo.2 hturn
          exact ih r' (by omega) more
    · rfl

/-! ### A chain under the file -/

/-- The stream that the sectors of the clusters `cl 0, cl 1, …` spell. -/
def stream (d : Disk) (cl : ℕ → UInt32) : ℕ → UInt8 :=
  blockwise 512 fun j => d.sector (clusterToLba (cl j))

/-- The clusters `cl 0, …, cl (limit - 1)` are linked in the FAT, and the chain is over after them
    if they do not cover a file of `size` bytes. -/
structure Linked (fatCache : Option (ℕ → UInt8)) (cl : ℕ → UInt32) (limit size : ℕ) : Prop where
  link : ∀ j, j + 1 < limit → fat12GetNext fatCache (cl j) = cl (j + 1)
  inner : ∀ j, j + 1 < limit → cl (j + 1) < fsClusterMax
  last : ∀ j, j + 1 = limit → 512 * limit < size →
    fsClusterMax ≤ fat12GetNext fatCache (cl j)

/-- How far the chain and the size let a reader get. -/
def readable (limit : ℕ) (file : FsFile) : ℕ := min file.fileSize.toNat (512 * limit)

/-- The loop invariant: the current cluster is the one that holds the position. -/
structure OnChain (cl : ℕ → UInt32) (limit : ℕ) (file : FsFile) : Prop where
  small : file.fileSize.toNat + 512 ≤ 2 ^ 32
  bound : file.position.toNat ≤ readable limit file
  cluster : file.position.toNat < readable limit file →
    file.currentCluster = cl (file.position.toNat / 512)

/-- Part of the loop has copied `j` bytes of the stream. -/
structure Copies (d : Disk) (cl : ℕ → UInt32) (limit : ℕ) (r r' : ReadState) (j : ℕ) : Prop where
  out : r'.out = r.out ++ stretch (stream d cl) r.file.position.toNat j
  bytesRead : r'.bytesRead = r.bytesRead + UInt32.ofNat j
  position : r'.file.position.toNat = r.file.position.toNat + j
  file : r'.file = { r.file with
    position := r'.file.position, currentCluster := r'.file.currentCluster }
  reads : r.reads ≤ r'.reads
  within : j ≤ min r.remaining.toNat (readable limit r.file - r.file.position.toNat)

/-- … and it was all there is to copy, unless a read command failed on the way. -/
structure ReadsOn (d : Disk) (cl : ℕ → UInt32) (limit : ℕ) (r r' : ReadState) (j : ℕ) : Prop
    extends Copies d cl limit r r' j where
  complete : (∀ k, r.reads ≤ k → k < r'.reads → d.fails k = false) →
    j = min r.remaining.toNat (readable limit r.file - r.file.position.toNat)

section
variable {d : Disk} {cl : ℕ → UInt32} {limit : ℕ} {r r₁ r' : ReadState} {j k : ℕ}

/-- A loop that has nothing to copy. -/
theorem ReadsOn.refl
    (h : min r.remaining.toNat (readable limit r.file - r.file.position.toNat) = 0) :
    ReadsOn d cl limit r r 0 where
  out := by simp
  bytesRead := (UInt32.add_zero _).symm
  position := rfl
  file := rfl
  reads := le_rfl
  within := Nat.zero_le _
  complete _ := h.symm

theorem Copies.readable_eq (h : Copies d cl limit r r' j) :
    readable limit r'.file = readable limit r.file := by
  rw [h.file]
  rfl

/-- A turn that copies `k` bytes, then the rest of the loop. -/
theorem Copies.then (hk : Copies d cl limit r r₁ k)
    (hrem : r₁.remaining.toNat = r.remaining.toNat - k) (hreads : r₁.reads = r.reads + 1)
    (hj : ReadsOn d cl limit r₁ r' j) : ReadsOn d cl limit r r' (k + j) := by
  have hsum : j + k ≤ min r.remaining.toNat (readable limit r.file - r.file.position.toNat) := by
    have h1 := hk.within
    have h2 := hj.within
    rw [hk.readable_eq, hk.position, hrem] at h2
    omega
  constructor
  · constructor
    · rw [hj.out, hk.out, hk.position, List.append_assoc, stretch_append]
    · rw [hj.bytesRead, hk.bytesRead, UInt32.add_assoc, UInt32.ofNat_add]
    · rw [hj.position, hk.position, Nat.add_assoc]
    · rw [hj.file, hk.file]
    · exact hk.reads.trans hj.reads
    · omega
  · intro hok
    have h2 := hj.complete fun i hi hi' => hok i (by omega) hi'
    rw [hk.readable_eq, hk.position, hrem] at h2
    omega

end

@[simp] theorem advance_currentCluster (r : ReadState) (buffer : ℕ → UInt8) :
    (r.advance buffer).file.currentCluster = r.file.currentCluster := by
  simp only [ReadState.advance]

theorem advance_reads (r : ReadState) (buffer : ℕ → UInt8) :
    (r.advance buffer).reads = r.reads + 1 := by
  simp only [ReadState.advance]

theorem advance_file (r : ReadState) (buffer : ℕ → UInt8) :
    (r.advance buffer).file = { r.file with
      position := (r.advance buffer).file.position,
      currentCluster := (r.advance buffer).file.currentCluster } := by
  simp only [ReadState.advance]

/-- A turn has copied `k` bytes from the cluster that holds the position, as many as the sector, the
    request and the chain allow, and has not yet looked for the next cluster. -/
structure Advanced (d : Disk) (cl : ℕ → UInt32) (limit : ℕ) (r r₁ : ReadState) (k : ℕ) : Prop
    extends Copies d cl limit r r₁ k where
  amount : k = min (512 - r.file.position.toNat % 512)
    (min r.remaining.toNat (readable limit r.file - r.file.position.toNat))
  remaining : r₁.remaining.toNat = r.remaining.toNat - k
  nextRead : r₁.reads = r.reads + 1
  cluster : r₁.file.currentCluster = cl (r.file.position.toNat / 512)

/-- On a chain a turn copies as far as the sector, the request and the chain go. -/
theorem toCopy_onChain {cl : ℕ → UInt32} {limit : ℕ} {r : ReadState}
    (h : OnChain cl limit r.file) (hp : r.file.position < r.file.fileSize)
    (hlt : r.file.position.toNat < readable limit r.file) :
    (toCopy r.file r.remaining).toNat = min (512 - r.file.position.toNat % 512)
      (min r.remaining.toNat (readable limit r.file - r.file.position.toNat)) := by
  rw [toCopy_toNat r.remaining hp h.small]
  unfold readable at hlt ⊢
  rcases Nat.le_total r.file.fileSize.toNat (512 * limit) with hcover | hshort
  · rw [Nat.min_eq_left hcover]
  · -- the chain ends before the file, and not inside the sector
    rw [Nat.min_eq_right hshort] at hlt ⊢
    have hchain : 512 - r.file.position.toNat % 512 ≤ 512 * limit - r.file.position.toNat := by
      omega
    have hfile := hchain.trans (Nat.sub_le_sub_right hshort r.file.position.toNat)
    rw [min_left_comm, min_eq_left hfile, min_left_comm _ r.remaining.toNat, min_eq_left hchain]

/-- The copy of one turn, on a chain. -/
theorem advance_spec {d : Disk} {cl : ℕ → UInt32} {limit : ℕ} {r : ReadState}
    (h : OnChain cl limit r.file) (hp : r.file.position < r.file.fileSize)
    (hlt : r.file.position.toNat < readable limit r.file) {buffer : ℕ → UInt8}
    (hbuf : ∀ k, k < 512 → buffer k = d.sector (clusterToLba r.file.currentCluster) k) :
    ∃ k, Advanced d cl limit r (r.advance buffer) k := by
  have hk := toCopy_onChain h hp hlt
  have hsmall := h.small
  have hsize : readable limit r.file ≤ r.file.fileSize.toNat := Nat.min_le_left ..
  have hpos : (r.file.position % 512).toNat = r.file.position.toNat % 512 := UInt32.toNat_mod ..
  refine ⟨(toCopy r.file r.remaining).toNat, ⟨?_, ?_, ?_, advance_file r buffer, ?_, ?_⟩, hk, ?_,
    advance_reads r buffer, (advance_currentCluster r buffer).trans (h.cluster hlt)⟩
  · have hblock : stretch (stream d cl) r.file.position.toNat (toCopy r.file r.remaining).toNat =
        stretch (d.sector (clusterToLba r.file.currentCluster)) (r.file.position.toNat % 512)
          (toCopy r.file r.remaining).toNat := by
      rw [h.cluster hlt]
      exact stretch_in_block _ (by omega)
    rw [hblock]
    change r.out ++ stretch buffer (r.file.position % 512).toNat _ = _
    rw [hpos]
    refine congrArg (r.out ++ ·) (stretch_congr fun i hi => hbuf _ ?_)
    omega
  · rw [UInt32.ofNat_toNat]
    rfl
  · change (r.file.position + toCopy r.file r.remaining).toNat = _
    rw [UInt32.toNat_add]
    exact Nat.mod_eq_of_lt (by omega)
  · exact (Nat.le_succ _).trans_eq (advance_reads r buffer).symm
  · omega
  · exact UInt32.toNat_sub_of_le _ _ (UInt32.le_iff_toNat_le.mpr (by omega))

section
variable {d : Disk} {cl : ℕ → UInt32} {limit : ℕ} {r r₁ : ReadState} {k : ℕ}

theorem Advanced.fileSize_eq (ha : Advanced d cl limit r r₁ k) :
    r₁.file.fileSize = r.file.fileSize := by rw [ha.file]

theorem Advanced.position_mod (ha : Advanced d cl limit r r₁ k) :
    r₁.file.position % 512 = 0 ↔ (r.file.position.toNat + k) % 512 = 0 := by
  rw [← UInt32.toNat_inj, UInt32.toNat_mod, ha.position]
  rfl

/-- A turn that uses the sector up ends where the next one starts. -/
theorem Advanced.at_edge (ha : Advanced d cl limit r r₁ k) (hr : 0 < r.remaining.toNat)
    (hlt : r.file.position.toNat < readable limit r.file) (hedge : r₁.file.position % 512 = 0) :
    r.file.position.toNat + k = 512 * (r.file.position.toNat / 512 + 1) := by
  have hzero := ha.position_mod.mp hedge
  have hamount := ha.amount
  omega

/-- At the edge, with a cluster to go on to. -/
theorem Advanced.next_cluster (ha : Advanced d cl limit r r₁ k) (h : OnChain cl limit r.file)
    (hend : r.file.position.toNat + k = 512 * (r.file.position.toNat / 512 + 1))
    (hmore : r₁.file.position < r₁.file.fileSize)
    (hlast : r.file.position.toNat / 512 + 1 < limit) :
    r₁.file.position.toNat < readable limit r₁.file ∧
      OnChain cl limit
        { r₁.file with currentCluster := cl (r.file.position.toNat / 512 + 1) } := by
  have hin : r₁.file.position.toNat < readable limit r₁.file := by
    refine Nat.lt_min.mpr ⟨UInt32.lt_iff_toNat_lt.mp hmore, ?_⟩
    rw [ha.position, hend]
    omega
  refine ⟨hin, ?_, Nat.le_of_lt hin, fun _ => ?_⟩
  · rw [ha.fileSize_eq]
    exact h.small
  · change cl _ = cl (r₁.file.position.toNat / 512)
    rw [ha.position, hend, Nat.mul_div_cancel_left _ (by decide)]

/-- At the edge of the last cluster of a chain that does not cover the file. -/
theorem Advanced.chain_over (ha : Advanced d cl limit r r₁ k) (h : OnChain cl limit r.file)
    (hlt : r.file.position.toNat < readable limit r.file)
    (hend : r.file.position.toNat + k = 512 * (r.file.position.toNat / 512 + 1))
    (hmore : r₁.file.position < r₁.file.fileSize)
    (hlast : ¬ r.file.position.toNat / 512 + 1 < limit) :
    r.file.position.toNat / 512 + 1 = limit ∧ 512 * limit < r.file.fileSize.toNat ∧
      readable limit r.file = r.file.position.toNat + k ∧ OnChain cl limit r₁.file := by
  have hsize := UInt32.lt_iff_toNat_lt.mp hmore
  rw [ha.position, ha.fileSize_eq] at hsize
  have hread : readable limit r.file = min r.file.fileSize.toNat (512 * limit) := rfl
  have hlimit : r.file.position.toNat / 512 + 1 = limit := by omega
  have hall : readable limit r.file = r.file.position.toNat + k := by omega
  refine ⟨hlimit, by omega, hall, ?_, ?_, fun hlt' => ?_⟩
  · rw [ha.fileSize_eq]
    exact h.small
  · rw [ha.position, ha.readable_eq, hall]
  · rw [ha.position, ha.readable_eq, hall] at hlt'
    exact absurd hlt' (Nat.lt_irrefl _)

/-- Away from an edge the cluster stays. -/
theorem Advanced.same_cluster (ha : Advanced d cl limit r r₁ k) (h : OnChain cl limit r.file)
    (hlt : r.file.position.toNat < readable limit r.file)
    (hedge : ¬ (r₁.file.position % 512 = 0 ∧ r₁.file.position < r₁.file.fileSize)) :
    (r₁.file.position < r₁.file.fileSize → r₁.file.position.toNat < readable limit r₁.file) ∧
      OnChain cl limit r₁.file := by
  have hamount := ha.amount
  have hread : readable limit r.file = min r.file.fileSize.toNat (512 * limit) := rfl
  have hin : r₁.file.position < r₁.file.fileSize →
      (r.file.position.toNat + k) / 512 = r.file.position.toNat / 512 ∧
        r.file.position.toNat + k < readable limit r.file := by
    intro hmore
    have hinside : (r.file.position.toNat + k) % 512 ≠ 0 :=
      fun hzero => hedge ⟨ha.position_mod.mpr hzero, hmore⟩
    have hsize := UInt32.lt_iff_toNat_lt.mp hmore
    rw [ha.position, ha.fileSize_eq] at hsize
    omega
  refine ⟨fun hmore => ?_, ?_, ?_, fun hlt' => ?_⟩
  · rw [ha.position, ha.readable_eq]
    exact (hin hmore).2
  · rw [ha.fileSize_eq]
    exact h.small
  · rw [ha.position, ha.readable_eq]
    omega
  · have hmore : r₁.file.position < r₁.file.fileSize :=
      UInt32.lt_iff_toNat_lt.mpr (lt_of_lt_of_le hlt' (Nat.min_le_left ..))
    rw [ha.cluster, ha.position, (hin hmore).1]

end

/-- One turn on a chain. It goes on with the invariant and less to read, or it leaves the loop: at
    the end of the chain, with all the chain has, or at a failing read command. -/
theorem readTurn_spec (d : Disk) {fatCache : Option (ℕ → UInt8)} {cl : ℕ → UInt32} {limit : ℕ}
    {r : ReadState} (hl : Linked fatCache cl limit r.file.fileSize.toNat)
    (h : OnChain cl limit r.file) (hr : 0 < r.remaining)
    (hp : r.file.position < r.file.fileSize)
    (hlt : r.file.position.toNat < readable limit r.file) :
    (∃ r' k, readTurn d fatCache r = (true, r') ∧ OnChain cl limit r'.file ∧
      (r'.file.position < r'.file.fileSize →
        r'.file.position.toNat < readable limit r'.file) ∧
      r'.remaining.toNat = r.remaining.toNat - k ∧ r'.reads = r.reads + 1 ∧
      Copies d cl limit r r' k) ∨
    (∃ r' k, readTurn d fatCache r = (false, r') ∧ OnChain cl limit r'.file ∧
      ReadsOn d cl limit r r' k) := by
  cases hf : d.fails r.reads with
  | true =>
    obtain ⟨buffer, heq⟩ := readTurn_fails fatCache hf
    refine .inr ⟨_, 0, heq, h, ?_⟩
    refine ⟨⟨by simp, (UInt32.add_zero _).symm, rfl, rfl, Nat.le_succ _, Nat.zero_le _⟩, ?_⟩
    intro hok
    have hbad := hok r.reads le_rfl (Nat.lt_succ_self _)
    rw [hf] at hbad
    cases hbad
  | false =>
    obtain ⟨buffer, hbuf, heq⟩ := readTurn_copies fatCache hf
    obtain ⟨k, ha⟩ := advance_spec h hp hlt hbuf
    dsimp only at heq
    generalize r.advance buffer = r₁ at heq ha
    rw [ha.cluster] at heq
    by_cases hedge : r₁.file.position % 512 = 0 ∧ r₁.file.position < r₁.file.fileSize
    · -- the sector is used up and the file goes on
      have hend := ha.at_edge (UInt32.lt_iff_toNat_lt.mp hr) hlt hedge.1
      rw [if_pos hedge] at heq
      by_cases hlast : r.file.position.toNat / 512 + 1 < limit
      · obtain ⟨hin, hon⟩ := ha.next_cluster h hend hedge.2 hlast
        rw [hl.link _ hlast, if_neg (UInt32.not_le.mpr (hl.inner _ hlast))] at heq
        refine .inl ⟨_, k, heq, hon, fun _ => hin, ha.remaining, ha.nextRead, ?_⟩
        exact ⟨ha.out, ha.bytesRead, ha.position, by rw [ha.file], ha.reads, ha.within⟩
      · obtain ⟨hlimit, hover, hall, hon⟩ := ha.chain_over h hlt hend hedge.2 hlast
        rw [if_pos (hl.last _ hlimit hover)] at heq
        refine .inr ⟨_, k, heq, hon, ha.toCopies, fun _ => ?_⟩
        have hwithin := ha.within
        omega
    · -- the same sector goes on, or the file is over
      obtain ⟨hin, hon⟩ := ha.same_cluster h hlt hedge
      rw [if_neg hedge] at heq
      exact .inl ⟨_, k, heq, hon, hin, ha.remaining, ha.nextRead, ha.toCopies⟩

/-- CORRECT: on a chain, the loop copies the stream from the position on, as far as request, file
    and chain go, and leaves the current cluster at the position it has reached. -/
theorem readLoop_spec {d : Disk} {fatCache : Option (ℕ → UInt8)} {cl : ℕ → UInt32} {limit : ℕ} :
    ∀ (fuel : ℕ) (r : ReadState), r.remaining.toNat ≤ fuel →
      Linked fatCache cl limit r.file.fileSize.toNat → OnChain cl limit r.file →
      (r.file.position < r.file.fileSize → r.file.position.toNat < readable limit r.file) →
      ∃ j, ReadsOn d cl limit r (readLoop d fatCache fuel r) j ∧
        OnChain cl limit (readLoop d fatCache fuel r).file := by
  intro fuel
  induction fuel with
  | zero =>
    intro r hfuel _ h _
    exact ⟨0, ReadsOn.refl (by omega), h⟩
  | succ fuel ih =>
    intro r hfuel hl h hin
    rw [readLoop]
    by_cases hgo : 0 < r.remaining ∧ r.file.position < r.file.fileSize
    · rw [if_pos hgo]
      rcases readTurn_spec d hl h hgo.1 hgo.2 (hin hgo.2) with
        ⟨r₁, k, heq, h₁, hin₁, hrem, hreads, hcopies⟩ | ⟨r₁, k, heq, h₁, hall⟩
      · have hl₁ : Linked fatCache cl limit r₁.file.fileSize.toNat := by
          rw [hcopies.file]
          exact hl
        have hless := readTurn_remaining hgo.1 hgo.2 heq
        obtain ⟨j, hj, hj'⟩ := ih r₁ (by omega) hl₁ h₁ hin₁
        rw [heq]
        exact ⟨k + j, hcopies.then hrem hreads hj, hj'⟩
      · rw [heq]
        exact ⟨k, hall, h₁⟩
    · rw [if_neg hgo]
      refine ⟨0, ReadsOn.refl ?_, h⟩
      have hbound := h.bound
      have hle : readable limit r.file ≤ r.file.fileSize.toNat := Nat.min_le_left ..
      rcases Decidable.not_and_iff_or_not.mp hgo with hr | hp
      · have := UInt32.le_iff_toNat_le.mp (UInt32.not_lt.mp hr)
        rw [Nat.le_zero.mp this, Nat.zero_min]
      · have := UInt32.le_iff_toNat_le.mp (UInt32.not_lt.mp hp)
        omega

end VlsOs.Fs
