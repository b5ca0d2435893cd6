import VlsOs.Kernel.Filesystem
import VlsOs.Schemes.Nibbles
import VlsOs.Schemes.Trace

/-! The FAT as a table of 12-bit cells (`kernel/filesystem.c`).

    Entry `c` of the FAT is the three nibbles from nibble `3 * c` on. `fat12_get_next` and
    `fat12_set_next` get at it through the 16-bit word at byte `c + c / 2`, so an even entry shares its
    second byte with the next one, and an odd entry its first with the one before. The accesses to the
    cache are events.

        byte     3k      3k+1    3k+2
                │ 0   1 │ 2   3 │ 4   5 │ nibbles 6k + …
        entry    └── 2k ──┘ └── 2k+1 ──┘

    The sum `c + c / 2` is one of 32 bits. From `0xAAAAAAAB` on it starts over at byte 0, one nibble
    off the entries. -/

namespace VlsOs.Fat
open Patterns Patterns.Trace Patterns.Nibbles VlsOs.Libc VlsOs.Fs

/-! ### The accesses -/

/-- The cache has `FS_SECTORS_PER_FAT * FS_BYTES_PER_SECTOR` bytes. -/
def FatAccess.Inside : FatAccess → Prop
  | .read offset => offset < 9 * 512
  | .write offset => offset < 9 * 512

/-- The cache after an assignment to that word. -/
def storeWord (fat : ℕ → UInt8) (offset : ℕ) (value : UInt16) : Traced FatAccess (ℕ → UInt8) := do
  emit (.write offset)
  emit (.write (offset + 1))
  return Function.update (Function.update fat offset value.toUInt8) (offset + 1) (value >>> 8).toUInt8

/-- `fat12_set_next`: the cache after it. -/
def fat12SetNext (fatCache : Option (ℕ → UInt8)) (cluster next : UInt32) :
    Traced FatAccess (Option (ℕ → UInt8)) :=
  match fatCache with
  | none => return none
  | some fat => do
    let fatOffset := cluster + cluster / 2
    if cluster &&& 1 ≠ 0 then
      let old ← loadWord fat fatOffset.toNat
      let value := (old.toUInt32 &&& 0x000F) ||| ((next &&& 0xFFF) <<< (4 : UInt32))
      let fat ← storeWord fat fatOffset.toNat value.toUInt16
      return some fat
    else
      let old ← loadWord fat fatOffset.toNat
      let value := (old.toUInt32 &&& 0xF000) ||| (next &&& 0xFFF)
      let fat ← storeWord fat fatOffset.toNat value.toUInt16
      return some fat

def fsGetNextCluster (s : FsState) (cluster : UInt32) : Traced FatAccess UInt32 :=
  fat12GetNext s.fatCache cluster

/-! ### Words and nibbles -/

/-- The entry of a cluster: three nibbles. -/
def entry (fat : ℕ → UInt8) (c : ℕ) : ℕ := number fat (3 * c) 3

theorem word16_toNat (fat : ℕ → UInt8) (o : ℕ) : (word16 fat o).toNat = number fat (2 * o) 4 := by
  have hlow := (fat o).toNat_lt
  have hhigh := (fat (o + 1)).toNat_lt
  have hword : (word16 fat o).toNat = (fat o).toNat + 256 * (fat (o + 1)).toNat := by
    have hup : ((fat (o + 1)).toUInt16 <<< 8).toNat = (fat (o + 1)).toNat <<< 8 := by
      rw [UInt16.toNat_shiftLeft, UInt8.toNat_toUInt16]
      refine Nat.mod_eq_of_lt ?_
      change (fat (o + 1)).toNat <<< 8 < 65536
      rw [Nat.shiftLeft_eq]
      omega
    rw [word16, UInt16.toNat_or, hup, UInt8.toNat_toUInt16, Nat.or_comm,
      ← Nat.shiftLeft_add_eq_or_of_lt (by omega), Nat.shiftLeft_eq]
    omega
  rw [hword, toNat_eq_nibbles, toNat_eq_nibbles]
  simp only [number_succ, number_zero, Nat.mul_add, Nat.mul_one, Nat.add_zero, Nat.add_assoc,
    Nat.reduceAdd]
  omega

theorem toNat_and_mask (x : UInt32) : (x &&& 0xFFF).toNat = x.toNat % 4096 := by
  rw [UInt32.toNat_and]
  exact Nat.and_two_pow_sub_one_eq_mod x.toNat 12

theorem odd_iff (c : UInt32) : c &&& 1 ≠ 0 ↔ c.toNat % 2 = 1 := by
  have hmask : (c &&& 1).toNat = c.toNat % 2 := by
    rw [UInt32.toNat_and]
    exact Nat.and_two_pow_sub_one_eq_mod c.toNat 1
  rw [ne_eq, ← UInt32.toNat_inj, hmask]
  change ¬ c.toNat % 2 = 0 ↔ _
  omega

/-- The byte and the parity give the nibble: that of the entry, but for a sum that wraps. -/
theorem offset_nibble (c : UInt32) :
    2 * (c + c / 2).toNat + c.toNat % 2 = 3 * c.toNat % 2 ^ 33 := by
  have hc := c.toNat_lt
  have hhalf : (c / 2).toNat = c.toNat / 2 := UInt32.toNat_div ..
  rw [UInt32.toNat_add, hhalf]
  omega

/-- SPEC of `fat12_get_next`, below the bound that it tests. -/
theorem getNext_toNat (fat : ℕ → UInt8) {c : UInt32} (h : (c + c / 2).toNat < 9 * 512) :
    (fat12GetNext (some fat) c).val.toNat = number fat (3 * c.toNat % 2 ^ 33) 3 := by
  have hin : ¬ c + c / 2 ≥ 9 * 512 := by
    rw [ge_iff_le, UInt32.not_le, UInt32.lt_iff_toNat_lt]
    exact h
  have hword := word16_toNat fat (c + c / 2).toNat
  rw [← offset_nibble, fat12GetNext_val hin]
  split
  · rename_i hodd
    have hshift : ((word16 fat (c + c / 2).toNat).toUInt32 >>> 4).toNat =
        (word16 fat (c + c / 2).toNat).toNat / 16 := by
      rw [UInt32.toNat_shiftRight, UInt16.toNat_toUInt32]
      exact Nat.shiftRight_eq_div_pow _ 4
    have hlow := nibble_lt fat (2 * (c + c / 2).toNat)
    have hlt := number_lt fat (2 * (c + c / 2).toNat + 1) 3
    rw [number_cons] at hword
    rw [toNat_and_mask, hshift, (odd_iff c).mp hodd]
    omega
  · rename_i heven
    have hpar : c.toNat % 2 = 0 := by
      have := mt (odd_iff c).mpr heven
      omega
    have hlt := number_lt fat (2 * (c + c / 2).toNat) 3
    rw [number_succ] at hword
    rw [toNat_and_mask, UInt16.toNat_toUInt32, hpar, Nat.add_zero]
    omega

/-! ### A write -/

theorem written_storeWord (fat : ℕ → UInt8) (o : ℕ) (v : UInt16) :
    Written fat (storeWord fat o v).val (2 * o) 4 v.toNat := by
  intro m
  have hval : nibble (storeWord fat o v).val m =
      (Function.update (Function.update fat o v.toUInt8) (o + 1) (v >>> 8).toUInt8 (m / 2)).toNat /
        16 ^ (m % 2) % 16 := rfl
  rw [hval]
  rcases eq_or_ne (m / 2) o with hlow | hlow
  · rw [hlow, Function.update_of_ne (by omega), Function.update_self, UInt16.toNat_toUInt8,
      if_pos (by omega)]
    rcases Nat.mod_two_eq_zero_or_one m with hm | hm
    · rw [hm, show m - 2 * o = 0 by omega]
      omega
    · rw [hm, show m - 2 * o = 1 by omega]
      omega
  · rcases eq_or_ne (m / 2) (o + 1) with hhigh | hhigh
    · rw [hhigh, Function.update_self, toNat_high_byte, if_pos (by omega)]
      rcases Nat.mod_two_eq_zero_or_one m with hm | hm
      · rw [hm, show m - 2 * o = 2 by omega]
        omega
      · rw [hm, show m - 2 * o = 3 by omega]
        omega
    · rw [Function.update_of_ne hhigh, Function.update_of_ne hlow, if_neg (by omega)]
      rfl

/-- The word that is stored for an odd cluster: the low nibble stays. -/
theorem odd_word (old : UInt16) (v : UInt32) :
    ((old.toUInt32 &&& 0x000F) ||| ((v &&& 0xFFF) <<< (4 : UInt32))).toUInt16.toNat =
      old.toNat % 16 + 16 * (v.toNat % 4096) := by
  have hlow : (old.toUInt32 &&& 0x000F).toNat = old.toNat % 16 := by
    rw [UInt32.toNat_and, UInt16.toNat_toUInt32]
    exact Nat.and_two_pow_sub_one_eq_mod old.toNat 4
  have hhigh : ((v &&& 0xFFF) <<< (4 : UInt32)).toNat = (v.toNat % 4096) <<< 4 := by
    rw [UInt32.toNat_shiftLeft, toNat_and_mask]
    refine Nat.mod_eq_of_lt ?_
    change (v.toNat % 4096) <<< 4 < 2 ^ 32
    rw [Nat.shiftLeft_eq]
    omega
  rw [UInt32.toNat_toUInt16, UInt32.toNat_or, hlow, hhigh, Nat.or_comm,
    ← Nat.shiftLeft_add_eq_or_of_lt (by omega), Nat.shiftLeft_eq]
  omega

/-- The word that is stored for an even cluster: the high nibble stays. -/
theorem even_word (old : UInt16) (v : UInt32) :
    ((old.toUInt32 &&& 0xF000) ||| (v &&& 0xFFF)).toUInt16.toNat =
      v.toNat % 4096 + 4096 * (old.toNat / 4096) := by
  have hold := old.toNat_lt
  have hhigh : (old.toUInt32 &&& 0xF000).toNat = (old.toNat / 4096) <<< 12 := by
    have hdiv : (old.toNat &&& 0xF000) / 2 ^ 12 = old.toNat / 2 ^ 12 % 2 ^ 4 :=
      Nat.and_div_two_pow.trans (Nat.and_two_pow_sub_one_eq_mod _ 4)
    have hmod : (old.toNat &&& 0xF000) % 2 ^ 12 = 0 :=
      Nat.and_mod_two_pow.trans (Nat.and_zero _)
    rw [UInt32.toNat_and, UInt16.toNat_toUInt32, Nat.shiftLeft_eq]
    change old.toNat &&& 0xF000 = _
    omega
  rw [UInt32.toNat_toUInt16, UInt32.toNat_or, hhigh, toNat_and_mask,
    ← Nat.shiftLeft_add_eq_or_of_lt (by omega), Nat.shiftLeft_eq]
  omega

/-- SPEC of `fat12_set_next`: it writes the nibbles of the entry and no others. -/
theorem setNext_written (fat : ℕ → UInt8) (c v : UInt32) : ∃ fat',
    (fat12SetNext (some fat) c v).val = some fat' ∧
      Written fat fat' (3 * c.toNat % 2 ^ 33) 3 v.toNat := by
  have hold := word16_toNat fat (c + c / 2).toNat
  rw [← offset_nibble]
  by_cases hodd : c &&& 1 ≠ 0
  · refine ⟨_, by simp only [fat12SetNext, if_pos hodd]; rfl, ?_⟩
    have hstore := written_storeWord fat (c + c / 2).toNat
      ((((word16 fat (c + c / 2).toNat).toUInt32 &&& 0x000F) |||
        ((v &&& 0xFFF) <<< (4 : UInt32))).toUInt16)
    have hlow := nibble_lt fat (2 * (c + c / 2).toNat)
    rw [number_cons] at hold
    rw [odd_word] at hstore
    rw [(odd_iff c).mp hodd]
    refine hstore.inner (by decide) (fun i hi => ?_) fun i hi hout => ?_
    · interval_cases i <;> omega
    · obtain rfl : i = 0 := by omega
      rw [Nat.add_zero]
      omega
  · have hpar : c.toNat % 2 = 0 := by
      have := mt (odd_iff c).mpr hodd
      omega
    refine ⟨_, by simp only [fat12SetNext, if_neg hodd]; rfl, ?_⟩
    have hstore := written_storeWord fat (c + c / 2).toNat
      (((word16 fat (c + c / 2).toNat).toUInt32 &&& 0xF000) ||| (v &&& 0xFFF)).toUInt16
    have hlt := number_lt fat (2 * (c + c / 2).toNat) 3
    have htop := nibble_lt fat (2 * (c + c / 2).toNat + 3)
    rw [number_succ] at hold
    rw [even_word] at hstore
    rw [hpar]
    refine hstore.inner (by decide) (fun i hi => ?_) fun i hi hout => ?_
    · interval_cases i <;> omega
    · obtain rfl : i = 3 := by omega
      omega

/-! ### Inside the cache -/

/-- An offset at or past the bound ends `fat12_get_next` without an access. -/
theorem getNext_past (fat : ℕ → UInt8) {c : UInt32} (h : 9 * 512 ≤ (c + c / 2).toNat) :
    fat12GetNext (some fat) c = return fsClusterEof := by
  have hout : c + c / 2 ≥ 9 * 512 := UInt32.le_iff_toNat_le.mpr h
  rw [fat12GetNext, if_pos hout]

/-- EXACT: the test looks at the first byte only, so the offset of the last byte gets past it. -/
theorem getNext_inside_iff (fat : ℕ → UInt8) (c : UInt32) :
    All FatAccess.Inside (fat12GetNext (some fat) c) ↔ (c + c / 2).toNat ≠ 4607 := by
  rcases Nat.lt_or_ge (c + c / 2).toNat (9 * 512) with hin | hout
  · have htest : ¬ c + c / 2 ≥ 9 * 512 := by
      rw [ge_iff_le, UInt32.not_le, UInt32.lt_iff_toNat_lt]
      exact hin
    have hword : All FatAccess.Inside (loadWord fat (c + c / 2).toNat) ↔
        (c + c / 2).toNat + 1 < 9 * 512 := by
      simp only [loadWord, all_bind, all_emit, all_pure, and_true, FatAccess.Inside]
      omega
    simp only [fat12GetNext, if_neg htest, all_bind, hword]
    split
    · simp only [all_pure, and_true]
      omega
    · simp only [all_pure, and_true]
      omega
  · rw [getNext_past fat hout]
    exact iff_of_true (all_pure _ _) (by omega)

theorem setNext_inside (fat : ℕ → UInt8) {c : UInt32} (v : UInt32)
    (h : (c + c / 2).toNat + 1 < 9 * 512) :
    All FatAccess.Inside (fat12SetNext (some fat) c v) := by
  have hload : All FatAccess.Inside (loadWord fat (c + c / 2).toNat) := by
    simp only [loadWord, all_bind, all_emit, all_pure, and_true, FatAccess.Inside]
    omega
  have hstore : ∀ value, All FatAccess.Inside (storeWord fat (c + c / 2).toNat value) := by
    intro value
    simp only [storeWord, all_bind, all_emit, all_pure, and_true, FatAccess.Inside]
    omega
  simp only [fat12SetNext]
  split
  · simp only [all_bind, all_pure, and_true]
    exact ⟨hload, hstore _⟩
  · simp only [all_bind, all_pure, and_true]
    exact ⟨hload, hstore _⟩

/-! ### The table -/

/-- The clusters that have an entry in the cache. -/
theorem entry_bounds {c : UInt32} (hc : c ≤ 3071) :
    3 * c.toNat % 2 ^ 33 = 3 * c.toNat ∧ (c + c / 2).toNat + 1 < 9 * 512 := by
  have hc' : c.toNat ≤ 3071 := UInt32.le_iff_toNat_le.mp hc
  have hoff := offset_nibble c
  omega

/-- REFINEMENT: on these clusters `fat12_get_next` reads the table of entries, … -/
theorem getNext_entry (fat : ℕ → UInt8) {c : UInt32} (hc : c ≤ 3071) :
    (fat12GetNext (some fat) c).val.toNat = entry fat c.toNat := by
  obtain ⟨hnib, hin⟩ := entry_bounds hc
  rw [getNext_toNat fat (by omega), hnib, entry]

/-- … and `fat12_set_next` updates it. -/
theorem setNext_entry (fat : ℕ → UInt8) {c : UInt32} (hc : c ≤ 3071) (v : UInt32) : ∃ fat',
    (fat12SetNext (some fat) c v).val = some fat' ∧
      entry fat' = Function.update (entry fat) c.toNat (v.toNat % 4096) := by
  obtain ⟨fat', hset, hwritten⟩ := setNext_written fat c v
  rw [(entry_bounds hc).1] at hwritten
  refine ⟨fat', hset, funext fun d => ?_⟩
  rcases eq_or_ne d c.toNat with rfl | hne
  · rw [Function.update_self]
    exact hwritten.number_self
  · rw [Function.update_of_ne hne]
    exact hwritten.number_beside (by omega)

/-- CORRECT: after `fat12_set_next` on a cluster of the cache, `fat12_get_next` returns there the low
    12 bits of what was set and elsewhere what it returned before; and neither touches a byte outside
    the cache. -/
theorem fat_entries_independent (fat : ℕ → UInt8) {c : UInt32} (hc : c ≤ 3071) (v : UInt32) :
    ∃ fat', (fat12SetNext (some fat) c v).val = some fat' ∧
      (fat12GetNext (some fat') c).val = v % 4096 ∧
      (∀ d ≤ 3071, d ≠ c → (fat12GetNext (some fat') d).val = (fat12GetNext (some fat) d).val) ∧
      All FatAccess.Inside (fat12SetNext (some fat) c v) ∧
      ∀ d ≤ 3071, All FatAccess.Inside (fat12GetNext (some fat) d) := by
  obtain ⟨fat', hset, hentry⟩ := setNext_entry fat hc v
  refine ⟨fat', hset, ?_, fun d hd hne => ?_, setNext_inside fat v (entry_bounds hc).2, fun d hd => ?_⟩
  · rw [← UInt32.toNat_inj, getNext_entry fat' hc, hentry, Function.update_self, UInt32.toNat_mod]
    rfl
  · have hne' : d.toNat ≠ c.toNat := fun h => hne (UInt32.toNat_inj.mp h)
    rw [← UInt32.toNat_inj, getNext_entry fat' hd, getNext_entry fat hd, hentry,
      Function.update_of_ne hne']
  · have := (entry_bounds hd).2
    exact (getNext_inside_iff fat d).mpr (by omega)

/-- Entry 3 of an empty FAT set to 0x12345: its neighbours 2 and 4 share bytes with it. -/
theorem fat_entries_independent_sample : (3 : UInt32) ≤ 3071 ∧
    ∃ fat', (fat12SetNext (some fun _ => 0) 3 0x12345).val = some fat' ∧
      (fat12GetNext (some fat') 3).val = 0x345 ∧ (fat12GetNext (some fat') 2).val = 0 ∧
      (fat12GetNext (some fat') 4).val = 0 := by
  obtain ⟨fat', hset, hself, hother, -⟩ :=
    fat_entries_independent (fun _ => 0) (c := 3) (by decide) 0x12345
  refine ⟨by decide, fat', hset, hself, (hother 2 (by decide) (by decide)).trans (by decide),
    (hother 4 (by decide) (by decide)).trans (by decide)⟩

/-! ### Any cluster number -/

/-- EXACT: the bytes that `fs_get_next_cluster` reads are inside the cache, and a number without an
    entry yields the end mark, precisely if the offset does not wrap to the cache: or it does, short
    of the last byte, and the three nibbles it hits are all ones. -/
theorem next_cluster_inside_iff (s : FsState) (c : UInt32) :
    (All FatAccess.Inside (fsGetNextCluster s c) ∧
        (3071 < c → (fsGetNextCluster s c).val = fsClusterEof)) ↔
      ∀ fat, s.fatCache = some fat → c < 0xAAAAAAAB ∨ 0xAAAAB6AA < c ∨
        c < 0xAAAAB6AA ∧ number fat (3 * c.toNat - 2 ^ 33) 3 = 0xFFF := by
  cases hfat : s.fatCache with
  | none =>
    rw [fsGetNextCluster, hfat]
    exact iff_of_true ⟨all_pure _ _, fun _ => rfl⟩ fun fat h => by cases h
  | some fat =>
    have hlt := c.toNat_lt
    have hoff := offset_nibble c
    have hfirst : c < 0xAAAAAAAB ↔ c.toNat < 0xAAAAAAAB := UInt32.lt_iff_toNat_lt
    have hlast : 0xAAAAB6AA < c ↔ 0xAAAAB6AA < c.toNat := UInt32.lt_iff_toNat_lt
    have hlast' : c < 0xAAAAB6AA ↔ c.toNat < 0xAAAAB6AA := UInt32.lt_iff_toNat_lt
    have hentries : 3071 < c ↔ 3071 < c.toNat := UInt32.lt_iff_toNat_lt
    have honly : (∀ f, some fat = some f → c < 0xAAAAAAAB ∨ 0xAAAAB6AA < c ∨
        c < 0xAAAAB6AA ∧ number f (3 * c.toNat - 2 ^ 33) 3 = 0xFFF) ↔
        c < 0xAAAAAAAB ∨ 0xAAAAB6AA < c ∨
          c < 0xAAAAB6AA ∧ number fat (3 * c.toNat - 2 ^ 33) 3 = 0xFFF :=
      ⟨fun h => h fat rfl, fun h f hf => by cases hf; exact h⟩
    rw [honly, fsGetNextCluster, hfat, getNext_inside_iff, hfirst, hlast, hlast', hentries]
    rcases Nat.lt_or_ge (c + c / 2).toNat (9 * 512) with hin | hout
    · rw [← UInt32.toNat_inj, getNext_toNat fat hin]
      change (_ ∧ (_ → number fat (3 * c.toNat % 2 ^ 33) 3 = 0xFFF)) ↔ _
      by_cases hwrap : c.toNat < 0xAAAAAAAB
      · refine iff_of_true ⟨by omega, fun h => ?_⟩ (.inl hwrap)
        omega
      · have hnib : 3 * c.toNat % 2 ^ 33 = 3 * c.toNat - 2 ^ 33 := by omega
        rw [hnib]
        constructor
        · rintro ⟨hne, hones⟩
          exact .inr (.inr ⟨by omega, hones (by omega)⟩)
        · rintro (h | h | ⟨h, hones⟩)
          · omega
          · omega
          · exact ⟨by omega, fun _ => hones⟩
    · rw [getNext_past fat hout]
      refine iff_of_true ⟨by omega, fun _ => rfl⟩ ?_
      omega

/-- On an empty FAT, cluster number `0xAAAAAAAB` yields a free link, and `0xAAAAB6AA` has its second
    byte read past the cache. -/
theorem wrapped_cluster_read :
    (fsGetNextCluster { staticFs with fatCache := some fun _ => 0 } 0xAAAAAAAB).val = 0 ∧
      (fsGetNextCluster { staticFs with fatCache := some fun _ => 0 } 0xAAAAB6AA).events =
        [.read 4607, .read 4608] := by
  decide

end VlsOs.Fat
