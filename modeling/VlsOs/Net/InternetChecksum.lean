import VlsOs.Net.Checksum

/-! `net_checksum` as the Internet checksum.

    The Internet checksum of a message is the complement of the one's-complement sum of its big-endian
    words, the last one padded with a zero byte if the length is odd. `net_checksum` adds an odd byte
    at the end as it is, as the low byte of a word. On whole words it is the Internet checksum: written
    into the message it makes the sum a multiple of 65535, and a single word that is changed to another
    residue is noticed.

        message           a b │ c d │ e
        Internet          256a + b, 256c + d, 256e
        net_checksum      256a + b, 256c + d, e      -/

namespace VlsOs.Net
open Patterns

/-! ### The sum -/

/-- EXACT: on up to 131072 bytes `net_checksum` is the Internet checksum, from an accumulator that has
    not overflowed, precisely if the length is even or the last byte is `0`. -/
theorem internet_checksum_iff {l : List UInt8} (hfits : l.length ≤ 131072) :
    ((netChecksum l).toNat = 0xFFFF - OnesComplement.sum 0xFFFF (bigEndianWords l) ∧
        (addWords l 0).toNat = (addedWords l).sum) ↔
      Even l.length ∨ l.getLast? = some 0 := by
  rw [and_iff_left (addWords_zero hfits), netChecksum_toNat hfits]
  rcases Nat.even_or_odd l.length with heven | hodd
  · rw [addedWords_of_even heven]
    exact iff_of_true rfl (.inl heven)
  · have hadded := OnesComplement.represents_sum (addedWords_le l)
    have hpadded := OnesComplement.represents_sum (bigEndianWords_le l)
    have hlast : (0xFFFF - OnesComplement.sum 0xFFFF (addedWords l) =
        0xFFFF - OnesComplement.sum 0xFFFF (bigEndianWords l)) ↔
        OnesComplement.sum 0xFFFF (addedWords l) = OnesComplement.sum 0xFFFF (bigEndianWords l) := by
      have hle := hadded.le
      have hle' := hpadded.le
      omega
    rw [hlast, or_iff_right (Nat.not_even_iff_odd.mpr hodd)]
    -- the message is whole words and one more byte
    obtain ⟨pre, a, rfl⟩ : ∃ pre a, l = pre ++ [a] := by
      rcases List.eq_nil_or_concat l with rfl | h
      · exact absurd hodd (by decide)
      · simpa using h
    have hpre : Even pre.length := by simpa [Nat.odd_add_one] using hodd
    rw [List.getLast?_concat, Option.some.injEq]
    constructor
    · intro heq
      rw [addedWords_append hpre, List.sum_append, ← addedWords_append hpre, heq] at hadded
      rw [bigEndianWords_append hpre, List.sum_append, ← bigEndianWords_append hpre] at hpadded
      have hmod := Nat.ModEq.add_left_cancel' _ (hadded.modEq.symm.trans hpadded.modEq)
      simp only [addedWords, bigEndianWords, List.sum_singleton] at hmod
      have ha := a.toNat_lt
      have hsame := hmod.eq_of_lt_of_lt (by omega) (by omega)
      exact UInt8.toNat_inj.mp (by show a.toNat = 0; omega)
    · rintro rfl
      rw [addedWords_append hpre, bigEndianWords_append hpre]
      rfl

theorem internet_checksum_two :
    (netChecksum [0x45, 0x00]).toNat = 0xFFFF - OnesComplement.sum 0xFFFF (bigEndianWords [0x45, 0x00]) :=
  ((internet_checksum_iff (by decide)).mpr (.inl (by decide))).1

/-- The checksum of one byte is not the Internet checksum. -/
theorem odd_byte_added_low :
    netChecksum [1] = 0xFFFE ∧ 0xFFFF - OnesComplement.sum 0xFFFF (bigEndianWords [1]) = 0xFEFF := by
  refine ⟨?_, by decide⟩
  rw [netChecksum_eq (by decide)]
  decide

/-! ### A word in a message -/

/-- The word at an offset, high byte first. -/
def wordAt (buf : List UInt8) (p : ℕ) : ℕ := (buf.getD p 0).toNat * 256 + (buf.getD (p + 1) 0).toNat

/-- A word written at an offset, high byte first. -/
def putWord (buf : List UInt8) (p : ℕ) (v : UInt16) : List UInt8 :=
  (buf.set p (v >>> 8).toUInt8).set (p + 1) v.toUInt8

@[simp] theorem length_putWord (buf : List UInt8) (p : ℕ) (v : UInt16) :
    (putWord buf p v).length = buf.length := by
  simp [putWord]

/-- A message is what stands before a word, the word, and what stands after it. -/
theorem exists_split {buf : List UInt8} {p : ℕ} (hp : p + 2 ≤ buf.length) :
    ∃ pre a b post, pre.length = p ∧ buf = pre ++ a :: b :: post := by
  refine ⟨buf.take p, buf[p], buf[p + 1], buf.drop (p + 2), ?_, ?_⟩
  · rw [List.length_take, Nat.min_eq_left (by omega)]
  · rw [← List.drop_eq_getElem_cons, ← List.drop_eq_getElem_cons, List.take_append_drop]

theorem putWord_split (pre : List UInt8) (a b : UInt8) (post : List UInt8) (v : UInt16) :
    putWord (pre ++ a :: b :: post) pre.length v =
      pre ++ (v >>> 8).toUInt8 :: v.toUInt8 :: post := by
  simp [putWord, List.set_append_right]

theorem wordAt_split (pre : List UInt8) (a b : UInt8) (post : List UInt8) :
    wordAt (pre ++ a :: b :: post) pre.length = a.toNat * 256 + b.toNat := by
  simp [wordAt]

theorem sum_split {pre : List UInt8} (heven : Even pre.length) (a b : UInt8) (post : List UInt8) :
    (bigEndianWords (pre ++ a :: b :: post)).sum =
      (bigEndianWords pre).sum + (bigEndianWords post).sum + (a.toNat * 256 + b.toNat) := by
  rw [bigEndianWords_append heven, List.sum_append, bigEndianWords, List.sum_cons]
  ring

/-- The sum of a message depends on a word by its value, and a word that is written has the value. -/
theorem exists_sum {buf : List UInt8} {p : ℕ} (heven : Even p) (hp : p + 2 ≤ buf.length) :
    ∃ rest, (bigEndianWords buf).sum = rest + wordAt buf p ∧
      ∀ v : UInt16, (bigEndianWords (putWord buf p v)).sum = rest + v.toNat := by
  obtain ⟨pre, a, b, post, rfl, rfl⟩ := exists_split hp
  refine ⟨(bigEndianWords pre).sum + (bigEndianWords post).sum, ?_, fun v => ?_⟩
  · rw [sum_split heven, wordAt_split]
  · have hv : (v >>> 8).toUInt8.toNat * 256 + v.toUInt8.toNat = v.toNat := by
      rw [Libc.toNat_high_byte, UInt16.toNat_toUInt8]
      omega
    rw [putWord_split, sum_split heven, hv]

theorem putWord_putWord (buf : List UInt8) (p : ℕ) (v w : UInt16) :
    putWord (putWord buf p v) p w = putWord buf p w := by
  rw [putWord, putWord, List.set_comm _ _ (Nat.succ_ne_self p), List.set_set, List.set_set, putWord]

/-- A message of whole words verifies if its sum is a positive multiple of 65535. -/
theorem netChecksum_eq_zero_iff_dvd {buf : List UInt8} (heven : Even buf.length)
    (hfits : buf.length ≤ 131072) :
    netChecksum buf = 0 ↔ 65535 ∣ (bigEndianWords buf).sum ∧ 0 < (bigEndianWords buf).sum := by
  rw [netChecksum_eq_zero_iff heven hfits, Verifies]
  exact (OnesComplement.represents_sum (bigEndianWords_le buf)).eq_max_iff (by decide)

/-! ### Writing the checksum -/

/-- The message with its checksum at `p`: the field is cleared, and the checksum written to it. -/
def sealAt (buf : List UInt8) (p : ℕ) : List UInt8 :=
  putWord (putWord buf p 0) p (netChecksum (putWord buf p 0))

/-- CORRECT: a message of whole words with its checksum in it has the checksum `0`, and no longer has
    it with one word changed to another residue modulo 65535. -/
theorem sealed_checksum_detects {buf : List UInt8} {p : ℕ} (heven : Even buf.length)
    (hfits : buf.length ≤ 131072) (hpeven : Even p) (hp : p + 2 ≤ buf.length) :
    netChecksum (sealAt buf p) = 0 ∧
      ∀ (q : ℕ) (v : UInt16), Even q → q + 2 ≤ buf.length →
        ¬v.toNat ≡ wordAt (sealAt buf p) q [MOD 65535] →
        netChecksum (putWord (sealAt buf p) q v) ≠ 0 := by
  have hlength : (sealAt buf p).length = buf.length := by simp [sealAt]
  have hzero : netChecksum (sealAt buf p) = 0 := by
    obtain ⟨rest, -, hput⟩ := exists_sum hpeven hp
    have hcleared : (bigEndianWords (putWord buf p 0)).sum = rest := hput 0
    have hsum := OnesComplement.represents_sum (bigEndianWords_le (putWord buf p 0))
    rw [hcleared] at hsum
    have hchecksum : (netChecksum (putWord buf p 0)).toNat =
        0xFFFF - OnesComplement.sum 0xFFFF (bigEndianWords (putWord buf p 0)) := by
      rw [netChecksum_toNat (by rwa [length_putWord]),
        addedWords_of_even (by rwa [length_putWord])]
    rw [netChecksum_eq_zero_iff_dvd (by rwa [hlength]) (by rwa [hlength]), sealAt, putWord_putWord, hput,
      hchecksum]
    exact hsum.dvd_add_complement (by decide)
  refine ⟨hzero, fun q v hq hqp hne hchanged => ?_⟩
  obtain ⟨rest, hsum, hput⟩ := exists_sum (p := q) hq (hlength ▸ hqp)
  rw [netChecksum_eq_zero_iff_dvd (by rwa [hlength]) (by rwa [hlength]), hsum] at hzero
  rw [netChecksum_eq_zero_iff_dvd (by rwa [length_putWord, hlength])
    (by rwa [length_putWord, hlength]), hput] at hchanged
  refine hne (Nat.ModEq.add_left_cancel' rest ?_)
  exact (Nat.modEq_zero_iff_dvd.mpr hchanged.1).trans (Nat.modEq_zero_iff_dvd.mpr hzero.1).symm

/-- The first words of an IPv4 header, with the field in the second one. -/
theorem sealed_checksum_detects_sample :
    netChecksum (sealAt [0x45, 0x00, 0xFF, 0xFF] 2) = 0 ∧
      netChecksum (putWord (sealAt [0x45, 0x00, 0xFF, 0xFF] 2) 0 0x4600) ≠ 0 := by
  have hseal : sealAt [0x45, 0x00, 0xFF, 0xFF] 2 = [0x45, 0x00, 0xBA, 0xFF] := by
    rw [sealAt, netChecksum_eq (by decide)]
    decide
  have hdetects := @sealed_checksum_detects [0x45, 0x00, 0xFF, 0xFF] 2 (by decide) (by decide)
    (by decide) (by decide)
  exact ⟨hdetects.1, hdetects.2 0 0x4600 (by decide) (by decide) (by rw [hseal]; decide)⟩

end VlsOs.Net
