import VlsOs.Net.Dhcp
import VlsOs.Schemes.Run

/-! The reads of the option scan.

    `dhcp_poll` looks for the message type in all 312 bytes of the options area, however many of them
    have been received: of a packet of `n` bytes these are the first `n - 236`. At each option it
    reads the code and the length, and of an option 53 also the first byte of the value.

        received           │ not received        │ beyond the area
        0 ⋯ code len ⋯     n - 236           ⋯   312 ⋯
            └─ + 2 + len ──▶ code ?                                -/

namespace VlsOs.Net
open Patterns Patterns.Trace

/-- The scan of `dhcp_poll`, with the read of the value that it finds. -/
def dhcpScan (opt : ℕ → UInt8) : Traced ℕ UInt8 := do
  match ← findType opt 0 with
  | some i => do
    emit (i + 2)
    return opt (i + 2)
  | none => return 0

/-- Where the option after the one at `i` starts. -/
def nextOption (opt : ℕ → UInt8) (i : ℕ) : ℕ := i + (2 + (opt (i + 1)).toNat)

/-- The `k`-th option. -/
def optionAt (opt : ℕ → UInt8) (k : ℕ) : ℕ := (nextOption opt)^[k] 0

/-- An option with its code and length among the first `r` bytes that the scan passes over. -/
def Passed (opt : ℕ → UInt8) (r i : ℕ) : Prop :=
  i + 1 < r ∧ opt i ≠ 255 ∧ ¬(opt i = 53 ∧ 1 ≤ opt (i + 1))

/-- What the scan reads of the last option is among the first `r` bytes: nothing beyond the area, the
    code of END or of an option in the last byte, and all up to its value of an option 53. -/
def ReadToEnd (opt : ℕ → UInt8) (r i : ℕ) : Prop :=
  312 ≤ i ∨ (i < r ∧ (opt i = 255 ∨ i = 311)) ∨ (i + 2 < r ∧ opt i = 53 ∧ 1 ≤ opt (i + 1))

instance (opt : ℕ → UInt8) (r i : ℕ) : Decidable (Passed opt r i) :=
  inferInstanceAs (Decidable (_ ∧ _ ∧ _))

instance (opt : ℕ → UInt8) (r i : ℕ) : Decidable (ReadToEnd opt r i) :=
  inferInstanceAs (Decidable (_ ∨ _ ∨ _))

/-- The scan that has its reads is the one that `dhcp_poll` takes its message type from. -/
theorem val_dhcpScan (opt : ℕ → UInt8) : (dhcpScan opt).val = scanType opt := by
  rw [dhcpScan, scanType, val_bind]
  cases (findType opt 0).val <;> rfl

theorem all_dhcpScan {opt : ℕ → UInt8} {P : ℕ → Prop} :
    All P (dhcpScan opt) ↔
      All P (findType opt 0) ∧ ∀ j, (findType opt 0).val = some j → P (j + 2) := by
  rw [dhcpScan, all_bind]
  cases (findType opt 0).val <;> simp

/-! What is read of an option, by the branch that the loop takes at it. -/

section
variable {opt : ℕ → UInt8} {r i : ℕ}

/-- END: only the code is read. -/
theorem readToEnd_end (harea : i < 312) (hend : opt i = 255) : ReadToEnd opt r i ↔ i < r := by
  have hcode : opt i ≠ 53 := by
    rw [hend]
    decide
  constructor
  · rintro (h | ⟨h, -⟩ | ⟨-, h, -⟩)
    · omega
    · exact h
    · exact absurd h hcode
  · exact fun h => .inr (.inl ⟨h, .inl hend⟩)

/-- So it is of a code in the last byte of the area, which has no length. -/
theorem readToEnd_last (hlast : i = 311) : ReadToEnd opt r i ↔ i < r := by
  constructor
  · rintro (h | ⟨h, -⟩ | ⟨h, -⟩) <;> omega
  · exact fun h => .inr (.inl ⟨h, .inr hlast⟩)

theorem readToEnd_type (hin : i < 311) (hend : opt i ≠ 255) (htype : opt i = 53 ∧ 1 ≤ opt (i + 1)) :
    ReadToEnd opt r i ↔ i + 2 < r := by
  constructor
  · rintro (h | ⟨-, h | h⟩ | ⟨h, -⟩)
    · omega
    · exact absurd h hend
    · omega
    · exact h
  · exact fun h => .inr (.inr ⟨h, htype⟩)

theorem not_readToEnd (hin : i < 311) (hend : opt i ≠ 255) (htype : ¬(opt i = 53 ∧ 1 ≤ opt (i + 1))) :
    ¬ReadToEnd opt r i := by
  rintro (h | ⟨-, h | h⟩ | ⟨-, h⟩)
  · omega
  · exact hend h
  · omega
  · exact htype h

end

/-- LOOP: with enough turns the reads from `i` on are among the first `r` bytes precisely if options
    that are passed over lead to one that is read to its end. -/
theorem reads_optionLoop {opt : ℕ → UInt8} {r : ℕ} (hr : r ≤ 312) :
    ∀ {turns i : ℕ}, 312 ≤ i + 2 * turns →
      ((All (· < r) (optionLoop opt turns i) ∧
          ∀ j, (optionLoop opt turns i).val = some j → j + 2 < r) ↔
        Run.Until (nextOption opt) (Passed opt r) (ReadToEnd opt r) i) := by
  intro turns
  induction turns with
  | zero =>
    intro i hi
    rw [Run.until_iff]
    exact iff_of_true (by simp [optionLoop]) (.inl (.inl (by omega)))
  | succ turns ih =>
    intro i hi
    rw [optionLoop, Run.until_iff]
    by_cases harea : i < 312
    · rw [if_pos harea]
      by_cases hend : opt i = 255
      · have hpassed : ¬Passed opt r i := fun h => h.2.1 hend
        simp [hend, hpassed, readToEnd_end harea hend]
      by_cases hlast : i + 1 ≥ 312
      · have hpassed : ¬Passed opt r i := fun h => by
          have hlength := h.1
          omega
        have hread : ReadToEnd opt r i ↔ i < r := readToEnd_last (by omega)
        simp [hend, hlast, hpassed, hread]
      by_cases htype : opt i = 53 ∧ opt (i + 1) ≥ 1
      · have hpassed : ¬Passed opt r i := fun h => h.2.2 htype
        have hread : ReadToEnd opt r i ↔ i + 2 < r := readToEnd_type (by omega) hend htype
        simp only [if_neg hend, if_neg hlast, if_pos htype, all_bind, all_emit, all_pure, val_bind,
          val_pure, Option.some.injEq, forall_eq', hpassed, hread, false_and, or_false, and_true]
        omega
      · have hmore := ih (i := nextOption opt i) (by rw [nextOption]; omega)
        have hpassed : Passed opt r i ↔ i + 1 < r := by simp [Passed, hend, htype]
        rw [← hmore, hpassed]
        simp only [if_neg hend, if_neg hlast, if_neg htype, all_bind, all_emit, val_bind,
          not_readToEnd (by omega) hend htype, false_or, nextOption, and_assoc]
        constructor
        · exact fun h => h.2
        · exact fun h => ⟨by omega, h⟩
    · rw [if_neg harea]
      exact iff_of_true (by simp) (.inl (.inl (by omega)))

/-- EXACT: the scan of a packet of `n` bytes reads only bytes that were received, and none beyond the
    area, precisely if the options before some one are passed over with their code and length
    received, and that one is read to its end in what was received. -/
theorem scan_reads_received_iff {buf : ℕ → UInt8} {n : ℕ} (hmin : 236 ≤ n) (hmax : n ≤ 548) :
    let opt := fun i => buf (236 + i)
    All (fun i => 236 + i < n ∧ i < 312) (dhcpScan opt) ↔
      ∃ k, (∀ j < k, Passed opt (n - 236) (optionAt opt j)) ∧
        ReadToEnd opt (n - 236) (optionAt opt k) := by
  intro opt
  have hbound : (fun i => 236 + i < n ∧ i < 312) = (· < n - 236) := by
    funext i
    exact propext ⟨fun h => by omega, fun h => by omega⟩
  rw [hbound, all_dhcpScan]
  exact reads_optionLoop (by omega) (by omega)

/-- Two options with values, and then the message type in the last bytes that were received. -/
def typeAtEnd (i : ℕ) : UInt8 := [12, 3, 97, 98, 99, 61, 1, 7, 53, 1, 1].getD (i - 236) 0

/-- The first two options are passed over. -/
theorem scan_reads_received_at_end :
    All (fun i => 236 + i < 247 ∧ i < 312) (dhcpScan fun i => typeAtEnd (236 + i)) :=
  (@scan_reads_received_iff typeAtEnd 247 (by decide) (by decide)).mpr
    ⟨2, by decide, by decide⟩

/-- Options without a value, and then an option 53 in the last two bytes of the area. -/
def typeInLastBytes (i : ℕ) : UInt8 := if i = 236 + 310 then 53 else if i = 236 + 311 then 1 else 0

/-- A whole packet is read beyond its options area, and a packet without options is read. -/
theorem scan_reads_beyond :
    312 ∈ (dhcpScan fun i => typeInLastBytes (236 + i)).events ∧
      ¬All (fun i => 236 + i < 548 ∧ i < 312) (dhcpScan fun i => typeInLastBytes (236 + i)) ∧
      ∀ buf : ℕ → UInt8,
        ¬All (fun i => 236 + i < 236 ∧ i < 312) (dhcpScan fun i => buf (236 + i)) := by
  have hread : 312 ∈ (dhcpScan fun i => typeInLastBytes (236 + i)).events := by decide +kernel
  refine ⟨hread, fun h => ?_, fun buf h => ?_⟩
  · exact absurd (h 312 hread).2 (lt_irrefl _)
  · have hfirst : All (fun i => 236 + i < 236 ∧ i < 312) (emit 0) := by
      rw [all_dhcpScan, findType, optionLoop, if_pos (by decide), all_bind] at h
      exact h.1.1
    exact absurd (all_emit.mp hfirst).1 (by decide)

end VlsOs.Net
