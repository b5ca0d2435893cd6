import VlsOs.Net.HttpResponse

/-! What `http_client_parse_response` (`net/http_client.c`) touches, and that it ends.

    The loops test `i < buflen` before they read, and the jumps of the index are over bytes that are
    known to be there: 3 for the status code, 16 for the header's name, one for each digit. So
    `i ≤ buflen` goes through every part of the function, down to the body.

        buf   H T T P … ␊ H e a d e r … ␊ ␊ b o d y
                                            ▲ start ▲ buflen
        body                                b o d y 0
                                            └─ size ─┘ -/

namespace VlsOs.Net.Http
open Patterns Patterns.Trace VlsOs.Memory VlsOs.Libc

/-- The event keeps to the `buflen` bytes of the buffer and to the 16 of `len_str`. -/
def ParseEvent.Inside (buflen : ℕ) : ParseEvent → Prop
  | .read offset => offset < buflen
  | .compare offset count => offset + count ≤ buflen
  | .digit j => j < 16
  | .copy offset count => offset + count ≤ buflen
  | .alloc _ | .terminate _ => True

variable (buf : ℕ → UInt8)

/-- A loop that goes on to `c` has no more to do at `i`. -/
def Stops (buflen : ℕ) (c : UInt8) (i : ℕ) : Prop := buflen ≤ i ∨ buf i = c

/-- It is their conditions that end the loops: the turns they are given are enough. -/
structure Ends (buflen : ℕ) : Prop where
  skip : ∀ c i, i ≤ buflen → Stops buf buflen c (skipTo buf buflen c i).val
  headers : ∀ i contentLength,
    Stops buf buflen 10 (headerLoop buf buflen buflen i contentLength).val.1
  turns : ∀ more i contentLength,
    headerLoop buf buflen (buflen + more) i contentLength =
      headerLoop buf buflen buflen i contentLength

/-- The body is the buffer from `start` on and a NUL, in a block of `size` bytes that `malloc` gave
    for it, and nothing outside the block has changed. -/
structure TakenFrom (s : NetState) (buflen start : ℕ) (size : UInt32)
    (x : Traced ParseEvent (ℤ × HttpResponse × NetState)) : Prop where
  suffix_len : start + x.val.2.1.bodyLen.toNat = buflen
  size_eq : size.toNat = x.val.2.1.bodyLen.toNat + 1
  block : malloc s.heap size = (x.val.2.1.body, x.val.2.2.heap)
  block_ne : x.val.2.1.body ≠ null
  bytes : Blocks.stretch (cells x.val.2.2.mem x.val.2.1.body) 0 size.toNat =
    Blocks.stretch buf start x.val.2.1.bodyLen.toNat ++ [0]
  outside : ∀ a, (∀ k < size.toNat, a ≠ x.val.2.1.body + UInt32.ofNat k) → x.val.2.2.mem a = s.mem a
  steps : [.alloc size, .copy start x.val.2.1.bodyLen.toNat, .terminate x.val.2.1.bodyLen.toNat] <:+
    x.events

/-- A run of the parser that touches only what it may. -/
structure Safe (s : NetState) (buflen : ℕ)
    (x : Traced ParseEvent (ℤ × HttpResponse × NetState)) : Prop where
  inside : All (ParseEvent.Inside buflen) x
  taken : x.val.1 = 0 → ∃ start size, TakenFrom buf s buflen start size x
  failed : x.val.1 ≠ 0 → x.val.2.2.mem = s.mem

variable {buflen : ℕ}

/-! ### The index stays in the buffer -/

theorem skipLoop_inside (c : UInt8) {left i : ℕ} (h : i + left ≤ buflen) :
    All (ParseEvent.Inside buflen) (skipLoop buf c left i) := by
  induction left generalizing i with
  | zero => exact all_pure _ _
  | succ left ih =>
    rw [skipLoop, all_bind, all_emit, all_ite]
    exact ⟨show i < buflen by omega, fun _ => ih (by omega), fun _ => all_pure _ _⟩

theorem skipTo_inside (c : UInt8) {i : ℕ} (hi : i ≤ buflen) :
    All (ParseEvent.Inside buflen) (skipTo buf buflen c i) :=
  skipLoop_inside buf c (Nat.add_sub_of_le hi).le

/-- The digits fit `len_str` with its NUL, and come from the buffer. -/
theorem digitLoop_spec {room i : ℕ} (hroom : room ≤ 15) (hi : i ≤ buflen) :
    (digitLoop buf buflen room i).val.length ≤ room ∧
      i + (digitLoop buf buflen room i).val.length ≤ buflen ∧
      All (ParseEvent.Inside buflen) (digitLoop buf buflen room i) := by
  induction room generalizing i with
  | zero => exact ⟨le_rfl, hi, all_pure _ _⟩
  | succ room ih =>
    rw [digitLoop]
    by_cases hlt : i < buflen
    · rw [if_pos hlt]
      by_cases hdigit : 48 ≤ buf i ∧ buf i ≤ 57
      · obtain ⟨hlen, hend, hin⟩ := ih (by omega) (show i + 1 ≤ buflen from hlt)
        simp only [if_pos hdigit, val_bind, val_pure, List.length_cons, all_bind, all_emit, all_pure]
        refine ⟨by omega, by omega, hlt, ?_, hin, trivial⟩
        exact show 14 - room < 16 by omega
      · simp only [if_neg hdigit, val_bind, val_pure, List.length_nil, all_bind, all_emit, all_pure]
        exact ⟨Nat.zero_le _, hi, hlt, trivial⟩
    · rw [if_neg hlt]
      exact ⟨Nat.zero_le _, hi, all_pure _ _⟩

theorem readLength_spec {i : ℕ} (hi : i ≤ buflen) (contentLength : UInt32) :
    (readLength buf buflen i contentLength).val.1 ≤ buflen ∧
      All (ParseEvent.Inside buflen) (readLength buf buflen i contentLength) := by
  rw [readLength]
  by_cases hname : i + 16 ≤ buflen
  · rw [if_pos hname, val_bind, all_bind, all_emit]
    obtain ⟨hlen, hend, hin⟩ := digitLoop_spec buf (le_refl 15) hname
    split
    · refine ⟨hend, hname, all_bind.mpr ⟨hin, all_bind.mpr ⟨all_emit.mpr ?_, all_pure _ _⟩⟩⟩
      exact Nat.lt_succ_of_le hlen
    · exact ⟨hi, hname, all_pure _ _⟩
  · rw [if_neg hname]
    exact ⟨hi, all_pure _ _⟩

theorem headerLine_spec {i : ℕ} (hi : i ≤ buflen) (contentLength : UInt32) :
    (headerLine buf buflen i contentLength).val.1 ≤ buflen ∧
      All (ParseEvent.Inside buflen) (headerLine buf buflen i contentLength) := by
  obtain ⟨hr, hread⟩ := readLength_spec buf hi contentLength
  have hskip := @skipTo_bounds buf buflen 10 _ hr
  rw [headerLine, val_bind, val_bind, val_pure, all_bind, all_bind]
  refine ⟨?_, hread, skipTo_inside buf 10 hr, all_pure _ _⟩
  dsimp only
  split <;> omega

/-- RUN of the header lines. -/
theorem headerLoop_spec (turns : ℕ) {i : ℕ} (hi : i ≤ buflen) (contentLength : UInt32) :
    (headerLoop buf buflen turns i contentLength).val.1 ≤ buflen ∧
      All (ParseEvent.Inside buflen) (headerLoop buf buflen turns i contentLength) := by
  induction turns generalizing i contentLength with
  | zero => exact ⟨hi, all_pure _ _⟩
  | succ turns ih =>
    rw [headerLoop]
    split
    · rename_i hlt
      rw [val_bind, all_bind, all_emit]
      split
      · obtain ⟨hline, hin⟩ := headerLine_spec buf hi contentLength
        obtain ⟨hrest, hins⟩ := ih hline (headerLine buf buflen i contentLength).val.2
        exact ⟨hrest, hlt, all_bind.mpr ⟨hin, hins⟩⟩
      · exact ⟨hi, hlt, all_pure _ _⟩
    · exact ⟨hi, all_pure _ _⟩

/-! ### The loops end -/

variable {buf}

theorem skipTo_stops (c : UInt8) {i : ℕ} (hi : i ≤ buflen) :
    Stops buf buflen c (skipTo buf buflen c i).val := by
  obtain ⟨left, rfl⟩ := Nat.exists_eq_add_of_le hi
  clear hi
  induction left generalizing i with
  | zero =>
    rw [skipTo, Nat.add_zero, Nat.sub_self]
    exact .inl le_rfl
  | succ left ih =>
    rw [skipTo_of_lt (by omega)]
    split
    · have hrest := ih (i := i + 1)
      rwa [show i + 1 + left = i + (left + 1) by omega] at hrest
    · rename_i hc
      exact .inr (not_not.mp hc)

/-- A turn takes the index on, so no more turns are taken than there are bytes left. -/
theorem headerLoop_ends {turns i : ℕ} (h : buflen ≤ i + turns) (contentLength : UInt32) :
    Stops buf buflen 10 (headerLoop buf buflen turns i contentLength).val.1 ∧
      ∀ more, headerLoop buf buflen (turns + more) i contentLength =
        headerLoop buf buflen turns i contentLength := by
  induction turns generalizing i contentLength with
  | zero =>
    refine ⟨.inl h, fun more => ?_⟩
    cases more with
    | zero => rfl
    | succ more => exact if_neg (Nat.not_lt.mpr h)
  | succ turns ih =>
    by_cases hlt : i < buflen
    · have hnext := @lt_headerLine buf buflen i hlt contentLength
      obtain ⟨hstop, hmore⟩ := ih (i := (headerLine buf buflen i contentLength).val.1) (by omega)
        (headerLine buf buflen i contentLength).val.2
      by_cases hline : buf i ≠ 10
      · refine ⟨?_, fun more => ?_⟩
        · rw [headerLoop, if_pos hlt, val_bind, if_pos hline]
          exact hstop
        · rw [Nat.add_right_comm, headerLoop, headerLoop, if_pos hlt, if_pos hlt, if_pos hline,
            if_pos hline]
          exact then_congr (then_congr (hmore more))
      · refine ⟨?_, fun more => ?_⟩
        · rw [headerLoop, if_pos hlt, val_bind, if_neg hline]
          exact .inr (not_not.mp hline)
        · rw [Nat.add_right_comm, headerLoop, headerLoop, if_pos hlt, if_pos hlt, if_neg hline,
            if_neg hline]
    · refine ⟨?_, fun more => ?_⟩
      · rw [headerLoop, if_neg hlt]
        exact .inl (Nat.not_lt.mp hlt)
      · rw [Nat.add_right_comm, headerLoop, headerLoop, if_neg hlt, if_neg hlt]

theorem loops_end (buf : ℕ → UInt8) (buflen : ℕ) : Ends buf buflen where
  skip c _ hi := skipTo_stops c hi
  headers i contentLength := (headerLoop_ends (Nat.le_add_left buflen i) contentLength).1
  turns more i contentLength := (headerLoop_ends (Nat.le_add_left buflen i) contentLength).2 more

/-! ### The body -/

section
variable {s : NetState}

/-- SEQUENCE: what went before keeps to the buffer too. -/
theorem Safe.after {α : Type} {y : Traced ParseEvent α}
    {f : α → Traced ParseEvent (ℤ × HttpResponse × NetState)}
    (hy : All (ParseEvent.Inside buflen) y) (hf : Safe buf s buflen (f y.val)) :
    Safe buf s buflen (y >>= f) where
  inside := all_bind.mpr ⟨hy, hf.inside⟩
  taken h := by
    obtain ⟨start, size, htaken⟩ := hf.taken h
    exact ⟨start, size, { htaken with steps := htaken.steps.trans (List.suffix_append _ _) }⟩
  failed := hf.failed

theorem safe_fail (resp : HttpResponse) (heap : Heap) :
    Safe buf s buflen (return (-1, resp, { s with heap := heap })) where
  inside := all_pure _ _
  taken h := by cases h
  failed _ := rfl

/-- The copy and the NUL behind it. -/
theorem stretch_copied (m : Mem) (base : UInt32) (start : ℕ) (len : UInt16) :
    Blocks.stretch
        (cells (Function.update (memcpy m base (fun k => buf (start + k)) len.toNat)
          (base + len.toUInt32) 0) base) 0 (len.toNat + 1) =
      Blocks.stretch buf start len.toNat ++ [0] := by
  have hlt := len.toNat_lt
  have hend : len.toUInt32 = UInt32.ofNat len.toNat := (UInt32.ofNat_uInt16ToNat len).symm
  rw [← Blocks.stretch_append, hend, Nat.zero_add]
  congr 1
  · refine Blocks.stretch_congr fun k hk => ?_
    rw [Nat.zero_add, cells, Function.update_of_ne, memcpy_at m base _ (by omega) hk]
    intro h
    have := offset_inj (by omega) (by omega) h
    omega
  · rw [Blocks.stretch_succ, cells, Function.update_self, Blocks.stretch_zero]

theorem copied_outside (m : Mem) {base a : UInt32} {start : ℕ} {len : UInt16}
    (ha : ∀ k < len.toNat + 1, a ≠ base + UInt32.ofNat k) :
    Function.update (memcpy m base (fun k => buf (start + k)) len.toNat) (base + len.toUInt32) 0 a =
      m a := by
  have hend : a ≠ base + len.toUInt32 := by
    rw [← UInt32.ofNat_uInt16ToNat len]
    exact ha len.toNat (Nat.lt_succ_self _)
  rw [Function.update_of_ne hend]
  exact memcpy_frame m base _ fun k hk => ha k (Nat.lt_succ_of_lt hk)

theorem takeBody_safe {i : ℕ} (hi : i ≤ buflen) (hlen : buflen < 2 ^ 16) (resp : HttpResponse) :
    Safe buf s buflen (takeBody buf s buflen i resp) := by
  have hcount : (UInt16.ofNat (buflen - i)).toNat = buflen - i :=
    UInt16.toNat_ofNat_of_lt' (show buflen - i < 2 ^ 16 by omega)
  have hsize : (UInt32.ofNat (buflen - i + 1)).toNat = (UInt16.ofNat (buflen - i)).toNat + 1 := by
    rw [hcount]
    exact UInt32.toNat_ofNat_of_lt' (show buflen - i + 1 < 2 ^ 32 by omega)
  rw [takeBody]
  dsimp only
  split
  · exact safe_fail _ _
  · rename_i hblock
    refine ⟨?_, fun _ => ⟨i, UInt32.ofNat (buflen - i + 1), ?_⟩, fun h => absurd rfl h⟩
    · simp only [all_bind, all_emit, all_pure, hcount]
      exact ⟨trivial, (Nat.add_sub_of_le hi).le, trivial, trivial⟩
    · refine ⟨?_, hsize, rfl, hblock, ?_, fun a ha => ?_, List.suffix_refl _⟩
      · exact (congrArg (i + ·) hcount).trans (Nat.add_sub_of_le hi)
      · rw [hsize]
        exact stretch_copied s.mem _ i _
      · rw [hsize] at ha
        exact copied_outside s.mem ha

end

/-- CORRECT: on any bytes the parser ends and keeps to its buffers; if it returns 0, the body is the
    rest of the buffer in a block of its own with room for the NUL. -/
theorem parseResponse_safe (buf : ℕ → UInt8) (s : NetState) (buflen : UInt16) (resp : HttpResponse) :
    Safe buf s buflen.toNat (httpClientParseResponse buf s buflen resp) ∧ Ends buf buflen.toNat := by
  refine ⟨?_, loops_end buf buflen.toNat⟩
  have hlen := buflen.toNat_lt
  rw [httpClientParseResponse]
  dsimp only
  split
  · exact safe_fail _ s.heap
  refine .after (skipTo_inside buf 32 (Nat.zero_le _)) ?_
  split
  · exact safe_fail _ s.heap
  split
  · exact safe_fail _ s.heap
  rename_i hspace hcode
  generalize (skipTo buf buflen.toNat 32 0).val = i at hspace hcode ⊢
  refine .after (all_emit.mpr (show i + 1 < buflen.toNat by omega)) ?_
  refine .after (all_emit.mpr (show i + 1 + 1 < buflen.toNat by omega)) ?_
  refine .after (all_emit.mpr (show i + 1 + 2 < buflen.toNat by omega)) ?_
  refine .after (skipTo_inside buf 10 (by omega)) ?_
  split
  · exact safe_fail _ s.heap
  rename_i hline
  obtain ⟨hend, hheaders⟩ := headerLoop_spec buf buflen.toNat (Nat.lt_of_not_le hline) 0
  refine .after hheaders (takeBody_safe ?_ hlen _)
  split <;> omega

end VlsOs.Net.Http
