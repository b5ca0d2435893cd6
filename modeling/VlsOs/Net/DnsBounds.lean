import VlsOs.Net.Dns

/-! What `dns_decode_qname` (`net/dns.c`) touches.

    A label is let in only if it, the dot before it and a NUL behind it fit the output: `o + len + 1`
    is compared with `outlen`, although the dot is not there for the first label. So between labels
    `o` is below `outlen`, and inside a label `o` and the bytes still to come are.

        out   n a m e s . l a b e l ·  ·
              └─── o ───┘ └ left ┘     ▲ outlen
                          o + left < outlen -/

namespace VlsOs.Net
open Patterns Patterns.Trace

/-- The decoder on the array that `out` points to; `o` is the index of the next byte. -/
def decodeInto (buf : ℕ → UInt8) (outlen : ℕ) :
    ℕ → ℕ → ℕ → ℕ → List UInt8 → Traced QnameEvent (Option ℕ × List UInt8)
  | 0, _, _, _, out => return (none, out)
  | remaining + 1, pos, left + 1, o, out => do
    emit (.read pos)
    emit (.write o)
    decodeInto buf outlen remaining (pos + 1) left (o + 1) (out.set o (buf pos))
  | remaining + 1, pos, 0, o, out => do
    emit (.read pos)
    let len := buf pos
    if len = 0 then
      if o = 0 then
        emit (.write 0)
        emit (.write 1)
        return (some (pos + 1), (out.set 0 dot).set 1 0)
      else
        emit (.write o)
        return (some (pos + 1), out.set o 0)
    else if o + len.toNat + 1 ≥ outlen then return (none, out)
    else if o = 0 then decodeInto buf outlen remaining (pos + 1) len.toNat o out
    else
      emit (.write o)
      decodeInto buf outlen remaining (pos + 1) len.toNat (o + 1) (out.set o dot)

/-- `dns_decode_qname`: the number of bytes consumed (`none` for `-1`), and the array afterwards. -/
def dnsDecodeInto (buf : ℕ → UInt8) (buflen outlen : ℕ) (out : List UInt8) :
    Traced QnameEvent (Option ℕ × List UInt8) :=
  decodeInto buf outlen buflen 0 0 0 out

/-- The event keeps to the first bytes of both arrays. -/
def QnameEvent.Inside (buflen outlen : ℕ) : QnameEvent → Prop
  | .read offset => offset < buflen
  | .write offset => offset < outlen

/-- The two decoders agree, keep to their arrays, and leave the string with its NUL. -/
structure Agree (buflen outlen : ℕ) (x : Traced QnameEvent (Option ℕ × List UInt8))
    (y : Traced QnameEvent (Option (List UInt8 × ℕ))) : Prop where
  events : x.events = y.events
  inside : All (QnameEvent.Inside buflen outlen) x
  result : x.val.1 = y.val.map Prod.snd
  string : ∀ qname consumed, y.val = some (qname, consumed) →
    1 ≤ consumed ∧ consumed ≤ buflen ∧ qname.length < outlen ∧ qname ++ [0] <+: x.val.2

/-- An event more in front of both. -/
theorem Agree.emit {buflen outlen : ℕ} {x : Traced QnameEvent (Option ℕ × List UInt8)}
    {y : Traced QnameEvent (Option (List UInt8 × ℕ))} (h : Agree buflen outlen x y) {e : QnameEvent}
    (he : e.Inside buflen outlen) :
    Agree buflen outlen (do Trace.emit e; x) (do Trace.emit e; y) where
  events := congrArg (e :: ·) h.events
  inside := all_bind.mpr ⟨all_emit.mpr he, h.inside⟩
  result := h.result
  string := h.string

theorem agree_fail {buflen outlen : ℕ} (out : List UInt8) :
    Agree buflen outlen (return (none, out)) (return none) :=
  ⟨rfl, all_pure _ _, rfl, fun _ _ h => by cases h⟩

theorem agree_done {buflen outlen pos : ℕ} {qname out : List UInt8} (hpos : pos < buflen)
    (hlen : qname.length < outlen) (hstring : qname ++ [0] <+: out) :
    Agree buflen outlen (return (some (pos + 1), out)) (return some (qname, pos + 1)) := by
  refine ⟨rfl, all_pure _ _, rfl, fun qname' consumed h => ?_⟩
  obtain ⟨rfl, rfl⟩ := Prod.mk.inj (Option.some_inj.mp h)
  exact ⟨Nat.succ_pos pos, hpos, hlen, hstring⟩

theorem set_append_length (seen rest : List UInt8) (x c : UInt8) :
    (seen ++ x :: rest).set seen.length c = seen ++ [c] ++ rest := by
  simp

/-- The length byte 0: a root name is written as a dot, any other name gets its NUL. -/
theorem agree_end {buf : ℕ → UInt8} {buflen outlen pos remaining : ℕ} (houtlen : 2 ≤ outlen)
    {seen rest : List UInt8} (hread : pos < buflen) (hfits : seen.length < outlen)
    (hroom : outlen ≤ seen.length + rest.length) (hzero : buf pos = 0) :
    Agree buflen outlen (decodeInto buf outlen (remaining + 1) pos 0 seen.length (seen ++ rest))
      (decodeLoop buf outlen (remaining + 1) pos 0 seen) := by
  obtain ⟨x, rest, rfl⟩ := List.exists_cons_of_ne_nil (List.ne_nil_of_length_pos
    (show 0 < rest.length by omega))
  rw [decodeInto, decodeLoop]
  refine Agree.emit ?_ hread
  rw [if_pos hzero, if_pos hzero]
  cases seen with
  | nil =>
    rw [List.length_nil, List.length_cons] at hroom
    obtain ⟨y, rest, rfl⟩ := List.exists_cons_of_ne_nil (List.ne_nil_of_length_pos
      (show 0 < rest.length by omega))
    refine Agree.emit (Agree.emit (agree_done hread ?_ ?_) ?_) ?_
    · exact houtlen
    · exact ⟨rest, rfl⟩
    · exact show 1 < outlen by omega
    · exact show 0 < outlen by omega
  | cons c seen =>
    refine Agree.emit (agree_done hread hfits ?_) hfits
    rw [set_append_length]
    exact ⟨rest, rfl⟩

/-- INVARIANT: what has been written and what the current label still needs is below `outlen`. -/
theorem agree_decodeInto {buf : ℕ → UInt8} {buflen outlen : ℕ} (houtlen : 2 ≤ outlen)
    (remaining : ℕ) : ∀ {pos left : ℕ} {seen rest : List UInt8}, pos + remaining = buflen →
      seen.length + left < outlen → outlen ≤ seen.length + rest.length →
      Agree buflen outlen (decodeInto buf outlen remaining pos left seen.length (seen ++ rest))
        (decodeLoop buf outlen remaining pos left seen) := by
  induction remaining with
  | zero =>
    intro pos left seen rest _ _ _
    exact agree_fail _
  | succ remaining ih =>
    intro pos left seen rest hpos hfits hroom
    have hread : pos < buflen := by omega
    by_cases hend : left = 0 ∧ buf pos = 0
    · obtain ⟨rfl, hzero⟩ := hend
      exact agree_end houtlen hread hfits hroom hzero
    obtain ⟨x, rest, rfl⟩ := List.exists_cons_of_ne_nil (List.ne_nil_of_length_pos
      (show 0 < rest.length by omega))
    have hstep (c : UInt8) : (seen ++ [c]).length = seen.length + 1 := by simp
    rw [List.length_cons] at hroom
    cases left with
    | succ left =>
      -- a byte of the label
      rw [decodeInto, decodeLoop, set_append_length, ← hstep (buf pos)]
      refine Agree.emit (Agree.emit (ih ?_ ?_ ?_) ?_) ?_
      · omega
      · rw [hstep]
        omega
      · rw [hstep]
        omega
      · exact show seen.length < outlen by omega
      · exact hread
    | zero =>
      -- the length of the next label
      have hlen : buf pos ≠ 0 := fun hzero => hend ⟨rfl, hzero⟩
      rw [decodeInto, decodeLoop]
      refine Agree.emit ?_ hread
      rw [if_neg hlen, if_neg hlen]
      by_cases hlong : seen.length + (buf pos).toNat + 1 ≥ outlen
      · rw [if_pos hlong, if_pos hlong]
        exact agree_fail _
      · rw [if_neg hlong, if_neg hlong]
        cases seen with
        | nil => exact ih (by omega) (by rw [List.length_nil] at *; omega) hroom
        | cons c seen =>
          rw [if_neg (by simp), if_neg (by simp), set_append_length, ← hstep dot]
          refine Agree.emit (ih (by omega) ?_ ?_) hfits
          · rw [hstep]
            omega
          · rw [hstep]
            omega

/-- CORRECT: on any buffer the decoder reads below `buflen` and writes below `outlen`; if it does not
    fail, it has consumed between one byte and all of them, and the string that it leaves in the array
    is followed by a NUL. -/
theorem dnsDecode_inside (buf : ℕ → UInt8) (buflen : ℕ) {outlen : ℕ} (houtlen : 2 ≤ outlen)
    {out : List UInt8} (hout : outlen ≤ out.length) :
    (dnsDecodeInto buf buflen outlen out).events = (dnsDecodeQname buf buflen outlen).events ∧
      All (QnameEvent.Inside buflen outlen) (dnsDecodeInto buf buflen outlen out) ∧
      (dnsDecodeInto buf buflen outlen out).val.1 =
        (dnsDecodeQname buf buflen outlen).val.map Prod.snd ∧
      ∀ consumed, (dnsDecodeInto buf buflen outlen out).val.1 = some consumed →
        1 ≤ consumed ∧ consumed ≤ buflen ∧ ∃ qname : List UInt8,
          (dnsDecodeQname buf buflen outlen).val = some (qname, consumed) ∧
          qname.length < outlen ∧ qname ++ [0] <+: (dnsDecodeInto buf buflen outlen out).val.2 := by
  have hagree : Agree buflen outlen (dnsDecodeInto buf buflen outlen out)
      (dnsDecodeQname buf buflen outlen) :=
    agree_decodeInto houtlen buflen (zero_add buflen) (show [].length + 0 < outlen by simp; omega)
      (by simpa using hout)
  refine ⟨hagree.events, hagree.inside, hagree.result, fun consumed h => ?_⟩
  rw [hagree.result, Option.map_eq_some_iff] at h
  obtain ⟨⟨qname, consumed⟩, hdecoded, rfl⟩ := h
  obtain ⟨hpos, hle, hlen, hstring⟩ := hagree.string qname consumed hdecoded
  exact ⟨hpos, hle, qname, hdecoded, hlen, hstring⟩

/-- A name of two labels into an array of 16 bytes. -/
theorem dnsDecode_inside_sample :
    let buf (i : ℕ) : UInt8 := [1, 97, 2, 98, 99, 0, 7].getD i 0
    let out := List.replicate 16 0xFF
    All (QnameEvent.Inside 7 16) (dnsDecodeInto buf 7 16 out) ∧
      (dnsDecodeInto buf 7 16 out).val.1 = some 6 ∧
      1 ≤ 6 ∧ 6 ≤ 7 ∧ ∃ qname : List UInt8, (dnsDecodeQname buf 7 16).val = some (qname, 6) ∧
        qname.length < 16 ∧ qname ++ [0] <+: (dnsDecodeInto buf 7 16 out).val.2 := by
  intro buf out
  have hsafe := dnsDecode_inside buf 7 (show 2 ≤ 16 by decide) (show 16 ≤ out.length by decide)
  have hconsumed : (dnsDecodeInto buf 7 16 out).val.1 = some 6 := by decide
  exact ⟨hsafe.2.1, hconsumed, hsafe.2.2.2 6 hconsumed⟩

end VlsOs.Net
