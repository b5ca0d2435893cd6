import VlsOs.Net.Dns
import VlsOs.Net.Inside

/-! DNS responses as a resolver reads them.

    The fields of a DNS header are big-endian. `dns_poll` copies the ID and the question count as they
    came, but stores the flags and the answer count as native 16-bit numbers, low byte first. A
    resolver sees the two bytes of these fields exchanged.

        stored          on the wire    read
        flags 0x8000    00 80          0x0080   QR 0, RCODE 0
        flags 0x8003    03 80          0x0380   QR 0, RCODE 0
        flags 0x8004    04 80          0x0480   QR 0, RCODE 0
        ancount 1       01 00          256 -/

namespace VlsOs.Net
open Patterns Patterns.Trace

/-! ### Well-formed responses -/

/-- The big-endian 16-bit field at an offset of a message. -/
def messageField (message : List UInt8) (offset : ℕ) : ℕ :=
  (message.getD offset 0).toNat * 256 + (message.getD (offset + 1) 0).toNat

/-- A name on the wire: labels with their lengths, ended by a zero byte. -/
def wireName (labels : List (List UInt8)) : List UInt8 :=
  (labels.flatMap fun label => UInt8.ofNat label.length :: label) ++ [0]

def IsName (bytes : List UInt8) : Prop :=
  ∃ labels : List (List UInt8), (∀ label ∈ labels, 1 ≤ label.length ∧ label.length ≤ 63) ∧
    bytes = wireName labels

/-- A question: a name, a type and a class. -/
def IsQuestion (bytes : List UInt8) : Prop :=
  ∃ name fixed : List UInt8, IsName name ∧ fixed.length = 4 ∧ bytes = name ++ fixed

/-- A record: a name, a type, a class, a time to live, and data with its length. -/
def IsRecord (bytes : List UInt8) : Prop :=
  ∃ name fixed rdata : List UInt8, IsName name ∧ fixed.length = 10 ∧
    messageField fixed 8 = rdata.length ∧ bytes = name ++ fixed ++ rdata

/-- What a resolver expects of the response to a query with the given outcome: the query's ID, QR set,
    the outcome's RCODE, and counts that say what follows the header up to the end. -/
structure WellFormedResponse (query : List UInt8) (rcode : ℕ) (resp : List UInt8) : Prop where
  id : messageField resp 0 = messageField query 0
  qr : messageField resp 2 / 2 ^ 15 = 1
  rcode : messageField resp 2 % 16 = rcode
  sections : ∃ questions answers : List (List UInt8), (∀ q ∈ questions, IsQuestion q) ∧
    (∀ r ∈ answers, IsRecord r) ∧ messageField resp 4 = questions.length ∧
    messageField resp 6 = answers.length ∧ resp.drop 12 = questions.flatten ++ answers.flatten

/-! ### The header that is sent -/

/-- A field that is copied without a swap has the same bytes. -/
theorem bytes_word (a b : UInt8) : (word a b).toUInt8 = a ∧ (word a b >>> 8).toUInt8 = b := by
  have ha := a.toNat_lt
  rw [← UInt8.toNat_inj, ← UInt8.toNat_inj, UInt16.toNat_toUInt8, Libc.toNat_high_byte, word_toNat]
  omega

/-- A response starts with one of three headers. -/
theorem dnsPoll_header {s : NetState} {buf : ℕ → UInt8} {n : ℕ} {resp : List UInt8}
    (h : dnsPoll s buf n = some resp) :
    12 ≤ n ∧ ∃ flags ancount rest, resp = (responseHdr buf flags ancount).bytes ++ rest ∧
      (flags = 0x8000 ∧ ancount = 1 ∨ (flags = 0x8003 ∨ flags = 0x8004) ∧ ancount = 0) := by
  cases dnsPoll_response h with
  | known _ hreceived =>
    exact ⟨by omega, 0x8000, 1, _, List.append_assoc .., .inl ⟨rfl, rfl⟩⟩
  | @refused qname name consumed flags _ hreceived _ _ hcode _ =>
    refine ⟨by omega, flags, 0, _, rfl, .inr ⟨?_, rfl⟩⟩
    rw [hcode]
    split
    · exact .inl rfl
    · exact .inr rfl

section Header
variable (buf : ℕ → UInt8) (flags ancount : UInt16) (rest : List UInt8)

theorem messageField_id : messageField ((responseHdr buf flags ancount).bytes ++ rest) 0 =
    (buf 0).toNat * 256 + (buf 1).toNat := by
  obtain ⟨hlow, hhigh⟩ := bytes_word (buf 0) (buf 1)
  refine Eq.trans (rfl : _ = (word (buf 0) (buf 1)).toUInt8.toNat * 256 +
    (word (buf 0) (buf 1) >>> 8).toUInt8.toNat) ?_
  rw [hlow, hhigh]

theorem messageField_flags : messageField ((responseHdr buf flags ancount).bytes ++ rest) 2 =
    flags.toUInt8.toNat * 256 + (flags >>> 8).toUInt8.toNat := rfl

theorem messageField_ancount : messageField ((responseHdr buf flags ancount).bytes ++ rest) 6 =
    ancount.toUInt8.toNat * 256 + (ancount >>> 8).toUInt8.toNat := rfl

end Header

/-- EXACT: no response of `dns_poll` is well formed. The ID is the query's, but a resolver reads QR 0,
    RCODE 0 whatever the outcome, and 256 answers for one. -/
theorem dns_responses_malformed {s : NetState} {buf : ℕ → UInt8} {n : ℕ} {resp : List UInt8}
    (h : dnsPoll s buf n = some resp) :
    messageField resp 0 = messageField (Blocks.stretch buf 0 n) 0 ∧
      messageField resp 2 / 2 ^ 15 = 0 ∧ messageField resp 2 % 16 = 0 ∧
      (messageField resp 6 = 0 ∨ messageField resp 6 = 256) ∧
      ∀ rcode, ¬WellFormedResponse (Blocks.stretch buf 0 n) rcode resp := by
  obtain ⟨hn, flags, ancount, rest, rfl, hset⟩ := dnsPoll_header h
  have hquery : messageField (Blocks.stretch buf 0 n) 0 = (buf 0).toNat * 256 + (buf 1).toNat := by
    simp [messageField, Blocks.stretch, show 0 < n by omega, show 1 < n by omega]
  have hqr : messageField ((responseHdr buf flags ancount).bytes ++ rest) 2 / 2 ^ 15 = 0 := by
    rw [messageField_flags]
    rcases hset with ⟨rfl, -⟩ | ⟨rfl | rfl, -⟩ <;> rfl
  refine ⟨?_, hqr, ?_, ?_, fun rcode hwell => ?_⟩
  · rw [messageField_id, hquery]
  · rw [messageField_flags]
    rcases hset with ⟨rfl, -⟩ | ⟨rfl | rfl, -⟩ <;> rfl
  · rw [messageField_ancount]
    rcases hset with ⟨-, rfl⟩ | ⟨-, rfl⟩
    · exact .inr rfl
    · exact .inl rfl
  · exact absurd (hqr.symm.trans hwell.qr) (by decide)

/-- A query for the address of `vlsos`, with the ID 0x1234. -/
def sampleQuery (i : ℕ) : UInt8 :=
  [0x12, 0x34, 0x01, 0x00, 0, 1, 0, 0, 0, 0, 0, 0, 5, 118, 108, 115, 111, 115, 0, 0, 1, 0, 1].getD i 0

/-- The response to it from offset 8 on. -/
def sampleSections : List UInt8 :=
  [0, 0, 0, 0, 5, 118, 108, 115, 111, 115, 0, 0, 1, 0, 1, 5, 118, 108, 115, 111, 115, 0, 0, 1, 0, 1,
    0, 0, 1, 44, 0, 4, 192, 168, 1, 100]

theorem dnsPoll_sampleQuery : dnsPoll sampleHost sampleQuery 23 =
    some ([0x12, 0x34, 0x00, 0x80, 0, 1, 1, 0] ++ sampleSections) := by
  decide +kernel

theorem dns_responses_malformed_sample :
    dnsPoll sampleHost sampleQuery 23 =
        some ([0x12, 0x34, 0x00, 0x80, 0, 1, 1, 0] ++ sampleSections) ∧
      ∀ rcode, ¬WellFormedResponse (Blocks.stretch sampleQuery 0 23) rcode
        ([0x12, 0x34, 0x00, 0x80, 0, 1, 1, 0] ++ sampleSections) :=
  ⟨dnsPoll_sampleQuery, (dns_responses_malformed dnsPoll_sampleQuery).2.2.2.2⟩

/-- The response is not well formed, but it would be with the bytes of the flags and of the answer
    count the other way round. -/
theorem dns_response_swapped :
    dnsPoll sampleHost sampleQuery 23 =
        some ([0x12, 0x34, 0x00, 0x80, 0, 1, 1, 0] ++ sampleSections) ∧
      ¬WellFormedResponse (Blocks.stretch sampleQuery 0 23) 0
        ([0x12, 0x34, 0x00, 0x80, 0, 1, 1, 0] ++ sampleSections) ∧
      WellFormedResponse (Blocks.stretch sampleQuery 0 23) 0
        ([0x12, 0x34, 0x80, 0x00, 0, 1, 0, 1] ++ sampleSections) := by
  have hname : IsName [5, 118, 108, 115, 111, 115, 0] := ⟨[vlsos], by decide, rfl⟩
  refine ⟨dnsPoll_sampleQuery, fun hwell => absurd hwell.qr (by decide), rfl, rfl, rfl, ?_⟩
  refine ⟨[[5, 118, 108, 115, 111, 115, 0, 0, 1, 0, 1]],
    [[5, 118, 108, 115, 111, 115, 0, 0, 1, 0, 1, 0, 0, 1, 44, 0, 4, 192, 168, 1, 100]], ?_, ?_, rfl, rfl,
    rfl⟩
  · simpa using ⟨_, [0, 1, 0, 1], hname, rfl, rfl⟩
  · simpa using ⟨_, [0, 1, 0, 1, 0, 0, 1, 44, 0, 4], [192, 168, 1, 100], hname, rfl, rfl, rfl⟩

end VlsOs.Net
