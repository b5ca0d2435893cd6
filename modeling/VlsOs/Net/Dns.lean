import VlsOs.Net.Receive

/-! The DNS responder (`net/dns.c`, `include/dns.h`).

    `dns_poll` takes a datagram, decodes the name of its first question to a string with dots,
    encodes it again into the response, and answers for two names of its own. It is a function from
    the received datagram to the one that it passes to `sendto`, if it gets that far.

        query     header │ qname qtype qclass │ ⋯
                           │ dns_decode_qname
                           ▼
                         "vlsos.local"
                           │ dns_encode_qname
                           ▼
        response  header │ qname qtype qclass │ qname A IN ttl 4 address -/

namespace VlsOs.Net
open Patterns Patterns.Trace

def dnsMaxQname : ℕ := 256

def dnsBufferSize : ℕ := 512

/-- `sizeof (dns_hdr_t)`. -/
def dnsHdrSize : ℕ := 12

/-- The character `'.'`. -/
def dot : UInt8 := 46

/-! ### Names -/

/-- What `dns_decode_qname` touches: offsets from `buf` and from `out`. -/
inductive QnameEvent
  | read (offset : ℕ)
  | write (offset : ℕ)
  deriving DecidableEq

/-- Both loops of `dns_decode_qname`. `remaining` is `buflen - pos`, `left` the number of bytes of the
    current label that are still to be copied, `out` the first `o` bytes of the string. -/
def decodeLoop (buf : ℕ → UInt8) (outlen : ℕ) :
    ℕ → ℕ → ℕ → List UInt8 → Traced QnameEvent (Option (List UInt8 × ℕ))
  | 0, _, _, _ => return none
  | remaining + 1, pos, left + 1, out => do
    emit (.read pos)
    emit (.write out.length)
    decodeLoop buf outlen remaining (pos + 1) left (out ++ [buf pos])
  | remaining + 1, pos, 0, out => do
    emit (.read pos)
    let len := buf pos
    if len = 0 then
      -- the root is kept as a dot
      if out = [] then
        emit (.write 0)
        emit (.write 1)
        return some ([dot], pos + 1)
      else
        emit (.write out.length)
        return some (out, pos + 1)
    else if out.length + len.toNat + 1 ≥ outlen then return none
    else if out = [] then decodeLoop buf outlen remaining (pos + 1) len.toNat out
    else
      emit (.write out.length)
      decodeLoop buf outlen remaining (pos + 1) len.toNat (out ++ [dot])

/-- The string, and the number of bytes consumed; `none` for `-1`. -/
def dnsDecodeQname (buf : ℕ → UInt8) (buflen outlen : ℕ) :
    Traced QnameEvent (Option (List UInt8 × ℕ)) :=
  decodeLoop buf outlen buflen 0 0 []

/-- The body of the loop of `dns_encode_qname`: a label and its length. -/
def putLabel (outlen : ℕ) (out label : List UInt8) : Option (List UInt8) :=
  if out.length + 1 + label.length ≥ outlen then none
  else some (out ++ UInt8.ofNat label.length :: label)

/-- The loop over the characters from `start` on; `label` is what stands between `start` and `dot`. -/
def encodeLoop (outlen : ℕ) : List UInt8 → List UInt8 → List UInt8 → Option (List UInt8)
  | [], label, out => if label = [] then some out else putLabel outlen out label
  | c :: rest, label, out =>
    if c ≠ dot then encodeLoop outlen rest (label ++ [c]) out
    else if label = [] then some out
    else do
      let out ← putLabel outlen out label
      encodeLoop outlen rest [] out

/-- The bytes written to `out`; `none` for `-1`. -/
def dnsEncodeQname (name : List UInt8) (outlen : ℕ) : Option (List UInt8) := do
  let out ← encodeLoop outlen (Libc.text name) [] []
  if out.length ≥ outlen then none else some (out ++ [0])

/-! ### The responder -/

structure DnsHdr where
  id : UInt16
  flags : UInt16
  qdcount : UInt16
  ancount : UInt16
  nscount : UInt16
  arcount : UInt16

def DnsHdr.bytes (h : DnsHdr) : List UInt8 :=
  wordBytes h.id ++ wordBytes h.flags ++ wordBytes h.qdcount ++ wordBytes h.ancount ++
    wordBytes h.nscount ++ wordBytes h.arcount

/-- A letter in lower case. -/
def lower (c : UInt8) : UInt8 := if 65 ≤ c ∧ c ≤ 90 then c + 32 else c

/-- The name `"vlsos"`. -/
def vlsos : List UInt8 := [118, 108, 115, 111, 115]

/-- The name `"vlsos.local"`. -/
def vlsosLocal : List UInt8 := [118, 108, 115, 111, 115, 46, 108, 111, 99, 97, 108]

/-- A field of the question, put together byte by byte. -/
def questionField (buf : ℕ → UInt8) (pos : ℕ) : UInt16 :=
  ((buf pos).toUInt16 <<< 8) ||| (buf (pos + 1)).toUInt16

/-- The name is one of the responder's own. -/
def dnsKnown (qname : List UInt8) : Bool :=
  let nameL := (Libc.text qname).map lower
  Libc.strcmp nameL vlsosLocal = 0 || Libc.strcmp nameL vlsos = 0

/-- The address record after its name: type A, class IN, TTL 300, four bytes of data. -/
def answerData (s : NetState) : List UInt8 :=
  [0x00, 0x01, 0x00, 0x01, 0x00, 0x00, 0x01, 0x2C, 0x00, 0x04] ++
    match netGetInterface s eth0 with
    | some iface => iface.ipAddr.toList
    | none => [0, 0, 0, 0]

/-- `dns_poll` on a datagram of `n` bytes in `buf`: the datagram passed to `sendto`. -/
def dnsPoll (s : NetState) (buf : ℕ → UInt8) (n : ℕ) : Option (List UInt8) :=
  if n < dnsHdrSize then none
  else do
    let (qname, consumed) ←
      (dnsDecodeQname (fun i => buf (dnsHdrSize + i)) (n - dnsHdrSize) dnsMaxQname).val
    let pos := dnsHdrSize + consumed
    if pos + 4 > n then none
    else
      let qtype := questionField buf pos
      let qclass := questionField buf (pos + 2)
      let rh : DnsHdr :=
        { id := word (buf 0) (buf 1), flags := 0x8000, qdcount := word (buf 4) (buf 5), ancount := 0,
          nscount := 0, arcount := 0 }
      let name ← dnsEncodeQname qname (dnsBufferSize - dnsHdrSize)
      if dnsHdrSize + name.length + 4 > dnsBufferSize then none
      else
        let question := name ++ Blocks.stretch buf pos 4
        if qtype = 1 ∧ qclass = 1 then
          if dnsKnown qname then do
            let name ← dnsEncodeQname qname (dnsBufferSize - (dnsHdrSize + question.length))
            return { rh with ancount := 1 }.bytes ++ question ++ (name ++ answerData s)
          else return { rh with flags := rh.flags ||| 0x0003 }.bytes ++ question
        else return { rh with flags := rh.flags ||| 0x0004 }.bytes ++ question

/-! ### What it answers -/

/-- The header of a response: what was copied from the query, and what was set. -/
def responseHdr (buf : ℕ → UInt8) (flags ancount : UInt16) : DnsHdr :=
  ⟨word (buf 0) (buf 1), flags, word (buf 4) (buf 5), ancount, 0, 0⟩

/-- The parts a response is made of: the name of the question, decoded and encoded again, the four
    bytes after it, and an answer or none. -/
inductive Response (s : NetState) (buf : ℕ → UInt8) (n : ℕ) : List UInt8 → Prop
  | known {qname name again : List UInt8} {consumed : ℕ}
      (decoded : (dnsDecodeQname (fun i => buf (12 + i)) (n - 12) dnsMaxQname).val =
        some (qname, consumed))
      (received : 12 + consumed + 4 ≤ n) (encoded : dnsEncodeQname qname 500 = some name)
      (fits : 12 + name.length + 4 ≤ 512) (own : dnsKnown qname = true)
      (asked : questionField buf (12 + consumed) = 1 ∧ questionField buf (12 + consumed + 2) = 1)
      (encodedAgain : dnsEncodeQname qname (512 - (12 + (name.length + 4))) = some again) :
      Response s buf n ((responseHdr buf 0x8000 1).bytes ++
        (name ++ Blocks.stretch buf (12 + consumed) 4) ++ (again ++ answerData s))
  | refused {qname name : List UInt8} {consumed : ℕ} {flags : UInt16}
      (decoded : (dnsDecodeQname (fun i => buf (12 + i)) (n - 12) dnsMaxQname).val =
        some (qname, consumed))
      (received : 12 + consumed + 4 ≤ n) (encoded : dnsEncodeQname qname 500 = some name)
      (fits : 12 + name.length + 4 ≤ 512)
      (code : flags =
        if questionField buf (12 + consumed) = 1 ∧ questionField buf (12 + consumed + 2) = 1
        then 0x8003 else 0x8004)
      (other : questionField buf (12 + consumed) = 1 ∧ questionField buf (12 + consumed + 2) = 1 →
        dnsKnown qname = false) :
      Response s buf n ((responseHdr buf flags 0).bytes ++
        (name ++ Blocks.stretch buf (12 + consumed) 4))

/-- INVERSION: every response of `dns_poll` is made in this way. -/
theorem dnsPoll_response {s : NetState} {buf : ℕ → UInt8} {n : ℕ} {resp : List UInt8}
    (h : dnsPoll s buf n = some resp) : Response s buf n resp := by
  unfold dnsPoll at h
  split at h
  · cases h
  obtain ⟨⟨qname, consumed⟩, hdecoded, h⟩ := Option.bind_eq_some_iff.mp h
  dsimp only at h
  split at h
  · cases h
  obtain ⟨name, hencoded, h⟩ := Option.bind_eq_some_iff.mp h
  split at h
  · cases h
  have hreceived : 12 + consumed + 4 ≤ n := not_lt.mp ‹¬_ > n›
  have hfits : 12 + name.length + 4 ≤ 512 := not_lt.mp ‹¬_ > dnsBufferSize›
  split at h
  · rename_i hasked
    split at h
    · obtain ⟨again, hagain, h⟩ := Option.bind_eq_some_iff.mp h
      cases h
      rw [List.length_append, Blocks.length_stretch] at hagain
      exact .known hdecoded hreceived hencoded hfits ‹_› hasked hagain
    · rename_i hother
      cases h
      exact .refused hdecoded hreceived hencoded hfits (if_pos hasked).symm
        fun _ => Bool.eq_false_iff.mpr hother
  · rename_i hasked
    cases h
    exact .refused hdecoded hreceived hencoded hfits (if_neg hasked).symm fun h => absurd h hasked

/-! ### The response fits its buffer -/

theorem length_putLabel {outlen : ℕ} {out label r : List UInt8}
    (h : putLabel outlen out label = some r) : r.length = out.length + 1 + label.length := by
  unfold putLabel at h
  split at h
  · cases h
  · cases h
    simp [Nat.add_assoc, Nat.add_comm 1]

/-- Each label costs its length and one byte, and but for the last one a dot pays for that byte. -/
theorem length_encodeLoop {outlen : ℕ} : ∀ {name label out r : List UInt8},
    encodeLoop outlen name label out = some r →
      r.length ≤ out.length + label.length + name.length + 1
  | [], label, out, r, h => by
    unfold encodeLoop at h
    split at h
    · cases h
      omega
    · have := length_putLabel h
      omega
  | c :: rest, label, out, r, h => by
    unfold encodeLoop at h
    split at h
    · have := length_encodeLoop h
      simp only [List.length_append, List.length_cons, List.length_nil] at this ⊢
      omega
    · split at h
      · cases h
        omega
      · obtain ⟨out', hput, hrest⟩ := Option.bind_eq_some_iff.mp h
        have hlabel := length_putLabel hput
        have := length_encodeLoop hrest
        simp only [List.length_cons, List.length_nil] at this ⊢
        omega

theorem length_dnsEncodeQname {name r : List UInt8} {outlen : ℕ}
    (h : dnsEncodeQname name outlen = some r) : r.length ≤ (Libc.text name).length + 2 := by
  obtain ⟨out, hloop, h⟩ := Option.bind_eq_some_iff.mp h
  have hout := length_encodeLoop hloop
  split at h
  · cases h
  · cases h
    simp only [List.length_append, List.length_cons, List.length_nil] at hout ⊢
    omega

/-- No letter becomes a character below the letters. -/
theorem lower_eq_iff {c d : UInt8} (hd : d < 65) : lower c = d ↔ c = d := by
  unfold lower
  split
  · rename_i hletter
    obtain ⟨hA, hZ⟩ := hletter
    rw [UInt8.le_iff_toNat_le] at hA hZ
    rw [UInt8.lt_iff_toNat_lt] at hd
    simp only [← UInt8.toNat_inj, UInt8.toNat_add, UInt8.reduceToNat] at hA hZ hd ⊢
    omega
  · exact Iff.rfl

theorem lower_eq_zero {c : UInt8} : lower c = 0 ↔ c = 0 := lower_eq_iff (by decide)

/-- The lower-case name has no NUL inside: it is the whole of its own text. -/
theorem text_map_lower (s : List UInt8) :
    Libc.text ((Libc.text s).map lower) = (Libc.text s).map lower := by
  induction s with
  | nil => rfl
  | cons a s ih =>
    rw [Libc.text_cons]
    split
    · rfl
    · rename_i ha
      rw [List.map_cons, Libc.text_cons, if_neg (mt lower_eq_zero.mp ha), ih]

/-- EXACT: the responder's names are two, in any case of the letters. -/
theorem dnsKnown_iff {qname : List UInt8} : dnsKnown qname = true ↔
    (Libc.text qname).map lower = vlsosLocal ∨ (Libc.text qname).map lower = vlsos := by
  simp only [dnsKnown, Bool.or_eq_true, decide_eq_true_eq, Libc.strcmp_eq_zero, text_map_lower]
  rfl

theorem length_known {qname : List UInt8} (h : dnsKnown qname = true) :
    (Libc.text qname).length ≤ 11 := by
  rw [← List.length_map lower]
  rcases dnsKnown_iff.mp h with hname | hname <;> rw [hname] <;> decide

/-- The response never runs over the 512 bytes of `resp`, although the answer is written without a
    check. -/
theorem length_dnsPoll {s : NetState} {buf : ℕ → UInt8} {n : ℕ} {resp : List UInt8}
    (h : dnsPoll s buf n = some resp) : resp.length ≤ dnsBufferSize := by
  have hhdr (flags ancount : UInt16) : (responseHdr buf flags ancount).bytes.length = 12 := rfl
  have hanswer : (answerData s).length = 14 := by
    unfold answerData
    cases netGetInterface s eth0 <;> simp
  cases dnsPoll_response h with
  | known _ _ hencoded _ hown _ hagain =>
    have hname := length_dnsEncodeQname hencoded
    have hlast := length_dnsEncodeQname hagain
    have hshort := length_known hown
    simp only [List.length_append, hhdr, hanswer, Blocks.length_stretch, dnsBufferSize]
    omega
  | refused _ _ _ hfits _ _ =>
    simp only [List.length_append, hhdr, Blocks.length_stretch, dnsBufferSize]
    omega

end VlsOs.Net
