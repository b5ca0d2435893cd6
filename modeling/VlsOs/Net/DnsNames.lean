import VlsOs.Net.DnsEcho

/-! The round trips of names (`net/dns.c`).

    What the decoder and the encoder accept says which labels they have read. Here is the other half:
    names within the limits of the wire format are accepted. Both functions test for room before each
    label, with a byte or two to spare, and a name of 255 bytes on the wire comes nowhere near the end
    of the 256 bytes of the string or the 500 of the response.

        wire      5 v l s o s 5 l o c a l 0     length n + 2
                    │ decode    ▲
                    ▼           │ encode
        string      v l s o s . l o c a l       length n -/

namespace VlsOs.Net
open Patterns Patterns.Trace

/-- Labels as the wire format has them, with no byte that means something to the string. -/
def AreNameLabels (labels : List (List UInt8)) : Prop :=
  ∀ label ∈ labels, (1 ≤ label.length ∧ label.length ≤ 63) ∧ dot ∉ label ∧ 0 ∉ label
  deriving Decidable

theorem AreNameLabels.isLabels {labels : List (List UInt8)} (h : AreNameLabels labels) :
    IsLabels labels := by
  intro label hlabel
  have hlength := (h label hlabel).1
  omega

theorem AreNameLabels.clean {labels : List (List UInt8)} (h : AreNameLabels labels) :
    ∀ label ∈ labels, dot ∉ label ∧ 0 ∉ label :=
  fun label hlabel => (h label hlabel).2

theorem length_wireName_cons (label : List UInt8) (labels : List (List UInt8)) :
    (wireName (label :: labels)).length = label.length + (wireName labels).length + 1 := by
  rw [wireName_cons, List.length_cons, List.length_append]

theorem length_wireName_pos (labels : List (List UInt8)) : 1 ≤ (wireName labels).length := by
  simp [wireName]

/-- The string is shorter than the name on the wire: a dot for each length byte but the first, and no
    byte for the end. -/
theorem length_dotted {labels : List (List UInt8)} (h : labels ≠ []) :
    (dotted labels).length + 2 = (wireName labels).length := by
  cases labels with
  | nil => exact absurd rfl h
  | cons label labels => simp [dotted, wireName, List.length_flatMap]; omega

theorem length_dotted_le (labels : List (List UInt8)) :
    (dotted labels).length ≤ (wireName labels).length := by
  rcases eq_or_ne labels [] with rfl | hne
  · decide
  · have := length_dotted hne
    omega

/-! ### Decoding -/

section
variable {buf : ℕ → UInt8} {outlen : ℕ}

/-- A name on the wire is its first label and the name after it. -/
theorem stretch_wireName_uncons {pos : ℕ} {label : List UInt8} {labels : List (List UInt8)}
    (h : Blocks.stretch buf pos (wireName (label :: labels)).length = wireName (label :: labels)) :
    buf pos = UInt8.ofNat label.length ∧ Blocks.stretch buf (pos + 1) label.length = label ∧
      Blocks.stretch buf (pos + 1 + label.length) (wireName labels).length = wireName labels := by
  rw [wireName_cons, List.length_cons, Blocks.stretch_succ, List.cons.injEq] at h
  obtain ⟨hlabel, hrest⟩ := Blocks.stretch_eq_append h.2
  exact ⟨h.1, hlabel, hrest⟩

/-- One label that the string has room for. -/
theorem decodeLoop_put {k pos : ℕ} {label out : List UInt8}
    (hlabel : 1 ≤ label.length ∧ label.length ≤ 255) (hlen : buf pos = UInt8.ofNat label.length)
    (hbytes : Blocks.stretch buf (pos + 1) label.length = label)
    (hroom : out.length + label.length + 1 < outlen) :
    (decodeLoop buf outlen (label.length + k + 1) pos 0 out).val =
      (decodeLoop buf outlen k (pos + 1 + label.length) 0
        ((if out = [] then out else out ++ [dot]) ++ label)).val := by
  have hnat : (buf pos).toNat = label.length := by
    rw [hlen]
    exact UInt8.toNat_ofNat_of_lt' (by rw [UInt8.size]; omega)
  rw [decodeLoop_enter (hlen ▸ ofNat_length_ne_zero hlabel) (by omega), hnat, decodeLoop_copy, hbytes]

/-- The labels after the first, and the zero byte. -/
theorem decodeLoop_names (k : ℕ) : ∀ {labels : List (List UInt8)} {pos : ℕ} {out : List UInt8},
    IsLabels labels → out ≠ [] → out.length + (wireName labels).length ≤ outlen →
    Blocks.stretch buf pos (wireName labels).length = wireName labels →
    (decodeLoop buf outlen ((wireName labels).length + k) pos 0 out).val =
      some (out ++ labels.flatMap (dot :: ·), pos + (wireName labels).length) := by
  intro labels
  induction labels with
  | nil =>
    intro pos out _ hout _ hwire
    have hzero : buf pos = 0 := by simpa [Blocks.stretch] using hwire
    rw [wireName_nil, List.length_singleton, Nat.add_comm 1 k, decodeLoop]
    simp [hzero, hout]
  | cons label labels ih =>
    intro pos out hlabels hout hroom hwire
    obtain ⟨hlen, hbytes, hrest⟩ := stretch_wireName_uncons hwire
    rw [length_wireName_cons] at hroom ⊢
    have hpos := length_wireName_pos labels
    have hfits : (out ++ [dot] ++ label).length + (wireName labels).length ≤ outlen := by
      simp only [List.length_append, List.length_singleton]
      omega
    have hnext := ih (fun l hl => hlabels l (by simp [hl])) (by simp) hfits hrest
    have hsplit : label.length + (wireName labels).length + 1 + k =
        label.length + ((wireName labels).length + k) + 1 := by omega
    have hend : pos + 1 + label.length + (wireName labels).length =
        pos + (label.length + (wireName labels).length + 1) := by omega
    rw [hsplit, decodeLoop_put (hlabels label (by simp)) hlen hbytes (by omega), if_neg hout, hnext,
      hend]
    simp

/-- ACCEPTS: a name that the string has room for is decoded to its labels, with whatever bytes after
    it. -/
theorem dnsDecodeQname_wireName {buflen : ℕ} {labels : List (List UInt8)} (hlabels : IsLabels labels)
    (hroom : (wireName labels).length ≤ outlen) (hthere : (wireName labels).length ≤ buflen)
    (hwire : Blocks.stretch buf 0 (wireName labels).length = wireName labels) :
    (dnsDecodeQname buf buflen outlen).val = some (dotted labels, (wireName labels).length) := by
  obtain ⟨k, rfl⟩ := Nat.exists_eq_add_of_le hthere
  rw [dnsDecodeQname]
  cases labels with
  | nil =>
    have hzero : buf 0 = 0 := by simpa [Blocks.stretch] using hwire
    rw [wireName_nil, List.length_singleton, Nat.add_comm 1 k, decodeLoop]
    simp [hzero, dotted]
  | cons label labels =>
    obtain ⟨hlen, hbytes, hrest⟩ := stretch_wireName_uncons hwire
    have hlabel := hlabels label (by simp)
    have hpos := length_wireName_pos labels
    have hne : label ≠ [] := List.ne_nil_of_length_pos hlabel.1
    rw [length_wireName_cons] at hroom ⊢
    have hsplit : label.length + (wireName labels).length + 1 + k =
        label.length + ((wireName labels).length + k) + 1 := by omega
    have hfits : label.length + (wireName labels).length ≤ outlen := by omega
    have hnext := decodeLoop_names k (fun l hl => hlabels l (by simp [hl])) hne hfits hrest
    have hend : 0 + 1 + label.length + (wireName labels).length =
        label.length + (wireName labels).length + 1 := by omega
    rw [hsplit, decodeLoop_put hlabel hlen hbytes (by simp; omega), if_pos rfl, List.nil_append, hnext,
      hend, dotted]

end

/-! ### Encoding -/

/-- The encoder has room for every label: a label takes as many bytes as it has in the string with the
    dot after it. -/
theorem encodeLoop_room {outlen : ℕ} : ∀ {name label out : List UInt8},
    out.length + 1 + label.length + name.length < outlen →
      ∃ r, encodeLoop outlen name label out = some r ∧ r.length < outlen
  | [], label, out, h => by
    rw [encodeLoop, putLabel]
    rw [List.length_nil] at h
    split
    · exact ⟨out, rfl, by omega⟩
    · rw [if_neg (by omega)]
      exact ⟨_, rfl, by simp; omega⟩
  | c :: rest, label, out, h => by
    rw [encodeLoop]
    rw [List.length_cons] at h
    split
    · exact encodeLoop_room (by simp; omega)
    · split
      · exact ⟨out, rfl, by omega⟩
      · rw [putLabel, if_neg (by omega)]
        exact encodeLoop_room (by simp; omega)

/-- ACCEPTS: a string that is shorter than the buffer by two is encoded to its labels. -/
theorem dnsEncodeQname_room {name : List UInt8} {outlen : ℕ} (h : (Libc.text name).length + 1 < outlen) :
    dnsEncodeQname name outlen = some (wireName (labelsOf name)) := by
  have hstart : ([] : List UInt8).length + 1 + ([] : List UInt8).length + (Libc.text name).length <
      outlen := by
    simp only [List.length_nil]
    omega
  obtain ⟨out, hloop, hlt⟩ := encodeLoop_room hstart
  have hencoded : dnsEncodeQname name outlen = some (out ++ [0]) := by
    rw [dnsEncodeQname, hloop]
    exact if_neg (Nat.not_le.mpr hlt)
  rw [hencoded, ← dnsEncodeQname_labels hencoded]

/-! ### The round trips -/

/-- The buffer starts with the bytes. -/
def StartsWith (buf : ℕ → UInt8) (buflen : ℕ) (bytes : List UInt8) : Prop :=
  bytes.length ≤ buflen ∧ Blocks.stretch buf 0 bytes.length = bytes
  deriving Decidable

/-- The labels of a string are those that it is joined from. -/
theorem labelsOf_joined {name : List UInt8} {labels : List (List UInt8)} (hlabels : AreNameLabels labels)
    (hname : Libc.text name = dotted labels) : labelsOf name = labels := by
  have hsame : labelsOf name = labelsOf (dotted labels) := by
    rw [labelsOf, labelsOf, hname, text_dotted hlabels.clean]
  rw [hsame]
  exact (labelsOf_dotted_iff hlabels.isLabels).mpr hlabels.clean

/-- ROUND TRIP: a name on the wire is decoded, to its last byte, to a string that is encoded to the
    same bytes; and a string of labels between dots is encoded to a name that is decoded to it. -/
theorem dns_names_round_trip {labels : List (List UInt8)} (hlabels : AreNameLabels labels) :
    ((wireName labels).length ≤ 255 → ∀ buf buflen, StartsWith buf buflen (wireName labels) →
      ∃ qname, (dnsDecodeQname buf buflen 256).val = some (qname, (wireName labels).length) ∧
        dnsEncodeQname qname 500 = some (wireName labels)) ∧
    (labels ≠ [] → ([dot].intercalate labels).length ≤ 253 →
      ∀ name, Libc.text name = [dot].intercalate labels →
        ∃ wire, dnsEncodeQname name 500 = some wire ∧ ∀ buf buflen, StartsWith buf buflen wire →
          (dnsDecodeQname buf buflen 256).val = some ([dot].intercalate labels, wire.length)) := by
  constructor
  · intro hshort buf buflen hbuf
    have hle := length_dotted_le labels
    have htext := text_dotted hlabels.clean
    refine ⟨dotted labels, dnsDecodeQname_wireName hlabels.isLabels (by omega) hbuf.1 hbuf.2, ?_⟩
    rw [dnsEncodeQname_room (by rw [htext]; omega), labelsOf_joined hlabels htext]
  · intro hne hshort name hname
    rw [← dotted_eq_intercalate hne] at hshort hname ⊢
    have hlength := length_dotted hne
    refine ⟨wireName labels, ?_, fun buf buflen hbuf => ?_⟩
    · rw [dnsEncodeQname_room (by rw [hname]; omega), labelsOf_joined hlabels hname]
    · exact dnsDecodeQname_wireName hlabels.isLabels (by omega) hbuf.1 hbuf.2

/-- The name `vlsos.local` with more bytes after it, and as a string. -/
theorem dns_names_round_trip_local :
    (∃ qname,
      (dnsDecodeQname (fun i => (wireName [vlsos, [108, 111, 99, 97, 108]] ++ [0, 1, 0, 1]).getD i 0)
        17 256).val = some (qname, 13) ∧
      dnsEncodeQname qname 500 = some (wireName [vlsos, [108, 111, 99, 97, 108]])) ∧
    ∃ wire, dnsEncodeQname vlsosLocal 500 = some wire ∧
      ∀ buf buflen, StartsWith buf buflen wire →
        (dnsDecodeQname buf buflen 256).val = some (vlsosLocal, wire.length) := by
  have hlabels : AreNameLabels [vlsos, [108, 111, 99, 97, 108]] := by decide
  exact ⟨(dns_names_round_trip hlabels).1 (by decide) _ 17 (by decide),
    (dns_names_round_trip hlabels).2 (by decide) (by decide) vlsosLocal (by decide)⟩

end VlsOs.Net
