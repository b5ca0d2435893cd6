import VlsOs.Net.Encapsulation
import VlsOs.Schemes.OnesComplement

/-! The checksums on the wire.

    `net_checksum` adds up the big-endian words of a message and returns the complement of their
    one's-complement sum. Put into the message as a big-endian word it makes the sum `0xFFFF`, which
    is what a receiver tests. The code stores it as a `uint16_t` like any other, low byte first, and
    without the `net_htons` that the other fields get: it is on the wire the wrong way round.

        words of the message, field at 0     s
        stored by the code                   c = 0xFFFF - sum s,  as swap c ≡ 256 · c
        s + swap c ≡ s - 256 · s = -255 · s  a multiple of 65535 = 255 · 257 exactly if 257 ∣ s -/

namespace VlsOs.Net
open Patterns Patterns.Trace VlsOs.Memory

/-! ### What `net_checksum` computes -/

/-- A message as big-endian words; an odd byte at the end counts as a high byte. -/
def bigEndianWords : List UInt8 → List ℕ
  | a :: b :: rest => (a.toNat * 256 + b.toNat) :: bigEndianWords rest
  | [a] => [a.toNat * 256]
  | [] => []

/-- What a receiver tests: the one's-complement sum of the words is `0xFFFF`. -/
def Verifies (message : List UInt8) : Prop :=
  OnesComplement.sum 0xFFFF (bigEndianWords message) = 0xFFFF

theorem bigEndianWords_le : ∀ (l : List UInt8), ∀ w ∈ bigEndianWords l, w ≤ 0xFFFF
  | a :: b :: rest, w, hw => by
    have ha := a.toNat_lt
    have hb := b.toNat_lt
    rcases List.mem_cons.mp hw with rfl | hrest
    · omega
    · exact bigEndianWords_le rest w hrest
  | [a], w, hw => by
    have ha := a.toNat_lt
    obtain rfl : w = a.toNat * 256 := by simpa [bigEndianWords] using hw
    omega
  | [], w, hw => by cases hw

theorem bigEndianWords_append : ∀ {l : List UInt8} (_ : Even l.length) (l' : List UInt8),
    bigEndianWords (l ++ l') = bigEndianWords l ++ bigEndianWords l'
  | a :: b :: rest, h, l' => by
    have hrest : Even rest.length := by simpa [Nat.even_add_one] using h
    simp only [List.cons_append, bigEndianWords, bigEndianWords_append hrest l']
  | [a], h, _ => by simp at h
  | [], _, _ => rfl

/-- The words that the loop adds up: an odd byte at the end is added as it is. -/
def addedWords : List UInt8 → List ℕ
  | a :: b :: rest => (a.toNat * 256 + b.toNat) :: addedWords rest
  | [a] => [a.toNat]
  | [] => []

theorem addedWords_append : ∀ {l : List UInt8} (_ : Even l.length) (l' : List UInt8),
    addedWords (l ++ l') = bigEndianWords l ++ addedWords l'
  | a :: b :: rest, h, l' => by
    have hrest : Even rest.length := by simpa [Nat.even_add_one] using h
    simp only [List.cons_append, addedWords, bigEndianWords, addedWords_append hrest l']
  | [a], h, _ => by simp at h
  | [], _, _ => rfl

theorem addedWords_of_even {l : List UInt8} (heven : Even l.length) :
    addedWords l = bigEndianWords l := by
  have happend := addedWords_append heven []
  rwa [List.append_nil, addedWords, List.append_nil] at happend

theorem addedWords_le : ∀ (l : List UInt8), ∀ w ∈ addedWords l, w ≤ 0xFFFF
  | a :: b :: rest, w, hw => by
    have ha := a.toNat_lt
    have hb := b.toNat_lt
    rcases List.mem_cons.mp hw with rfl | hrest
    · omega
    · exact addedWords_le rest w hrest
  | [a], w, hw => by
    have ha := a.toNat_lt
    obtain rfl : w = a.toNat := by simpa [addedWords] using hw
    omega
  | [], w, hw => by cases hw

/-- A byte adds at most half of the largest word. -/
theorem sum_addedWords_le : ∀ l : List UInt8, 2 * (addedWords l).sum ≤ 65535 * l.length
  | a :: b :: rest => by
    have ha := a.toNat_lt
    have hb := b.toNat_lt
    have hrest := sum_addedWords_le rest
    rw [addedWords, List.sum_cons, List.length_cons, List.length_cons]
    omega
  | [a] => by
    have ha := a.toNat_lt
    simp only [addedWords, List.sum_singleton, List.length_singleton]
    omega
  | [] => by simp [addedWords]

/-- The loop adds the words up, while the sum fits in 32 bits. -/
theorem addWords_toNat : ∀ {l : List UInt8} {sum : UInt32}, sum.toNat + (addedWords l).sum < 2 ^ 32 →
    (addWords l sum).toNat = sum.toNat + (addedWords l).sum
  | a :: b :: rest, sum, hfits => by
    rw [addedWords, List.sum_cons] at hfits
    have hnext : (sum + (netNtohs (word a b)).toUInt32).toNat =
        sum.toNat + (a.toNat * 256 + b.toNat) := by
      have hle := Nat.add_le_add_left (Nat.le_add_right (a.toNat * 256 + b.toNat) (addedWords rest).sum)
        sum.toNat
      rw [UInt32.toNat_add, UInt16.toNat_toUInt32, netNtohs_word]
      exact Nat.mod_eq_of_lt (hle.trans_lt hfits)
    rw [← Nat.add_assoc, ← hnext] at hfits
    rw [addWords, addWords_toNat hfits, hnext, addedWords, List.sum_cons, Nat.add_assoc]
  | [a], sum, hfits => by
    simp only [addedWords, List.sum_singleton] at hfits ⊢
    rw [addWords, UInt32.toNat_add, UInt8.toNat_toUInt32]
    exact Nat.mod_eq_of_lt hfits
  | [], _, _ => rfl

/-- BOUND: up to 131072 bytes the accumulator does not overflow. -/
theorem addWords_zero {l : List UInt8} (hfits : l.length ≤ 131072) :
    (addWords l 0).toNat = (addedWords l).sum := by
  have hsum := sum_addedWords_le l
  have hzero : (0 : UInt32).toNat = 0 := rfl
  rw [addWords_toNat (by rw [hzero]; omega), hzero, Nat.zero_add]

/-- The carry loop ends with the 16-bit word that stands for the sum. -/
theorem represents_foldCarry (sum : UInt32) :
    OnesComplement.Represents 0xFFFF (foldCarry sum).toNat sum.toNat := by
  fun_induction foldCarry sum with
  | case1 sum hdone =>
    have hhigh : sum.toNat / 65536 = 0 := by rw [← toNat_carry, hdone]; rfl
    exact OnesComplement.represents_self (by omega)
  | case2 sum _ ih =>
    rw [toNat_add_carry] at ih
    have hcarry := ih.carry
    rwa [Nat.mod_add_div] at hcarry

/-- SPEC of `net_checksum`: the complement of the one's-complement sum of what it adds. -/
theorem netChecksum_toNat {l : List UInt8} (hfits : l.length ≤ 131072) :
    (netChecksum l).toNat = 0xFFFF - OnesComplement.sum 0xFFFF (addedWords l) := by
  have hfold := represents_foldCarry (addWords l 0)
  have hle := hfold.le
  rw [addWords_zero hfits] at hfold
  rw [(OnesComplement.represents_sum (addedWords_le l)).unique (by decide) hfold, netChecksum,
    UInt32.toNat_toUInt16, UInt32.toNat_not]
  show (4294967296 - 1 - _) % 65536 = _
  omega

/-- The same as an equation, for evaluation. -/
theorem netChecksum_eq {l : List UInt8} (hfits : l.length ≤ 131072) :
    netChecksum l = UInt16.ofNat (0xFFFF - OnesComplement.sum 0xFFFF (addedWords l)) := by
  rw [← netChecksum_toNat hfits, UInt16.ofNat_toNat]

/-- CORRECT: `net_checksum` answers `0` exactly on the messages of whole words that verify. -/
theorem netChecksum_eq_zero_iff {l : List UInt8} (heven : Even l.length)
    (hfits : l.length ≤ 131072) : netChecksum l = 0 ↔ Verifies l := by
  have hle := (OnesComplement.represents_sum (bigEndianWords_le l)).le
  rw [← UInt16.toNat_inj, netChecksum_toNat hfits, addedWords_of_even heven, Verifies]
  show _ - _ = 0 ↔ _
  omega

/-! ### A checksum stored the wrong way round -/

/-- The sum of a message with a field in it that was stored without a swap. -/
theorem sum_field {pre post : List UInt8} (hpre : Even pre.length) (v : UInt16) :
    (bigEndianWords (pre ++ wordBytes v ++ post)).sum =
      (bigEndianWords pre).sum + (bigEndianWords post).sum + OnesComplement.swap 256 v.toNat := by
  have hv : bigEndianWords (wordBytes v ++ post) =
      OnesComplement.swap 256 v.toNat :: bigEndianWords post := by
    rw [OnesComplement.swap, ← Libc.toNat_high_byte, ← UInt16.toNat_toUInt8]
    rfl
  rw [List.append_assoc, bigEndianWords_append hpre, hv, List.sum_append, List.sum_cons]
  ring

/-- EXACT: a message whose checksum field got what `net_checksum` returned for it, unswapped, behind words
    that the checksum does not cover. -/
theorem verifies_sealed_iff {before pre post : List UInt8} (hbefore : Even before.length)
    (hpre : Even pre.length) (hpost : Even post.length) (hfits : pre.length + 2 + post.length ≤ 131072) :
    Verifies (before ++ (pre ++ wordBytes (netChecksum (pre ++ wordBytes 0 ++ post)) ++ post)) ↔
      255 * ((bigEndianWords pre).sum + (bigEndianWords post).sum) ≡ (bigEndianWords before).sum
        [MOD 65535] := by
  have heven : Even (pre ++ wordBytes 0 ++ post).length := by
    simp [hpre, hpost, Nat.even_add]
  have hlength : (pre ++ wordBytes 0 ++ post).length ≤ 131072 := by
    simpa [Nat.add_assoc] using hfits
  have hzero : (bigEndianWords (pre ++ wordBytes 0 ++ post)).sum =
      (bigEndianWords pre).sum + (bigEndianWords post).sum := sum_field hpre 0
  have hopen := OnesComplement.represents_sum (bigEndianWords_le (pre ++ wordBytes 0 ++ post))
  have hsealed := OnesComplement.represents_sum (bigEndianWords_le
    (before ++ (pre ++ wordBytes (netChecksum (pre ++ wordBytes 0 ++ post)) ++ post)))
  rw [Verifies, hsealed.eq_max_iff (by decide), bigEndianWords_append hbefore, List.sum_append,
    sum_field hpre, netChecksum_toNat hlength, addedWords_of_even heven]
  rw [hzero] at hopen
  rw [OnesComplement.dvd_add_swap_iff (by decide) rfl hopen]
  -- the sum is not zero: the complement of the sum zero is the full word
  refine and_iff_left (Nat.add_pos_right _ ?_)
  rcases Nat.eq_zero_or_pos ((bigEndianWords pre).sum + (bigEndianWords post).sum) with hs | hs
  · have hr : ¬0 < OnesComplement.sum 0xFFFF (bigEndianWords (pre ++ wordBytes 0 ++ post)) :=
      fun hr => absurd (hopen.pos.mp hr) (by omega)
    rw [Nat.eq_zero_of_not_pos hr]
    exact Nat.add_pos_right _ (by decide)
  · exact Nat.add_pos_left hs _

/-- … and by itself: it verifies exactly if 257 divides the sum of its other words. -/
theorem netChecksum_sealed_iff {pre post : List UInt8} (hpre : Even pre.length)
    (hpost : Even post.length) (hfits : pre.length + 2 + post.length ≤ 131072) :
    netChecksum (pre ++ wordBytes (netChecksum (pre ++ wordBytes 0 ++ post)) ++ post) = 0 ↔
      257 ∣ (bigEndianWords pre).sum + (bigEndianWords post).sum := by
  have hsealed := @verifies_sealed_iff [] pre post (by decide) hpre hpost hfits
  rw [List.nil_append] at hsealed
  rw [netChecksum_eq_zero_iff (by simp [hpre, hpost, Nat.even_add]) (by simpa [Nat.add_assoc] using hfits),
    hsealed]
  exact OnesComplement.mul_modEq_zero_iff (b := 256) (by decide) rfl

/-! ### On the wire -/

/-- The words of the IPv4 header that `ip_send_packet` writes, other than the checksum. -/
def headerSum (src dest : Ipv4Addr) (proto : UInt8) (len : ℕ) : ℕ :=
  0x4500 + (20 + len) + (0x4000 + proto.toNat) + (bigEndianWords src.toList).sum +
    (bigEndianWords dest.toList).sum

theorem ipv4HeaderSealed_verifies_iff (src dest : Ipv4Addr) (proto : UInt8) {len : UInt16}
    (hlen : len.toNat ≤ 65501) :
    netChecksum (ipv4HeaderSealed src dest proto len).bytes = 0 ↔
      257 ∣ headerSum src dest proto len.toNat := by
  have htotal : OnesComplement.swap 256 (netHtons (ipv4HdrSize + len)).toNat = 20 + len.toNat := by
    have hsum : (ipv4HdrSize + len).toNat = 20 + len.toNat :=
      toNat_add_of_fits (by show 20 + len.toNat < 65536; omega)
    rw [OnesComplement.swap, netHtons_toNat, hsum]
    omega
  let pre : List UInt8 := [0x45, 0] ++ wordBytes (netHtons (ipv4HdrSize + len)) ++
    [0, 0, 0, 0, 64, proto]
  have hbytes (checksum : UInt16) :
      ({ ipv4Header src dest proto len with checksum := checksum } : Ipv4Hdr).bytes =
        pre ++ wordBytes checksum ++ (src.toList ++ dest.toList) := by
    have hversion : ((4 : UInt8) <<< 4) ||| 5 = 0x45 := rfl
    simp [Ipv4Hdr.bytes, ipv4Header, pre, wordBytes, hversion]
  have hpre : (bigEndianWords pre).sum = 0x4500 + (20 + len.toNat) + (0x4000 + proto.toNat) := by
    have hrest : (bigEndianWords [0, 0, 0, 0, 64, proto]).sum = 0x4000 + proto.toNat := by
      simp [bigEndianWords]
    rw [sum_field (by decide), htotal, hrest]
    exact Nat.add_right_comm ..
  have hpost : (bigEndianWords (src.toList ++ dest.toList)).sum =
      (bigEndianWords src.toList).sum + (bigEndianWords dest.toList).sum := by
    rw [bigEndianWords_append (by simp; decide), List.sum_append]
  have hsealed := @netChecksum_sealed_iff pre (src.toList ++ dest.toList) (by simp [pre]; decide)
    (by simp; decide) (by simp [pre])
  rw [← hbytes, ← hbytes, hpre, hpost, ← Nat.add_assoc] at hsealed
  exact hsealed

/-- The words of the echo request add up to 68405, which is 43 modulo 257. -/
theorem echoRequest_unverified : netChecksum echoRequest ≠ 0 := by
  let post : List UInt8 := wordBytes (netHtons 0x1234) ++ wordBytes (netHtons 1) ++
    (List.range 32).map UInt8.ofNat
  have hmessage (checksum : UInt16) :
      echoMessage checksum = [8, 0] ++ wordBytes checksum ++ post := rfl
  have hsealed := @netChecksum_sealed_iff [8, 0] post (by decide) (by decide) (by decide)
  rw [← hmessage, ← hmessage] at hsealed
  exact fun h => absurd (hsealed.mp h) (by decide)

/-- `icmp_send_echo_request` passes one IPv4 frame to the driver, with its message at offset 34. -/
theorem ipv4Frames_icmpSendEchoRequest {s : NetState} {iface : NetInterface}
    (hiface : netGetInterface s eth0 = some iface) (hup : iface.Sends)
    (hicmp : (malloc s.heap (icmpHdrSize.toUInt32 + 32)).1 ≠ null)
    (hip : (malloc (malloc s.heap (icmpHdrSize.toUInt32 + 32)).2
      (ethernetHdrSize + ipv4HdrSize + (icmpHdrSize + 32)).toUInt32).1 ≠ null) (dest : Ipv4Addr) :
    ∃ destMac, ipv4Frames (icmpSendEchoRequest s dest).events =
      [ipv4Frame destMac iface.macAddr iface.ipAddr dest ipProtoIcmp echoRequest
        (icmpHdrSize + 32)] := by
  let filled : NetState :=
    { s with heap := (malloc s.heap (icmpHdrSize.toUInt32 + 32)).2
             mem := store s.mem (malloc s.heap (icmpHdrSize.toUInt32 + 32)).1 echoRequest }
  obtain ⟨destMac, hsent⟩ := @ipv4Frames_ipSendPacket_buffer filled iface hiface hup
    (icmpHdrSize + 32) echoRequest rfl (by decide) hip dest ipProtoIcmp
  refine ⟨destMac, ?_⟩
  unfold icmpSendEchoRequest
  dsimp only
  rw [if_neg hicmp]
  simp only [events_bind, ipv4Frames_append, events_pure]
  exact congrArg (· ++ []) hsent

/-- The IP header of a frame of `ip_send_packet`, and what follows it. -/
theorem parts_ipv4Frame (destMac srcMac : MacAddr) (src dest : Ipv4Addr) (proto : UInt8)
    (payload : List UInt8) (len : UInt16) :
    ((ipv4Frame destMac srcMac src dest proto payload len).drop 14).take 20 =
        (ipv4HeaderSealed src dest proto len).bytes ∧
      (ipv4Frame destMac srcMac src dest proto payload len).drop 34 = payload := by
  constructor
  · rw [ipv4Frame, List.append_assoc, List.drop_left' (length_ethernetHdr _),
      List.take_left' (length_ipv4Hdr _)]
  · exact List.drop_left' (by simp)

/-- EXACT: in the IPv4 frame that `ip_send_packet` passes to the driver the header verifies exactly
    if 257 divides the sum of its words other than the checksum. The message that
    `icmp_send_echo_request` sends is a fixed one, and does not verify. -/
theorem sent_checksums_verify_iff {s : NetState} {iface : NetInterface}
    (hiface : netGetInterface s eth0 = some iface) (hup : iface.Sends) :
    (∀ (dest : Ipv4Addr) (proto : UInt8) (data : ℕ → UInt8) (len : UInt16), len.toNat ≤ 65501 →
      (malloc s.heap (ethernetHdrSize + ipv4HdrSize + len).toUInt32).1 ≠ null →
      ∃ frame, ipv4Frames (ipSendPacket s dest proto data len).events = [frame] ∧
        (Verifies ((frame.drop 14).take 20) ↔ 257 ∣ headerSum iface.ipAddr dest proto len.toNat) ∧
        (netChecksum ((frame.drop 14).take 20) = 0 ↔
          257 ∣ headerSum iface.ipAddr dest proto len.toNat)) ∧
    ∀ dest : Ipv4Addr, (malloc s.heap (icmpHdrSize.toUInt32 + 32)).1 ≠ null →
      (malloc (malloc s.heap (icmpHdrSize.toUInt32 + 32)).2
        (ethernetHdrSize + ipv4HdrSize + (icmpHdrSize + 32)).toUInt32).1 ≠ null →
      ∃ frame, ipv4Frames (icmpSendEchoRequest s dest).events = [frame] ∧
        ¬Verifies (frame.drop 34) ∧ netChecksum (frame.drop 34) ≠ 0 := by
  constructor
  · intro dest proto data len hlen hmalloc
    have hbytes : (ipv4HeaderSealed iface.ipAddr dest proto len).bytes.length = 20 :=
      length_ipv4Hdr _
    have hverifies := ipv4HeaderSealed_verifies_iff iface.ipAddr dest proto hlen
    obtain ⟨destMac, hsent⟩ :=
      ipv4Frames_ipSendPacket hiface hup (by omega) hmalloc dest proto data
    refine ⟨_, hsent, ?_⟩
    rw [(parts_ipv4Frame ..).1, ← netChecksum_eq_zero_iff (by rw [hbytes]; decide) (by omega)]
    exact ⟨hverifies, hverifies⟩
  · intro dest hicmp hip
    obtain ⟨destMac, hsent⟩ := ipv4Frames_icmpSendEchoRequest hiface hup hicmp hip dest
    refine ⟨_, hsent, ?_⟩
    rw [(parts_ipv4Frame ..).2, ← netChecksum_eq_zero_iff (by decide) (by decide)]
    exact ⟨echoRequest_unverified, echoRequest_unverified⟩

/-- A segment of 45 bytes to 192.168.1.1 is one that gets a header that verifies. -/
theorem sent_checksums_verify_by_chance :
    ∃ frame, ipv4Frames (ipSendPacket sampleHost #v[192, 168, 1, 1] ipProtoUdp (fun _ => 0) 45).events =
        [frame] ∧ Verifies ((frame.drop 14).take 20) := by
  obtain ⟨frame, hsent, hverifies, -⟩ :=
    (sent_checksums_verify_iff (s := sampleHost) rfl ⟨rfl, by decide⟩).1 #v[192, 168, 1, 1] ipProtoUdp
      (fun _ => 0) 45 (by decide) (by decide)
  exact ⟨frame, hsent, hverifies.mpr (by decide)⟩

/-- The echo request to 192.168.1.1: neither the checksum of its IP header nor its own is right. -/
theorem echo_checksums_wrong :
    ∃ frame, ipv4Frames (icmpSendEchoRequest sampleHost #v[192, 168, 1, 1]).events = [frame] ∧
      (frame.drop 14).take 20 =
        [0x45, 0, 0, 60, 0, 0, 0, 0, 64, 1, 0x0B, 0xF7, 192, 168, 1, 100, 192, 168, 1, 1] ∧
      netChecksum ((frame.drop 14).take 20) = 60180 ∧ netChecksum (frame.drop 34) = 10965 := by
  have hheader : (ipv4HeaderSealed #v[192, 168, 1, 100] #v[192, 168, 1, 1] ipProtoIcmp
      (icmpHdrSize + 32)).bytes =
        [0x45, 0, 0, 60, 0, 0, 0, 0, 64, 1, 0x0B, 0xF7, 192, 168, 1, 100, 192, 168, 1, 1] := by
    rw [ipv4HeaderSealed, netChecksum_eq (by decide)]
    decide
  have hmessage : netChecksum echoRequest = 10965 := by
    rw [netChecksum_eq (by decide), echoRequest, netChecksum_eq (by decide)]
    decide +kernel
  obtain ⟨destMac, hsent⟩ :=
    @ipv4Frames_icmpSendEchoRequest sampleHost _ rfl ⟨rfl, by decide⟩ (by decide) (by decide)
      #v[192, 168, 1, 1]
  refine ⟨_, hsent, ?_⟩
  rw [(parts_ipv4Frame ..).1, (parts_ipv4Frame ..).2, hheader, netChecksum_eq (by decide)]
  exact ⟨rfl, by decide, hmessage⟩

end VlsOs.Net
