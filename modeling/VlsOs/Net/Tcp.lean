import VlsOs.Net.Checksum

/-! TCP segments (`tcp_send_packet` of `net/tcp.c`).

    A segment goes the way of a UDP segment: header and payload into a buffer, then `ip_send_packet`.
    The receiver's handler gets it whole. The checksum is that of the segment alone, without the
    pseudo-header that the source mentions and that a receiver takes into account, and it is stored as
    all checksums are: low byte first.

        34          36          38         42        46        47      48       50        52      54
        ├─ src_port ┼ dest_port ┼ seq_num ─┼ ack_num ┼─ 0x50 ──┼ flags ┼ 0xFFFF ┼ checksum ┼─ 0 ──┼─ payload -/

namespace VlsOs.Net
open Patterns Patterns.Trace VlsOs.Memory

/-! ### 32-bit fields -/

def netHtonl (value : UInt32) : UInt32 :=
  ((value &&& 0xFF) <<< 24) ||| ((value &&& 0xFF00) <<< 8) |||
    ((value >>> 8) &&& (0xFF00 : UInt32)) ||| ((value >>> 24) &&& (0xFF : UInt32))

/-- A `uint32_t` in memory, low byte first. -/
def dwordBytes (v : UInt32) : List UInt8 :=
  [v.toUInt8, (v >>> 8).toUInt8, (v >>> 16).toUInt8, (v >>> 24).toUInt8]

@[simp] theorem length_dwordBytes (v : UInt32) : (dwordBytes v).length = 4 := rfl

/-- The number that four bytes stand for on the wire, high byte first. -/
def bigEndian (a b c d : UInt8) : ℕ :=
  a.toNat * 2 ^ 24 + b.toNat * 2 ^ 16 + c.toNat * 2 ^ 8 + d.toNat

/-- The second byte of a number, in its place. -/
theorem and_second_byte (n : ℕ) : n &&& 0xFF00 = (n / 256 % 256) <<< 8 := by
  have hmask : 0xFF00 = (2 ^ 8 - 1) <<< 8 := rfl
  have hbyte : n / 256 % 256 = (n >>> 8) % 2 ^ 8 := by
    rw [Nat.shiftRight_eq_div_pow]
    rfl
  rw [hmask, hbyte]
  refine Nat.eq_of_testBit_eq fun i => ?_
  simp only [Nat.testBit_and, Nat.testBit_shiftLeft, Nat.testBit_mod_two_pow, Nat.testBit_shiftRight,
    Nat.testBit_two_pow_sub_one]
  by_cases hi : 8 ≤ i
  · rw [Nat.add_sub_cancel' hi]
    simp [hi, Bool.and_comm]
  · simp [hi]

/-- The bytes of the swapped word, from the low one up, are those of the word from the high one down. -/
theorem netHtonl_toNat (v : UInt32) : (netHtonl v).toNat =
    v.toNat % 256 * 2 ^ 24 + v.toNat / 2 ^ 8 % 256 * 2 ^ 16 + v.toNat / 2 ^ 16 % 256 * 2 ^ 8 +
      v.toNat / 2 ^ 24 := by
  have hv : v.toNat < 2 ^ 32 := v.toNat_lt
  have hfirst : ((v &&& 0xFF) <<< 24).toNat = (v.toNat % 256) <<< 24 := by
    have hlow : (v &&& 0xFF).toNat = v.toNat % 256 := by
      rw [UInt32.toNat_and]
      exact Nat.and_two_pow_sub_one_eq_mod v.toNat 8
    rw [UInt32.toNat_shiftLeft, hlow]
    refine Nat.mod_eq_of_lt ?_
    show (v.toNat % 256) <<< 24 < 2 ^ 32
    rw [Nat.shiftLeft_eq]
    omega
  have hsecond : ((v &&& 0xFF00) <<< 8).toNat = (v.toNat / 2 ^ 8 % 256) <<< 16 := by
    have hmid : (v &&& 0xFF00).toNat = (v.toNat / 2 ^ 8 % 256) <<< 8 := by
      rw [UInt32.toNat_and]
      exact and_second_byte v.toNat
    rw [UInt32.toNat_shiftLeft, hmid]
    show (v.toNat / 2 ^ 8 % 256) <<< 8 <<< 8 % 2 ^ 32 = _
    rw [← Nat.shiftLeft_add]
    refine Nat.mod_eq_of_lt ?_
    rw [Nat.shiftLeft_eq]
    omega
  have hthird : ((v >>> 8) &&& (0xFF00 : UInt32)).toNat = (v.toNat / 2 ^ 16 % 256) <<< 8 := by
    rw [UInt32.toNat_and, UInt32.toNat_shiftRight]
    refine (and_second_byte _).trans ?_
    rw [Nat.shiftRight_eq_div_pow, Nat.div_div_eq_div_mul]
    rfl
  have hfourth : ((v >>> 24) &&& (0xFF : UInt32)).toNat = v.toNat / 2 ^ 24 := by
    rw [UInt32.toNat_and, UInt32.toNat_shiftRight]
    refine (Nat.and_two_pow_sub_one_eq_mod _ 8).trans ?_
    rw [Nat.shiftRight_eq_div_pow]
    exact Nat.mod_eq_of_lt (by show v.toNat / 2 ^ 24 < _; omega)
  -- each byte stands above all that are joined to it
  have hlow : (v.toNat / 2 ^ 16 % 256) <<< 8 ||| v.toNat / 2 ^ 24 =
      v.toNat / 2 ^ 16 % 256 * 2 ^ 8 + v.toNat / 2 ^ 24 := by
    rw [← Nat.shiftLeft_add_eq_or_of_lt (by omega), Nat.shiftLeft_eq]
  have hmid : (v.toNat / 2 ^ 8 % 256) <<< 16 |||
        (v.toNat / 2 ^ 16 % 256 * 2 ^ 8 + v.toNat / 2 ^ 24) =
      v.toNat / 2 ^ 8 % 256 * 2 ^ 16 + (v.toNat / 2 ^ 16 % 256 * 2 ^ 8 + v.toNat / 2 ^ 24) := by
    rw [← Nat.shiftLeft_add_eq_or_of_lt (by omega), Nat.shiftLeft_eq]
  rw [netHtonl, UInt32.toNat_or, UInt32.toNat_or, UInt32.toNat_or, hfirst, hsecond, hthird, hfourth,
    Nat.or_assoc, Nat.or_assoc, hlow, hmid, ← Nat.shiftLeft_add_eq_or_of_lt (by omega),
    Nat.shiftLeft_eq, Nat.add_assoc, Nat.add_assoc]

/-- Reversing the order of four bytes twice. -/
theorem reversed_bytes {n m : ℕ} (hn : n < 2 ^ 32)
    (hm : m = n % 256 * 2 ^ 24 + n / 2 ^ 8 % 256 * 2 ^ 16 + n / 2 ^ 16 % 256 * 2 ^ 8 + n / 2 ^ 24) :
    m % 256 * 2 ^ 24 + m / 2 ^ 8 % 256 * 2 ^ 16 + m / 2 ^ 16 % 256 * 2 ^ 8 + m / 2 ^ 24 % 256 = n := by
  have hsecond : n / 2 ^ 8 / 256 = n / 2 ^ 16 := Nat.div_div_eq_div_mul ..
  have hthird : n / 2 ^ 16 / 256 = n / 2 ^ 24 := Nat.div_div_eq_div_mul ..
  have hbytes : n = n % 256 + n / 2 ^ 8 % 256 * 2 ^ 8 + n / 2 ^ 16 % 256 * 2 ^ 16 +
      n / 2 ^ 24 * 2 ^ 24 := by omega
  have ha : n % 256 < 256 := Nat.mod_lt _ (by decide)
  have hb : n / 2 ^ 8 % 256 < 256 := Nat.mod_lt _ (by decide)
  have hc : n / 2 ^ 16 % 256 < 256 := Nat.mod_lt _ (by decide)
  have hd : n / 2 ^ 24 < 256 := by omega
  clear hsecond hthird
  generalize n % 256 = a at *
  generalize n / 2 ^ 8 % 256 = b at *
  generalize n / 2 ^ 16 % 256 = c at *
  generalize n / 2 ^ 24 = d at *
  have h8 : m / 2 ^ 8 = a * 2 ^ 16 + b * 2 ^ 8 + c := by omega
  have h16 : m / 2 ^ 16 = a * 2 ^ 8 + b := by omega
  have h24 : m / 2 ^ 24 = a := by omega
  have m0 : m % 256 = d := by omega
  have m8 : m / 2 ^ 8 % 256 = c := by rw [h8]; omega
  have m16 : m / 2 ^ 16 % 256 = b := by rw [h16]; omega
  rw [m0, m8, m16, h24, Nat.mod_eq_of_lt ha, hbytes]
  omega

/-- A field that was swapped and stored is the number on the wire. -/
theorem bigEndian_of_stretch {wire : ℕ → UInt8} {offset : ℕ} {v : UInt32}
    (h : Blocks.stretch wire offset 4 = dwordBytes (netHtonl v)) :
    bigEndian (wire offset) (wire (offset + 1)) (wire (offset + 2)) (wire (offset + 3)) = v.toNat := by
  obtain ⟨h0, h1, h2, h3⟩ : wire offset = (netHtonl v).toUInt8 ∧
      wire (offset + 1) = (netHtonl v >>> 8).toUInt8 ∧
      wire (offset + 2) = (netHtonl v >>> 16).toUInt8 ∧
      wire (offset + 3) = (netHtonl v >>> 24).toUInt8 := by
    simpa [Blocks.stretch, List.range_succ, dwordBytes] using h
  have hbyte (k : UInt32) (hk : k.toNat < 32) :
      (netHtonl v >>> k).toUInt8.toNat = (netHtonl v).toNat / 2 ^ k.toNat % 256 := by
    rw [UInt32.toNat_toUInt8, UInt32.toNat_shiftRight, Nat.shiftRight_eq_div_pow,
      Nat.mod_eq_of_lt hk]
  rw [bigEndian, h0, h1, h2, h3, UInt32.toNat_toUInt8, hbyte 8 (by decide), hbyte 16 (by decide),
    hbyte 24 (by decide)]
  exact reversed_bytes v.toNat_lt (netHtonl_toNat v)

/-! ### The sender -/

def ipProtoTcp : UInt8 := 6

structure TcpHdr where
  srcPort : UInt16
  destPort : UInt16
  seqNum : UInt32
  ackNum : UInt32
  dataOffset : UInt8
  flags : UInt8
  windowSize : UInt16
  checksum : UInt16
  urgentPointer : UInt16

def TcpHdr.bytes (h : TcpHdr) : List UInt8 :=
  wordBytes h.srcPort ++ wordBytes h.destPort ++ dwordBytes h.seqNum ++ dwordBytes h.ackNum ++
    [h.dataOffset, h.flags] ++ wordBytes h.windowSize ++ wordBytes h.checksum ++
    wordBytes h.urgentPointer

/-- What a segment says apart from its payload: the arguments of `tcp_send_packet`. -/
structure TcpFields where
  srcPort : UInt16
  destPort : UInt16
  seqNum : UInt32
  ackNum : UInt32
  flags : UInt8

/-- The header and the payload in the buffer, with `checksum` in the field. -/
def tcpMessage (f : TcpFields) (data : ℕ → UInt8) (len checksum : UInt16) : List UInt8 :=
  let tcp : TcpHdr :=
    { srcPort := netHtons f.srcPort, destPort := netHtons f.destPort, seqNum := netHtonl f.seqNum
      ackNum := netHtonl f.ackNum, dataOffset := (5 : UInt8) <<< 4, flags := f.flags
      windowSize := netHtons 65535, checksum := checksum, urgentPointer := 0 }
  tcp.bytes ++ Blocks.stretch data 0 len.toNat

/-- What is sent: the checksum is that of the message with the field at `0`. -/
def tcpSegment (f : TcpFields) (data : ℕ → UInt8) (len : UInt16) : List UInt8 :=
  tcpMessage f data len (netChecksum (tcpMessage f data len 0))

def tcpSendPacket (s : NetState) (dest : Ipv4Addr) (f : TcpFields) (data : ℕ → UInt8) (len : UInt16) :
    Traced RxEvent NetState :=
  let (buffer, heap) := malloc s.heap (tcpHdrSize.toUInt32 + len.toUInt32)
  if buffer = null then return s
  else do
    let segment := tcpSegment f data len
    let s := { s with heap := heap, mem := store s.mem buffer segment }
    let s ← ipSendPacket s dest ipProtoTcp (fun i => segment.getD i 0) (tcpHdrSize + len)
    return { s with heap := free s.heap buffer }

@[simp] theorem length_tcpMessage (f : TcpFields) (data : ℕ → UInt8) (len checksum : UInt16) :
    (tcpMessage f data len checksum).length = 20 + len.toNat := by
  simp only [tcpMessage, TcpHdr.bytes, List.length_append, length_wordBytes, length_dwordBytes,
    List.length_cons, List.length_nil, Blocks.length_stretch]

theorem tcpLength_toNat {len : UInt16} (h : len.toNat ≤ 65481) :
    (tcpHdrSize + len).toNat = 20 + len.toNat :=
  toNat_add_of_fits (by show 20 + len.toNat < 65536; omega)

/-- SPEC of `tcp_send_packet` on an interface that is up and with memory: one IPv4 frame with the
    segment in it. -/
theorem ipv4Frames_tcpSendPacket {s : NetState} {iface : NetInterface}
    (hiface : netGetInterface s eth0 = some iface) (hup : iface.Sends) {len : UInt16}
    (hlen : len.toNat ≤ 65481)
    (htcp : (malloc s.heap (tcpHdrSize.toUInt32 + len.toUInt32)).1 ≠ null)
    (hip : (malloc (malloc s.heap (tcpHdrSize.toUInt32 + len.toUInt32)).2
      (ethernetHdrSize + ipv4HdrSize + (tcpHdrSize + len)).toUInt32).1 ≠ null)
    (dest : Ipv4Addr) (f : TcpFields) (data : ℕ → UInt8) :
    ∃ destMac, ipv4Frames (tcpSendPacket s dest f data len).events =
      [ipv4Frame destMac iface.macAddr iface.ipAddr dest ipProtoTcp (tcpSegment f data len)
        (tcpHdrSize + len)] := by
  have hsize := tcpLength_toNat hlen
  let filled : NetState :=
    { s with heap := (malloc s.heap (tcpHdrSize.toUInt32 + len.toUInt32)).2
             mem := store s.mem (malloc s.heap (tcpHdrSize.toUInt32 + len.toUInt32)).1
               (tcpSegment f data len) }
  obtain ⟨destMac, hsent⟩ := @ipv4Frames_ipSendPacket_buffer filled iface hiface hup (tcpHdrSize + len)
    (tcpSegment f data len) (by rw [tcpSegment, length_tcpMessage, hsize]) (by omega) hip dest ipProtoTcp
  refine ⟨destMac, ?_⟩
  unfold tcpSendPacket
  dsimp only
  rw [if_neg htcp]
  simp only [events_bind, ipv4Frames_append, events_pure]
  exact congrArg (· ++ []) hsent

/-! ### The receiver -/

/-- The fields and the payload of a TCP segment at `offset`, as a receiver reads them. -/
structure TcpCarried (wire : ℕ → UInt8) (offset : ℕ) (f : TcpFields) (data : ℕ → UInt8) (len : ℕ) :
    Prop where
  srcPort : netNtohs (word (wire offset) (wire (offset + 1))) = f.srcPort
  destPort : netNtohs (word (wire (offset + 2)) (wire (offset + 3))) = f.destPort
  seqNum : bigEndian (wire (offset + 4)) (wire (offset + 5)) (wire (offset + 6)) (wire (offset + 7)) =
    f.seqNum.toNat
  ackNum : bigEndian (wire (offset + 8)) (wire (offset + 9)) (wire (offset + 10)) (wire (offset + 11)) =
    f.ackNum.toNat
  dataOffset : (wire (offset + 12) >>> 4).toNat * 4 = 20
  flags : wire (offset + 13) = f.flags
  window : netNtohs (word (wire (offset + 14)) (wire (offset + 15))) = 65535
  payload : Blocks.stretch wire (offset + 20) len = Blocks.stretch data 0 len

theorem tcpCarried_of_stretch {wire : ℕ → UInt8} {n offset : ℕ} {f : TcpFields} {data : ℕ → UInt8}
    {len checksum : UInt16} (h : Blocks.stretch wire offset n = tcpMessage f data len checksum) :
    TcpCarried wire offset f data len.toNat := by
  obtain ⟨htcp, hpayload⟩ := Blocks.stretch_eq_append h
  obtain ⟨htcp, -⟩ := Blocks.stretch_eq_append htcp
  obtain ⟨htcp, -⟩ := Blocks.stretch_eq_append htcp
  obtain ⟨htcp, hwindow⟩ := Blocks.stretch_eq_append htcp
  obtain ⟨htcp, hoffset⟩ := Blocks.stretch_eq_append htcp
  obtain ⟨htcp, hack⟩ := Blocks.stretch_eq_append htcp
  obtain ⟨htcp, hseq⟩ := Blocks.stretch_eq_append htcp
  obtain ⟨hsrc, hdest⟩ := Blocks.stretch_eq_append htcp
  rw [Blocks.length_stretch] at hpayload
  simp only [TcpHdr.bytes, List.length_append, length_wordBytes, length_dwordBytes, List.length_cons,
    List.length_nil] at hpayload hwindow hoffset hack hseq hsrc hdest
  have hfirst : wire (offset + 12) = (5 : UInt8) <<< 4 := congrArg (·.getD 0 0) hoffset
  exact
    { srcPort := netNtohs_of_stretch hsrc
      destPort := netNtohs_of_stretch hdest
      seqNum := bigEndian_of_stretch hseq
      ackNum := bigEndian_of_stretch hack
      dataOffset := by rw [hfirst]; decide
      flags := congrArg (·.getD 1 0) hoffset
      window := netNtohs_of_stretch hwindow
      payload := hpayload }

/-- The words of a segment other than the checksum. -/
def tcpSum (f : TcpFields) (data : ℕ → UInt8) (len : UInt16) : ℕ :=
  (bigEndianWords (tcpMessage f data len 0)).sum

/-- The pseudo-header: the two addresses, the protocol and the length of the segment. -/
def pseudoHeader (addresses : List UInt8) (proto : UInt8) (length : UInt16) : List UInt8 :=
  addresses ++ [0, proto] ++ wordBytes (netHtons length)

/-- What a receiver of TCP tests in a frame: the words of the segment together with those of its
    pseudo-header. -/
def TcpVerifies (wire : ℕ → UInt8) (passed : UInt16) : Prop :=
  Verifies (pseudoHeader (Blocks.stretch wire 26 8) (wire 23) passed ++
    Blocks.stretch wire 34 passed.toNat)

/-- The words of the pseudo-header of a segment. -/
def pseudoSum (src dest : Ipv4Addr) (len : UInt16) : ℕ :=
  (bigEndianWords src.toList).sum + (bigEndianWords dest.toList).sum + 6 + (20 + len.toNat)

theorem sum_pseudoHeader (src dest : Ipv4Addr) {len : UInt16} (hlen : len.toNat ≤ 65481) :
    (bigEndianWords (pseudoHeader (src.toList ++ dest.toList) ipProtoTcp (tcpHdrSize + len))).sum =
      pseudoSum src dest len := by
  have hlength : OnesComplement.swap 256 (netHtons (tcpHdrSize + len)).toNat = 20 + len.toNat := by
    rw [OnesComplement.swap, netHtons_toNat, tcpLength_toNat hlen]
    omega
  have hfield := @sum_field (src.toList ++ dest.toList ++ [0, ipProtoTcp]) []
    (by simp; decide) (netHtons (tcpHdrSize + len))
  have hproto : (bigEndianWords [0, ipProtoTcp]).sum = 6 := by decide
  rw [List.append_nil] at hfield
  rw [pseudoHeader, hfield, hlength, bigEndianWords_append (by simp; decide),
    bigEndianWords_append (by simp; decide), List.sum_append, List.sum_append, hproto]
  simp only [pseudoSum, bigEndianWords, List.sum_nil, Nat.add_zero]

/-- EXACT: a segment of whole words verifies behind its pseudo-header exactly if the words of the
    pseudo-header stand for 255 times the other words of the segment. -/
theorem tcpSegment_verifies_iff (src dest : Ipv4Addr) (f : TcpFields) (data : ℕ → UInt8) {len : UInt16}
    (hlen : len.toNat ≤ 65481) (heven : Even len.toNat) :
    Verifies (pseudoHeader (src.toList ++ dest.toList) ipProtoTcp (tcpHdrSize + len) ++
        tcpSegment f data len) ↔
      255 * tcpSum f data len ≡ pseudoSum src dest len [MOD 65535] := by
  let pre : List UInt8 := wordBytes (netHtons f.srcPort) ++ wordBytes (netHtons f.destPort) ++
    dwordBytes (netHtonl f.seqNum) ++ dwordBytes (netHtonl f.ackNum) ++ [(5 : UInt8) <<< 4, f.flags] ++
    wordBytes (netHtons 65535)
  let post : List UInt8 := wordBytes 0 ++ Blocks.stretch data 0 len.toNat
  have hmessage (checksum : UInt16) :
      tcpMessage f data len checksum = pre ++ wordBytes checksum ++ post := by
    simp only [tcpMessage, TcpHdr.bytes, pre, post, List.append_assoc]
  have hpre : Even pre.length := by
    have hlength : pre.length = 16 := rfl
    rw [hlength]
    decide
  have hpost : Even post.length := by
    have hlength : post.length = 2 + len.toNat := by simp [post]
    rw [hlength]
    exact (by decide : Even 2).add heven
  have hpseudo : Even (pseudoHeader (src.toList ++ dest.toList) ipProtoTcp (tcpHdrSize + len)).length := by
    simp [pseudoHeader]
    decide
  have hsum : tcpSum f data len = (bigEndianWords pre).sum + (bigEndianWords post).sum := by
    have hzero : OnesComplement.swap 256 (0 : UInt16).toNat = 0 := by decide
    rw [tcpSum, hmessage, sum_field hpre, hzero, Nat.add_zero]
  rw [tcpSegment, hmessage, hmessage, hsum, ← sum_pseudoHeader src dest hlen]
  exact verifies_sealed_iff hpseudo hpre hpost (by simp [pre, post]; omega)

/-- The addresses in the frame of `ip_send_packet`. -/
theorem addresses_ipv4Frame {wire : ℕ → UInt8} {n : ℕ} {destMac srcMac : MacAddr} {src dest : Ipv4Addr}
    {proto : UInt8} {payload : List UInt8} {len : UInt16}
    (h : Blocks.stretch wire 0 n = ipv4Frame destMac srcMac src dest proto payload len) :
    Blocks.stretch wire 26 8 = src.toList ++ dest.toList := by
  obtain ⟨hheaders, -⟩ := Blocks.stretch_eq_append h
  obtain ⟨-, hip⟩ := Blocks.stretch_eq_append hheaders
  rw [Ipv4Hdr.bytes, List.append_assoc] at hip
  obtain ⟨-, hends⟩ := Blocks.stretch_eq_append hip
  simp only [List.length_append, length_ethernetHdr, length_wordBytes, Vector.length_toList,
    List.length_cons, List.length_nil] at hends
  exact hends

/-- CORRECT: on an interface that is up and with room for the buffers, `tcp_send_packet` passes one
    IPv4 frame to the driver. A host with the destination address that receives this frame makes one
    handler call, of the TCP handler, with the segment's length; the segment has the ports, the
    sequence and acknowledgement numbers, the flags and the payload that were sent, and a header of 20
    bytes. If its length is even, its checksum is right exactly if the words of its pseudo-header stand
    for 255 times its other words. -/
theorem tcp_encapsulation_undone (s s' : NetState) {iface iface' : NetInterface}
    (hiface : netGetInterface s eth0 = some iface) (hup : iface.Sends)
    (hiface' : netGetInterface s' eth0 = some iface') {dest : Ipv4Addr}
    (hdest : iface'.ipAddr = dest) (f : TcpFields) (data : ℕ → UInt8) {len : UInt16}
    (hlen : len.toNat ≤ 65481)
    (htcp : (malloc s.heap (tcpHdrSize.toUInt32 + len.toUInt32)).1 ≠ null)
    (hip : (malloc (malloc s.heap (tcpHdrSize.toUInt32 + len.toUInt32)).2
      (ethernetHdrSize + ipv4HdrSize + (tcpHdrSize + len)).toUInt32).1 ≠ null) :
    ∃ frame, ipv4Frames (tcpSendPacket s dest f data len).events = [frame] ∧
      ∀ wire : ℕ → UInt8, Blocks.stretch wire 0 frame.length = frame →
        ∃ passed : UInt16, passed.toNat = 20 + len.toNat ∧
          handlerCalls (netReceiveFrame wire s' (UInt16.ofNat frame.length)).events =
            [(.tcp, 34, passed)] ∧
          TcpCarried wire 34 f data len.toNat ∧
          (Even len.toNat →
            (TcpVerifies wire passed ↔
              255 * tcpSum f data len ≡ pseudoSum iface.ipAddr dest len [MOD 65535])) := by
  have hsize := tcpLength_toNat hlen
  have hfits : 34 + (tcpHdrSize + len).toNat < 65536 := by omega
  obtain ⟨destMac, hsent⟩ := ipv4Frames_tcpSendPacket hiface hup hlen htcp hip dest f data
  refine ⟨_, hsent, fun wire hwire => ⟨tcpHdrSize + len, hsize, ?_, ?_, fun heven => ?_⟩⟩
  · have hreceived : UInt16.ofNat (34 + (20 + len.toNat)) =
        ethernetHdrSize + ipv4HdrSize + (tcpHdrSize + len) := by
      rw [← UInt16.toNat_inj, frameLength_toNat hfits, hsize]
      exact UInt16.toNat_ofNat_of_lt' (by show _ < 65536; omega)
    rw [length_ipv4Frame, tcpSegment, length_tcpMessage, hreceived]
    exact (carries_ipv4Frame hwire).handlerCalls_eq hfits hiface' hdest rfl
  · exact tcpCarried_of_stretch (carries_ipv4Frame hwire).payload
  · have hpayload := (carries_ipv4Frame hwire).payload
    rw [tcpSegment, length_tcpMessage, ← hsize] at hpayload
    rw [TcpVerifies, hpayload, addresses_ipv4Frame hwire, (carries_ipv4Frame hwire).protocol]
    exact tcpSegment_verifies_iff iface.ipAddr dest f data hlen heven

/-- A segment of 426 bytes whose acknowledgement number makes up for the rest: its checksum is right. -/
theorem tcp_encapsulation_undone_to_peer :
    ∃ frame, ipv4Frames (tcpSendPacket sampleHost #v[192, 168, 1, 1]
        ⟨80, 4096, 0x01020304, 168, 0x18⟩ (fun i => UInt8.ofNat i) 426).events = [frame] ∧
      ∀ wire : ℕ → UInt8, Blocks.stretch wire 0 frame.length = frame →
        ∃ passed : UInt16, passed.toNat = 20 + 426 ∧
          handlerCalls (netReceiveFrame wire samplePeer (UInt16.ofNat frame.length)).events =
            [(.tcp, 34, passed)] ∧
          TcpCarried wire 34 ⟨80, 4096, 0x01020304, 168, 0x18⟩ (fun i => UInt8.ofNat i) 426 ∧
          TcpVerifies wire passed := by
  obtain ⟨frame, hsent, hreceived⟩ := tcp_encapsulation_undone sampleHost samplePeer rfl ⟨rfl, by decide⟩
    rfl rfl ⟨80, 4096, 0x01020304, 168, 0x18⟩ (fun i => UInt8.ofNat i)
    (show (426 : UInt16).toNat ≤ 65481 by decide) (by decide) (by decide)
  refine ⟨frame, hsent, fun wire hwire => ?_⟩
  obtain ⟨passed, hpassed, hcalls, hcarried, hverifies⟩ := hreceived wire hwire
  exact ⟨passed, hpassed, hcalls, hcarried, (hverifies (by decide)).mpr (by decide +kernel)⟩

end VlsOs.Net
