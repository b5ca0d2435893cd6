import VlsOs.Net.Receive

/-! What the receive path touches of a frame.

    Three lengths meet in `ip_handle_packet`: the number of bytes received, the header length from
    the low half of the first byte, and the total length the header states. Only the header length
    is compared with what was received, and only from above. The payload length is a 16-bit
    difference of the other two, so a header that claims too much, or less than its own length,
    makes the handlers work past the end of the frame.

        0        14              14 + ihl                    len
        ├─ Eth ──┼── IP header ──┼─── payload ───────────────┤
                 ├────────── total_length ───────────┤              inside
                 ├────────── total_length ──────────────────────▶   read past the end
                 ├─ total_length ─┤ < ihl: payload_len wraps        read past the end -/

namespace VlsOs.Net
open Patterns Patterns.Trace

/-! ### Staying inside -/

/-- What an event may touch of a frame of `len` bytes: a read stays below `len`, and a handler gets a
    payload behind a full IP header that ends within the frame. -/
def RxEvent.Inside (len : ℕ) : RxEvent → Prop
  | .read offset => offset < len
  | .handler _ payload payloadLen => 14 + 20 ≤ payload ∧ payload + payloadLen.toNat ≤ len
  | .sent _ => True
  | .printed _ => True

@[simp] theorem inside_read {n offset : ℕ} : (RxEvent.read offset).Inside n ↔ offset < n := Iff.rfl

@[simp] theorem inside_printed {n : ℕ} {text : String} : (RxEvent.printed text).Inside n := trivial

section Handlers
variable {frame : ℕ → UInt8} {s : NetState} {data n : ℕ} {len : UInt16}

/-- The reply is built from the interface and two addresses: it reads nothing of the frame. -/
theorem arpSendReply_inside (destIp : Ipv4Addr) (destMac : MacAddr) :
    All (RxEvent.Inside n) (arpSendReply s destIp destMac) := by
  have hsend (packet : List UInt8) : All (RxEvent.Inside n) (netSendPacket s packet) := by
    unfold netSendPacket
    cases s.interfaces with
    | none => exact all_pure _ _
    | some iface => exact all_ite.mpr ⟨fun _ => all_emit.mpr trivial, fun _ => all_pure _ _⟩
  unfold arpSendReply arpSend
  cases netGetInterface s eth0 with
  | none => exact all_pure _ _
  | some iface => simp [all_ite, hsend]

/-- `arp_handle_packet` reads at most 28 bytes, and it has tested that there are so many. -/
theorem arpHandlePacket_inside (hn : data + len.toNat ≤ n) :
    All (RxEvent.Inside n) (arpHandlePacket frame s data len) := by
  unfold arpHandlePacket
  by_cases hlen : len < arpPktSize
  · rw [if_pos hlen]
    exact all_pure _ _
  · have h28 : 28 ≤ len.toNat := UInt16.le_iff_toNat_le.mp (UInt16.not_lt.mp hlen)
    have hip : ∀ i < 4, data + 14 + i < n := by omega
    have hmac : ∀ i < 6, data + 8 + i < n := by omega
    have htarget (ip : Ipv4Addr) :
        All (RxEvent.Inside n) (memcmpFrame frame (data + 24) ip.toList) := by
      refine all_memcmpFrame frame _ _ fun i hi => ?_
      rw [Vector.length_toList] at hi
      show data + 24 + i < n
      omega
    rw [if_neg hlen, all_bind, all_readWord, all_ite]
    refine ⟨⟨by show data < n; omega, by show data + 1 < n; omega⟩, fun _ => all_pure _ _, fun _ => ?_⟩
    rw [all_bind, all_readWord, all_ite]
    refine ⟨⟨by show data + 2 < n; omega, by show data + 3 < n; omega⟩, fun _ => all_pure _ _,
      fun _ => ?_⟩
    cases netGetInterface s eth0 with
    | none => exact all_pure _ _
    | some iface =>
      simp only [readIpv4Addr, readMacAddr, all_bind, all_readBytes, all_readWord, all_ite,
        inside_read, htarget, all_pure, arpSendReply_inside]
      refine ⟨hip, hmac, ⟨by omega, by omega⟩, fun _ => ⟨trivial, fun _ => ⟨hip, hmac, trivial⟩, ?_⟩, ?_⟩
      all_goals exact fun _ => trivial

/-- A handler stays inside the payload it is given. -/
theorem Protocol.handlePacket_inside (p : Protocol) (hn : data + len.toNat ≤ n) :
    All (RxEvent.Inside n) (p.handlePacket frame s data len) := by
  cases p with
  | icmp =>
    simp only [handlePacket, icmpHandlePacket, icmpSendEchoReply, all_ite, all_bind, all_readByte,
      all_readBytes, all_pure, all_emit, inside_read, inside_printed]
    refine ⟨fun _ => trivial, fun hlen => ⟨?_, fun _ => ⟨fun _ => trivial, fun _ => ⟨?_, trivial, trivial⟩⟩,
      fun _ => trivial⟩⟩
    · have h8 : 8 ≤ len.toNat := UInt16.le_iff_toNat_le.mp (UInt16.not_lt.mp hlen)
      omega
    · intro i hi
      omega
  | udp => simp [handlePacket, udpHandlePacket]
  | tcp => simp [handlePacket, tcpHandlePacket]

end Handlers

/-! ### The IP header as a receiver should read it -/

section Header
variable (frame : ℕ → UInt8)

/-- The type field of the Ethernet header. -/
def etherType : ℕ := (frame 12).toNat * 256 + (frame 13).toNat

/-- The IP header length in bytes. -/
def headerLength : ℕ := (frame 14).toNat % 16 * 4

/-- The total length the IP header states. -/
def totalLength : ℕ := (frame 16).toNat * 256 + (frame 17).toNat

/-- The three lengths agree: `len` bytes follow the Ethernet header. -/
structure LengthsAgree (len : ℕ) : Prop where
  fullHeader : 20 ≤ headerLength frame
  headerInside : headerLength frame ≤ totalLength frame
  totalInside : totalLength frame ≤ len

/-- What `ip_handle_packet` tests before it calls the handler of `p`. -/
structure Delivered (s : NetState) (len : ℕ) (p : Protocol) : Prop where
  received : 20 ≤ len
  version : (frame 14).toNat / 16 = 4
  ours : ∃ iface, netGetInterface s eth0 = some iface ∧
    Blocks.stretch frame 30 4 = iface.ipAddr.toList
  headerReceived : headerLength frame ≤ len
  protocol : ipProtocol (frame 23) = some p

/-- The `payload_len` that `ip_handle_packet` computes. -/
def payloadLength : UInt16 :=
  netNtohs (word (frame 16) (frame 17)) - ((frame 14 &&& 0x0F) * 4).toUInt16

end Header

section Ip
variable {frame : ℕ → UInt8} {s : NetState}

theorem version_iff (b : UInt8) : b >>> 4 = 4 ↔ b.toNat / 16 = 4 := by
  rw [← UInt8.toNat_inj, UInt8.toNat_shiftRight]
  show b.toNat >>> 4 = 4 ↔ _
  rw [Nat.shiftRight_eq_div_pow]

/-- The header length needs six bits: neither the product nor the widening loses any. -/
theorem ihl_toNat (b : UInt8) : ((b &&& 0x0F) * 4).toNat = b.toNat % 16 * 4 := by
  have hlow : (b &&& 0x0F).toNat = b.toNat % 16 := by
    rw [UInt8.toNat_and]
    exact Nat.and_two_pow_sub_one_eq_mod b.toNat 4
  rw [UInt8.toNat_mul, hlow]
  show b.toNat % 16 * 4 % 256 = _
  omega

/-- EXACT: the payload length as a number. Below the header length it wraps. -/
theorem payloadLength_toNat (frame : ℕ → UInt8) :
    (payloadLength frame).toNat =
      if headerLength frame ≤ totalLength frame then totalLength frame - headerLength frame
      else 65536 + totalLength frame - headerLength frame := by
  have htotal : (netNtohs (word (frame 16) (frame 17))).toNat = totalLength frame :=
    netNtohs_word _ _
  have hihl : ((frame 14 &&& 0x0F) * 4).toUInt16.toNat = headerLength frame := by
    rw [UInt8.toNat_toUInt16, ihl_toNat]
    rfl
  have hlt : totalLength frame < 65536 := htotal ▸ UInt16.toNat_lt _
  have hle : headerLength frame ≤ 60 := by
    unfold headerLength
    omega
  rw [payloadLength, UInt16.toNat_sub, htotal, hihl]
  split <;> omega

/-- The tests, once there is an interface and a full header, in the code's terms. -/
theorem delivered_iff {iface : NetInterface} {len : UInt16} {p : Protocol}
    (hiface : netGetInterface s eth0 = some iface) (h20 : 20 ≤ len.toNat) :
    Delivered frame s len.toNat p ↔
      frame 14 >>> 4 = 4 ∧ (memcmpFrame frame (14 + 16) iface.ipAddr.toList).val = 0 ∧
        ¬((frame 14 &&& 0x0F) * 4).toUInt16 > len ∧ ipProtocol (frame 23) = some p := by
  have hours : (memcmpFrame frame (14 + 16) iface.ipAddr.toList).val = 0 ↔
      Blocks.stretch frame 30 4 = iface.ipAddr.toList := by
    rw [memcmpFrame_eq_zero, Vector.length_toList]
  have hihl : ¬((frame 14 &&& 0x0F) * 4).toUInt16 > len ↔ headerLength frame ≤ len.toNat := by
    rw [gt_iff_lt, UInt16.not_lt, UInt16.le_iff_toNat_le, UInt8.toNat_toUInt16, ihl_toNat]
    rfl
  rw [version_iff, hours, hihl]
  constructor
  · rintro ⟨_, hversion, ⟨iface', hiface', hdest⟩, hheader, hproto⟩
    obtain rfl : iface = iface' := Option.some.inj (hiface.symm.trans hiface')
    exact ⟨hversion, hdest, hheader, hproto⟩
  · rintro ⟨hversion, hdest, hheader, hproto⟩
    exact ⟨h20, hversion, ⟨iface, hiface, hdest⟩, hheader, hproto⟩

/-- SPEC of `ip_handle_packet`: it reads bytes of the fixed header, and if the packet passes the
    tests it calls one handler; nothing else happens. -/
theorem ipHandlePacket_all {P : RxEvent → Prop} {len : UInt16}
    (hP : 20 ≤ len.toNat → ∀ i < 20, P (.read (14 + i))) :
    All P (ipHandlePacket frame s 14 len) ↔
      ∀ p, Delivered frame s len.toNat p →
        P (.handler p (14 + headerLength frame) (payloadLength frame)) ∧
          All P (p.handlePacket frame s (14 + headerLength frame) (payloadLength frame)) := by
  unfold ipHandlePacket
  by_cases hlen : len < ipv4HdrSize
  · have hshort : len.toNat < 20 := UInt16.lt_iff_toNat_lt.mp hlen
    rw [if_pos hlen]
    refine iff_of_true (all_pure _ _) fun p hd => ?_
    have := hd.received
    omega
  have h20 : 20 ≤ len.toNat := UInt16.le_iff_toNat_le.mp (UInt16.not_lt.mp hlen)
  have hread := hP h20
  rw [if_neg hlen]
  cases hiface : netGetInterface s eth0 with
  | none =>
    refine iff_of_true (all_pure _ _) fun p hd => ?_
    obtain ⟨iface, hsome, _⟩ := hd.ours
    rw [hiface] at hsome
    cases hsome
  | some iface =>
    have hdest : All P (memcmpFrame frame (14 + 16) iface.ipAddr.toList) := by
      refine all_memcmpFrame frame _ _ fun i hi => ?_
      rw [Vector.length_toList] at hi
      rw [Nat.add_assoc]
      exact hread (16 + i) (by omega)
    have hihl : 14 + ((frame 14 &&& 0x0F) * 4).toNat = 14 + headerLength frame := by
      rw [ihl_toNat]
      rfl
    simp only [delivered_iff hiface h20]
    rw [all_bind, all_readByte, and_iff_right (hread 0 (by omega)), val_readByte]
    by_cases hversion : frame 14 >>> 4 = 4
    swap
    · rw [if_pos hversion]
      exact iff_of_true (all_pure _ _) fun p hd => absurd hd.1 hversion
    rw [if_neg (not_not.mpr hversion), all_bind, and_iff_right hdest]
    by_cases hsame : (memcmpFrame frame (14 + 16) iface.ipAddr.toList).val = 0
    swap
    · rw [if_pos hsame]
      exact iff_of_true (all_pure _ _) fun p hd => absurd hd.2.1 hsame
    rw [if_neg (not_not.mpr hsame), all_bind, all_readByte, and_iff_right (hread 0 (by omega)),
      val_readByte]
    by_cases hheader : ((frame 14 &&& 0x0F) * 4).toUInt16 > len
    · rw [if_pos hheader]
      exact iff_of_true (all_pure _ _) fun p hd => absurd hheader hd.2.2.1
    rw [if_neg hheader, all_bind, all_readWord,
      and_iff_right ⟨hread 2 (by omega), hread 3 (by omega)⟩, all_bind, all_readByte,
      and_iff_right (hread 9 (by omega)), val_readByte, val_readWord, hihl]
    cases hproto : ipProtocol (frame 23) with
    | none =>
      simp only [reduceCtorEq, and_false, false_imp_iff, implies_true, iff_true]
      exact all_pure _ _
    | some p =>
      simp only [hversion, hsame, hheader, not_false_eq_true, true_and, Option.some.injEq,
        forall_eq', all_bind, all_emit]
      rfl

/-- EXACT: a handler's payload lies in the frame exactly when the three lengths agree. With a total
    length below the header length the payload would end 65536 bytes further on. -/
theorem inside_handler_iff {len : ℕ} {p : Protocol} (hlen : len < 65536) :
    (RxEvent.handler p (14 + headerLength frame) (payloadLength frame)).Inside (14 + len) ↔
      LengthsAgree frame len := by
  have hpayload := payloadLength_toNat frame
  constructor
  · rintro ⟨hfull, hend⟩
    split_ifs at hpayload with hle
    · exact ⟨by omega, hle, by omega⟩
    · omega
  · rintro ⟨hfull, hheader, htotal⟩
    rw [if_pos hheader] at hpayload
    exact ⟨by omega, by omega⟩

/-- `ip_handle_packet` stays inside exactly if a packet it delivers has lengths that agree. -/
theorem ipHandlePacket_inside_iff {len : UInt16} :
    All (RxEvent.Inside (14 + len.toNat)) (ipHandlePacket frame s 14 len) ↔
      ∀ p, Delivered frame s len.toNat p → LengthsAgree frame len.toNat := by
  rw [ipHandlePacket_all fun h20 i hi => by show 14 + i < _; omega]
  refine forall₂_congr fun p _ => ?_
  rw [inside_handler_iff len.toNat_lt]
  refine and_iff_left_of_imp fun hagree => p.handlePacket_inside ?_
  exact ((inside_handler_iff (p := p) len.toNat_lt).mpr hagree).2

end Ip

/-- EXACT: whatever the frame and the state, the receive path stays inside the received bytes, and
    gives the handlers payloads inside them behind full IP headers, exactly if an IPv4 packet that it
    delivers to a handler has a header of at least 20 bytes, a total length no smaller than the
    header and no larger than what was received after the Ethernet header. -/
theorem receive_inside_iff (frame : ℕ → UInt8) (s : NetState) (len : UInt16) :
    All (RxEvent.Inside len.toNat) (netReceiveFrame frame s len) ↔
      (etherType frame = 0x0800 → ∀ p, Delivered frame s (len.toNat - 14) p →
        LengthsAgree frame (len.toNat - 14)) := by
  unfold netReceiveFrame
  by_cases hshort : len < ethernetHdrSize
  · have hlt : len.toNat < 14 := UInt16.lt_iff_toNat_lt.mp hshort
    rw [if_pos hshort]
    refine iff_of_true (all_pure _ _) fun _ p hd => ?_
    have := hd.received
    omega
  have hle : ethernetHdrSize ≤ len := UInt16.not_lt.mp hshort
  have h14 : 14 ≤ len.toNat := UInt16.le_iff_toNat_le.mp hle
  have hrest : (len - ethernetHdrSize).toNat = len.toNat - 14 := UInt16.toNat_sub_of_le _ _ hle
  have hisArp : netNtohs (word (frame 12) (frame 13)) = ethertypeArp ↔ etherType frame = 0x0806 :=
    netNtohs_word_eq
  have hisIp : netNtohs (word (frame 12) (frame 13)) = ethertypeIpv4 ↔ etherType frame = 0x0800 :=
    netNtohs_word_eq
  rw [if_neg hshort, all_bind, all_readWord,
    and_iff_right ⟨by show 12 < _; omega, by show 13 < _; omega⟩, val_readWord]
  by_cases harp : etherType frame = 0x0806
  · rw [if_pos (hisArp.mpr harp)]
    refine iff_of_true (arpHandlePacket_inside (by omega)) fun hip => ?_
    rw [harp] at hip
    cases hip
  rw [if_neg fun h => harp (hisArp.mp h)]
  by_cases hip : etherType frame = 0x0800
  · have hn : len.toNat = 14 + (len - ethernetHdrSize).toNat := by omega
    rw [if_pos (hisIp.mpr hip), ← hrest, hn, ipHandlePacket_inside_iff]
    exact ⟨fun h _ => h, fun h => h hip⟩
  · rw [if_neg fun h => hip (hisIp.mp h)]
    exact iff_of_true (all_pure _ _) fun h => absurd h hip

/-- A host after `rtl8139_init`: `eth0` is 192.168.1.100, the heap and the ARP cache are empty. -/
def sampleHost : NetState where
  interfaces := some
    { name := eth0, macAddr := #v[0x52, 0x54, 0x00, 0x12, 0x34, 0x56], ipAddr := #v[192, 168, 1, 100],
      flags := 3, send := true }
  arpCache := ⟨[], by decide⟩
  heap := ⟨Memory.heapStart⟩
  mem := fun _ => 0

/-- An echo request of 42 bytes for that host whose IP header states a total length of 30, two more
    than the 28 bytes that follow the Ethernet header. -/
def overlongEcho (i : ℕ) : UInt8 :=
  [0x52, 0x54, 0x00, 0x12, 0x34, 0x56, 0x52, 0x54, 0x00, 0x12, 0x34, 0x57, 0x08, 0x00,
    0x45, 0, 0, 30, 0, 0, 0, 0, 64, 1, 0, 0, 192, 168, 1, 1, 192, 168, 1, 100,
    8, 0, 0, 0, 0, 0, 0, 0].getD i 0

/-- The reply to it copies ten bytes of payload where the frame has eight. -/
theorem receive_copies_past_end :
    RxEvent.handler .icmp 34 10 ∈ (netReceiveFrame overlongEcho sampleHost 42).events ∧
      RxEvent.read 43 ∈ (netReceiveFrame overlongEcho sampleHost 42).events ∧
      ¬All (RxEvent.Inside 42) (netReceiveFrame overlongEcho sampleHost 42) := by
  have hread : RxEvent.read 43 ∈ (netReceiveFrame overlongEcho sampleHost 42).events := by
    decide +kernel
  refine ⟨by decide +kernel, hread, fun h => ?_⟩
  have : 43 < 42 := h _ hread
  omega

end VlsOs.Net
