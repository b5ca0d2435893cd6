import VlsOs.Net.ArpNetwork
import VlsOs.Net.Socket

/-! The lengths on the send path.

    A payload gets a header of 8 bytes in `udp_send_packet` and 34 more in `ip_send_packet`. The sums
    are 16-bit: the length that is handed down is that of the segment modulo 65536, and so is the size
    of the frame and of the buffer that it is built in. The payload is copied whole.

        len                 ≤ 65493    65494 ⋯ 65527          65528 ⋯ 65535
        segment, 8 + len    8 + len    8 + len                8 + len - 65536
        frame, 34 + segment 42 + len   42 + len - 65536       42 + len - 65536   -/

namespace VlsOs.Net
open Patterns Patterns.Trace VlsOs.Memory

/-! ### Frames that are not ARP -/

/-- The frames passed to the driver other than those of ARP. -/
def dataFrames (events : List RxEvent) : List (List UInt8) :=
  (sentFrames events).filter fun frame => etherType (fun i => frame.getD i 0) ≠ 0x0806

@[simp] theorem dataFrames_append (a b : List RxEvent) :
    dataFrames (a ++ b) = dataFrames a ++ dataFrames b := by
  rw [dataFrames, sentFrames_append, List.filter_append]
  rfl

theorem dataFrames_arpSend (s : NetState) (destMac : MacAddr) (opcode : UInt16)
    (targetMac : MacAddr) (targetIp : Ipv4Addr) :
    dataFrames (arpSend s destMac opcode targetMac targetIp).events = [] := by
  rcases arpSend_events s destMac opcode targetMac targetIp with h | ⟨iface, -, h⟩
  · rw [h]
    rfl
  · have htype : etherType (fun i =>
        (arpFrame iface destMac opcode targetMac targetIp).getD i 0) = 0x0806 := by
      rw [arpFrame, etherType_bytes]
      rfl
    rw [h, dataFrames]
    exact List.filter_eq_nil_iff.mpr (by simpa [sentFrames] using htype)

theorem dataFrames_arpLookup (s : NetState) (ip : Ipv4Addr) :
    dataFrames (arpLookup s ip).events = [] := by
  unfold arpLookup
  split
  · rfl
  · simp only [events_bind, dataFrames_append, arpRequest, dataFrames_arpSend, events_pure]
    rfl

/-- However an IPv4 frame is cut off, it does not become one of ARP: the low byte of its type is `0`. -/
theorem dataFrames_cut {frame : List UInt8} (htype : etherType (fun i => frame.getD i 0) = 0x0800)
    (n : ℕ) : dataFrames [.sent (frame.take n)] = [frame.take n] := by
  have hlow : (frame.getD 13 0).toNat = 0 := by
    have hbyte := (frame.getD 13 0).toNat_lt
    rw [etherType] at htype
    omega
  have hcut : ((frame.take n).getD 13 0).toNat = 0 := by
    rw [List.getD_eq_getElem?_getD, List.getElem?_take]
    split
    · rwa [← List.getD_eq_getElem?_getD]
    · rfl
  have hkept : etherType (fun i => (frame.take n).getD i 0) ≠ 0x0806 := by
    rw [etherType, hcut]
    omega
  exact List.filter_eq_self.mpr (by simpa [sentFrames] using hkept)

/-! ### `ip_send_packet` -/

theorem totalLen_toNat (len : UInt16) : (totalLen len).toNat = (34 + len.toNat) % 65536 :=
  UInt16.toNat_add _ len

/-- There is an interface, and memory for the frame. -/
def IpAllocates (s : NetState) (len : UInt16) : Prop :=
  (netGetInterface s eth0).isSome ∧ (malloc s.heap (totalLen len).toUInt32).1 ≠ null

/-- … and the interface takes frames. -/
def IpEmits (s : NetState) (len : UInt16) : Prop :=
  IpAllocates s len ∧ ∀ iface ∈ netGetInterface s eth0, iface.Sends

section
variable {s : NetState} {iface : NetInterface} {len : UInt16}

theorem ipPacket_payload (dest : Ipv4Addr) (proto : UInt8) (data : ℕ → UInt8) {i : ℕ}
    (hi : i < len.toNat) : (ipPacket s iface dest proto data len).getD (34 + i) 0 = data i := by
  have hheaders : ((EthernetHdr.mk (ipLookup s iface dest len).1 iface.macAddr
      (netHtons ethertypeIpv4)).bytes ++ (ipv4HeaderSealed iface.ipAddr dest proto len).bytes).length = 34 := by
    simp
  rw [ipPacket, ipv4Frame, List.getD_append_right _ _ _ _ (by omega), hheaders, Nat.add_sub_cancel_left]
  simp [Blocks.stretch, hi]

theorem dataFrames_ipSendPacket (hiface : netGetInterface s eth0 = some iface)
    (hmalloc : (malloc s.heap (totalLen len).toUInt32).1 ≠ null) (dest : Ipv4Addr) (proto : UInt8)
    (data : ℕ → UInt8) :
    dataFrames (ipSendPacket s dest proto data len).events =
      dataFrames (netSendPacket (ipLookup s iface dest len).2
        ((ipPacket s iface dest proto data len).take (totalLen len).toNat)).events := by
  rw [(ipSendPacket_spec hiface hmalloc dest proto data).1, dataFrames_append, dataFrames_arpLookup,
    List.nil_append]

theorem IpEmits.dataFrames_eq (h : IpEmits s len) (dest : Ipv4Addr) (proto : UInt8)
    (data : ℕ → UInt8) :
    ∃ iface, dataFrames (ipSendPacket s dest proto data len).events =
      [(ipPacket s iface dest proto data len).take (totalLen len).toNat] := by
  obtain ⟨⟨hsome, hmalloc⟩, hup⟩ := h
  obtain ⟨iface, hiface⟩ := Option.isSome_iff_exists.mp hsome
  refine ⟨iface, ?_⟩
  rw [dataFrames_ipSendPacket hiface hmalloc, netSendPacket_events (interfaces_ipLookup hiface dest len)
    (hup iface hiface), dataFrames_cut (etherType_ipPacket dest proto data)]

theorem dataFrames_of_not_ipEmits (h : ¬IpEmits s len) (dest : Ipv4Addr) (proto : UInt8)
    (data : ℕ → UInt8) : dataFrames (ipSendPacket s dest proto data len).events = [] := by
  cases hiface : netGetInterface s eth0 with
  | none =>
    rw [ipSendPacket, hiface]
    rfl
  | some iface =>
    by_cases hmalloc : (malloc s.heap (totalLen len).toUInt32).1 = null
    · have hblock : (malloc s.heap (ethernetHdrSize + ipv4HdrSize + len).toUInt32).1 = null := hmalloc
      rw [ipSendPacket, hiface]
      dsimp only
      rw [if_pos hblock]
      rfl
    · have hdown : ¬iface.Sends := by
        refine fun hup => h ⟨⟨by rw [hiface]; rfl, hmalloc⟩, fun i hi => ?_⟩
        rw [hiface, Option.mem_some_iff] at hi
        exact hi ▸ hup
      rw [dataFrames_ipSendPacket hiface hmalloc, netSendPacket, interfaces_ipLookup hiface dest len]
      dsimp only
      rw [NetInterface.Sends] at hdown
      rw [if_neg hdown]
      rfl

/-- The bytes of the memory behind the two hardware addresses of the buffer. -/
theorem cells_ipSendPacket (hiface : netGetInterface s eth0 = some iface)
    (hmalloc : (malloc s.heap (totalLen len).toUInt32).1 ≠ null) (dest : Ipv4Addr) (proto : UInt8)
    (data : ℕ → UInt8) {k : ℕ} (hk : k < 2 ^ 32) (hbehind : 12 ≤ k) :
    cells (ipSendPacket s dest proto data len).val.mem (malloc s.heap (totalLen len).toUInt32).1 k =
      if k < 34 + len.toNat then (ipPacket s iface dest proto data len).getD k 0
      else cells (ipLookup s iface dest len).2.mem (malloc s.heap (totalLen len).toUInt32).1 k := by
  have hlt := len.toNat_lt
  have hlength : ((ipPacket s iface dest proto data len).drop 12).length = 22 + len.toNat := by
    rw [List.length_drop, length_ipPacket]
    omega
  obtain ⟨j, rfl⟩ : ∃ j, k = (12 : UInt32).toNat + j := Nat.exists_eq_add_of_le hbehind
  have hoffset : (12 : UInt32).toNat = 12 := rfl
  rw [(ipSendPacket_spec hiface hmalloc dest proto data).2, store]
  by_cases hj : (12 : UInt32).toNat + j < 34 + len.toNat
  · rw [cells_memcpy_in (by omega) (by omega), if_pos hj]
    simp [List.getElem?_drop, hoffset]
  · rw [cells_memcpy_out (by omega) hk (.inr (by omega)), if_neg hj, store,
      cells_memcpy_start (by simp) hk, Vector.length_toList, if_neg (by omega)]

/-- Whatever the payload, `ip_send_packet` changes no byte from the end of its buffer on. -/
def IpStaysInside (s : NetState) (dest : Ipv4Addr) (proto : UInt8) (len : UInt16) : Prop :=
  let buffer := (malloc s.heap (totalLen len).toUInt32).1
  IpAllocates s len → ∀ iface ∈ netGetInterface s eth0, ∀ data k, (totalLen len).toNat ≤ k → k < 2 ^ 32 →
    cells (ipSendPacket s dest proto data len).val.mem buffer k =
      cells (ipLookup s iface dest len).2.mem buffer k

/-- EXACT: it does so precisely if the frame has a 16-bit length. -/
theorem ipStaysInside_iff (dest : Ipv4Addr) (proto : UInt8) :
    IpStaysInside s dest proto len ↔ (IpAllocates s len → len.toNat ≤ 65501) := by
  refine forall_congr' fun halloc => ?_
  obtain ⟨hsome, hmalloc⟩ := halloc
  obtain ⟨iface, hiface⟩ := Option.isSome_iff_exists.mp hsome
  have hlt := len.toNat_lt
  have htotal := totalLen_toNat len
  constructor
  · intro h
    by_contra! hlong
    -- the last byte of the payload lies beyond the buffer
    obtain ⟨i, hi⟩ : ∃ i, len.toNat = i + 1 := ⟨len.toNat - 1, by omega⟩
    let old := cells (ipLookup s iface dest len).2.mem (malloc s.heap (totalLen len).toUInt32).1 (34 + i)
    have hlast : _ = old := h iface hiface (fun _ => old + 1) (34 + i) (by omega) (by omega)
    rw [cells_ipSendPacket hiface hmalloc _ _ _ (by omega) (by omega), if_pos (by omega),
      ipPacket_payload _ _ _ (by omega)] at hlast
    exact absurd hlast (by simp)
  · intro hlen iface' hiface' data k hk hk32
    obtain rfl : iface = iface' := Option.some.inj (hiface.symm.trans hiface')
    rw [cells_ipSendPacket hiface hmalloc _ _ _ hk32 (by omega), if_neg (by omega)]

end

/-! ### `udp_send_packet` and `sendto` -/

/-- There is memory for the segment, and `ip_send_packet` passes a frame on. -/
def UdpEmits (s : NetState) (len : UInt16) : Prop :=
  let block := malloc s.heap (udpHdrSize.toUInt32 + len.toUInt32)
  block.1 ≠ null ∧ IpEmits { s with heap := block.2 } (udpHdrSize + len)

/-- The frame has its full length, the whole payload, and the lengths in its fields. -/
structure WholeFrame (frame : List UInt8) (data : ℕ → UInt8) (len : ℕ) : Prop where
  size : frame.length = 42 + len
  payload : Blocks.stretch (fun i => frame.getD i 0) 42 len = Blocks.stretch data 0 len
  udpLength : (netNtohs (word (frame.getD 38 0) (frame.getD 39 0))).toNat = 8 + len
  totalLength : (netNtohs (word (frame.getD 16 0) (frame.getD 17 0))).toNat = 28 + len

/-- No frame is sent, or a whole one. -/
def LengthsRight (events : List RxEvent) (data : ℕ → UInt8) (len : ℕ) : Prop :=
  dataFrames events = [] ∨ ∃ frame, dataFrames events = [frame] ∧ WholeFrame frame data len

section
variable {s : NetState} {dest : Ipv4Addr} {srcPort destPort : UInt16} {data : ℕ → UInt8} {len : UInt16}

/-- The frame of a segment is whole precisely if its length does not wrap. -/
theorem wholeFrame_iff {iface : NetInterface} :
    WholeFrame ((ipPacket s iface dest ipProtoUdp
        (fun i => (udpSegment srcPort destPort data len).getD i 0) (udpHdrSize + len)).take
          (totalLen (udpHdrSize + len)).toNat) data len.toNat ↔ len.toNat ≤ 65493 := by
  have hlt := len.toNat_lt
  have htotal := totalLen_toNat (udpHdrSize + len)
  constructor
  · intro h
    have hsize := h.size
    have hwrap : (udpHdrSize + len).toNat = (8 + len.toNat) % 65536 := UInt16.toNat_add _ len
    rw [List.length_take] at hsize
    omega
  · intro hlen
    have hsegment := segmentLength_toNat hlen
    have hread : Blocks.stretch (fun i => (udpSegment srcPort destPort data len).getD i 0) 0
        (udpHdrSize + len).toNat = udpSegment srcPort destPort data len :=
      length_udpSegment hlen srcPort destPort data ▸ Blocks.stretch_getD _ 0
    rw [List.take_of_length_le (by rw [length_ipPacket]; omega)]
    generalize hframe : ipPacket s iface dest ipProtoUdp
      (fun i => (udpSegment srcPort destPort data len).getD i 0) (udpHdrSize + len) = frame
    have hsize : frame.length = 42 + len.toNat := by
      rw [← hframe, length_ipPacket, hsegment]
      omega
    rw [ipPacket, hread] at hframe
    have hcarries := carries_ipv4Frame ((Blocks.stretch_getD frame 0).trans hframe.symm)
    have hparts := segment_of_stretch hlen hcarries.payload
    have htotalLength : (ipv4HdrSize + (udpHdrSize + len)).toNat = 28 + len.toNat := by
      rw [toNat_add_of_fits (by rw [hsegment]; change 20 + _ < 65536; omega), hsegment]
      change 20 + _ = _
      omega
    exact ⟨hsize, hparts.payload, hparts.length, by rw [hcarries.total, htotalLength]⟩

theorem UdpEmits.dataFrames_eq (h : UdpEmits s len) (dest : Ipv4Addr) (srcPort destPort : UInt16)
    (data : ℕ → UInt8) :
    ∃ s' iface, dataFrames (udpSendPacket s dest srcPort destPort data len).events =
      [(ipPacket s' iface dest ipProtoUdp
        (fun i => (udpSegment srcPort destPort data len).getD i 0) (udpHdrSize + len)).take
          (totalLen (udpHdrSize + len)).toNat] := by
  obtain ⟨hmalloc, hip⟩ := h
  have hfilled : IpEmits (udpFilled s srcPort destPort data len) (udpHdrSize + len) := hip
  obtain ⟨iface, hframe⟩ := hfilled.dataFrames_eq dest ipProtoUdp
    fun i => (udpSegment srcPort destPort data len).getD i 0
  exact ⟨_, iface, by rw [udpSendPacket_events hmalloc, hframe]⟩

theorem dataFrames_of_not_udpEmits (h : ¬UdpEmits s len) :
    dataFrames (udpSendPacket s dest srcPort destPort data len).events = [] := by
  by_cases hmalloc : (malloc s.heap (udpHdrSize.toUInt32 + len.toUInt32)).1 = null
  · rw [udpSendPacket]
    dsimp only
    rw [if_pos hmalloc]
    rfl
  · have hidle : ¬IpEmits (udpFilled s srcPort destPort data len) (udpHdrSize + len) :=
      fun hip => h ⟨hmalloc, hip⟩
    rw [udpSendPacket_events hmalloc, dataFrames_of_not_ipEmits hidle]

/-- EXACT: `udp_send_packet` sends no frame or a whole one precisely if a payload that it sends fits. -/
theorem udp_lengthsRight_iff :
    LengthsRight (udpSendPacket s dest srcPort destPort data len).events data len.toNat ↔
      (UdpEmits s len → len.toNat ≤ 65493) := by
  by_cases h : UdpEmits s len
  · obtain ⟨s', iface, hframes⟩ := h.dataFrames_eq dest srcPort destPort data
    rw [LengthsRight, hframes]
    simp only [h, true_imp_iff, List.cons_ne_nil, false_or, List.cons.injEq, and_true, exists_eq_left']
    exact wholeFrame_iff
  · exact iff_of_true (.inl (dataFrames_of_not_udpEmits h)) fun hemits => absurd hemits h

end

/-- … and so does `sendto`, which looks for a datagram socket first. -/
theorem sendto_lengthsRight_iff (k : Sock.Sockets) (sockfd : ℤ) (data : ℕ → UInt8) (len : UInt16)
    (addr : Ipv4Addr) (port : UInt16) :
    LengthsRight (Sock.sendto k sockfd data len addr port).events data len.toNat ↔
      ((∃ i, (k.sockets i).fd = sockfd ∧ (k.sockets i).type = Sock.sockDgram) →
        UdpEmits k.net len → len.toNat ≤ 65493) := by
  rw [Sock.sendto]
  cases hfind : Sock.search k fun k => k.fd = sockfd ∧ k.type = Sock.sockDgram with
  | none =>
    have hnone := Table.first_none.mp hfind
    refine iff_of_true (.inl rfl) ?_
    rintro ⟨i, hi⟩
    exact absurd (hnone i) (by simp [hi])
  | some i =>
    have hsome : ∃ i, (k.sockets i).fd = sockfd ∧ (k.sockets i).type = Sock.sockDgram :=
      ⟨i, by simpa using Table.first_some hfind⟩
    simp only [hsome, true_imp_iff]
    rw [events_bind, events_pure, List.append_nil]
    exact udp_lengthsRight_iff

/-- EXACT: the lengths on the send path are right for `udp_send_packet`, and for `sendto` on a datagram
    socket, precisely if a payload of which a frame is sent has at most 65493 bytes; and
    `ip_send_packet` stays inside its buffer precisely if what it copies to one has at most 65501. -/
theorem send_lengths_iff (s : NetState) (dest : Ipv4Addr) (srcPort destPort : UInt16) (proto : UInt8)
    (data : ℕ → UInt8) (len : UInt16) (k : Sock.Sockets) (sockfd : ℤ) :
    (LengthsRight (udpSendPacket s dest srcPort destPort data len).events data len.toNat ↔
        (UdpEmits s len → len.toNat ≤ 65493)) ∧
      (LengthsRight (Sock.sendto k sockfd data len dest destPort).events data len.toNat ↔
        ((∃ i, (k.sockets i).fd = sockfd ∧ (k.sockets i).type = Sock.sockDgram) →
          UdpEmits k.net len → len.toNat ≤ 65493)) ∧
      (IpStaysInside s dest proto len ↔ (IpAllocates s len → len.toNat ≤ 65501)) :=
  ⟨udp_lengthsRight_iff, sendto_lengthsRight_iff k sockfd data len dest destPort,
    ipStaysInside_iff dest proto⟩

/-- A payload of 65494 bytes is sent as a frame of none, and a segment of 65502 bytes is copied to a
    buffer of none. -/
theorem send_lengths_wrap :
    let data : ℕ → UInt8 := fun _ => 0
    dataFrames (udpSendPacket sampleHost #v[192, 168, 1, 1] 53 4096 data 65494).events = [[]] ∧
      ¬LengthsRight (udpSendPacket sampleHost #v[192, 168, 1, 1] 53 4096 data 65494).events data 65494 ∧
      totalLen 65502 = 0 ∧ ¬IpStaysInside sampleHost #v[192, 168, 1, 1] ipProtoUdp 65502 := by
  intro data
  have hup (heap : Heap) : ∀ iface ∈ netGetInterface { sampleHost with heap := heap } eth0,
      iface.Sends := by
    intro iface hi
    cases Option.some.inj hi
    exact ⟨rfl, by decide⟩
  have hemits : UdpEmits sampleHost 65494 := ⟨by decide, ⟨by decide, by decide⟩, hup _⟩
  refine ⟨?_, fun h => ?_, by decide, fun h => ?_⟩
  · obtain ⟨s', iface, hframes⟩ := hemits.dataFrames_eq #v[192, 168, 1, 1] 53 4096 data
    have hnone : (totalLen (udpHdrSize + 65494)).toNat = 0 := by decide
    rw [hframes, hnone, List.take_zero]
  · exact absurd (udp_lengthsRight_iff.mp h hemits) (by decide)
  · exact absurd ((ipStaysInside_iff _ _).mp h ⟨by decide, by decide⟩) (by decide)

end VlsOs.Net
