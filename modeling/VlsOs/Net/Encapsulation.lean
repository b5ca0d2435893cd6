import VlsOs.Net.Inside
import VlsOs.Net.Send

/-! What is sent in a UDP segment is what the receiver's handler gets.

    The sender wraps the payload three times and the receiver unwraps it three times. Every 16-bit
    field is swapped before it is stored and after it is loaded, and every length is the length of
    what follows it.

        0          14               34          42                 42 + len
        ├─ Ethernet ┼─ IPv4 (20) ────┼─ UDP (8) ──┼─ payload ────────┤
                     total_length = 28 + len      │
                                      length = 8 + len -/

namespace VlsOs.Net
open Patterns Patterns.Trace VlsOs.Memory

/-! ### Reading a trace -/

/-- The handler calls among the events, with their arguments. -/
def handlerCalls (events : List RxEvent) : List (Protocol × ℕ × UInt16) :=
  events.filterMap fun e =>
    match e with
    | .handler p payload payloadLen => some (p, payload, payloadLen)
    | .read _ | .sent _ | .printed _ => none

/-- The frames passed to the driver whose Ethernet type is IPv4. -/
def ipv4Frames (events : List RxEvent) : List (List UInt8) :=
  events.filterMap fun e =>
    match e with
    | .sent frame => if etherType (fun i => frame.getD i 0) = 0x0800 then some frame else none
    | .read _ | .handler .. | .printed _ => none

/-- An event that is no handler call. -/
def RxEvent.Quiet : RxEvent → Prop
  | .handler .. => False
  | .read _ | .sent _ | .printed _ => True

@[simp] theorem quiet_read (offset : ℕ) : (RxEvent.read offset).Quiet := trivial

@[simp] theorem quiet_printed (text : String) : (RxEvent.printed text).Quiet := trivial

theorem handlerCalls_quiet {α : Type} {x : Traced RxEvent α} (h : All RxEvent.Quiet x) :
    handlerCalls x.events = [] := by
  rw [handlerCalls, List.filterMap_eq_nil_iff]
  intro e he
  have hquiet := h e he
  cases e with
  | handler => exact absurd hquiet id
  | read | sent | printed => rfl

@[simp] theorem handlerCalls_append (a b : List RxEvent) :
    handlerCalls (a ++ b) = handlerCalls a ++ handlerCalls b := List.filterMap_append

@[simp] theorem ipv4Frames_append (a b : List RxEvent) :
    ipv4Frames (a ++ b) = ipv4Frames a ++ ipv4Frames b := List.filterMap_append

/-- A field that was swapped and stored is loaded and swapped back. -/
theorem netNtohs_of_stretch {wire : ℕ → UInt8} {offset : ℕ} {v : UInt16}
    (h : Blocks.stretch wire offset 2 = wordBytes (netHtons v)) :
    netNtohs (word (wire offset) (wire (offset + 1))) = v := by
  obtain ⟨hlow, hhigh⟩ : wire offset = (netHtons v).toUInt8 ∧
      wire (offset + 1) = (netHtons v >>> 8).toUInt8 := by
    simpa [Blocks.stretch, List.range_succ, wordBytes] using h
  rw [hlow, hhigh, word_wordBytes, netNtohs_netHtons]

/-! ### The receiver -/

section Receiver
variable {frame : ℕ → UInt8} {s : NetState} {len : UInt16} {p : Protocol}

/-- A handler calls no handler. -/
theorem Protocol.handlePacket_quiet (p : Protocol) (data : ℕ) :
    All RxEvent.Quiet (p.handlePacket frame s data len) := by
  cases p with
  | icmp =>
    simp only [handlePacket, icmpHandlePacket, icmpSendEchoReply, all_ite, all_bind, all_readByte,
      all_readBytes, all_pure, all_emit, quiet_read, quiet_printed, implies_true, and_self]
  | udp => simp [handlePacket, udpHandlePacket]
  | tcp => simp [handlePacket, tcpHandlePacket]

/-- SPEC of `ip_handle_packet` on a packet that passes its tests: one handler call. -/
theorem handlerCalls_ipHandlePacket (h : Delivered frame s len.toNat p) :
    handlerCalls (ipHandlePacket frame s 14 len).events =
      [(p, 14 + headerLength frame, payloadLength frame)] := by
  obtain ⟨iface, hiface, -⟩ := h.ours
  have hlen : ¬ len < ipv4HdrSize := UInt16.not_lt.mpr (UInt16.le_iff_toNat_le.mpr h.received)
  obtain ⟨hversion, hsame, hheader, hproto⟩ := (delivered_iff hiface h.received).mp h
  have hihl : 14 + ((frame 14 &&& 0x0F) * 4).toNat = 14 + headerLength frame := by
    rw [ihl_toNat]
    rfl
  have hcompare := handlerCalls_quiet (all_memcmpFrame (P := RxEvent.Quiet) frame
    iface.ipAddr.toList (14 + 16) fun _ _ => trivial)
  have hhandler := handlerCalls_quiet
    (p.handlePacket_quiet (14 + headerLength frame) :
      All _ (p.handlePacket frame s _ (payloadLength frame)))
  have hpayload : netNtohs (word (frame (14 + 2)) (frame (14 + 2 + 1))) -
      ((frame 14 &&& 0x0F) * 4).toUInt16 = payloadLength frame := rfl
  unfold ipHandlePacket
  rw [if_neg hlen, hiface]
  simp only [val_readByte, val_readWord, hversion, hsame, hheader, hproto, hihl, hpayload, if_false,
    ne_eq, not_true_eq_false, events_bind, handlerCalls_append, hcompare, hhandler]
  rfl

/-- … and of the whole receive path on a frame that holds one. -/
theorem handlerCalls_netReceiveFrame (hlen : 14 ≤ len.toNat) (htype : etherType frame = 0x0800)
    (h : Delivered frame s (len.toNat - 14) p) :
    handlerCalls (netReceiveFrame frame s len).events =
      [(p, 14 + headerLength frame, payloadLength frame)] := by
  have hle : ethernetHdrSize ≤ len := UInt16.le_iff_toNat_le.mpr hlen
  have hrest : (len - ethernetHdrSize).toNat = len.toNat - 14 := UInt16.toNat_sub_of_le _ _ hle
  have hip : netNtohs (word (frame 12) (frame 13)) = ethertypeIpv4 := netNtohs_word_eq.mpr htype
  rw [← hrest] at h
  unfold netReceiveFrame
  rw [if_neg (UInt16.not_lt.mpr hle)]
  simp only [events_bind, handlerCalls_append, val_readWord, hip]
  exact (List.nil_append _).trans (handlerCalls_ipHandlePacket h)

end Receiver

/-! ### The sender -/

/-- A driver that takes frames: `eth0` is up and has its `send`. -/
def NetInterface.Sends (iface : NetInterface) : Prop :=
  iface.send = true ∧ iface.flags &&& netFlagUp ≠ 0

section Sender
variable {s : NetState} {iface : NetInterface}

theorem interfaces_of_get (h : netGetInterface s eth0 = some iface) : s.interfaces = some iface :=
  (Option.filter_eq_some_iff.mp h).1

theorem netSendPacket_events (hiface : s.interfaces = some iface) (hup : iface.Sends)
    (packet : List UInt8) : (netSendPacket s packet).events = [.sent packet] := by
  unfold netSendPacket
  rw [hiface]
  dsimp only
  rw [if_pos ⟨hup.1, hup.2⟩]
  rfl

/-- The type field of a frame that starts with a header for type `t`. -/
theorem etherType_bytes (destMac srcMac : MacAddr) (t : UInt16) (rest : List UInt8) :
    etherType (fun i => ((EthernetHdr.mk destMac srcMac (netHtons t)).bytes ++ rest).getD i 0) =
      t.toNat := by
  generalize hwire : (fun i => ((EthernetHdr.mk destMac srcMac (netHtons t)).bytes ++ rest).getD i 0) =
    wire
  have hframe := Blocks.stretch_getD ((EthernetHdr.mk destMac srcMac (netHtons t)).bytes ++ rest) 0
  rw [hwire] at hframe
  have htype := (Blocks.stretch_eq_append (Blocks.stretch_eq_append hframe).1).2
  simp only [List.length_append, Vector.length_toList] at htype
  exact netNtohs_word_eq.mp (netNtohs_of_stretch htype)

/-- An ARP frame is no IPv4 frame. -/
theorem ipv4Frames_arpSend (s : NetState) (destMac : MacAddr) (opcode : UInt16)
    (targetMac : MacAddr) (targetIp : Ipv4Addr) :
    ipv4Frames (arpSend s destMac opcode targetMac targetIp).events = [] := by
  rcases arpSend_events s destMac opcode targetMac targetIp with h | ⟨iface, -, h⟩
  · rw [h]
    rfl
  · have htype : etherType (fun i =>
        (arpFrame iface destMac opcode targetMac targetIp).getD i 0) ≠ 0x0800 := by
      rw [arpFrame, etherType_bytes]
      decide
    simp only [h, ipv4Frames, List.filterMap_cons, if_neg htype, List.filterMap_nil]

theorem ipv4Frames_arpLookup (s : NetState) (ip : Ipv4Addr) :
    ipv4Frames (arpLookup s ip).events = [] := by
  unfold arpLookup
  split
  · rfl
  · simp only [events_bind, ipv4Frames_append, arpRequest, ipv4Frames_arpSend, events_pure]
    rfl

/-- The IPv4 frame of a packet. -/
def ipv4Frame (destMac srcMac : MacAddr) (src dest : Ipv4Addr) (proto : UInt8) (payload : List UInt8)
    (len : UInt16) : List UInt8 :=
  (EthernetHdr.mk destMac srcMac (netHtons ethertypeIpv4)).bytes ++
    (ipv4HeaderSealed src dest proto len).bytes ++ payload

@[simp] theorem length_ethernetHdr (h : EthernetHdr) : h.bytes.length = 14 := by
  simp [EthernetHdr.bytes]

@[simp] theorem length_ipv4Hdr (h : Ipv4Hdr) : h.bytes.length = 20 := by simp [Ipv4Hdr.bytes]

@[simp] theorem length_udpHdr (h : UdpHdr) : h.bytes.length = 8 := rfl

theorem length_ipv4Frame (destMac srcMac : MacAddr) (src dest : Ipv4Addr) (proto : UInt8)
    (payload : List UInt8) (len : UInt16) :
    (ipv4Frame destMac srcMac src dest proto payload len).length = 34 + payload.length := by
  simp [ipv4Frame, ← Nat.add_assoc]

theorem frameLength_toNat {len : UInt16} (h : 34 + len.toNat < 65536) :
    (ethernetHdrSize + ipv4HdrSize + len).toNat = 34 + len.toNat :=
  toNat_add_of_fits h

/-- The size of the frame and of its buffer. -/
def totalLen (len : UInt16) : UInt16 := ethernetHdrSize + ipv4HdrSize + len

/-- The state before the lookup: there is a buffer, with the source address in its place. -/
def ipStart (s : NetState) (iface : NetInterface) (len : UInt16) : NetState :=
  let block := malloc s.heap (totalLen len).toUInt32
  { s with heap := block.2, mem := store s.mem (block.1 + 6) iface.macAddr.toList }

/-- The address that the frame goes to, and the state after the lookup. -/
def ipLookup (s : NetState) (iface : NetInterface) (dest : Ipv4Addr) (len : UInt16) : MacAddr × NetState :=
  (arpLookup (ipStart s iface len) dest).val

/-- What `ip_send_packet` puts into its buffer. -/
def ipPacket (s : NetState) (iface : NetInterface) (dest : Ipv4Addr) (proto : UInt8)
    (data : ℕ → UInt8) (len : UInt16) : List UInt8 :=
  ipv4Frame (ipLookup s iface dest len).1 iface.macAddr iface.ipAddr dest proto
    (Blocks.stretch data 0 len.toNat) len

theorem length_ipPacket {len : UInt16} (dest : Ipv4Addr) (proto : UInt8) (data : ℕ → UInt8) :
    (ipPacket s iface dest proto data len).length = 34 + len.toNat := by
  rw [ipPacket, length_ipv4Frame, Blocks.length_stretch]

theorem etherType_ipPacket {len : UInt16} (dest : Ipv4Addr) (proto : UInt8) (data : ℕ → UInt8) :
    etherType (fun i => (ipPacket s iface dest proto data len).getD i 0) = 0x0800 := by
  simp only [ipPacket, ipv4Frame, List.append_assoc]
  exact etherType_bytes ..

theorem interfaces_ipLookup (hiface : netGetInterface s eth0 = some iface) (dest : Ipv4Addr)
    (len : UInt16) : (ipLookup s iface dest len).2.interfaces = some iface :=
  (arpLookup_frame _ dest).1.trans (interfaces_of_get hiface)

/-- SPEC of `ip_send_packet` with an interface and memory: after the lookup the rest of the packet is
    stored, and the packet passed on cut to the 16-bit size. -/
theorem ipSendPacket_spec (hiface : netGetInterface s eth0 = some iface) {len : UInt16}
    (hmalloc : (malloc s.heap (totalLen len).toUInt32).1 ≠ null) (dest : Ipv4Addr) (proto : UInt8)
    (data : ℕ → UInt8) :
    (ipSendPacket s dest proto data len).events =
        (arpLookup (ipStart s iface len) dest).events ++
          (netSendPacket (ipLookup s iface dest len).2
            ((ipPacket s iface dest proto data len).take (totalLen len).toNat)).events ∧
      (ipSendPacket s dest proto data len).val.mem =
        store (store (ipLookup s iface dest len).2.mem (malloc s.heap (totalLen len).toUInt32).1
            (ipLookup s iface dest len).1.toList)
          ((malloc s.heap (totalLen len).toUInt32).1 + 12)
          ((ipPacket s iface dest proto data len).drop 12) := by
  have hblock : ¬(malloc s.heap (ethernetHdrSize + ipv4HdrSize + len).toUInt32).1 = null := hmalloc
  unfold ipSendPacket
  rw [hiface]
  dsimp only
  rw [if_neg hblock, events_bind, events_bind, events_pure, List.append_nil]
  exact ⟨rfl, rfl⟩

/-- … one IPv4 frame with the header and the payload in it, if it has a 16-bit length. -/
theorem ipv4Frames_ipSendPacket (hiface : netGetInterface s eth0 = some iface)
    (hup : iface.Sends) {len : UInt16} (hlen : 34 + len.toNat < 65536)
    (hmalloc : (malloc s.heap (ethernetHdrSize + ipv4HdrSize + len).toUInt32).1 ≠ null)
    (dest : Ipv4Addr) (proto : UInt8) (data : ℕ → UInt8) :
    ∃ destMac, ipv4Frames (ipSendPacket s dest proto data len).events =
      [ipv4Frame destMac iface.macAddr iface.ipAddr dest proto
        (Blocks.stretch data 0 len.toNat) len] := by
  have htotal : (totalLen len).toNat = 34 + len.toNat := frameLength_toNat hlen
  refine ⟨(ipLookup s iface dest len).1, ?_⟩
  rw [(ipSendPacket_spec hiface hmalloc dest proto data).1, ipv4Frames_append, ipv4Frames_arpLookup,
    List.nil_append, netSendPacket_events (interfaces_ipLookup hiface dest len) hup,
    List.take_of_length_le (by rw [length_ipPacket, htotal])]
  simp only [ipv4Frames, List.filterMap_cons, if_pos (etherType_ipPacket dest proto data),
    List.filterMap_nil]
  rfl

/-- … of a segment that lies in a buffer. -/
theorem ipv4Frames_ipSendPacket_buffer (hiface : netGetInterface s eth0 = some iface)
    (hup : iface.Sends) {len : UInt16} {segment : List UInt8} (hsegment : segment.length = len.toNat)
    (hlen : 34 + len.toNat < 65536)
    (hmalloc : (malloc s.heap (ethernetHdrSize + ipv4HdrSize + len).toUInt32).1 ≠ null)
    (dest : Ipv4Addr) (proto : UInt8) :
    ∃ destMac, ipv4Frames (ipSendPacket s dest proto (fun i => segment.getD i 0) len).events =
      [ipv4Frame destMac iface.macAddr iface.ipAddr dest proto segment len] := by
  have hread : Blocks.stretch (fun i => segment.getD i 0) 0 len.toNat = segment :=
    hsegment ▸ Blocks.stretch_getD segment 0
  have hsent := ipv4Frames_ipSendPacket hiface hup hlen hmalloc dest proto fun i => segment.getD i 0
  rwa [hread] at hsent

theorem segmentLength_toNat {len : UInt16} (h : len.toNat ≤ 65493) :
    (udpHdrSize + len).toNat = 8 + len.toNat :=
  toNat_add_of_fits (by show 8 + len.toNat < 65536; omega)

/-- What `udp_send_packet` puts into its buffer. -/
def udpSegment (srcPort destPort : UInt16) (data : ℕ → UInt8) (len : UInt16) : List UInt8 :=
  (UdpHdr.mk (netHtons srcPort) (netHtons destPort) (netHtons (udpHdrSize + len)) 0).bytes ++
    Blocks.stretch data 0 len.toNat

/-- The state in which it calls `ip_send_packet`. -/
def udpFilled (s : NetState) (srcPort destPort : UInt16) (data : ℕ → UInt8) (len : UInt16) : NetState :=
  let block := malloc s.heap (udpHdrSize.toUInt32 + len.toUInt32)
  { s with heap := block.2, mem := store s.mem block.1 (udpSegment srcPort destPort data len) }

theorem length_udpSegment {len : UInt16} (hlen : len.toNat ≤ 65493) (srcPort destPort : UInt16)
    (data : ℕ → UInt8) :
    (udpSegment srcPort destPort data len).length = (udpHdrSize + len).toNat := by
  simp [udpSegment, segmentLength_toNat hlen]

/-- SPEC of `udp_send_packet` with memory: it sends what `ip_send_packet` sends of the segment. -/
theorem udpSendPacket_events {len : UInt16}
    (hmalloc : (malloc s.heap (udpHdrSize.toUInt32 + len.toUInt32)).1 ≠ null) (dest : Ipv4Addr)
    (srcPort destPort : UInt16) (data : ℕ → UInt8) :
    (udpSendPacket s dest srcPort destPort data len).events =
      (ipSendPacket (udpFilled s srcPort destPort data len) dest ipProtoUdp
        (fun i => (udpSegment srcPort destPort data len).getD i 0) (udpHdrSize + len)).events := by
  unfold udpSendPacket
  dsimp only
  rw [if_neg hmalloc, events_bind, events_pure, List.append_nil]
  rfl

/-- … one IPv4 frame with the segment in it. -/
theorem ipv4Frames_udpSendPacket (hiface : netGetInterface s eth0 = some iface) (hup : iface.Sends)
    {len : UInt16} (hlen : len.toNat ≤ 65493)
    (hudp : (malloc s.heap (udpHdrSize.toUInt32 + len.toUInt32)).1 ≠ null)
    (hip : (malloc (malloc s.heap (udpHdrSize.toUInt32 + len.toUInt32)).2
      (ethernetHdrSize + ipv4HdrSize + (udpHdrSize + len)).toUInt32).1 ≠ null)
    (dest : Ipv4Addr) (srcPort destPort : UInt16) (data : ℕ → UInt8) :
    ∃ destMac, ipv4Frames (udpSendPacket s dest srcPort destPort data len).events =
      [ipv4Frame destMac iface.macAddr iface.ipAddr dest ipProtoUdp
        (udpSegment srcPort destPort data len) (udpHdrSize + len)] := by
  have hsegment := segmentLength_toNat hlen
  rw [udpSendPacket_events hudp]
  exact @ipv4Frames_ipSendPacket_buffer (udpFilled s srcPort destPort data len) iface hiface hup
    (udpHdrSize + len) _ (length_udpSegment hlen srcPort destPort data) (by omega) hip dest ipProtoUdp

end Sender

/-! ### From the sender to the receiver

    `wire` is the receiver's memory from the start of the frame on. -/

/-- What of an IPv4 frame the receive path looks at. -/
structure Carries (wire : ℕ → UInt8) (dest : Ipv4Addr) (proto : UInt8) (payload : List UInt8)
    (len : UInt16) : Prop where
  type : netNtohs (word (wire 12) (wire 13)) = ethertypeIpv4
  versionIhl : wire 14 = 0x45
  total : netNtohs (word (wire 16) (wire 17)) = ipv4HdrSize + len
  protocol : wire 23 = proto
  dest : Blocks.stretch wire 30 4 = dest.toList
  payload : Blocks.stretch wire 34 payload.length = payload

section Wire
variable {wire : ℕ → UInt8} {dest : Ipv4Addr} {proto : UInt8} {payload : List UInt8} {len : UInt16}

/-- The frame of `ip_send_packet` carries what it was given. -/
theorem carries_ipv4Frame {n : ℕ} {destMac srcMac : MacAddr} {src : Ipv4Addr}
    (h : Blocks.stretch wire 0 n = ipv4Frame destMac srcMac src dest proto payload len) :
    Carries wire dest proto payload len := by
  obtain ⟨hheaders, hpayload⟩ := Blocks.stretch_eq_append h
  obtain ⟨heth, hip⟩ := Blocks.stretch_eq_append hheaders
  obtain ⟨-, htype⟩ := Blocks.stretch_eq_append heth
  -- the IP header, field by field from its end
  obtain ⟨hip, hdest⟩ := Blocks.stretch_eq_append hip
  obtain ⟨hip, -⟩ := Blocks.stretch_eq_append hip
  obtain ⟨hip, -⟩ := Blocks.stretch_eq_append hip
  obtain ⟨hip, hproto⟩ := Blocks.stretch_eq_append hip
  obtain ⟨hip, -⟩ := Blocks.stretch_eq_append hip
  obtain ⟨hip, -⟩ := Blocks.stretch_eq_append hip
  obtain ⟨hversion, htotal⟩ := Blocks.stretch_eq_append hip
  simp only [List.length_append, length_ethernetHdr, length_ipv4Hdr, length_wordBytes,
    Vector.length_toList, List.length_cons, List.length_nil]
    at hpayload htype hdest hproto htotal hversion
  exact
    { type := netNtohs_of_stretch htype
      versionIhl := congrArg (·.getD 0 0) hversion
      total := netNtohs_of_stretch htotal
      protocol := congrArg (·.getD 1 0) hproto
      dest := hdest
      payload := hpayload }

/-- The receive path hands on what the frame carries. -/
theorem Carries.handlerCalls_eq {s : NetState} {iface : NetInterface} {p : Protocol}
    (h : Carries wire dest proto payload len) (hlen : 34 + len.toNat < 65536)
    (hiface : netGetInterface s eth0 = some iface) (hdest : iface.ipAddr = dest)
    (hproto : ipProtocol proto = some p) :
    handlerCalls (netReceiveFrame wire s (ethernetHdrSize + ipv4HdrSize + len)).events =
      [(p, 34, len)] := by
  have hheader : headerLength wire = 20 := by
    rw [headerLength, h.versionIhl]
    rfl
  have hpayload : payloadLength wire = len := by
    rw [payloadLength, h.total, h.versionIhl]
    exact add_sub_cancel_left _ _
  have htotal := frameLength_toNat hlen
  have hdelivered : Delivered wire s ((ethernetHdrSize + ipv4HdrSize + len).toNat - 14) p := by
    refine ⟨by omega, ?_, ⟨iface, hiface, ?_⟩, by omega, ?_⟩
    · rw [h.versionIhl]
      rfl
    · rw [hdest, h.dest]
    · rw [h.protocol, hproto]
  rw [handlerCalls_netReceiveFrame (by omega) (netNtohs_word_eq.mp h.type) hdelivered, hheader,
    hpayload]

/-- The fields and the payload of a UDP segment at `offset`. -/
structure Segment (wire : ℕ → UInt8) (offset : ℕ) (srcPort destPort : UInt16) (data : ℕ → UInt8)
    (len : ℕ) : Prop where
  srcPort : netNtohs (word (wire offset) (wire (offset + 1))) = srcPort
  destPort : netNtohs (word (wire (offset + 2)) (wire (offset + 3))) = destPort
  length : (netNtohs (word (wire (offset + 4)) (wire (offset + 5)))).toNat = 8 + len
  payload : Blocks.stretch wire (offset + 8) len = Blocks.stretch data 0 len

/-- What `udp_send_packet` builds is such a segment. -/
theorem segment_of_stretch {n offset : ℕ} {srcPort destPort : UInt16} {data : ℕ → UInt8}
    (hlen : len.toNat ≤ 65493)
    (h : Blocks.stretch wire offset n = udpSegment srcPort destPort data len) :
    Segment wire offset srcPort destPort data len.toNat := by
  obtain ⟨hudp, hpayload⟩ := Blocks.stretch_eq_append h
  obtain ⟨hudp, -⟩ := Blocks.stretch_eq_append hudp
  obtain ⟨hudp, hlength⟩ := Blocks.stretch_eq_append hudp
  obtain ⟨hsrc, hdest⟩ := Blocks.stretch_eq_append hudp
  rw [Blocks.length_stretch] at hpayload
  refine ⟨netNtohs_of_stretch hsrc, netNtohs_of_stretch hdest, ?_, hpayload⟩
  rw [← segmentLength_toNat hlen, ← netNtohs_of_stretch hlength]
  rfl

end Wire

/-- CORRECT: on an interface that is up and with room for the buffers, `udp_send_packet` passes one
    IPv4 frame to the driver. A host with the destination address that receives this frame makes
    one handler call, of the UDP handler, with the segment's length; the segment has the ports, the
    length and the payload that were sent. -/
theorem udp_encapsulation_undone (s s' : NetState) {iface iface' : NetInterface}
    (hiface : netGetInterface s eth0 = some iface) (hup : iface.Sends)
    (hiface' : netGetInterface s' eth0 = some iface') {dest : Ipv4Addr}
    (hdest : iface'.ipAddr = dest) (srcPort destPort : UInt16) (data : ℕ → UInt8) {len : UInt16}
    (hlen : len.toNat ≤ 65493)
    (hudp : (malloc s.heap (udpHdrSize.toUInt32 + len.toUInt32)).1 ≠ null)
    (hip : (malloc (malloc s.heap (udpHdrSize.toUInt32 + len.toUInt32)).2
      (ethernetHdrSize + ipv4HdrSize + (udpHdrSize + len)).toUInt32).1 ≠ null) :
    ∃ frame, ipv4Frames (udpSendPacket s dest srcPort destPort data len).events = [frame] ∧
      ∀ wire : ℕ → UInt8, Blocks.stretch wire 0 frame.length = frame →
        ∃ passed : UInt16, passed.toNat = 8 + len.toNat ∧
          handlerCalls (netReceiveFrame wire s' (UInt16.ofNat frame.length)).events =
            [(.udp, 34, passed)] ∧
          Segment wire 34 srcPort destPort data len.toNat := by
  have hsegment := segmentLength_toNat hlen
  have hfits : 34 + (udpHdrSize + len).toNat < 65536 := by omega
  obtain ⟨destMac, hsent⟩ :=
    ipv4Frames_udpSendPacket hiface hup hlen hudp hip dest srcPort destPort data
  refine ⟨_, hsent, fun wire hwire => ⟨udpHdrSize + len, hsegment, ?_, ?_⟩⟩
  · have hreceived : UInt16.ofNat (34 + (8 + len.toNat)) =
        ethernetHdrSize + ipv4HdrSize + (udpHdrSize + len) := by
      rw [← UInt16.toNat_inj, frameLength_toNat hfits, hsegment]
      exact UInt16.toNat_ofNat_of_lt' (by show _ < 65536; omega)
    rw [length_ipv4Frame, length_udpSegment hlen, hsegment, hreceived]
    exact (carries_ipv4Frame hwire).handlerCalls_eq hfits hiface' hdest rfl
  · exact segment_of_stretch hlen (carries_ipv4Frame hwire).payload

/-- A second host on the network, 192.168.1.1. -/
def samplePeer : NetState :=
  { sampleHost with
    interfaces := some
      { name := eth0, macAddr := #v[0x52, 0x54, 0x00, 0x12, 0x34, 0x57], ipAddr := #v[192, 168, 1, 1],
        flags := 3, send := true } }

theorem udp_encapsulation_undone_to_peer :
    ∃ frame, ipv4Frames (udpSendPacket sampleHost #v[192, 168, 1, 1] 53 4096
        (fun i => UInt8.ofNat i) 600).events = [frame] ∧
      ∀ wire : ℕ → UInt8, Blocks.stretch wire 0 frame.length = frame →
        ∃ passed : UInt16, passed.toNat = 8 + 600 ∧
          handlerCalls (netReceiveFrame wire samplePeer (UInt16.ofNat frame.length)).events =
            [(.udp, 34, passed)] ∧
          Segment wire 34 53 4096 (fun i => UInt8.ofNat i) 600 :=
  udp_encapsulation_undone sampleHost samplePeer rfl ⟨rfl, by decide⟩ rfl rfl 53 4096
    (fun i => UInt8.ofNat i) (by decide) (by decide) (by decide)

end VlsOs.Net
