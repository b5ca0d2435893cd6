import VlsOs.Net.Receive

/-! The send path (`net/arp.c`, `net/ip.c`, `net/udp.c`, `net/icmp.c`).

        udp_send_packet, icmp_send_echo_request ──▶ ip_send_packet ──▶ net_send_packet ──▶ driver
                                                        │
                                                    arp_lookup ──not cached──▶ arp_request ──▶ driver

    Each layer puts its header and a copy of what it was given into a buffer of its own from
    `malloc`; a pointer argument is given by the bytes it points at. Lengths are 16-bit: what a frame
    is cut to is the 16-bit sum of its parts. -/

namespace VlsOs.Net
open Patterns Patterns.Trace VlsOs.Memory

/-! ### ARP -/

def broadcastMac : MacAddr := Vector.replicate 6 0xFF

/-- The frame that `arpSend` builds on an interface. -/
def arpFrame (sender : NetInterface) (destMac : MacAddr) (opcode : UInt16) (targetMac : MacAddr)
    (targetIp : Ipv4Addr) : List UInt8 :=
  (EthernetHdr.mk destMac sender.macAddr (netHtons ethertypeArp)).bytes ++
    (ArpPkt.mk (netHtons 1) (netHtons ethertypeIpv4) 6 4 (netHtons opcode) sender.macAddr
      sender.ipAddr targetMac targetIp).bytes

def arpRequest (s : NetState) (targetIp : Ipv4Addr) : Traced RxEvent NetState :=
  arpSend s broadcastMac arpOpRequest (Vector.replicate 6 0) targetIp

/-- `arp_lookup`: the cached address, or a request on its way and the broadcast address for now. -/
def arpLookup (s : NetState) (ip : Ipv4Addr) : Traced RxEvent (MacAddr × NetState) :=
  match s.arpCache.entries.find? fun e => e.valid && memcmp e.ip.toList ip.toList = 0 with
  | some e => return (e.mac, s)
  | none => do
    let s ← arpRequest s ip
    return (broadcastMac, s)

theorem netSendPacket_cases (s : NetState) (packet : List UInt8) :
    (netSendPacket s packet).events = [] ∨ (netSendPacket s packet).events = [.sent packet] := by
  unfold netSendPacket
  cases s.interfaces with
  | none => exact .inl rfl
  | some iface =>
    dsimp only
    split
    · exact .inr rfl
    · exact .inl rfl

/-- SPEC of the sending body: nothing, or the one frame. -/
theorem arpSend_events (s : NetState) (destMac : MacAddr) (opcode : UInt16) (targetMac : MacAddr)
    (targetIp : Ipv4Addr) :
    (arpSend s destMac opcode targetMac targetIp).events = [] ∨
      ∃ iface, netGetInterface s eth0 = some iface ∧
        (arpSend s destMac opcode targetMac targetIp).events =
          [.sent (arpFrame iface destMac opcode targetMac targetIp)] := by
  unfold arpSend
  cases netGetInterface s eth0 with
  | none => exact .inl rfl
  | some iface =>
    dsimp only
    split
    · exact .inl rfl
    · rw [events_bind, events_pure, List.append_nil]
      rcases netSendPacket_cases s (arpFrame iface destMac opcode targetMac targetIp) with h | h
      · exact .inl h
      · exact .inr ⟨iface, rfl, h⟩

/-- FRAME: sending ARP packets changes neither the interface nor the cache. -/
theorem arpSend_frame (s : NetState) (destMac : MacAddr) (opcode : UInt16) (targetMac : MacAddr)
    (targetIp : Ipv4Addr) :
    (arpSend s destMac opcode targetMac targetIp).val.interfaces = s.interfaces ∧
      (arpSend s destMac opcode targetMac targetIp).val.arpCache = s.arpCache := by
  unfold arpSend
  cases netGetInterface s eth0 with
  | none => exact ⟨rfl, rfl⟩
  | some iface =>
    dsimp only
    split <;> exact ⟨rfl, rfl⟩

/-- … nor does a lookup. -/
theorem arpLookup_frame (s : NetState) (ip : Ipv4Addr) :
    (arpLookup s ip).val.2.interfaces = s.interfaces ∧
      (arpLookup s ip).val.2.arpCache = s.arpCache := by
  unfold arpLookup
  split
  · exact ⟨rfl, rfl⟩
  · exact arpSend_frame ..

/-! ### IP -/

def ipProtoIcmp : UInt8 := 1

def ipProtoUdp : UInt8 := 17

structure Ipv4Hdr where
  versionIhl : UInt8
  dscpEcn : UInt8
  totalLength : UInt16
  identification : UInt16
  flagsFragOffset : UInt16
  ttl : UInt8
  protocol : UInt8
  checksum : UInt16
  srcAddr : Ipv4Addr
  destAddr : Ipv4Addr

def Ipv4Hdr.bytes (h : Ipv4Hdr) : List UInt8 :=
  [h.versionIhl, h.dscpEcn] ++ wordBytes h.totalLength ++ wordBytes h.identification ++
    wordBytes h.flagsFragOffset ++ [h.ttl, h.protocol] ++ wordBytes h.checksum ++
    h.srcAddr.toList ++ h.destAddr.toList

/-- The header that `ip_send_packet` writes, with the checksum field still `0`. -/
def ipv4Header (src dest : Ipv4Addr) (proto : UInt8) (len : UInt16) : Ipv4Hdr where
  versionIhl := ((4 : UInt8) <<< 4) ||| 5
  dscpEcn := 0
  totalLength := netHtons (ipv4HdrSize + len)
  identification := 0
  flagsFragOffset := 0
  ttl := 64
  protocol := proto
  checksum := 0
  srcAddr := src
  destAddr := dest

/-- … and with the checksum of those 20 bytes in the field. -/
def ipv4HeaderSealed (src dest : Ipv4Addr) (proto : UInt8) (len : UInt16) : Ipv4Hdr :=
  { ipv4Header src dest proto len with
    checksum := netChecksum (ipv4Header src dest proto len).bytes }

def ipSendPacket (s : NetState) (dest : Ipv4Addr) (proto : UInt8) (data : ℕ → UInt8)
    (len : UInt16) : Traced RxEvent NetState :=
  match netGetInterface s eth0 with
  | none => return s
  | some iface =>
    let totalLen : UInt16 := ethernetHdrSize + ipv4HdrSize + len
    let (buffer, heap) := malloc s.heap totalLen.toUInt32
    if buffer = null then return s
    else do
      -- the source address is in the buffer before the lookup, which may fill a buffer behind this one
      let s := { s with heap := heap, mem := store s.mem (buffer + 6) iface.macAddr.toList }
      let (destMac, s) ← arpLookup s dest
      let eth : EthernetHdr := ⟨destMac, iface.macAddr, netHtons ethertypeIpv4⟩
      let packet := eth.bytes ++ (ipv4HeaderSealed iface.ipAddr dest proto len).bytes ++
        Blocks.stretch data 0 len.toNat
      netSendPacket s (packet.take totalLen.toNat)
      let mem := store (store s.mem buffer destMac.toList) (buffer + 12) (packet.drop 12)
      return { s with heap := free s.heap buffer, mem := mem }

/-! ### UDP and ICMP -/

structure UdpHdr where
  srcPort : UInt16
  destPort : UInt16
  length : UInt16
  checksum : UInt16

def UdpHdr.bytes (h : UdpHdr) : List UInt8 :=
  wordBytes h.srcPort ++ wordBytes h.destPort ++ wordBytes h.length ++ wordBytes h.checksum

def udpSendPacket (s : NetState) (dest : Ipv4Addr) (srcPort destPort : UInt16) (data : ℕ → UInt8)
    (len : UInt16) : Traced RxEvent NetState :=
  let (buffer, heap) := malloc s.heap (udpHdrSize.toUInt32 + len.toUInt32)
  if buffer = null then return s
  else do
    let udp : UdpHdr :=
      ⟨netHtons srcPort, netHtons destPort, netHtons (udpHdrSize + len), 0⟩
    let segment := udp.bytes ++ Blocks.stretch data 0 len.toNat
    let s := { s with heap := heap, mem := store s.mem buffer segment }
    let s ← ipSendPacket s dest ipProtoUdp (fun i => segment.getD i 0) (udpHdrSize + len)
    return { s with heap := free s.heap buffer }

structure IcmpHdr where
  type : UInt8
  code : UInt8
  checksum : UInt16
  id : UInt16
  seq : UInt16

def IcmpHdr.bytes (h : IcmpHdr) : List UInt8 :=
  [h.type, h.code] ++ wordBytes h.checksum ++ wordBytes h.id ++ wordBytes h.seq

/-- The header and the 32 bytes of data that `icmp_send_echo_request` fills in. -/
def echoMessage (checksum : UInt16) : List UInt8 :=
  let icmp : IcmpHdr := ⟨icmpEchoRequest, 0, checksum, netHtons 0x1234, netHtons 1⟩
  icmp.bytes ++ (List.range 32).map UInt8.ofNat

/-- The message it sends: the checksum is that of the message with the field at `0`. -/
def echoRequest : List UInt8 := echoMessage (netChecksum (echoMessage 0))

def icmpSendEchoRequest (s : NetState) (dest : Ipv4Addr) : Traced RxEvent NetState :=
  let (buffer, heap) := malloc s.heap (icmpHdrSize.toUInt32 + 32)
  if buffer = null then return s
  else do
    let s := { s with heap := heap, mem := store s.mem buffer echoRequest }
    let s ← ipSendPacket s dest ipProtoIcmp (fun i => echoRequest.getD i 0) (icmpHdrSize + 32)
    return { s with heap := free s.heap buffer }

end VlsOs.Net
