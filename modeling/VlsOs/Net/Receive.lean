import VlsOs.Kernel.Memory
import VlsOs.Libc.String
import VlsOs.Net.Wire

/-! The receive path (`net/net.c`, `net/arp.c`, `net/ip.c`, `net/icmp.c`, `net/udp.c`, `net/tcp.c`).

        net_receive_frame ──0x0806──▶ arp_handle_packet ──▶ arp_cache_learn, arp_send_reply
                          ──0x0800──▶ ip_handle_packet  ──1──▶ icmp_handle_packet ──▶ echo reply
                                                        ──17─▶ udp_handle_packet
                                                        ──6──▶ tcp_handle_packet

    A pointer into the frame is its offset from `data`. What a function writes goes to a buffer from
    `malloc`, not to the frame. A copy that runs past the end of the frame could meet its own buffer;
    that would change what it finds there, not where it reads. -/

namespace VlsOs.Net
open Patterns Patterns.Trace VlsOs.Memory

/-! ### State -/

/-- A registered interface; `send` tells whether the driver has set its `send`. -/
structure NetInterface where
  name : List UInt8
  macAddr : MacAddr
  ipAddr : Ipv4Addr
  flags : UInt32
  send : Bool
  deriving DecidableEq

def netFlagUp : UInt32 := 1

structure ArpCacheEntry where
  ip : Ipv4Addr
  mac : MacAddr
  valid : Bool
  deriving DecidableEq

/-- The first `arp_cache_entries` entries of `arp_cache[32]`. -/
structure ArpCache where
  entries : List ArpCacheEntry
  fits : entries.length ≤ 32

/-- `interfaces[1]` with `num_interfaces`, the ARP cache, the heap and its memory. -/
structure NetState where
  interfaces : Option NetInterface
  arpCache : ArpCache
  heap : Heap
  mem : Mem

/-- The name `"eth0"`. -/
def eth0 : List UInt8 := [101, 116, 104, 48]

def netGetInterface (s : NetState) (name : List UInt8) : Option NetInterface :=
  s.interfaces.filter fun iface => Libc.strcmp iface.name name = 0

def netSendPacket (s : NetState) (data : List UInt8) : Traced RxEvent Unit :=
  match s.interfaces with
  | none => return ()
  | some iface =>
    if iface.send ∧ iface.flags &&& netFlagUp ≠ 0 then emit (.sent data) else return ()

/-- The bytes of a buffer written to memory. -/
def store (m : Mem) (buffer : UInt32) (bytes : List UInt8) : Mem :=
  memcpy m buffer (fun i => bytes.getD i 0) bytes.length

/-! ### ARP -/

structure EthernetHdr where
  destMac : MacAddr
  srcMac : MacAddr
  ethertype : UInt16

def EthernetHdr.bytes (h : EthernetHdr) : List UInt8 :=
  h.destMac.toList ++ h.srcMac.toList ++ wordBytes h.ethertype

structure ArpPkt where
  hwType : UInt16
  protoType : UInt16
  hwAddrLen : UInt8
  protoAddrLen : UInt8
  opcode : UInt16
  senderMac : MacAddr
  senderIp : Ipv4Addr
  targetMac : MacAddr
  targetIp : Ipv4Addr

def ArpPkt.bytes (p : ArpPkt) : List UInt8 :=
  wordBytes p.hwType ++ wordBytes p.protoType ++ [p.hwAddrLen, p.protoAddrLen] ++
    wordBytes p.opcode ++ p.senderMac.toList ++ p.senderIp.toList ++ p.targetMac.toList ++
    p.targetIp.toList

def arpOpRequest : UInt16 := 1

def arpOpReply : UInt16 := 2

/-- A known address gets the new MAC; an unknown one a new entry while there is room. -/
def arpCacheLearn (cache : ArpCache) (ip : Ipv4Addr) (mac : MacAddr) : ArpCache :=
  match cache.entries.findIdx? fun e => memcmp e.ip.toList ip.toList = 0 with
  | some i =>
    ⟨cache.entries.modify i fun e => { e with mac := mac, valid := true }, by
      simpa using cache.fits⟩
  | none =>
    if h : cache.entries.length < 32 then
      ⟨cache.entries ++ [⟨ip, mac, true⟩], by simpa using h⟩
    else cache

/-- The body that `arp_request` and `arp_send_reply` share: one frame of 42 bytes, built in a
    buffer. -/
def arpSend (s : NetState) (destMac : MacAddr) (opcode : UInt16) (targetMac : MacAddr)
    (targetIp : Ipv4Addr) : Traced RxEvent NetState :=
  match netGetInterface s eth0 with
  | none => return s
  | some iface =>
    let (buffer, heap) := malloc s.heap (ethernetHdrSize + arpPktSize).toUInt32
    if buffer = null then return s
    else do
      let eth : EthernetHdr := ⟨destMac, iface.macAddr, netHtons ethertypeArp⟩
      let arp : ArpPkt :=
        { hwType := netHtons 1, protoType := netHtons ethertypeIpv4, hwAddrLen := 6,
          protoAddrLen := 4, opcode := netHtons opcode, senderMac := iface.macAddr,
          senderIp := iface.ipAddr, targetMac := targetMac, targetIp := targetIp }
      let packet := eth.bytes ++ arp.bytes
      netSendPacket s packet
      return { s with heap := free heap buffer, mem := store s.mem buffer packet }

def arpSendReply (s : NetState) (destIp : Ipv4Addr) (destMac : MacAddr) : Traced RxEvent NetState :=
  arpSend s destMac arpOpReply destMac destIp

/-- `arp_handle_packet`; `data` is the offset of the packet in the frame. -/
def arpHandlePacket (frame : ℕ → UInt8) (s : NetState) (data : ℕ) (len : UInt16) :
    Traced RxEvent NetState :=
  if len < arpPktSize then return s
  else do
    let hwType ← readWord frame data
    if netNtohs hwType ≠ 1 then return s
    else
      let protoType ← readWord frame (data + 2)
      if netNtohs protoType ≠ ethertypeIpv4 then return s
      else
        match netGetInterface s eth0 with
        | none => return s
        | some iface =>
          let senderIp ← readIpv4Addr frame (data + 14)
          let senderMac ← readMacAddr frame (data + 8)
          let s := { s with arpCache := arpCacheLearn s.arpCache senderIp senderMac }
          let opcode ← readWord frame (data + 6)
          if netNtohs opcode = arpOpRequest then
            let differs ← memcmpFrame frame (data + 24) iface.ipAddr.toList
            if differs = 0 then
              let senderIp ← readIpv4Addr frame (data + 14)
              let senderMac ← readMacAddr frame (data + 8)
              arpSendReply s senderIp senderMac
            else return s
          else return s

/-! ### Protocol handlers -/

def icmpEchoRequest : UInt8 := 8

def icmpEchoReply : UInt8 := 0

/-- The buffer of `icmp_send_echo_reply`: the request with the type changed, and a checksum computed
    over the message with its checksum field at `0`. -/
def echoReply (request : List UInt8) : List UInt8 :=
  let zeroed := ((request.set 0 icmpEchoReply).set 2 0).set 3 0
  let checksum := netChecksum zeroed
  (zeroed.set 2 checksum.toUInt8).set 3 (checksum >>> 8).toUInt8

/-- `icmp_send_echo_reply`: the reply stays in its buffer, no frame is sent. -/
def icmpSendEchoReply (frame : ℕ → UInt8) (s : NetState) (data : ℕ) (len : UInt16) :
    Traced RxEvent NetState :=
  let (buffer, heap) := malloc s.heap len.toUInt32
  if buffer = null then return s
  else do
    let request ← readBytes frame data len.toNat
    emit (.printed "ICMP Echo Reply\n")
    return { s with heap := free heap buffer, mem := store s.mem buffer (echoReply request.toList) }

def icmpHandlePacket (frame : ℕ → UInt8) (s : NetState) (data : ℕ) (len : UInt16) :
    Traced RxEvent NetState :=
  if len < icmpHdrSize then return s
  else do
    let type ← readByte frame data
    if type = icmpEchoRequest then icmpSendEchoReply frame s data len else return s

/-- `udp_handle_packet` takes a header pointer and leaves it at that. -/
def udpHandlePacket (_frame : ℕ → UInt8) (s : NetState) (_data : ℕ) (len : UInt16) :
    Traced RxEvent NetState :=
  if len < udpHdrSize then return s else return s

/-- `tcp_handle_packet`, likewise. -/
def tcpHandlePacket (_frame : ℕ → UInt8) (s : NetState) (_data : ℕ) (len : UInt16) :
    Traced RxEvent NetState :=
  if len < tcpHdrSize then return s else return s

/-! ### IP and the frame -/

/-- The `switch (ip->protocol)` of `ip_handle_packet`. -/
def ipProtocol (protocol : UInt8) : Option Protocol :=
  if protocol = 1 then some .icmp
  else if protocol = 17 then some .udp
  else if protocol = 6 then some .tcp
  else none

/-- The handler of a protocol. -/
def Protocol.handlePacket : Protocol → (ℕ → UInt8) → NetState → ℕ → UInt16 → Traced RxEvent NetState
  | .icmp => icmpHandlePacket
  | .udp => udpHandlePacket
  | .tcp => tcpHandlePacket

/-- `ip_handle_packet`; `data` is the offset of the IP header in the frame. -/
def ipHandlePacket (frame : ℕ → UInt8) (s : NetState) (data : ℕ) (len : UInt16) :
    Traced RxEvent NetState :=
  if len < ipv4HdrSize then return s
  else
    match netGetInterface s eth0 with
    | none => return s
    | some iface => do
      let versionIhl ← readByte frame data
      if versionIhl >>> 4 ≠ 4 then return s
      else
        let differs ← memcmpFrame frame (data + 16) iface.ipAddr.toList
        if differs ≠ 0 then return s
        else
          let versionIhl ← readByte frame data
          let ihl : UInt8 := (versionIhl &&& 0x0F) * 4
          if ihl.toUInt16 > len then return s
          else
            let totalLength ← readWord frame (data + 2)
            let payload := data + ihl.toNat
            -- the difference is an `int`, cut to 16 bits by the assignment
            let payloadLen := netNtohs totalLength - ihl.toUInt16
            let protocol ← readByte frame (data + 9)
            match ipProtocol protocol with
            | none => return s
            | some p =>
              emit (.handler p payload payloadLen)
              p.handlePacket frame s payload payloadLen

def netReceiveFrame (frame : ℕ → UInt8) (s : NetState) (len : UInt16) : Traced RxEvent NetState :=
  if len < ethernetHdrSize then return s
  else do
    let ethertype ← readWord frame 12
    if netNtohs ethertype = ethertypeArp then
      arpHandlePacket frame s 14 (len - ethernetHdrSize)
    else if netNtohs ethertype = ethertypeIpv4 then
      ipHandlePacket frame s 14 (len - ethernetHdrSize)
    else return s

end VlsOs.Net
