import VlsOs.Net.ArpCache
import VlsOs.Net.Encapsulation

/-! Address resolution among hosts that all run this code.

    The hosts share a broadcast medium. A frame that was sent stays on the medium for good, and any
    host may receive it at any time: once, often, late, out of order or never. Two invariants carry
    everything: a frame on the medium names its sender's own address pair, and so every pair that a
    host learns from a frame is some host's own.

        a ──request for b's address──▶ medium ──▶ b learns a, and replies to a
        a ◀──────────────── medium ◀──reply of b── b
        a learns b -/

namespace VlsOs.Net
open Patterns Patterns.Trace VlsOs.Memory

/-! ### ARP frames -/

/-- The frames passed to the driver. -/
def sentFrames (events : List RxEvent) : List (List UInt8) :=
  events.filterMap fun e =>
    match e with
    | .sent frame => some frame
    | .read _ | .handler .. | .printed _ => none

@[simp] theorem sentFrames_append (a b : List RxEvent) :
    sentFrames (a ++ b) = sentFrames a ++ sentFrames b := List.filterMap_append

/-- Reading the frame sends nothing. -/
theorem sentFrames_reads {α : Type} {x : Traced RxEvent α} (h : All (fun e => ∃ i, e = .read i) x) :
    sentFrames x.events = [] := by
  rw [sentFrames, List.filterMap_eq_nil_iff]
  intro e he
  obtain ⟨i, rfl⟩ := h e he
  rfl

def requestFrame (sender : NetInterface) (ip : Ipv4Addr) : List UInt8 :=
  arpFrame sender broadcastMac arpOpRequest (Vector.replicate 6 0) ip

def replyFrame (sender : NetInterface) (destMac : MacAddr) (destIp : Ipv4Addr) : List UInt8 :=
  arpFrame sender destMac arpOpReply destMac destIp

theorem sentFrames_arpSend {s : NetState} {iface : NetInterface}
    (hiface : netGetInterface s eth0 = some iface) (destMac : MacAddr) (opcode : UInt16)
    (targetMac : MacAddr) (targetIp : Ipv4Addr) :
    ∀ f ∈ sentFrames (arpSend s destMac opcode targetMac targetIp).events,
      f = arpFrame iface destMac opcode targetMac targetIp := by
  rcases arpSend_events s destMac opcode targetMac targetIp with h | ⟨iface', hiface', h⟩
  · simp [h, sentFrames]
  · obtain rfl : iface = iface' := Option.some.inj (hiface.symm.trans hiface')
    simp [h, sentFrames]

/-- What of an ARP frame the receive path looks at. -/
structure CarriesArp (wire : ℕ → UInt8) (sender : NetInterface) (opcode : UInt16)
    (targetIp : Ipv4Addr) : Prop where
  type : netNtohs (word (wire 12) (wire 13)) = ethertypeArp
  hwType : netNtohs (word (wire 14) (wire 15)) = 1
  protoType : netNtohs (word (wire 16) (wire 17)) = ethertypeIpv4
  opcode : netNtohs (word (wire 20) (wire 21)) = opcode
  senderMac : Blocks.stretch wire 22 6 = sender.macAddr.toList
  senderIp : Blocks.stretch wire 28 4 = sender.ipAddr.toList
  targetIp : Blocks.stretch wire 38 4 = targetIp.toList

section Frames
variable {wire : ℕ → UInt8} {sender : NetInterface} {destMac targetMac : MacAddr} {opcode : UInt16}
  {targetIp : Ipv4Addr}

@[simp] theorem length_arpFrame : (arpFrame sender destMac opcode targetMac targetIp).length = 42 := by
  simp [arpFrame, ArpPkt.bytes]

theorem carriesArp_arpFrame {n : ℕ}
    (h : Blocks.stretch wire 0 n = arpFrame sender destMac opcode targetMac targetIp) :
    CarriesArp wire sender opcode targetIp := by
  obtain ⟨heth, harp⟩ := Blocks.stretch_eq_append h
  obtain ⟨-, htype⟩ := Blocks.stretch_eq_append heth
  -- the ARP packet, field by field from its end
  obtain ⟨harp, htip⟩ := Blocks.stretch_eq_append harp
  obtain ⟨harp, -⟩ := Blocks.stretch_eq_append harp
  obtain ⟨harp, hsip⟩ := Blocks.stretch_eq_append harp
  obtain ⟨harp, hsmac⟩ := Blocks.stretch_eq_append harp
  obtain ⟨harp, hop⟩ := Blocks.stretch_eq_append harp
  obtain ⟨harp, -⟩ := Blocks.stretch_eq_append harp
  obtain ⟨hhw, hproto⟩ := Blocks.stretch_eq_append harp
  simp only [List.length_append, length_ethernetHdr, length_wordBytes, Vector.length_toList,
    List.length_cons, List.length_nil] at htype htip hsip hsmac hop hhw hproto
  exact
    { type := netNtohs_of_stretch htype
      hwType := netNtohs_of_stretch hhw
      protoType := netNtohs_of_stretch hproto
      opcode := netNtohs_of_stretch hop
      senderMac := hsmac
      senderIp := hsip
      targetIp := htip }

/-- A block that is read as bytes is the block. -/
theorem readBytes_val {offset k : ℕ} {v : Vector UInt8 k}
    (h : Blocks.stretch wire offset k = v.toList) : (readBytes wire offset k).val = v := by
  refine Vector.toList_inj.mp (Eq.trans ?_ h)
  refine List.ext_getElem (by simp) fun i _ _ => ?_
  simp [readBytes, Blocks.stretch]

/-- What a host does with an ARP packet: it learns the sender, and answers a request for its own
    address. -/
def arpAnswer (s : NetState) (iface sender : NetInterface) (opcode : UInt16) (targetIp : Ipv4Addr) :
    Traced RxEvent NetState :=
  let s := { s with arpCache := arpCacheLearn s.arpCache sender.ipAddr sender.macAddr }
  if opcode = arpOpRequest ∧ targetIp = iface.ipAddr then
    arpSend s sender.macAddr arpOpReply sender.macAddr sender.ipAddr
  else return s

/-- SPEC of the receive path on an ARP frame. -/
theorem netReceiveFrame_arp {s : NetState} {iface : NetInterface}
    (hiface : netGetInterface s eth0 = some iface) (h : CarriesArp wire sender opcode targetIp) :
    (netReceiveFrame wire s 42).val = (arpAnswer s iface sender opcode targetIp).val ∧
      sentFrames (netReceiveFrame wire s 42).events =
        sentFrames (arpAnswer s iface sender opcode targetIp).events := by
  have hword (i : ℕ) : sentFrames (readWord wire i).events = [] :=
    sentFrames_reads (by simp)
  have hbytes (i k : ℕ) : sentFrames (readBytes wire i k).events = [] :=
    sentFrames_reads (by simp)
  have hcompare : sentFrames (memcmpFrame wire 38 iface.ipAddr.toList).events = [] :=
    sentFrames_reads (all_memcmpFrame _ _ _ fun i _ => ⟨_, rfl⟩)
  have htarget : (memcmpFrame wire 38 iface.ipAddr.toList).val = 0 ↔ targetIp = iface.ipAddr := by
    rw [memcmpFrame_eq_zero, Vector.length_toList, h.targetIp, Vector.toList_inj]
  have hip := readBytes_val h.senderIp
  have hmac := readBytes_val h.senderMac
  unfold netReceiveFrame arpHandlePacket arpAnswer
  rw [if_neg (by decide)]
  simp only [val_bind, events_bind, val_readWord, sentFrames_append, hword, List.nil_append, h.type,
    if_true]
  rw [if_neg (by decide)]
  simp only [val_bind, events_bind, val_readWord, sentFrames_append, hword, List.nil_append,
    h.hwType, h.protoType, ne_eq, not_true_eq_false, if_false, hiface, readIpv4Addr, readMacAddr, hbytes, hip,
    hmac, h.opcode]
  by_cases hop : opcode = arpOpRequest
  · by_cases hours : targetIp = iface.ipAddr
    · simp only [hop, hours, and_self, if_true, val_bind, events_bind, sentFrames_append,
        htarget.mpr hours, hcompare, hbytes, List.nil_append, hip, hmac, arpSendReply]
    · simp only [hop, hours, and_false, if_true, if_false, val_bind, events_bind, sentFrames_append,
        mt htarget.mp hours, hcompare, List.nil_append, and_self]
  · simp only [hop, false_and, if_false, and_self]

/-- FRAME: answering keeps the interface, and changes the cache by one learn. -/
theorem arpAnswer_frame (s : NetState) (iface sender : NetInterface) (opcode : UInt16)
    (targetIp : Ipv4Addr) :
    (arpAnswer s iface sender opcode targetIp).val.interfaces = s.interfaces ∧
      (arpAnswer s iface sender opcode targetIp).val.arpCache =
        arpCacheLearn s.arpCache sender.ipAddr sender.macAddr := by
  unfold arpAnswer
  dsimp only
  split
  · exact arpSend_frame ..
  · exact ⟨rfl, rfl⟩

/-- A host answers only a request for its own address, with one reply to the sender. -/
theorem sentFrames_arpAnswer {s : NetState} {iface : NetInterface}
    (hiface : netGetInterface s eth0 = some iface) {f : List UInt8}
    (hf : f ∈ sentFrames (arpAnswer s iface sender opcode targetIp).events) :
    opcode = arpOpRequest ∧ targetIp = iface.ipAddr ∧
      f = replyFrame iface sender.macAddr sender.ipAddr := by
  unfold arpAnswer at hf
  dsimp only at hf
  split at hf
  · rename_i hask
    exact ⟨hask.1, hask.2, sentFrames_arpSend (by exact hiface) _ _ _ _ f hf⟩
  · cases hf

end Frames

/-! ### The network -/

section Network
variable {Host : Type*}

/-- The hosts, and all frames that were sent so far. -/
structure Network (Host : Type*) where
  host : Host → NetState
  sent : List (List UInt8)

/-- What can happen next: `arp_request` or `arp_lookup` is called on a host, or a host receives
    `len` bytes, with `wire` its memory from the start of the frame on. -/
inductive NetMove (Host : Type*)
  | request (h : Host) (ip : Ipv4Addr)
  | lookup (h : Host) (ip : Ipv4Addr)
  | receive (h : Host) (wire : ℕ → UInt8) (len : UInt16)

/-- What is received was sent. -/
def Possible (n : Network Host) : NetMove Host → Prop
  | .receive _ wire len => ∃ f ∈ n.sent, len.toNat = f.length ∧ Blocks.stretch wire 0 f.length = f
  | .request .. | .lookup .. => True

/-- A host does something; the frames it sends are on the medium from then on. -/
def Network.act [DecidableEq Host] (n : Network Host) (h : Host) (x : Traced RxEvent NetState) :
    Network Host × List (List UInt8) :=
  (⟨Function.update n.host h x.val, n.sent ++ sentFrames x.events⟩, sentFrames x.events)

/-- A move, with the frames that are sent in it. -/
def netStep [DecidableEq Host] (n : Network Host) : NetMove Host → Network Host × List (List UInt8)
  | .request h ip => n.act h (arpRequest (n.host h) ip)
  | .lookup h ip => n.act h (do
      let (_, s) ← arpLookup (n.host h) ip
      return s)
  | .receive h wire len => n.act h (netReceiveFrame wire (n.host h) len)

/-! ### The invariant -/

variable (iface : Host → NetInterface)

/-- The start: every host has its `eth0` and an empty cache, and nothing was sent. -/
structure Start (n : Network Host) : Prop where
  interfaces : ∀ h, netGetInterface (n.host h) eth0 = some (iface h)
  caches : ∀ h, (n.host h).arpCache.entries = []
  sent : n.sent = []

/-- A frame that a host has sent: a request, or a reply to another host. -/
def Honest (f : List UInt8) : Prop :=
  ∃ a, (∃ ip, f = requestFrame (iface a) ip) ∨
    ∃ b, f = replyFrame (iface a) (iface b).macAddr (iface b).ipAddr

/-- A host has its interface, and its cache holds other hosts' own addresses. -/
structure HostAgrees (h : Host) (s : NetState) : Prop where
  interface : netGetInterface s eth0 = some (iface h)
  cache : ∃ learnt, Caches s.arpCache learnt
  entries : ∀ e ∈ s.arpCache.entries, ∃ b, e.ip = (iface b).ipAddr ∧ e.mac = (iface b).macAddr

/-- What holds in every reachable state. -/
structure Agrees (n : Network Host) : Prop where
  hosts : ∀ h, HostAgrees iface h (n.host h)
  sent : ∀ f ∈ n.sent, Honest iface f

variable {iface} {n : Network Host}

theorem Honest.length_eq {f : List UInt8} (hf : Honest iface f) : f.length = 42 := by
  obtain ⟨a, ⟨ip, rfl⟩ | ⟨b, rfl⟩⟩ := hf
  · exact length_arpFrame
  · exact length_arpFrame

theorem agrees_start (hn : Start iface n) : Agrees iface n where
  hosts h :=
    { interface := hn.interfaces h
      cache := ⟨[], caches_empty (hn.caches h)⟩
      entries := by simp [hn.caches h] }
  sent := by simp [hn.sent]

theorem HostAgrees.of_interfaces {h : Host} {s s' : NetState} (hs : HostAgrees iface h s)
    (hsame : s'.interfaces = s.interfaces) : netGetInterface s' eth0 = some (iface h) := by
  rw [← hs.interface, netGetInterface, netGetInterface, hsame]

theorem HostAgrees.keep {h : Host} {s s' : NetState} (hs : HostAgrees iface h s)
    (hinterfaces : s'.interfaces = s.interfaces) (hcache : s'.arpCache = s.arpCache) :
    HostAgrees iface h s' :=
  ⟨hs.of_interfaces hinterfaces, hcache ▸ hs.cache, hcache ▸ hs.entries⟩

/-- A host that learns another one's own addresses. -/
theorem HostAgrees.learn {h a : Host} {s s' : NetState} (hs : HostAgrees iface h s)
    (hinterfaces : s'.interfaces = s.interfaces)
    (hcache : s'.arpCache = arpCacheLearn s.arpCache (iface a).ipAddr (iface a).macAddr) :
    HostAgrees iface h s' := by
  obtain ⟨learnt, hlearnt⟩ := hs.cache
  refine ⟨hs.of_interfaces hinterfaces, ⟨_, hcache ▸ hlearnt.learn _ _⟩, fun e he => ?_⟩
  rw [hcache] at he
  rcases mem_arpCacheLearn (hlearnt.keys ▸ History.nodup_admitted ..) he with rfl | ⟨hold, -⟩
  · exact ⟨a, rfl, rfl⟩
  · exact hs.entries e hold

/-- The host has an entry for the address. -/
def Resolved (n : Network Host) (h : Host) (ip : Ipv4Addr) : Prop :=
  ip ∈ (n.host h).arpCache.entries.map ArpCacheEntry.ip

/-- A resolved address of host `b` is looked up as `b`'s own. -/
theorem lookup_resolved {h b : Host} (hdistinct : Function.Injective fun h => (iface h).ipAddr)
    (hn : Agrees iface n) (hres : Resolved n h (iface b).ipAddr) :
    (arpLookup (n.host h) (iface b).ipAddr).val.1 = (iface b).macAddr := by
  obtain ⟨learnt, hlearnt⟩ := (hn.hosts h).cache
  obtain ⟨e, he, hip⟩ := List.mem_map.mp hres
  obtain ⟨c, hipc, hmac⟩ := (hn.hosts h).entries e he
  obtain rfl : c = b := hdistinct (hipc.symm.trans hip)
  rw [← hip, hlearnt.lookup_entry he, hmac]

/-! ### What a move does -/

variable [DecidableEq Host] {i : NetMove Host}

variable (iface) in
/-- What a move can do. The acting host keeps its cache and sends at most requests, or it receives a
    frame of host `a`, learns `a`'s addresses and sends at most a reply to `a`. -/
inductive Moved (n : Network Host) : NetMove Host → Network Host × List (List UInt8) → Prop
  | asked {i : NetMove Host} {h : Host} {ip : Ipv4Addr} {s' : NetState} {out : List (List UInt8)}
      (move : i = .request h ip ∨ i = .lookup h ip)
      (interfaces : s'.interfaces = (n.host h).interfaces)
      (cache : s'.arpCache = (n.host h).arpCache)
      (requests : ∀ f ∈ out, f = requestFrame (iface h) ip) :
      Moved n i (⟨Function.update n.host h s', n.sent ++ out⟩, out)
  | received {h a : Host} {wire : ℕ → UInt8} {s' : NetState} {out : List (List UInt8)}
      (sender : Blocks.stretch wire 28 4 = (iface a).ipAddr.toList)
      (interfaces : s'.interfaces = (n.host h).interfaces)
      (cache : s'.arpCache =
        arpCacheLearn (n.host h).arpCache (iface a).ipAddr (iface a).macAddr)
      (replies : ∀ f ∈ out, Blocks.stretch wire 0 42 = requestFrame (iface a) (iface h).ipAddr ∧
        f = replyFrame (iface h) (iface a).macAddr (iface a).ipAddr) :
      Moved n (.receive h wire 42) (⟨Function.update n.host h s', n.sent ++ out⟩, out)

/-- A frame of host `a` is received. -/
theorem moved_receive {h a : Host} {wire : ℕ → UInt8} {opcode : UInt16} {targetIp : Ipv4Addr}
    (hiface : netGetInterface (n.host h) eth0 = some (iface h))
    (hcarries : CarriesArp wire (iface a) opcode targetIp)
    (hrequest : opcode = arpOpRequest → Blocks.stretch wire 0 42 = requestFrame (iface a) targetIp) :
    Moved iface n (.receive h wire 42) (netStep n (.receive h wire 42)) := by
  obtain ⟨hval, hsent⟩ := netReceiveFrame_arp hiface hcarries
  obtain ⟨hinterfaces, hcache⟩ := arpAnswer_frame (n.host h) (iface h) (iface a) opcode targetIp
  rw [← hval] at hinterfaces hcache
  refine .received hcarries.senderIp hinterfaces hcache fun f hf => ?_
  rw [hsent] at hf
  obtain ⟨hop, hours, hreply⟩ := sentFrames_arpAnswer hiface hf
  exact ⟨hours ▸ hrequest hop, hreply⟩

theorem netStep_moved (hn : Agrees iface n) (hi : Possible n i) : Moved iface n i (netStep n i) := by
  cases i with
  | request h ip =>
    obtain ⟨hinterfaces, hcache⟩ := arpSend_frame (n.host h) broadcastMac arpOpRequest
      (Vector.replicate 6 0) ip
    exact .asked (.inl rfl) hinterfaces hcache fun f hf =>
      sentFrames_arpSend (hn.hosts h).interface _ _ _ _ f hf
  | lookup h ip =>
    obtain ⟨hinterfaces, hcache⟩ := arpLookup_frame (n.host h) ip
    refine .asked (.inr rfl) hinterfaces hcache fun f hf => ?_
    rw [events_bind, events_pure, List.append_nil] at hf
    unfold arpLookup at hf
    split at hf
    · cases hf
    · rw [events_bind, events_pure, List.append_nil] at hf
      exact sentFrames_arpSend (hn.hosts h).interface _ _ _ _ f hf
  | receive h wire len =>
    obtain ⟨f, hf, hlen, hwire⟩ := hi
    have hhonest := hn.sent f hf
    rw [hhonest.length_eq] at hlen hwire
    obtain rfl : len = 42 := UInt16.toNat_inj.mp hlen
    obtain ⟨a, ⟨ip, rfl⟩ | ⟨b, rfl⟩⟩ := hhonest
    · exact moved_receive (hn.hosts h).interface (carriesArp_arpFrame hwire) fun _ => hwire
    · exact moved_receive (hn.hosts h).interface (carriesArp_arpFrame hwire) fun hop =>
        absurd hop (by decide)

/-- STEP: a move keeps the invariant. -/
theorem agrees_step (hn : Agrees iface n) (hi : Possible n i) : Agrees iface (netStep n i).1 := by
  have hmoved := netStep_moved hn hi
  generalize netStep n i = next at hmoved
  cases hmoved with
  | @asked _ h ip s' out _ hinterfaces hcache hrequests =>
    constructor
    · refine (Function.forall_update_iff _ (HostAgrees iface)).mpr ⟨?_, fun h' _ => hn.hosts h'⟩
      exact (hn.hosts h).keep hinterfaces hcache
    · exact List.forall_mem_append.mpr ⟨hn.sent, fun f hf => ⟨h, .inl ⟨ip, hrequests f hf⟩⟩⟩
  | @received h a wire s' out _ hinterfaces hcache hreplies =>
    constructor
    · refine (Function.forall_update_iff _ (HostAgrees iface)).mpr ⟨?_, fun h' _ => hn.hosts h'⟩
      exact (hn.hosts h).learn hinterfaces hcache
    · exact List.forall_mem_append.mpr ⟨hn.sent, fun f hf => ⟨h, .inr ⟨a, (hreplies f hf).2⟩⟩⟩

/-- RUN: the invariant holds in every reachable state. -/
theorem agrees_run {moves : List (NetMove Host)} (hn : Start iface n)
    (hmoves : Run.Along netStep Possible n moves) : Agrees iface (Run.after netStep n moves) :=
  Run.after_inv_along (fun _ _ hn hi => agrees_step hn hi) moves n hmoves (agrees_start hn)

/-! ### Resolved addresses -/

/-- In a move a cache stays as it is, or learns an address. -/
theorem cache_step (hn : Agrees iface n) (hi : Possible n i) (h : Host) :
    ((netStep n i).1.host h).arpCache = (n.host h).arpCache ∨
      ∃ ip mac, ((netStep n i).1.host h).arpCache = arpCacheLearn (n.host h).arpCache ip mac := by
  have hmoved := netStep_moved hn hi
  generalize netStep n i = next at hmoved
  cases hmoved with
  | @asked _ h' _ s' out _ _ hcache _ =>
    dsimp only
    rcases eq_or_ne h h' with rfl | hne
    · exact .inl (by rw [Function.update_self, hcache])
    · exact .inl (by rw [Function.update_of_ne hne])
  | @received h' a wire s' out _ _ hcache _ =>
    dsimp only
    rcases eq_or_ne h h' with rfl | hne
    · exact .inr ⟨_, _, by rw [Function.update_self, hcache]⟩
    · exact .inl (by rw [Function.update_of_ne hne])

/-- STEP: entries stay. -/
theorem resolved_step {h : Host} {ip : Ipv4Addr} (hn : Agrees iface n) (hi : Possible n i)
    (hres : Resolved n h ip) : Resolved (netStep n i).1 h ip := by
  rcases cache_step hn hi h with hsame | ⟨_, _, hlearn⟩
  · rwa [Resolved, hsame]
  · rw [Resolved, hlearn]
    exact mem_keys_learn hres

/-- A host with room that receives a frame with `b`'s address as the sender's has it resolved. -/
theorem resolved_receive {h b : Host} {wire : ℕ → UInt8} {len : UInt16} (hn : Agrees iface n)
    (hi : Possible n (.receive h wire len)) (hroom : (n.host h).arpCache.entries.length < 32)
    (hb : Blocks.stretch wire 28 4 = (iface b).ipAddr.toList) :
    Resolved (netStep n (.receive h wire len)).1 h (iface b).ipAddr := by
  have hmoved := netStep_moved hn hi
  generalize netStep n (.receive h wire len) = next at hmoved
  cases hmoved with
  | asked hmove => rcases hmove with hmove | hmove <;> cases hmove
  | @received _ a _ s' out ha _ hcache _ =>
    have hsender : (iface a).ipAddr = (iface b).ipAddr := Vector.toList_inj.mp (ha.symm.trans hb)
    dsimp only [Resolved]
    rw [Function.update_self, hcache, hsender]
    exact self_mem_keys_learn hroom

end Network

/-- The opcode field of an ARP frame. -/
def opcodeField (f : List UInt8) : ℕ := (f.getD 20 0).toNat * 256 + (f.getD 21 0).toNat

theorem opcodeField_arpFrame (sender : NetInterface) (destMac : MacAddr) (opcode : UInt16)
    (targetMac : MacAddr) (targetIp : Ipv4Addr) :
    opcodeField (arpFrame sender destMac opcode targetMac targetIp) = opcode.toNat :=
  netNtohs_word_eq.mp (carriesArp_arpFrame (Blocks.stretch_getD _ 0)).opcode

/-- SAFETY: any number of hosts, with distinct addresses and empty caches at the start, on a medium
    that delays, reorders, duplicates and loses frames. In every reachable state each cache entry is
    some host's own address pair; a reply is sent only by a host that receives a request for its own
    address, and goes to the host that asked; and a host with fewer than 32 entries that receives a
    frame with `b`'s address as the sender's, such as the reply to a request for it, resolves that
    address to `b`'s own from then on. -/
theorem arp_resolution_agrees {Host : Type*} [DecidableEq Host] {iface : Host → NetInterface}
    {n : Network Host} (hstart : Start iface n)
    (hdistinct : Function.Injective fun h => (iface h).ipAddr) {moves : List (NetMove Host)}
    (hmoves : Run.Along netStep Possible n moves) :
    (∀ h, ∀ e ∈ ((Run.after netStep n moves).host h).arpCache.entries,
      ∃ b, e.ip = (iface b).ipAddr ∧ e.mac = (iface b).macAddr) ∧
    (∀ i, Possible (Run.after netStep n moves) i →
      ∀ f ∈ (netStep (Run.after netStep n moves) i).2, opcodeField f = 2 →
        ∃ h a wire, i = .receive h wire 42 ∧
          Blocks.stretch wire 0 42 = requestFrame (iface a) (iface h).ipAddr ∧
          f = replyFrame (iface h) (iface a).macAddr (iface a).ipAddr) ∧
    ∀ h b wire len later, Possible (Run.after netStep n moves) (.receive h wire len) →
      ((Run.after netStep n moves).host h).arpCache.entries.length < 32 →
      Blocks.stretch wire 28 4 = (iface b).ipAddr.toList →
      Run.Along netStep Possible (netStep (Run.after netStep n moves) (.receive h wire len)).1 later →
      (arpLookup ((Run.after netStep (netStep (Run.after netStep n moves) (.receive h wire len)).1
        later).host h) (iface b).ipAddr).val.1 = (iface b).macAddr := by
  have hagrees := agrees_run hstart hmoves
  generalize Run.after netStep n moves = n at hagrees ⊢
  refine ⟨fun h => (hagrees.hosts h).entries, fun i hi f hf hop => ?_, ?_⟩
  · have hmoved := netStep_moved hagrees hi
    generalize netStep n i = next at hmoved hf
    cases hmoved with
    | asked _ _ _ hrequests =>
      rw [hrequests f hf, requestFrame, opcodeField_arpFrame] at hop
      exact absurd hop (by decide)
    | @received h a wire _ _ _ _ _ hreplies =>
      exact ⟨h, a, wire, rfl, hreplies f hf⟩
  · intro h b wire len later hi hroom hb hlater
    have hnext : Agrees iface (netStep n (.receive h wire len)).1 ∧
        Resolved (netStep n (.receive h wire len)).1 h (iface b).ipAddr :=
      ⟨agrees_step hagrees hi, resolved_receive hagrees hi hroom hb⟩
    -- both the invariant and the entry are kept from here on
    obtain ⟨hend, hres⟩ := Run.after_inv_along
      (fun n _ (hn : Agrees iface n ∧ Resolved n h (iface b).ipAddr) hi =>
        ⟨agrees_step hn.1 hi, resolved_step hn.1 hi hn.2⟩) later _ hlater hnext
    exact lookup_resolved hdistinct hend hres

/-- Two hosts, 192.168.1.100 and 192.168.1.1. -/
def samplePair : Network Bool := ⟨fun h => if h then samplePeer else sampleHost, []⟩

def samplePairIface (h : Bool) : NetInterface :=
  { name := eth0, macAddr := #v[0x52, 0x54, 0x00, 0x12, 0x34, if h then 0x57 else 0x56],
    ipAddr := #v[192, 168, 1, if h then 1 else 100], flags := 3, send := true }

/-- The first asks for the address of the second, and the second receives the request. -/
def sampleMoves : List (NetMove Bool) :=
  [.request false (samplePairIface true).ipAddr,
    .receive true
      (fun i => (requestFrame (samplePairIface false) (samplePairIface true).ipAddr).getD i 0) 42]

/-- … and then the first receives the reply. -/
def sampleReply : NetMove Bool :=
  .receive false (fun i => (replyFrame (samplePairIface true) (samplePairIface false).macAddr
    (samplePairIface false).ipAddr).getD i 0) 42

theorem arp_resolution_of_two :
    (arpLookup ((netStep (Run.after netStep samplePair sampleMoves) sampleReply).1.host false)
      (samplePairIface true).ipAddr).val.1 = (samplePairIface true).macAddr := by
  have hstart : Start samplePairIface samplePair := by
    refine ⟨fun h => ?_, fun h => ?_, rfl⟩ <;> cases h <;> rfl
  have hdistinct : Function.Injective fun h => (samplePairIface h).ipAddr := by
    intro h h' heq
    revert heq
    cases h <;> cases h' <;> decide
  have hmoves : Run.Along netStep Possible samplePair sampleMoves :=
    ⟨trivial, ⟨_, by decide +kernel, rfl, Blocks.stretch_getD _ 0⟩, trivial⟩
  exact (arp_resolution_agrees hstart hdistinct hmoves).2.2 false true _ 42 []
    ⟨_, by decide +kernel, rfl, Blocks.stretch_getD _ 0⟩ (by decide +kernel) (by decide +kernel) trivial

end VlsOs.Net
