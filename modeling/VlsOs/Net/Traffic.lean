import VlsOs.Net.ArpNetwork
import VlsOs.Net.Tcp

/-! What the frames of the network layer cost.

    Every frame is built in a buffer from `malloc` and `free` gives nothing back, so what was sent is
    paid for in heap for good. A computation that `Spends` with a credit `c` moves the bump pointer up
    by at least the bytes that it sends, less `c`; a buffer that was just allocated is the credit for
    the frame that goes into it.

        malloc 54 ──▶ credit 54 ──▶ arp_lookup pays for itself ──▶ a frame of 54 bytes uses it up -/

namespace VlsOs.Net
open Patterns Patterns.Trace VlsOs.Memory

/-- The bytes of a list of frames. -/
def octets (frames : List (List UInt8)) : ℕ := (frames.map List.length).sum

@[simp] theorem octets_nil : octets [] = 0 := rfl

@[simp] theorem octets_append (a b : List (List UInt8)) : octets (a ++ b) = octets a + octets b := by
  simp [octets]

@[simp] theorem sentFrames_nil : sentFrames [] = [] := rfl

/-! ### Credit -/

/-- On the way from `s` to `t` the interface and the heap stay in order, nothing is sent without an
    interface, and at most `credit` bytes more are sent than are taken from the heap. -/
structure Spends (credit : ℕ) (s t : NetState) (events : List RxEvent) : Prop where
  interfaces : t.interfaces = s.interfaces
  silent : s.interfaces = none → sentFrames events = []
  heapOk : HeapOk s.heap → HeapOk t.heap
  paid : HeapOk s.heap →
    s.heap.heapPtr.toNat + octets (sentFrames events) ≤ t.heap.heapPtr.toNat + credit

/-- A request far from the wrap-around keeps the pointer inside, never moves it down, and moves it by
    its size if it is met. -/
theorem malloc_heapOk {h : Heap} {size : UInt32} (hsize : size.toNat < 2 ^ 31) (hok : HeapOk h) :
    HeapOk (malloc h size).2 ∧ h.heapPtr.toNat ≤ (malloc h size).2.heapPtr.toNat ∧
      ((malloc h size).1 ≠ null →
        (malloc h size).2.heapPtr.toNat = h.heapPtr.toNat + size.toNat) := by
  have hend := hok.2
  rw [heapEnd_toNat] at hend
  rcases @malloc_cases h size (by omega) with hm | ⟨hm, hsum, hlim⟩
  · rw [hm]
    exact ⟨hok, le_refl _, fun hne => absurd rfl hne⟩
  · have hup : h.heapPtr.toNat ≤ (h.heapPtr + size).toNat := by omega
    rw [hm]
    exact ⟨⟨hok.1.trans hup, hsum.trans_lt hlim⟩, hup, fun _ => hsum⟩

section Rules
variable {c d : ℕ} {s t u : NetState} {events events' : List RxEvent}

/-- What sends nothing and leaves the heap alone needs no credit. -/
theorem spends_free (c : ℕ) (hinterfaces : t.interfaces = s.interfaces) (hheap : t.heap = s.heap)
    (hidle : sentFrames events = []) : Spends c s t events where
  interfaces := hinterfaces
  silent _ := hidle
  heapOk hok := by rwa [hheap]
  paid _ := by
    rw [hidle, hheap]
    exact Nat.le_add_right ..

theorem Spends.refl (s : NetState) : Spends 0 s s [] := spends_free 0 rfl rfl rfl

/-- SEQUENCE: credits add up. -/
theorem Spends.trans (h : Spends c s t events) (h' : Spends d t u events') :
    Spends (c + d) s u (events ++ events') where
  interfaces := h'.interfaces.trans h.interfaces
  silent hnone := by
    rw [sentFrames_append, h.silent hnone, h'.silent (h.interfaces.trans hnone), List.append_nil]
  heapOk hok := h'.heapOk (h.heapOk hok)
  paid hok := by
    have hfirst := h.paid hok
    have hsecond := h'.paid (h.heapOk hok)
    rw [sentFrames_append, octets_append]
    omega

/-- What stands in the cache and in memory does not matter. -/
theorem Spends.keep (h : Spends c s t events) (hinterfaces : u.interfaces = t.interfaces)
    (hheap : u.heap = t.heap) : Spends c s u events where
  interfaces := hinterfaces.trans h.interfaces
  silent := h.silent
  heapOk hok := by
    rw [hheap]
    exact h.heapOk hok
  paid hok := by
    rw [hheap]
    exact h.paid hok

/-- Only the frames among the events matter. -/
theorem Spends.of_sent (h : Spends c s t events) (hsent : sentFrames events' = sentFrames events) :
    Spends c s t events' where
  interfaces := h.interfaces
  silent hnone := hsent.trans (h.silent hnone)
  heapOk := h.heapOk
  paid hok := by
    rw [hsent]
    exact h.paid hok

/-- Less may have been sent. -/
theorem Spends.unsent (h : Spends c s t events) : Spends c s t [] where
  interfaces := h.interfaces
  silent _ := rfl
  heapOk := h.heapOk
  paid hok := le_trans (Nat.add_le_add_left (Nat.zero_le _) _) (h.paid hok)

/-- SEND: a frame uses up credit of its length. -/
theorem spends_netSendPacket (s : NetState) {packet : List UInt8} (hlen : packet.length ≤ c) :
    Spends c s s (netSendPacket s packet).events where
  interfaces := rfl
  silent hnone := by
    rw [netSendPacket, hnone]
    rfl
  heapOk := id
  paid _ := by
    rcases netSendPacket_cases s packet with h | h
    · simp [h]
    · simpa [h, sentFrames, octets] using hlen

/-- A block that is not used for a frame is lost. -/
theorem spends_malloc (s : NetState) {size : UInt32} (hsize : size.toNat < 2 ^ 31) :
    Spends 0 s { s with heap := (malloc s.heap size).2 } [] where
  interfaces := rfl
  silent _ := rfl
  heapOk hok := (malloc_heapOk hsize hok).1
  paid hok := (malloc_heapOk hsize hok).2.1

/-- BUFFER: a block of the heap is credit for what follows. -/
theorem Spends.buffer {size : UInt32} (hsize : size.toNat < 2 ^ 31)
    (hgot : (malloc s.heap size).1 ≠ null)
    (h : Spends (c + size.toNat) { s with heap := (malloc s.heap size).2 } t events) :
    Spends c s t events where
  interfaces := h.interfaces
  silent := h.silent
  heapOk hok := h.heapOk (malloc_heapOk hsize hok).1
  paid hok := by
    obtain ⟨hok', -, hptr⟩ := malloc_heapOk hsize hok
    have hpaid : (malloc s.heap size).2.heapPtr.toNat + _ ≤ _ := h.paid hok'
    have hmoved := hptr hgot
    omega

end Rules

/-! ### The send path -/

theorem spends_arpSend (s : NetState) (destMac : MacAddr) (opcode : UInt16) (targetMac : MacAddr)
    (targetIp : Ipv4Addr) :
    Spends 0 s (arpSend s destMac opcode targetMac targetIp).val
      (arpSend s destMac opcode targetMac targetIp).events := by
  unfold arpSend
  cases netGetInterface s eth0 with
  | none => exact .refl s
  | some iface =>
    dsimp only
    split
    · exact .refl s
    · rename_i hgot
      refine Spends.buffer (by decide) hgot ?_
      have hlen : (arpFrame iface destMac opcode targetMac targetIp).length ≤ 42 :=
        length_arpFrame.le
      rw [val_bind, events_bind, events_pure, List.append_nil]
      exact (spends_netSendPacket { s with heap := _ } hlen).keep rfl rfl

theorem spends_arpLookup (s : NetState) (ip : Ipv4Addr) :
    Spends 0 s (arpLookup s ip).val.2 (arpLookup s ip).events := by
  unfold arpLookup
  split
  · exact .refl s
  · exact (spends_arpSend s ..).trans (.refl _)

theorem spends_ipSendPacket (s : NetState) (dest : Ipv4Addr) (proto : UInt8) (data : ℕ → UInt8)
    (len : UInt16) :
    Spends 0 s (ipSendPacket s dest proto data len).val
      (ipSendPacket s dest proto data len).events := by
  unfold ipSendPacket
  cases netGetInterface s eth0 with
  | none => exact .refl s
  | some iface =>
    dsimp only
    split
    · exact .refl s
    · rename_i hgot
      have hsize := UInt16.toNat_toUInt32 (ethernetHdrSize + ipv4HdrSize + len)
      have hlt := (ethernetHdrSize + ipv4HdrSize + len).toNat_lt
      refine Spends.buffer (by omega) hgot ?_
      -- the lookup pays for its request itself, and the buffer is for the frame
      simp only [val_bind, events_bind, events_pure, List.append_nil]
      have hfilled (heap : Heap) (mem : Mem) :
          Spends 0 { s with heap := heap } { s with heap := heap, mem := mem } [] :=
        spends_free 0 rfl rfl rfl
      refine ((hfilled _ _).trans (spends_arpLookup _ dest)).trans
        ((spends_netSendPacket _ ?_).keep rfl rfl)
      rw [hsize]
      exact List.length_take_le ..

/-- The body that the three protocols share: a buffer for the message, and the message to `ip.c`. -/
theorem spends_message {s : NetState} {size : UInt32} (hsize : size.toNat < 2 ^ 31) (mem : Mem)
    (dest : Ipv4Addr) (proto : UInt8) (data : ℕ → UInt8) (len : UInt16)
    (hgot : (malloc s.heap size).1 ≠ null) :
    Spends 0 s (ipSendPacket ⟨s.interfaces, s.arpCache, (malloc s.heap size).2, mem⟩ dest proto
        data len).val
      (ipSendPacket ⟨s.interfaces, s.arpCache, (malloc s.heap size).2, mem⟩ dest proto
        data len).events := by
  refine Spends.buffer hsize hgot ?_
  have hfill : Spends (0 + size.toNat) { s with heap := (malloc s.heap size).2 }
    ⟨s.interfaces, s.arpCache, (malloc s.heap size).2, mem⟩ [] := spends_free _ rfl rfl rfl
  exact hfill.trans (spends_ipSendPacket ..)

theorem headerPlus_lt {header : UInt16} (len : UInt16) :
    (header.toUInt32 + len.toUInt32).toNat < 2 ^ 31 := by
  have hheader := header.toNat_lt
  have hlen := len.toNat_lt
  rw [UInt32.toNat_add, UInt16.toNat_toUInt32, UInt16.toNat_toUInt32]
  omega

theorem spends_udpSendPacket (s : NetState) (dest : Ipv4Addr) (srcPort destPort : UInt16)
    (data : ℕ → UInt8) (len : UInt16) :
    Spends 0 s (udpSendPacket s dest srcPort destPort data len).val
      (udpSendPacket s dest srcPort destPort data len).events := by
  unfold udpSendPacket
  dsimp only
  split
  · exact .refl s
  · rename_i hgot
    exact (spends_message (headerPlus_lt len) _ dest _ _ _ hgot).trans (.refl _)

theorem spends_icmpSendEchoRequest (s : NetState) (dest : Ipv4Addr) :
    Spends 0 s (icmpSendEchoRequest s dest).val (icmpSendEchoRequest s dest).events := by
  unfold icmpSendEchoRequest
  dsimp only
  split
  · exact .refl s
  · rename_i hgot
    exact (spends_message (by decide) _ dest _ _ _ hgot).trans (.refl _)

theorem spends_tcpSendPacket (s : NetState) (dest : Ipv4Addr) (f : TcpFields) (data : ℕ → UInt8)
    (len : UInt16) :
    Spends 0 s (tcpSendPacket s dest f data len).val (tcpSendPacket s dest f data len).events := by
  unfold tcpSendPacket
  dsimp only
  split
  · exact .refl s
  · rename_i hgot
    exact (spends_message (headerPlus_lt len) _ dest _ _ _ hgot).trans (.refl _)

/-! ### The receive path -/

/-- The event passes nothing to the driver. -/
def RxEvent.Unsent : RxEvent → Prop
  | .sent _ => False
  | _ => True

theorem sentFrames_unsent {α : Type} {x : Traced RxEvent α} (h : All RxEvent.Unsent x) :
    sentFrames x.events = [] := by
  rw [sentFrames, List.filterMap_eq_nil_iff]
  intro e he
  have hunsent := h e he
  cases e with
  | sent frame => cases hunsent
  | read offset => rfl
  | handler p payload len => rfl
  | printed text => rfl

@[simp] theorem unsent_read (offset : ℕ) : (RxEvent.read offset).Unsent := trivial

@[simp] theorem unsent_handler (p : Protocol) (payload : ℕ) (len : UInt16) :
    (RxEvent.handler p payload len).Unsent := trivial

@[simp] theorem unsent_printed (text : String) : (RxEvent.printed text).Unsent := trivial

section Receive
variable (frame : ℕ → UInt8) (s : NetState) (data : ℕ) (len : UInt16)

theorem unsent_handlePacket (p : Protocol) : All RxEvent.Unsent (p.handlePacket frame s data len) := by
  cases p with
  | icmp =>
    simp only [Protocol.handlePacket, icmpHandlePacket, icmpSendEchoReply, all_ite, all_bind,
      all_readByte, all_readBytes, all_pure, all_emit, unsent_read, unsent_printed, implies_true,
      and_self]
  | udp => simp only [Protocol.handlePacket, udpHandlePacket, all_ite, all_pure, implies_true, and_self]
  | tcp => simp only [Protocol.handlePacket, tcpHandlePacket, all_ite, all_pure, implies_true, and_self]

/-- What comes in by IP is never answered: the echo reply stays in its buffer. -/
theorem unsent_ipHandlePacket : All RxEvent.Unsent (ipHandlePacket frame s data len) := by
  have hcompare (l : List UInt8) : All RxEvent.Unsent (memcmpFrame frame (data + 16) l) :=
    all_memcmpFrame _ _ _ fun i _ => trivial
  unfold ipHandlePacket
  split
  · exact all_pure _ _
  · split
    · exact all_pure _ _
    · simp only [all_ite, all_bind, all_readByte, all_readWord, all_pure, unsent_read, implies_true,
        true_and, and_self, hcompare]
      intro _ _ _
      split
      · exact all_pure _ _
      · simp only [all_bind, all_emit, unsent_handler, unsent_handlePacket, and_self]

theorem spends_handlePacket (p : Protocol) :
    Spends 0 s (p.handlePacket frame s data len).val [] := by
  cases p with
  | icmp =>
    show Spends 0 s (icmpHandlePacket frame s data len).val []
    unfold icmpHandlePacket icmpSendEchoReply
    split
    · exact .refl s
    · rw [val_bind]
      split
      · dsimp only
        split
        · exact .refl s
        · rename_i hgot
          have hsize := UInt16.toNat_toUInt32 len
          have hlt := len.toNat_lt
          exact Spends.buffer (by omega) hgot (spends_free _ rfl rfl rfl)
      · exact .refl s
  | udp =>
    have hidle : (udpHandlePacket frame s data len).val = s := by
      unfold udpHandlePacket
      split <;> rfl
    show Spends 0 s (udpHandlePacket frame s data len).val []
    rw [hidle]
    exact .refl s
  | tcp =>
    have hidle : (tcpHandlePacket frame s data len).val = s := by
      unfold tcpHandlePacket
      split <;> rfl
    show Spends 0 s (tcpHandlePacket frame s data len).val []
    rw [hidle]
    exact .refl s

theorem spends_ipHandlePacket : Spends 0 s (ipHandlePacket frame s data len).val [] := by
  unfold ipHandlePacket
  split
  · exact .refl s
  · split
    · exact .refl s
    · rw [val_bind]
      split
      · exact .refl s
      · rw [val_bind]
        split
        · exact .refl s
        · rw [val_bind]
          dsimp only
          split
          · exact .refl s
          · rw [val_bind, val_bind]
            split
            · exact .refl s
            · exact spends_handlePacket ..

end Receive

end VlsOs.Net
