import VlsOs.Net.ArpNetwork

/-! Who handles a datagram on a shared medium.

    `ip_send_packet` sends to the broadcast address as long as `arp_lookup` has nothing better, so
    every host on the medium may get the frame. The test of the destination address in
    `ip_handle_packet` is what makes the datagram the addressee's alone.

        a ──▶ datagram for b ──▶ medium ──▶ b   one handler call
                                        ──▶ c   nothing -/

namespace VlsOs.Net
open Patterns Patterns.Trace VlsOs.Memory

/-- A host with another address leaves the datagram alone. -/
theorem Carries.foreign {wire : ℕ → UInt8} {dest : Ipv4Addr} {proto : UInt8} {payload : List UInt8}
    {len : UInt16} (h : Carries wire dest proto payload len) {s : NetState} {iface : NetInterface}
    (hiface : netGetInterface s eth0 = some iface) (hdest : iface.ipAddr ≠ dest) (received : UInt16) :
    (netReceiveFrame wire s received).val = s ∧
      handlerCalls (netReceiveFrame wire s received).events = [] := by
  have hcompare := handlerCalls_quiet (all_memcmpFrame (P := RxEvent.Quiet) wire
    iface.ipAddr.toList (14 + 16) fun _ _ => trivial)
  have hdiffers : (memcmpFrame wire (14 + 16) iface.ipAddr.toList).val ≠ 0 := by
    intro hzero
    rw [memcmpFrame_eq_zero, Vector.length_toList, h.dest, Vector.toList_inj] at hzero
    exact hdest hzero.symm
  have hversion : wire 14 >>> 4 = 4 := by
    rw [h.versionIhl]
    decide
  have harp : ethertypeIpv4 ≠ ethertypeArp := by decide
  unfold netReceiveFrame
  split
  · exact ⟨rfl, rfl⟩
  · simp only [val_bind, events_bind, val_readWord, handlerCalls_append, h.type, if_neg harp, if_true]
    unfold ipHandlePacket
    split
    · exact ⟨rfl, rfl⟩
    · rw [hiface]
      simp only [val_bind, events_bind, val_readByte, handlerCalls_append, hversion, ne_eq,
        not_true_eq_false, if_false, hdiffers, not_false_eq_true, if_true, hcompare]
      exact ⟨rfl, rfl⟩

/-- CORRECT: hosts with distinct addresses share a medium, and one of them sends a datagram of a known
    protocol to another (or to itself). Of all hosts that receive the frame, whatever stands in their
    memory behind it, the addressee makes one call, of the handler of the protocol, with the payload's
    place and length; every other host makes none and is left unchanged. -/
theorem datagram_handled_by_addressee {Host : Type*} [DecidableEq Host] {iface : Host → NetInterface}
    {host : Host → NetState} (hiface : ∀ h, netGetInterface (host h) eth0 = some (iface h))
    (hdistinct : Function.Injective fun h => (iface h).ipAddr) (a b : Host) (hup : (iface a).Sends)
    {proto : UInt8} {p : Protocol} (hproto : ipProtocol proto = some p) (data : ℕ → UInt8)
    {len : UInt16} (hlen : 34 + len.toNat < 65536)
    (hmalloc : (malloc (host a).heap (ethernetHdrSize + ipv4HdrSize + len).toUInt32).1 ≠ null) :
    ∃ frame, ipv4Frames (ipSendPacket (host a) (iface b).ipAddr proto data len).events = [frame] ∧
      ∀ h wire, Blocks.stretch wire 0 frame.length = frame →
        handlerCalls (netReceiveFrame wire (host h) (UInt16.ofNat frame.length)).events =
            (if h = b then [(p, 34, len)] else []) ∧
          Blocks.stretch wire 34 len.toNat = Blocks.stretch data 0 len.toNat ∧
          (h ≠ b → (netReceiveFrame wire (host h) (UInt16.ofNat frame.length)).val = host h) := by
  obtain ⟨destMac, hsent⟩ :=
    ipv4Frames_ipSendPacket (hiface a) hup hlen hmalloc (iface b).ipAddr proto data
  refine ⟨_, hsent, fun h wire hwire => ?_⟩
  have hcarries := carries_ipv4Frame hwire
  have hpayload := hcarries.payload
  have hreceived : UInt16.ofNat (34 + len.toNat) = ethernetHdrSize + ipv4HdrSize + len := by
    rw [← UInt16.toNat_inj, frameLength_toNat hlen]
    exact UInt16.toNat_ofNat_of_lt' hlen
  rw [Blocks.length_stretch] at hpayload
  rw [length_ipv4Frame, Blocks.length_stretch, hreceived]
  rcases eq_or_ne h b with rfl | hne
  · rw [if_pos rfl]
    exact ⟨hcarries.handlerCalls_eq hlen (hiface h) rfl hproto, hpayload, fun hself => absurd rfl hself⟩
  · have hother : (iface h).ipAddr ≠ (iface b).ipAddr := fun heq => hne (hdistinct heq)
    obtain ⟨hsame, hnone⟩ :=
      hcarries.foreign (hiface h) hother (ethernetHdrSize + ipv4HdrSize + len)
    rw [if_neg hne]
    exact ⟨hnone, hpayload, fun _ => hsame⟩

theorem datagram_handled_by_peer :
    ∃ frame, ipv4Frames (ipSendPacket (samplePair.host false) (samplePairIface true).ipAddr 17
        (fun i => UInt8.ofNat i) 600).events = [frame] ∧
      ∀ h wire, Blocks.stretch wire 0 frame.length = frame →
        handlerCalls (netReceiveFrame wire (samplePair.host h) (UInt16.ofNat frame.length)).events =
            (if h = true then [(.udp, 34, 600)] else []) ∧
          Blocks.stretch wire 34 600 = Blocks.stretch (fun i => UInt8.ofNat i) 0 600 ∧
          (h ≠ true →
            (netReceiveFrame wire (samplePair.host h) (UInt16.ofNat frame.length)).val =
              samplePair.host h) := by
  have hiface (h : Bool) :
      netGetInterface (samplePair.host h) eth0 = some (samplePairIface h) := by
    cases h <;> rfl
  have hdistinct : Function.Injective fun h => (samplePairIface h).ipAddr := by
    intro h h' heq
    revert heq
    cases h <;> cases h' <;> decide
  exact datagram_handled_by_addressee hiface hdistinct false true ⟨rfl, by decide⟩ rfl
    (fun i => UInt8.ofNat i) (by decide) (by decide)

end VlsOs.Net
