import VlsOs.Net.SendLengths
import VlsOs.Shell.Console

/-! The driver below the send path (`rtl8139_send` of `net/netdrv.c`).

    The driver compares what it is given with `NET_MTU`. That is the length of a whole frame, with the
    14 bytes of the Ethernet header, while the limit is one for the datagram inside it.

        len                ≤ 1466     1467 ⋯ 1480    1481 ⋯ 65501    65502 ⋯ 65535
        datagram, 20 + len ≤ 1486     1487 ⋯ 1500    > 1500          > 1500
        frame, 34 + len    ≤ 1500     1501 ⋯ 1514    > 1500          0 ⋯ 33, modulo 65536
        driver             sends      drops          drops           sends -/

namespace VlsOs.Net
open Patterns.Trace VlsOs.Libc VlsOs.Shell

/-- `rtl8139_send`: `netIface` tells whether the driver has registered its interface, and `buf` is its
    local array. The transmission is the line that it prints. -/
def rtl8139Send (netIface : Bool) (frame buf : List UInt8) : Traced CmdEvent Unit :=
  if netIface = false ∨ frame.length > Sock.netMtu.toNat then return ()
  else do
    vgaWriteString (chars "TX: ")
    let _ ← printNumber 16 buf (Int32.ofNat frame.length) 10
    vgaWriteString (chars " bytes\n")

/-- The line for a frame that is sent. -/
def txLine (frame : List UInt8) : List UInt8 :=
  chars "TX: " ++ (itoaText (Int32.ofNat frame.length) 10 ++ chars " bytes\n")

/-- The driver sends a frame exactly when it is within the limit. -/
theorem output_rtl8139Send (frame buf : List UInt8) :
    output (rtl8139Send true frame buf) = if frame.length ≤ Sock.netMtu.toNat then txLine frame else [] := by
  rw [rtl8139Send]
  by_cases hlong : frame.length > Sock.netMtu.toNat
  · rw [if_pos (.inr hlong), if_neg (not_le.mpr hlong)]
    rfl
  · rw [if_neg (by simpa using hlong), if_pos (not_lt.mp hlong)]
    simp (disch := decide) [txLine, text_chars]

/-- A frame of the datagram comes to the driver and is sent. -/
def DatagramSent (s : NetState) (dest : Ipv4Addr) (proto : UInt8) (data : ℕ → UInt8) (len : UInt16)
    (buf : List UInt8) : Prop :=
  ∃ frame ∈ dataFrames (ipSendPacket s dest proto data len).events,
    output (rtl8139Send true frame buf) = txLine frame

theorem datagramSent_iff {s : NetState} {len : UInt16} (h : IpEmits s len) (dest : Ipv4Addr)
    (proto : UInt8) (data : ℕ → UInt8) (buf : List UInt8) :
    DatagramSent s dest proto data len buf ↔ (34 + len.toNat) % 65536 ≤ 1500 := by
  obtain ⟨iface, hframes⟩ := h.dataFrames_eq dest proto data
  have hlength : ((ipPacket s iface dest proto data len).take (totalLen len).toNat).length =
      (34 + len.toNat) % 65536 := by
    rw [List.length_take, length_ipPacket, totalLen_toNat]
    omega
  have hmtu : Sock.netMtu.toNat = 1500 := rfl
  rw [DatagramSent, hframes]
  simp only [List.mem_singleton, exists_eq_left, output_rtl8139Send, hlength, hmtu]
  split
  next hshort => simp [hshort]
  next hlong =>
    refine iff_of_false (fun hnil => ?_) hlong
    exact List.cons_ne_nil _ _ hnil.symm

/-- CORRECT: the driver sends exactly the datagrams within the limit, for the lengths at which the
    Ethernet header makes no difference and that of the frame has 16 bits, and for no other. -/
theorem datagrams_within_mtu_sent_iff (s : NetState) (dest : Ipv4Addr) (proto : UInt8)
    (data : ℕ → UInt8) (len : UInt16) (buf : List UInt8) (hemits : IpEmits s len) :
    ((20 + len.toNat ≤ 1500 → DatagramSent s dest proto data len buf) ∧
      (20 + len.toNat > 1500 → ¬ DatagramSent s dest proto data len buf)) ↔
      len.toNat ≤ 1466 ∨ 1480 < len.toNat ∧ len.toNat ≤ 65501 := by
  have hlen := len.toNat_lt
  rw [datagramSent_iff hemits]
  omega

theorem ipEmits_sampleHost {len : UInt16}
    (h : (Memory.malloc sampleHost.heap (totalLen len).toUInt32).1 ≠ Memory.null) :
    IpEmits sampleHost len := by
  refine ⟨⟨by decide, h⟩, fun iface hiface => ?_⟩
  cases Option.some.inj hiface
  exact ⟨rfl, by decide⟩

theorem datagrams_within_mtu_sent_short :
    IpEmits sampleHost 100 ∧
      (((20 + (100 : UInt16).toNat ≤ 1500 →
          DatagramSent sampleHost #v[192, 168, 1, 1] ipProtoUdp (fun _ => 0) 100 []) ∧
        (20 + (100 : UInt16).toNat > 1500 →
          ¬ DatagramSent sampleHost #v[192, 168, 1, 1] ipProtoUdp (fun _ => 0) 100 [])) ↔
        (100 : UInt16).toNat ≤ 1466 ∨ 1480 < (100 : UInt16).toNat ∧ (100 : UInt16).toNat ≤ 65501) := by
  have hemits : IpEmits sampleHost 100 := ipEmits_sampleHost (by decide)
  exact ⟨hemits, datagrams_within_mtu_sent_iff _ _ _ _ _ _ hemits⟩

/-- A datagram of 1500 bytes is dropped; one of 65522 bytes goes out as a frame of no byte. -/
theorem datagram_of_mtu_dropped :
    IpEmits sampleHost 1480 ∧
      ¬ DatagramSent sampleHost #v[192, 168, 1, 1] ipProtoUdp (fun _ => 0) 1480 [] ∧
      IpEmits sampleHost 65502 ∧
      DatagramSent sampleHost #v[192, 168, 1, 1] ipProtoUdp (fun _ => 0) 65502 [] := by
  have hmtu : IpEmits sampleHost 1480 := ipEmits_sampleHost (by decide)
  have hwrap : IpEmits sampleHost 65502 := ipEmits_sampleHost (by decide)
  exact ⟨hmtu, fun h => absurd ((datagramSent_iff hmtu _ _ _ _).mp h) (by decide),
    hwrap, (datagramSent_iff hwrap _ _ _ _).mpr (by decide)⟩

end VlsOs.Net
