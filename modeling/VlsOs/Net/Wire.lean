import VlsOs.Schemes.Blocks
import VlsOs.Schemes.Trace
import VlsOs.Libc.String

/-! Bytes on the wire (`include/net.h`, the helpers of `net/net.c`, `memcmp`).

    A frame is a pointer and a length: `frame i` is the byte at `data + i`, also for an `i` past the
    length, where the code would read whatever lies there. Every such read is an event, so that what
    the receive path touches can be told from what it was given.

        data            data + 14                            data + len
        ├── Ethernet ───┼── IPv4 or ARP ─────────────────────┤ ⋯ not the frame's
                        0 ───────────▶ offsets of the headers

    A 16-bit field is loaded and stored low byte first; the headers are big-endian, so the code swaps
    the two bytes with `net_htons`. -/

namespace VlsOs.Net
open Patterns Patterns.Trace

abbrev MacAddr := Vector UInt8 6

abbrev Ipv4Addr := Vector UInt8 4

def ethertypeIpv4 : UInt16 := 0x0800

def ethertypeArp : UInt16 := 0x0806

/-- `sizeof (ethernet_hdr_t)`, `sizeof (ipv4_hdr_t)`, `sizeof (arp_pkt_t)` and so on: the structures
    are packed. -/
def ethernetHdrSize : UInt16 := 14

def ipv4HdrSize : UInt16 := 20

def arpPktSize : UInt16 := 28

def icmpHdrSize : UInt16 := 8

def udpHdrSize : UInt16 := 8

def tcpHdrSize : UInt16 := 20

/-! ### Words -/

/-- The `uint16_t` whose bytes in memory are `a`, `b`. -/
def word (a b : UInt8) : UInt16 := UInt16.ofNat (a.toNat + 256 * b.toNat)

/-- The bytes of a `uint16_t` in memory. -/
def wordBytes (v : UInt16) : List UInt8 := [v.toUInt8, (v >>> 8).toUInt8]

def netHtons (value : UInt16) : UInt16 := ((value &&& 0xFF) <<< 8) ||| ((value >>> 8) &&& 0xFF)

def netNtohs (value : UInt16) : UInt16 := netHtons value

/-- Lengths that fit add up. -/
theorem toNat_add_of_fits {a b : UInt16} (h : a.toNat + b.toNat < 65536) :
    (a + b).toNat = a.toNat + b.toNat := by
  rw [UInt16.toNat_add]
  exact Nat.mod_eq_of_lt h

@[simp] theorem length_wordBytes (v : UInt16) : (wordBytes v).length = 2 := rfl

theorem word_toNat (a b : UInt8) : (word a b).toNat = a.toNat + 256 * b.toNat := by
  have ha := a.toNat_lt
  have hb := b.toNat_lt
  exact UInt16.toNat_ofNat_of_lt' (by show _ < 65536; omega)

/-- A swap as arithmetic: the low byte moves up and the high byte down. -/
theorem netHtons_toNat (v : UInt16) : (netHtons v).toNat = v.toNat % 256 * 256 + v.toNat / 256 := by
  have hv := v.toNat_lt
  have hlow : (v &&& 0xFF).toNat = v.toNat % 256 := by
    rw [UInt16.toNat_and]
    exact Nat.and_two_pow_sub_one_eq_mod v.toNat 8
  have hhigh : ((v >>> 8) &&& 0xFF).toNat = v.toNat / 256 := by
    have hshift : (v >>> 8).toNat = v.toNat / 256 := by
      rw [UInt16.toNat_shiftRight]
      exact Nat.shiftRight_eq_div_pow v.toNat 8
    rw [UInt16.toNat_and, hshift]
    refine (Nat.and_two_pow_sub_one_eq_mod (v.toNat / 256) 8).trans ?_
    exact Nat.mod_eq_of_lt (by omega)
  have hup : ((v &&& 0xFF) <<< 8).toNat = (v.toNat % 256) <<< 8 := by
    rw [UInt16.toNat_shiftLeft, hlow]
    refine Nat.mod_eq_of_lt ?_
    show (v.toNat % 256) <<< 8 < 65536
    rw [Nat.shiftLeft_eq]
    omega
  rw [netHtons, UInt16.toNat_or, hup, hhigh, ← Nat.shiftLeft_add_eq_or_of_lt (by omega),
    Nat.shiftLeft_eq]

/-- CORRECT: a field is loaded as it was stored. -/
theorem word_wordBytes (v : UInt16) : word v.toUInt8 (v >>> 8).toUInt8 = v := by
  rw [← UInt16.toNat_inj, word_toNat, Libc.toNat_high_byte, UInt16.toNat_toUInt8]
  omega

/-- CORRECT: two swaps cancel. -/
theorem netNtohs_netHtons (v : UInt16) : netNtohs (netHtons v) = v := by
  have hv := v.toNat_lt
  rw [← UInt16.toNat_inj, netNtohs, netHtons_toNat, netHtons_toNat]
  omega

/-- CORRECT: a loaded and swapped field is its two bytes, high byte first. -/
theorem netNtohs_word (a b : UInt8) :
    (netNtohs (word a b)).toNat = a.toNat * 256 + b.toNat := by
  have ha := a.toNat_lt
  rw [netNtohs, netHtons_toNat, word_toNat]
  omega

theorem netNtohs_word_eq {a b : UInt8} {v : UInt16} :
    netNtohs (word a b) = v ↔ a.toNat * 256 + b.toNat = v.toNat := by
  rw [← UInt16.toNat_inj, netNtohs_word]

/-! ### Checksum -/

/-- The loop of `net_checksum` over the words, and the odd byte at the end. -/
def addWords : List UInt8 → UInt32 → UInt32
  | a :: b :: rest, sum => addWords rest (sum + (netNtohs (word a b)).toUInt32)
  | [a], sum => sum + a.toUInt32
  | [], sum => sum

theorem toNat_carry (sum : UInt32) : (sum >>> 16).toNat = sum.toNat / 65536 := by
  rw [UInt32.toNat_shiftRight]
  exact Nat.shiftRight_eq_div_pow sum.toNat 16

/-- The carry added to the low half, as arithmetic. -/
theorem toNat_add_carry (sum : UInt32) :
    ((sum &&& (0xFFFF : UInt32)) + (sum >>> 16)).toNat = sum.toNat % 65536 + sum.toNat / 65536 := by
  have hsum := sum.toNat_lt
  have hlow : (sum &&& 0xFFFF).toNat = sum.toNat % 65536 := by
    rw [UInt32.toNat_and]
    exact Nat.and_two_pow_sub_one_eq_mod sum.toNat 16
  rw [UInt32.toNat_add, hlow, toNat_carry, Nat.mod_eq_of_lt (by omega)]

/-- TERMINATION: adding the carry to the low half makes the sum smaller. -/
theorem carry_lt {sum : UInt32} (h : ¬sum >>> 16 = 0) :
    ((sum &&& (0xFFFF : UInt32)) + (sum >>> 16)).toNat < sum.toNat := by
  have hpos : (sum >>> 16).toNat ≠ 0 := fun h0 => h (UInt32.toNat_inj.mp h0)
  rw [toNat_carry] at hpos
  rw [toNat_add_carry]
  omega

/-- The loop `while (sum >> 16)` of `net_checksum`. -/
def foldCarry (sum : UInt32) : UInt32 :=
  if sum >>> 16 = 0 then sum else foldCarry ((sum &&& (0xFFFF : UInt32)) + (sum >>> 16))
termination_by sum.toNat
decreasing_by exact carry_lt ‹_›

def netChecksum (data : List UInt8) : UInt16 := (~~~foldCarry (addWords data 0)).toUInt16

/-! ### Events and reads of the frame -/

/-- The protocols `ip_handle_packet` has a handler for. -/
inductive Protocol
  | icmp
  | tcp
  | udp
  deriving DecidableEq

/-- What the receive path does, in order. -/
inductive RxEvent
  /-- The byte at `data + offset` of the frame is read. -/
  | read (offset : ℕ)
  /-- `ip_handle_packet` calls a handler with `payload` at `data + payload`. -/
  | handler (protocol : Protocol) (payload : ℕ) (payloadLen : UInt16)
  /-- The interface's `send` is called. -/
  | sent (frame : List UInt8)
  | printed (text : String)
  deriving DecidableEq

def readByte (frame : ℕ → UInt8) (offset : ℕ) : Traced RxEvent UInt8 := do
  emit (.read offset)
  return frame offset

def readWord (frame : ℕ → UInt8) (offset : ℕ) : Traced RxEvent UInt16 := do
  let a ← readByte frame offset
  let b ← readByte frame (offset + 1)
  return word a b

/-- `n` bytes in order, as `memcpy` and the copy of a structure read them. -/
def readBytes (frame : ℕ → UInt8) (offset n : ℕ) : Traced RxEvent (Vector UInt8 n) where
  val := Vector.ofFn fun i => frame (offset + i)
  events := (List.range n).map fun i => .read (offset + i)

def readIpv4Addr (frame : ℕ → UInt8) (offset : ℕ) : Traced RxEvent Ipv4Addr :=
  readBytes frame offset 4

def readMacAddr (frame : ℕ → UInt8) (offset : ℕ) : Traced RxEvent MacAddr :=
  readBytes frame offset 6

/-- `memcmp` of two blocks of one length. -/
def memcmp : List UInt8 → List UInt8 → ℤ
  | a :: s, b :: t => if a ≠ b then (a.toNat : ℤ) - b.toNat else memcmp s t
  | _, _ => 0

/-- `memcmp` with its first block in the frame: it stops reading at the first difference. -/
def memcmpFrame (frame : ℕ → UInt8) (offset : ℕ) : List UInt8 → Traced RxEvent ℤ
  | [] => return 0
  | b :: t => do
    let a ← readByte frame offset
    if a ≠ b then return (a.toNat : ℤ) - b.toNat else memcmpFrame frame (offset + 1) t

/-! ### What the reads touch and return -/

section Reads
variable {P : RxEvent → Prop} (frame : ℕ → UInt8) (offset : ℕ)

@[simp] theorem val_readByte : (readByte frame offset).val = frame offset := rfl

@[simp] theorem all_readByte : All P (readByte frame offset) ↔ P (.read offset) := by
  simp [readByte]

@[simp] theorem val_readWord :
    (readWord frame offset).val = word (frame offset) (frame (offset + 1)) := rfl

@[simp] theorem all_readWord :
    All P (readWord frame offset) ↔ P (.read offset) ∧ P (.read (offset + 1)) := by
  simp [readWord]

@[simp] theorem all_readBytes (n : ℕ) :
    All P (readBytes frame offset n) ↔ ∀ i < n, P (.read (offset + i)) := by
  simp [All, readBytes]

end Reads

/-- `memcmp` reads at most the bytes it is to compare. -/
theorem all_memcmpFrame {P : RxEvent → Prop} (frame : ℕ → UInt8) :
    ∀ (l : List UInt8) (offset : ℕ), (∀ i < l.length, P (.read (offset + i))) →
      All P (memcmpFrame frame offset l)
  | [], _, _ => by simp [memcmpFrame]
  | b :: t, offset, h => by
    have hrest : All P (memcmpFrame frame (offset + 1) t) := by
      refine all_memcmpFrame frame t (offset + 1) fun i hi => ?_
      have := h (i + 1) (by simpa using hi)
      rwa [Nat.add_comm i 1, ← Nat.add_assoc] at this
    rw [memcmpFrame, all_bind, all_readByte, all_ite]
    exact ⟨h 0 (by simp), fun _ => all_pure P _, fun _ => hrest⟩

/-- CORRECT: `memcmp` answers `0` exactly on equal blocks. -/
theorem memcmp_eq_zero_iff {s t : List UInt8} (hlen : s.length = t.length) :
    memcmp s t = 0 ↔ s = t := by
  induction s generalizing t with
  | nil => simp [memcmp, (List.length_eq_zero_iff.mp hlen.symm)]
  | cons a s ih =>
    obtain ⟨b, t, rfl⟩ := List.exists_cons_of_length_eq_add_one hlen.symm
    rw [memcmp, List.cons.injEq, ← ih (by simpa using hlen)]
    by_cases hab : a = b
    · simp [hab]
    · have hne : a.toNat ≠ b.toNat := fun h => hab (UInt8.toNat_inj.mp h)
      simp only [hab, ne_eq, not_false_eq_true, if_true, false_and, iff_false]
      omega

theorem memcmp_eq_zero {n : ℕ} {a b : Vector UInt8 n} : memcmp a.toList b.toList = 0 ↔ a = b := by
  rw [memcmp_eq_zero_iff (by simp), Vector.toList_inj]

/-- … also where one of them lies in the frame. -/
theorem memcmpFrame_eq_zero (frame : ℕ → UInt8) : ∀ (l : List UInt8) (offset : ℕ),
    (memcmpFrame frame offset l).val = 0 ↔ Blocks.stretch frame offset l.length = l
  | [], offset => by simp [memcmpFrame]
  | b :: t, offset => by
    rw [memcmpFrame, val_bind, val_readByte, List.length_cons, Blocks.stretch_succ, List.cons.injEq,
      ← memcmpFrame_eq_zero frame t (offset + 1)]
    by_cases hab : frame offset = b
    · simp [hab]
    · have hne : (frame offset).toNat ≠ b.toNat := fun h => hab (UInt8.toNat_inj.mp h)
      simp only [hab, ne_eq, not_false_eq_true, if_true, val_pure, false_and, iff_false]
      omega

end VlsOs.Net
