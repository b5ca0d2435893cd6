import VlsOs.Net.Traffic
import VlsOs.Schemes.Accounting

/-! What a host answers to arbitrary bytes.

    A received frame is answered exactly if it is an ARP request for the address of `eth0`; the answer
    is one reply. IP packets are never answered: the echo reply is built and left in its buffer. And
    since a reply is not a request, a frame on a medium that all hosts listen to cannot start a chain of
    answers, whatever its bytes.

        any frame ──▶ at most one reply from each host that hears it ──▶ nothing more -/

namespace VlsOs.Net
open Patterns Patterns.Trace VlsOs.Memory

/-- The frame is an ARP request for the address. -/
def AsksFor (frame : ℕ → UInt8) (len : UInt16) (ip : Ipv4Addr) : Prop :=
  42 ≤ len.toNat ∧ netNtohs (word (frame 12) (frame 13)) = ethertypeArp ∧
    netNtohs (word (frame 14) (frame 15)) = 1 ∧
    netNtohs (word (frame 16) (frame 17)) = ethertypeIpv4 ∧
    netNtohs (word (frame 20) (frame 21)) = arpOpRequest ∧ Blocks.stretch frame 38 4 = ip.toList

instance (frame : ℕ → UInt8) (len : UInt16) (ip : Ipv4Addr) : Decidable (AsksFor frame len ip) :=
  inferInstanceAs (Decidable (_ ∧ _))

/-- The state once the sender of an ARP packet is in the cache. -/
def learnt (frame : ℕ → UInt8) (s : NetState) : NetState :=
  { s with arpCache := arpCacheLearn s.arpCache (readIpv4Addr frame 28).val (readMacAddr frame 22).val }

/-- What a frame is answered with: a reply, or nothing at all. -/
inductive Answered (frame : ℕ → UInt8) (s : NetState) (asked : Ipv4Addr → Prop)
    (x : Traced RxEvent NetState) : Prop
  | reply (iface : NetInterface) (hiface : netGetInterface s eth0 = some iface)
      (hasked : asked iface.ipAddr)
      (hval : x.val = (arpSendReply (learnt frame s) (readIpv4Addr frame 28).val
        (readMacAddr frame 22).val).val)
      (hsent : sentFrames x.events = sentFrames (arpSendReply (learnt frame s)
        (readIpv4Addr frame 28).val (readMacAddr frame 22).val).events)
  | silence (hasked : ∀ iface, netGetInterface s eth0 = some iface → ¬asked iface.ipAddr)
      (hval : Spends 0 s x.val []) (hsent : sentFrames x.events = [])

/-- Reading on does not answer. -/
theorem Answered.after {frame : ℕ → UInt8} {s : NetState} {asked : Ipv4Addr → Prop} {α : Type}
    {y : Traced RxEvent α} {f : α → Traced RxEvent NetState} (hy : sentFrames y.events = [])
    (h : Answered frame s asked (f y.val)) : Answered frame s asked (y >>= f) := by
  have hevents : sentFrames (y >>= f).events = sentFrames (f y.val).events := by
    rw [events_bind, sentFrames_append, hy, List.nil_append]
  cases h with
  | reply iface hiface hasked hval hsent =>
    exact .reply iface hiface hasked hval (hevents.trans hsent)
  | silence hasked hval hsent => exact .silence hasked hval (hevents.trans hsent)

theorem sentFrames_readWord (frame : ℕ → UInt8) (i : ℕ) : sentFrames (readWord frame i).events = [] :=
  sentFrames_reads (by simp)

theorem sentFrames_readBytes (frame : ℕ → UInt8) (i k : ℕ) :
    sentFrames (readBytes frame i k).events = [] :=
  sentFrames_reads (by simp)

theorem arpHandlePacket_answered (frame : ℕ → UInt8) (s : NetState) (len : UInt16) :
    Answered frame s (fun ip => 28 ≤ len.toNat ∧ netNtohs (word (frame 14) (frame 15)) = 1 ∧
      netNtohs (word (frame 16) (frame 17)) = ethertypeIpv4 ∧
      netNtohs (word (frame 20) (frame 21)) = arpOpRequest ∧ Blocks.stretch frame 38 4 = ip.toList)
      (arpHandlePacket frame s 14 len) := by
  unfold arpHandlePacket
  split
  · rename_i hshort
    refine .silence (fun _ _ hask => ?_) (.refl s) rfl
    exact absurd hask.1 (Nat.not_le.mpr (UInt16.lt_iff_toNat_lt.mp hshort))
  · rename_i hlong
    have hlen : 28 ≤ len.toNat := Nat.not_lt.mp fun h => hlong (UInt16.lt_iff_toNat_lt.mpr h)
    refine .after (sentFrames_readWord ..) ?_
    split
    · rename_i hhw
      exact .silence (fun _ _ hask => hhw hask.2.1) (.refl s) rfl
    · rename_i hhw
      refine .after (sentFrames_readWord ..) ?_
      split
      · rename_i hproto
        exact .silence (fun _ _ hask => hproto hask.2.2.1) (.refl s) rfl
      · rename_i hproto
        cases hiface : netGetInterface s eth0 with
        | none => exact .silence (fun iface hget => by cases hiface.symm.trans hget) (.refl s) rfl
        | some iface =>
          refine .after (sentFrames_readBytes ..) (.after (sentFrames_readBytes ..) ?_)
          refine .after (sentFrames_readWord ..) ?_
          have hlearn : Spends 0 s (learnt frame s) [] := spends_free 0 rfl rfl rfl
          have hsame {iface'} (hget : netGetInterface s eth0 = some iface') : iface' = iface :=
            Option.some.inj (hget.symm.trans hiface)
          split
          · rename_i hop
            have hcompare : sentFrames (memcmpFrame frame (14 + 24) iface.ipAddr.toList).events = [] :=
              sentFrames_reads (all_memcmpFrame _ _ _ fun i _ => ⟨_, rfl⟩)
            have hzero := memcmpFrame_eq_zero frame iface.ipAddr.toList 38
            rw [Vector.length_toList] at hzero
            refine .after hcompare ?_
            split
            · rename_i hours
              refine .after (sentFrames_readBytes ..) (.after (sentFrames_readBytes ..) ?_)
              exact .reply iface hiface ⟨hlen, not_not.mp hhw, not_not.mp hproto, hop,
                hzero.mp hours⟩ rfl rfl
            · rename_i hother
              refine .silence (fun iface' hget hask => hother (hzero.mpr ?_)) hlearn rfl
              exact hsame hget ▸ hask.2.2.2.2
          · rename_i hop
            exact .silence (fun _ _ hask => hop hask.2.2.2.1) hlearn rfl

/-- SPEC of the receive path on arbitrary bytes: an ARP request for the address of `eth0` is answered
    by a reply, anything else by silence. -/
theorem netReceiveFrame_answered (frame : ℕ → UInt8) (s : NetState) (len : UInt16) :
    Answered frame s (AsksFor frame len) (netReceiveFrame frame s len) := by
  unfold netReceiveFrame
  split
  · rename_i hshort
    refine .silence (fun _ _ hask => ?_) (.refl s) rfl
    have hlt : len.toNat < 14 := UInt16.lt_iff_toNat_lt.mp hshort
    have hlong := hask.1
    omega
  · rename_i hlong
    have hlen : 14 ≤ len.toNat := Nat.not_lt.mp fun h => hlong (UInt16.lt_iff_toNat_lt.mpr h)
    refine .after (sentFrames_readWord ..) ?_
    split
    · rename_i htype
      have hrest : (len - ethernetHdrSize).toNat = len.toNat - 14 :=
        UInt16.toNat_sub_of_le _ _ (UInt16.le_iff_toNat_le.mpr hlen)
      have hiff : ∀ ip, AsksFor frame len ip ↔ 28 ≤ (len - ethernetHdrSize).toNat ∧
          netNtohs (word (frame 14) (frame 15)) = 1 ∧
          netNtohs (word (frame 16) (frame 17)) = ethertypeIpv4 ∧
          netNtohs (word (frame 20) (frame 21)) = arpOpRequest ∧
          Blocks.stretch frame 38 4 = ip.toList := by
        intro ip
        have hlength : 42 ≤ len.toNat ↔ 28 ≤ (len - ethernetHdrSize).toNat := by omega
        rw [AsksFor, hlength]
        exact and_congr_right fun _ => and_iff_right htype
      rw [funext fun ip => propext (hiff ip)]
      exact arpHandlePacket_answered ..
    · rename_i htype
      have hnot : ∀ iface, netGetInterface s eth0 = some iface → ¬AsksFor frame len iface.ipAddr :=
        fun _ _ hask => htype hask.2.1
      split
      · exact .silence hnot (spends_ipHandlePacket ..)
          (sentFrames_unsent (unsent_ipHandlePacket frame s 14 _))
      · exact .silence hnot (.refl s) rfl

theorem spends_netReceiveFrame (frame : ℕ → UInt8) (s : NetState) (len : UInt16) :
    Spends 0 s (netReceiveFrame frame s len).val (netReceiveFrame frame s len).events := by
  have hlearn : Spends 0 s (learnt frame s) [] := spends_free 0 rfl rfl rfl
  cases netReceiveFrame_answered frame s len with
  | reply iface hiface hasked hval hsent =>
    have hreply := hlearn.trans (spends_arpSend (learnt frame s) (readMacAddr frame 22).val arpOpReply
      (readMacAddr frame 22).val (readIpv4Addr frame 28).val)
    rw [← arpSendReply, ← hval] at hreply
    exact hreply.of_sent hsent
  | silence hasked hval hsent => exact hval.of_sent hsent

/-! ### No storms -/

section Storm
variable {Host : Type*} [DecidableEq Host]

/-- A host hears the frame that was sent as number `index`, with `rest` in its memory behind it. -/
structure Reception (Host : Type*) where
  host : Host
  index : ℕ
  rest : ℕ → UInt8

def hearStep (n : Network Host) (r : Reception Host) : Network Host × List (List UInt8) :=
  match n.sent[r.index]? with
  | some f =>
    n.act r.host (netReceiveFrame (fun i => f.getD i (r.rest i)) (n.host r.host)
      (UInt16.ofNat f.length))
  | none => (n, [])

/-- A reply that some interface sent. -/
def IsReply (f : List UInt8) : Prop := ∃ iface mac ip, f = replyFrame iface mac ip

/-- What is sent on hearing a frame is one reply at most. -/
theorem sentFrames_netReceiveFrame (frame : ℕ → UInt8) (s : NetState) (len : UInt16) :
    (sentFrames (netReceiveFrame frame s len).events).length ≤ 1 ∧
      ∀ f ∈ sentFrames (netReceiveFrame frame s len).events, IsReply f := by
  cases netReceiveFrame_answered frame s len with
  | reply iface hiface hasked hval hsent =>
    rw [hsent, arpSendReply]
    rcases arpSend_events (learnt frame s) (readMacAddr frame 22).val arpOpReply
      (readMacAddr frame 22).val (readIpv4Addr frame 28).val with h | ⟨sender, -, h⟩
    · simp [h]
    · rw [h]
      refine ⟨le_refl 1, fun f hf => ?_⟩
      rw [List.mem_singleton.mp hf]
      exact ⟨sender, _, _, rfl⟩
  | silence hasked hval hsent => simp [hsent]

/-- A reply is not a request, whatever stands in memory behind it. -/
theorem IsReply.not_asksFor {f : List UInt8} (hf : IsReply f) (rest : ℕ → UInt8) (len : UInt16)
    (ip : Ipv4Addr) : ¬AsksFor (fun i => f.getD i (rest i)) len ip := by
  obtain ⟨iface, mac, dest, rfl⟩ := hf
  rintro ⟨-, -, -, -, hop, -⟩
  have hstretch : Blocks.stretch (fun i => (replyFrame iface mac dest).getD i (rest i)) 0 42 =
      replyFrame iface mac dest := by
    refine List.ext_getElem (by simp [replyFrame]) fun i hi hl => ?_
    simp [Blocks.stretch, List.getElem?_eq_getElem hl]
  have hreply := (carriesArp_arpFrame hstretch).opcode
  rw [hop] at hreply
  exact absurd hreply (by decide)

theorem IsReply.unanswered {f : List UInt8} (hf : IsReply f) (rest : ℕ → UInt8) (s : NetState)
    (len : UInt16) :
    sentFrames (netReceiveFrame (fun i => f.getD i (rest i)) s len).events = [] := by
  cases netReceiveFrame_answered (fun i => f.getD i (rest i)) s len with
  | reply iface hiface hasked hval hsent => exact absurd hasked (hf.not_asksFor rest len _)
  | silence hasked hval hsent => exact hsent

/-- The first `m` frames are there, and all later ones are replies. -/
structure Settled (first : List (List UInt8)) (n : Network Host) : Prop where
  starts : first <+: n.sent
  replies : ∀ f ∈ n.sent.drop first.length, IsReply f

/-- STEP: hearing one of the first frames adds one reply at most, hearing another adds nothing. -/
theorem Settled.hear {first : List (List UInt8)} {n : Network Host} (h : Settled first n)
    (r : Reception Host) :
    Settled first (hearStep n r).1 ∧ (hearStep n r).1.sent.length ≤
      n.sent.length + (decide (r.index < first.length)).toNat := by
  have hlong : first.length ≤ n.sent.length := h.starts.length_le
  unfold hearStep
  cases hget : n.sent[r.index]? with
  | none => exact ⟨h, Nat.le_add_right ..⟩
  | some f =>
    obtain ⟨hone, hreplies⟩ := sentFrames_netReceiveFrame (fun i => f.getD i (r.rest i))
      (n.host r.host) (UInt16.ofNat f.length)
    refine ⟨⟨h.starts.trans (List.prefix_append ..), ?_⟩, ?_⟩
    · show ∀ f' ∈ (n.sent ++ _).drop first.length, IsReply f'
      rw [List.drop_append_of_le_length hlong]
      intro f' hf'
      rcases List.mem_append.mp hf' with hold | hnew
      · exact h.replies f' hold
      · exact hreplies f' hnew
    · show (n.sent ++ _).length ≤ _
      rw [List.length_append]
      by_cases hearly : r.index < first.length
      · rw [decide_eq_true hearly]
        exact Nat.add_le_add_left hone _
      · -- the frame heard is a reply itself
        have hreply : IsReply f := by
          refine h.replies f (List.mem_iff_getElem?.mpr ⟨r.index - first.length, ?_⟩)
          rw [List.getElem?_drop, Nat.add_sub_cancel' (Nat.not_lt.mp hearly), hget]
        rw [hreply.unanswered, decide_eq_false hearly]
        exact le_refl _

/-- NO STORMS: on a medium with any hosts in any states and any frames on it, hosts hear what was sent,
    each of them any frame any number of times. Whatever is added are ARP replies, and there are no
    more of them than receptions of the frames that were there at first: answers are not answered. -/
theorem answers_start_no_storm (n : Network Host) (rs : List (Reception Host)) :
    (∃ added, (Run.after hearStep n rs).sent = n.sent ++ added ∧ ∀ f ∈ added, IsReply f) ∧
      (Run.after hearStep n rs).sent.length ≤
        n.sent.length + rs.countP fun r => r.index < n.sent.length := by
  have hstart : Settled n.sent n := by
    refine ⟨List.prefix_refl _, fun f hf => ?_⟩
    rw [List.drop_length] at hf
    cases hf
  have hend : Settled n.sent (Run.after hearStep n rs) :=
    Run.after_inv (fun n' r (h : Settled n.sent n') => (h.hear r).1) rs n hstart
  have hcount := Run.measure_le_countP (μ := fun n' => n'.sent.length)
    (c := fun r => r.index < n.sent.length) (fun n' r (h : Settled n.sent n') => h.hear r) rs n hstart
  refine ⟨?_, hcount⟩
  obtain ⟨added, hadded⟩ := hend.starts
  refine ⟨added, hadded.symm, fun f hf => hend.replies f ?_⟩
  rw [← hadded, List.drop_left]
  exact hf

end Storm

end VlsOs.Net
