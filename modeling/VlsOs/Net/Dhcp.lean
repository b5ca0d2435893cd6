import VlsOs.Net.Receive

/-! The DHCP server (`net/dhcp.c`, `include/dhcp.h`).

    `dhcp_poll` looks for the message type in the options of a request, option 53, and answers a
    DISCOVER with an OFFER and a REQUEST with an ACK. It is a function from the received packet to the
    one that it passes to `sendto`. The options area starts with a cookie of four bytes; the options
    after it are a code, a length and that many bytes, but for PAD (0) and END (255), which are one
    byte.

        options area   99 130 83 99 │ 53 1 1 │ 0 │ 12 2 a b │ ⋯ │ 255 │ ⋯
                       cookie         option   PAD  option        END

    `dhcp_poll` looks for options from the cookie on, `dhcp_fill_ack` from the byte after it. -/

namespace VlsOs.Net
open Patterns Patterns.Trace

def dhcpServerPort : UInt16 := 67

def dhcpClientPort : UInt16 := 68

def dhcpOpBootreply : UInt8 := 2

def dhcpDiscover : UInt8 := 1

def dhcpOffer : UInt8 := 2

def dhcpRequest : UInt8 := 3

def dhcpAck : UInt8 := 5

/-! ### Packets -/

def netSetIpaddrBytes (a b c d : UInt8) : Ipv4Addr := #v[a, b, c, d]

/-- `dhcp_pkt_t`; `xid` is only copied, and stands as its four bytes. -/
structure DhcpPkt where
  op : UInt8
  htype : UInt8
  hlen : UInt8
  hops : UInt8
  xid : Vector UInt8 4
  secs : UInt16
  flags : UInt16
  ciaddr : Ipv4Addr
  yiaddr : Ipv4Addr
  siaddr : Ipv4Addr
  giaddr : Ipv4Addr
  chaddr : Vector UInt8 16
  sname : Vector UInt8 64
  file : Vector UInt8 128
  options : Vector UInt8 312

/-- `sizeof (dhcp_pkt_t)`. -/
def dhcpPktSize : ℕ := 548

/-- `(dhcp_pkt_t*) buf`. -/
def dhcpPktAt (buf : ℕ → UInt8) : DhcpPkt where
  op := buf 0
  htype := buf 1
  hlen := buf 2
  hops := buf 3
  xid := Vector.ofFn fun i => buf (4 + i)
  secs := word (buf 8) (buf 9)
  flags := word (buf 10) (buf 11)
  ciaddr := Vector.ofFn fun i => buf (12 + i)
  yiaddr := Vector.ofFn fun i => buf (16 + i)
  siaddr := Vector.ofFn fun i => buf (20 + i)
  giaddr := Vector.ofFn fun i => buf (24 + i)
  chaddr := Vector.ofFn fun i => buf (28 + i)
  sname := Vector.ofFn fun i => buf (44 + i)
  file := Vector.ofFn fun i => buf (108 + i)
  options := Vector.ofFn fun i => buf (236 + i)

/-- `dhcp_server_t`. -/
structure DhcpServer where
  running : Bool
  sockfd : ℤ
  poolStart : Ipv4Addr
  poolEnd : Ipv4Addr
  serverIp : Ipv4Addr
  netmask : Ipv4Addr
  gateway : Ipv4Addr

/-! ### Options -/

/-- The loop over the options from `i` on that `dhcp_poll` and `dhcp_fill_ack` both have: the offset
    of the first option 53 that has a value. The events are the offsets that it reads. A turn moves
    `i` on by 2 at least, so 156 turns are enough. -/
def optionLoop (opt : ℕ → UInt8) : ℕ → ℕ → Traced ℕ (Option ℕ)
  | 0, _ => return none
  | turns + 1, i =>
    if i < 312 then do
      emit i
      if opt i = 255 then return none
      else if i + 1 ≥ 312 then return none
      else do
        emit (i + 1)
        if opt i = 53 ∧ opt (i + 1) ≥ 1 then return some i
        else optionLoop opt turns (i + (2 + (opt (i + 1)).toNat))
    else return none

def findType (opt : ℕ → UInt8) (start : ℕ) : Traced ℕ (Option ℕ) := optionLoop opt 156 start

/-- The options that `dhcp_fill_offer` writes. -/
def offerOptions (srv : DhcpServer) : List UInt8 :=
  [99, 130, 83, 99] ++ [53, 1, dhcpOffer] ++ [1, 4] ++ srv.netmask.toList ++ [3, 4] ++
    srv.gateway.toList ++ [54, 4] ++ srv.serverIp.toList ++ [51, 4, 0, 0, 0x0E, 0x10] ++ [255]

def dhcpFillOffer (srv : DhcpServer) (req : DhcpPkt) (offerIp : Ipv4Addr) : DhcpPkt where
  op := dhcpOpBootreply
  htype := req.htype
  hlen := req.hlen
  hops := 0
  xid := req.xid
  secs := 0
  flags := 0
  ciaddr := Vector.replicate 4 0
  yiaddr := offerIp
  siaddr := srv.serverIp
  giaddr := Vector.replicate 4 0
  chaddr := req.chaddr
  sname := Vector.replicate 64 0
  file := Vector.replicate 128 0
  options := Vector.ofFn fun i => (offerOptions srv).getD i 0

/-- The options of a packet by offset. -/
def DhcpPkt.opt (pkt : DhcpPkt) (i : ℕ) : UInt8 := pkt.options.toList.getD i 0

def dhcpFillAck (srv : DhcpServer) (req : DhcpPkt) (assignIp : Ipv4Addr) : DhcpPkt :=
  let resp := dhcpFillOffer srv req assignIp
  match (findType resp.opt 4).val with
  | some i => { resp with options := resp.options.setIfInBounds (i + 2) dhcpAck }
  | none => resp

/-! ### The server -/

/-- What `dhcp_poll` passes to `sendto`, and what it prints. -/
structure DhcpReply where
  packet : DhcpPkt
  dest : Ipv4Addr
  port : UInt16
  text : String

def offerReply (srv : DhcpServer) (req : DhcpPkt) : DhcpReply where
  packet := dhcpFillOffer srv req srv.poolStart
  dest := netSetIpaddrBytes 255 255 255 255
  port := dhcpClientPort
  text := "DHCP: Sent DHCPOFFER\n"

def ackReply (srv : DhcpServer) (req : DhcpPkt) : DhcpReply where
  packet := dhcpFillAck srv req srv.poolStart
  dest := netSetIpaddrBytes 255 255 255 255
  port := dhcpClientPort
  text := "DHCP: Sent DHCPACK\n"

/-- The message type that the scan of `dhcp_poll` finds, `0` if it finds none. -/
def scanType (opt : ℕ → UInt8) : UInt8 :=
  match (findType opt 0).val with
  | some i => opt (i + 2)
  | none => 0

/-- `dhcp_poll` on a packet of `n` bytes in `buf`. -/
def dhcpPoll (srv : DhcpServer) (buf : ℕ → UInt8) (n : ℕ) : Option DhcpReply :=
  if srv.running = false then none
  else if n ≤ 0 then none
  else if n < dhcpPktSize - 312 then none
  else
    let req := dhcpPktAt buf
    let typ := scanType fun i => buf (236 + i)
    if typ = dhcpDiscover then some (offerReply srv req)
    else if typ = dhcpRequest then some (ackReply srv req)
    else none

/-! ### The scan -/

/-- The option 53 that is found from `i` on, if every option has a length byte. -/
inductive FindsAt (opt : ℕ → UInt8) : ℕ → ℕ → Prop
  | here {i : ℕ} (hin : i + 1 < 312) (hcode : opt i = 53) (hlen : 1 ≤ opt (i + 1)) : FindsAt opt i i
  | next {i j : ℕ} (hin : i + 1 < 312) (hend : opt i ≠ 255) (hother : ¬(opt i = 53 ∧ 1 ≤ opt (i + 1)))
      (hrest : FindsAt opt (i + (2 + (opt (i + 1)).toNat)) j) : FindsAt opt i j

/-- SPEC of the loop: with enough turns it finds what is there. -/
theorem optionLoop_val {opt : ℕ → UInt8} : ∀ {turns i : ℕ}, 312 ≤ i + 2 * turns → ∀ j : ℕ,
    (optionLoop opt turns i).val = some j ↔ FindsAt opt i j := by
  intro turns
  induction turns with
  | zero =>
    intro i hi j
    refine iff_of_false (by simp [optionLoop]) fun h => ?_
    cases h <;> omega
  | succ turns ih =>
    intro i hi j
    rw [optionLoop]
    split
    · simp only [val_bind]
      split
      · rename_i hend
        refine iff_of_false (by simp) fun h => ?_
        cases h with
        | here _ hcode _ =>
          rw [hend] at hcode
          exact absurd hcode (by decide)
        | next _ hne _ _ => exact hne hend
      split
      · refine iff_of_false (by simp) fun h => ?_
        cases h <;> omega
      · rename_i hend hin
        simp only [val_bind]
        split
        · rename_i hfound
          constructor
          · rintro ⟨⟩
            exact .here (by omega) hfound.1 hfound.2
          · intro h
            cases h with
            | here => rfl
            | next _ _ hother _ => exact absurd hfound hother
        · rename_i hother
          rw [ih (by omega)]
          constructor
          · exact .next (by omega) hend hother
          · intro h
            cases h with
            | here _ hcode hlen => exact absurd ⟨hcode, hlen⟩ hother
            | next _ _ _ hrest => exact hrest
    · refine iff_of_false (by simp) fun h => ?_
      cases h <;> omega

theorem findType_val {opt : ℕ → UInt8} {i j : ℕ} :
    (findType opt i).val = some j ↔ FindsAt opt i j :=
  optionLoop_val (by omega) j

/-- Nothing is found among zeros. -/
theorem FindsAt.not_zeros {opt : ℕ → UInt8} {start : ℕ} (hzero : ∀ i, start ≤ i → opt i = 0) {i j : ℕ}
    (hi : start ≤ i) : ¬FindsAt opt i j := by
  intro h
  induction h with
  | here _ hcode _ =>
    rw [hzero _ hi] at hcode
    exact absurd hcode (by decide)
  | next _ _ _ _ ih => exact ih (by omega)

/-- The cookie is read as option 99 with 130 bytes: the scan goes on 132 bytes further. -/
theorem findsAt_cookie {opt : ℕ → UInt8} (h0 : opt 0 = 99) (h1 : opt 1 = 130) {j : ℕ} :
    FindsAt opt 0 j ↔ FindsAt opt 132 j := by
  have hnext : 0 + (2 + (opt (0 + 1)).toNat) = 132 := by
    rw [Nat.zero_add, Nat.zero_add, h1]
    rfl
  constructor
  · intro h
    cases h with
    | here _ hcode _ =>
      rw [h0] at hcode
      exact absurd hcode (by decide)
    | next _ _ _ hrest => rwa [hnext] at hrest
  · intro h
    have hcode : opt 0 ≠ 53 := by
      rw [h0]
      decide
    refine .next (by omega) (by rw [h0]; decide) (fun h => hcode h.1) ?_
    rwa [hnext]

/-- A type other than `0` is the value of the option found. -/
theorem scanType_eq {opt : ℕ → UInt8} {v : UInt8} (hv : v ≠ 0) :
    scanType opt = v ↔ ∃ j, FindsAt opt 0 j ∧ opt (j + 2) = v := by
  unfold scanType
  cases hfind : (findType opt 0).val with
  | none =>
    refine iff_of_false (Ne.symm hv) ?_
    rintro ⟨j, hj, -⟩
    rw [findType_val.mpr hj] at hfind
    cases hfind
  | some i =>
    constructor
    · exact fun h => ⟨i, findType_val.mp hfind, h⟩
    · rintro ⟨j, hj, h⟩
      rw [findType_val.mpr hj] at hfind
      cases hfind
      exact h

/-! ### The format -/

inductive DhcpOption
  | pad
  | option (code : UInt8) (value : List UInt8)

def DhcpOption.bytes : DhcpOption → List UInt8
  | .pad => [0]
  | .option code value => code :: UInt8.ofNat value.length :: value

/-- The code is neither PAD nor END, and the length fits its byte. -/
def DhcpOption.WellFormed : DhcpOption → Prop
  | .pad => True
  | .option code value => code ≠ 0 ∧ code ≠ 255 ∧ value.length ≤ 255

/-- The used part of an options area: the cookie, the options, and END. -/
def optionsArea (options : List DhcpOption) : List UInt8 :=
  [99, 130, 83, 99] ++ options.flatMap DhcpOption.bytes ++ [255]

/-- The value of option 53, the first one if there are several. -/
def messageType (options : List DhcpOption) : Option (List UInt8) :=
  options.findSome? fun
    | .option code value => if code = 53 then some value else none
    | .pad => none

/-- A packet with this message type in its options. -/
def DhcpPkt.Carries (pkt : DhcpPkt) (value : List UInt8) : Prop :=
  ∃ options rest, (∀ o ∈ options, o.WellFormed) ∧ pkt.options.toList = optionsArea options ++ rest ∧
    messageType options = some value

/-! ### What the server sends -/

theorem length_offerOptions (srv : DhcpServer) : (offerOptions srv).length = 32 := by
  simp [offerOptions]

theorem toList_offerOptions (srv : DhcpServer) (req : DhcpPkt) (ip : Ipv4Addr) :
    (dhcpFillOffer srv req ip).options.toList = offerOptions srv ++ List.replicate 280 0 := by
  have hlength : (dhcpFillOffer srv req ip).options.toList.length =
      (offerOptions srv ++ List.replicate 280 0).length := by
    rw [Vector.length_toList, List.length_append, length_offerOptions, List.length_replicate]
  refine List.ext_getElem hlength fun i hi hi' => ?_
  simp only [dhcpFillOffer, Vector.getElem_toList, Vector.getElem_ofFn, List.getElem_append,
    List.getElem_replicate]
  split
  · rw [List.getD_eq_getElem]
  · rename_i hout
    exact List.getD_eq_default _ _ (not_lt.mp hout)

/-- The options of an offer and of an acknowledgement, but for the message type. -/
def replyOptions (srv : DhcpServer) (type : UInt8) : List DhcpOption :=
  [.option 53 [type], .option 1 srv.netmask.toList, .option 3 srv.gateway.toList,
    .option 54 srv.serverIp.toList, .option 51 [0, 0, 0x0E, 0x10]]

theorem optionsArea_replyOptions (srv : DhcpServer) :
    optionsArea (replyOptions srv dhcpOffer) = offerOptions srv := by
  simp [optionsArea, replyOptions, offerOptions, DhcpOption.bytes]

theorem dhcpFillOffer_options (srv : DhcpServer) (req : DhcpPkt) (ip : Ipv4Addr) :
    (dhcpFillOffer srv req ip).options.toList =
      optionsArea (replyOptions srv dhcpOffer) ++ List.replicate 280 0 := by
  rw [toList_offerOptions, optionsArea_replyOptions]

theorem offer_opt (srv : DhcpServer) (req : DhcpPkt) (ip : Ipv4Addr) {i : ℕ} (hi : i < 32) :
    (dhcpFillOffer srv req ip).opt i = (offerOptions srv).getD i 0 := by
  rw [DhcpPkt.opt, toList_offerOptions, List.getD_append _ _ _ _ (by rwa [length_offerOptions])]

/-- `dhcp_fill_ack` finds the option that it looks for at once. -/
theorem findType_offer (srv : DhcpServer) (req : DhcpPkt) (ip : Ipv4Addr) :
    (findType (dhcpFillOffer srv req ip).opt 4).val = some 4 := by
  have hcode : (dhcpFillOffer srv req ip).opt 4 = 53 := offer_opt srv req ip (by omega)
  have hlen : (dhcpFillOffer srv req ip).opt (4 + 1) = 1 := offer_opt srv req ip (by omega)
  exact findType_val.mpr (.here (by omega) hcode (by rw [hlen]; decide))

/-- SPEC of the acknowledgement: it is an offer with another message type. -/
theorem dhcpFillAck_options (srv : DhcpServer) (req : DhcpPkt) (ip : Ipv4Addr) :
    (dhcpFillAck srv req ip).options.toList =
      optionsArea (replyOptions srv dhcpAck) ++ List.replicate 280 0 := by
  have hset : (offerOptions srv).set 6 dhcpAck = optionsArea (replyOptions srv dhcpAck) := by
    rw [← optionsArea_replyOptions]
    rfl
  have hack : (dhcpFillAck srv req ip).options =
      (dhcpFillOffer srv req ip).options.setIfInBounds 6 dhcpAck := by
    unfold dhcpFillAck
    dsimp only
    rw [findType_offer]
  rw [hack, Vector.toList_setIfInBounds, toList_offerOptions,
    List.set_append_left _ _ (by rw [length_offerOptions]; omega), hset]

theorem replyOptions_wellFormed (srv : DhcpServer) (type : UInt8) :
    ∀ o ∈ replyOptions srv type, o.WellFormed := by
  simp [replyOptions, DhcpOption.WellFormed]

/-- In a packet that the server has made, the scan from the cookie on meets only zeros. -/
theorem scanType_reply {pkt : DhcpPkt} {srv : DhcpServer} {type : UInt8}
    (h : pkt.options.toList = optionsArea (replyOptions srv type) ++ List.replicate 280 0) :
    scanType pkt.opt = 0 := by
  have hlength : (optionsArea (replyOptions srv type)).length = 32 := by
    simp [optionsArea, replyOptions, DhcpOption.bytes]
  have hhead (i : ℕ) (hi : i < 32) : pkt.opt i = (optionsArea (replyOptions srv type)).getD i 0 := by
    rw [DhcpPkt.opt, h, List.getD_append _ _ _ _ (by rwa [hlength])]
  have hzero (i : ℕ) (hi : 132 ≤ i) : pkt.opt i = 0 := by
    rw [DhcpPkt.opt, h, List.getD_append_right _ _ _ _ (by omega)]
    simp only [List.getD_eq_getElem?_getD, List.getElem?_replicate]
    split <;> rfl
  have hnone : (findType pkt.opt 0).val = none := by
    refine Option.eq_none_iff_forall_ne_some.mpr fun j hj => ?_
    have hfind := (findsAt_cookie (hhead 0 (by omega)) (hhead 1 (by omega))).mp (findType_val.mp hj)
    exact FindsAt.not_zeros hzero (le_refl _) hfind
  rw [scanType, hnone]

/-! ### Requests -/

/-- The reply that a message type asks for, and no other. -/
def RepliesRight (srv : DhcpServer) (buf : ℕ → UInt8) (n : ℕ) (value : List UInt8) : Prop :=
  (dhcpPoll srv buf n = some (offerReply srv (dhcpPktAt buf)) ↔ value = [dhcpDiscover]) ∧
    (dhcpPoll srv buf n = some (ackReply srv (dhcpPktAt buf)) ↔ value = [dhcpRequest]) ∧
    (value ≠ [dhcpDiscover] → value ≠ [dhcpRequest] → dhcpPoll srv buf n = none)

theorem offerReply_ne_ackReply (srv : DhcpServer) (req : DhcpPkt) :
    offerReply srv req ≠ ackReply srv req := by
  intro h
  have htext : "DHCP: Sent DHCPOFFER\n" = "DHCP: Sent DHCPACK\n" := congrArg DhcpReply.text h
  exact absurd htext (by decide)

/-- The reply is right precisely if the scan finds a type that asks for the same. -/
theorem repliesRight_iff {srv : DhcpServer} {buf : ℕ → UInt8} {n : ℕ} {value : List UInt8}
    (hrun : srv.running = true) (hn : 236 ≤ n) :
    RepliesRight srv buf n value ↔
      ((scanType fun i => buf (236 + i)) = dhcpDiscover ↔ value = [dhcpDiscover]) ∧
        ((scanType fun i => buf (236 + i)) = dhcpRequest ↔ value = [dhcpRequest]) := by
  have hne := offerReply_ne_ackReply srv (dhcpPktAt buf)
  have hpoll : dhcpPoll srv buf n =
      if (scanType fun i => buf (236 + i)) = dhcpDiscover then some (offerReply srv (dhcpPktAt buf))
      else if (scanType fun i => buf (236 + i)) = dhcpRequest then
        some (ackReply srv (dhcpPktAt buf))
      else none := by
    rw [dhcpPoll, if_neg (by simp [hrun]), if_neg (by omega), if_neg (by rw [dhcpPktSize]; omega)]
  have hdistinct : dhcpDiscover ≠ dhcpRequest := by decide
  rw [RepliesRight, hpoll]
  by_cases hdiscover : (scanType fun i => buf (236 + i)) = dhcpDiscover
  · rw [if_pos hdiscover]
    simp only [Option.some.injEq, hne, hdiscover, hdistinct, true_iff, false_iff]
    exact ⟨fun h => ⟨h.1, h.2.1⟩, fun h => ⟨h.1, h.2, fun hno => absurd h.1 hno⟩⟩
  · rw [if_neg hdiscover]
    by_cases hrequest : (scanType fun i => buf (236 + i)) = dhcpRequest
    · rw [if_pos hrequest]
      simp only [Option.some.injEq, Ne.symm hne, hrequest, Ne.symm hdistinct, true_iff, false_iff]
      exact ⟨fun h => ⟨h.1, h.2.1⟩, fun h => ⟨h.1, h.2, fun _ hno => absurd h.2 hno⟩⟩
    · rw [if_neg hrequest]
      simp only [reduceCtorEq, hdiscover, hrequest, false_iff, implies_true, and_true]

/-- A request of `n` bytes with these options, and the value of its option 53. -/
structure Request (buf : ℕ → UInt8) (n : ℕ) (options : List DhcpOption) (value : List UInt8) :
    Prop where
  wellFormed : ∀ o ∈ options, o.WellFormed
  fits : (optionsArea options).length ≤ 312
  received : 236 + (optionsArea options).length ≤ n
  area : Blocks.stretch buf 236 (optionsArea options).length = optionsArea options
  type : messageType options = some value

/-- An option 53 with this value, if options with a length byte start at offset 132. -/
def TypeAt132 (buf : ℕ → UInt8) (type : UInt8) : Prop :=
  ∃ j, FindsAt (fun i => buf (236 + i)) 132 j ∧ buf (236 + (j + 2)) = type

/-- Where the scan of a request gets to. -/
theorem Request.scanType_eq_iff {buf : ℕ → UInt8} {n : ℕ} {options : List DhcpOption}
    {value : List UInt8} (h : Request buf n options value) {type : UInt8} (hne : type ≠ 0) :
    (scanType fun i => buf (236 + i)) = type ↔ TypeAt132 buf type := by
  have hcookie := (Blocks.stretch_eq_append (h.area.trans (List.append_assoc ..))).1
  have h0 : buf (236 + 0) = 99 := (List.cons.inj hcookie).1
  have h1 : buf (236 + 1) = 130 := (List.cons.inj (List.cons.inj hcookie).2).1
  rw [scanType_eq hne, TypeAt132]
  exact exists_congr fun j => and_congr_left fun _ => findsAt_cookie h0 h1

/-- EXACT: the reply to a request is right precisely if the bytes from offset 132 of its options on,
    read without PAD, lead to an option 53 that asks for the same reply. In the packets that the
    server makes itself, which have their message type in the right format, the scan finds none. -/
theorem dhcp_reads_format_iff {srv : DhcpServer} {buf : ℕ → UInt8} {n : ℕ}
    {options : List DhcpOption} {value : List UInt8} (hrun : srv.running = true)
    (h : Request buf n options value) :
    (RepliesRight srv buf n value ↔ (TypeAt132 buf dhcpDiscover ↔ value = [dhcpDiscover]) ∧
        (TypeAt132 buf dhcpRequest ↔ value = [dhcpRequest])) ∧
      ∀ req ip,
        (dhcpFillOffer srv req ip).Carries [dhcpOffer] ∧
          scanType (dhcpFillOffer srv req ip).opt ≠ dhcpOffer ∧
          (dhcpFillAck srv req ip).Carries [dhcpAck] ∧
          scanType (dhcpFillAck srv req ip).opt ≠ dhcpAck := by
  have hreceived := h.received
  refine ⟨?_, fun req ip => ⟨⟨_, _, replyOptions_wellFormed srv _, dhcpFillOffer_options .., rfl⟩, ?_,
    ⟨_, _, replyOptions_wellFormed srv _, dhcpFillAck_options .., rfl⟩, ?_⟩⟩
  · rw [repliesRight_iff hrun (by omega), h.scanType_eq_iff (by decide), h.scanType_eq_iff (by decide)]
  · rw [scanType_reply (dhcpFillOffer_options srv req ip)]
    decide
  · rw [scanType_reply (dhcpFillAck_options srv req ip)]
    decide

/-- The server of the host 192.168.1.100. -/
def sampleServer : DhcpServer where
  running := true
  sockfd := 1
  poolStart := netSetIpaddrBytes 192 168 1 150
  poolEnd := netSetIpaddrBytes 192 168 1 160
  serverIp := netSetIpaddrBytes 192 168 1 100
  netmask := netSetIpaddrBytes 255 255 255 0
  gateway := netSetIpaddrBytes 192 168 1 1

/-- A DISCOVER whose options have a second option 53 at offset 132. -/
def alignedOptions : List DhcpOption :=
  [.option 53 [1], .option 43 (List.replicate 123 0), .option 53 [1]]

/-- A packet of zeros up to its options. -/
def packetWith (options : List DhcpOption) (i : ℕ) : UInt8 :=
  if i < 236 then 0 else (optionsArea options).getD (i - 236) 0

theorem dhcp_reads_format_aligned :
    Request (packetWith alignedOptions) 548 alignedOptions [dhcpDiscover] ∧
      RepliesRight sampleServer (packetWith alignedOptions) 548 [dhcpDiscover] := by
  have hreq : Request (packetWith alignedOptions) 548 alignedOptions [dhcpDiscover] :=
    ⟨by simp [alignedOptions, DhcpOption.WellFormed], by decide +kernel, by decide +kernel,
      by decide +kernel, rfl⟩
  have hfind : (findType (fun i => packetWith alignedOptions (236 + i)) 132).val = some 132 := by
    decide +kernel
  refine ⟨hreq, (dhcp_reads_format_iff rfl hreq).1.mpr ⟨iff_of_true ?_ rfl, iff_of_false ?_ (by decide)⟩⟩
  · exact ⟨132, findType_val.mp hfind, by decide +kernel⟩
  · rintro ⟨j, hj, htype⟩
    rw [findType_val.mpr hj, Option.some.injEq] at hfind
    subst hfind
    exact absurd htype (by decide +kernel)

/-- A plain DISCOVER gets no reply. -/
theorem dhcp_discover_unanswered :
    Request (packetWith [.option 53 [1]]) 548 [.option 53 [1]] [dhcpDiscover] ∧
      dhcpPoll sampleServer (packetWith [.option 53 [1]]) 548 = none := by
  refine ⟨⟨by simp [DhcpOption.WellFormed], by decide, by decide, by decide, rfl⟩, ?_⟩
  have hscan : (scanType fun i => packetWith [.option 53 [1]] (236 + i)) = 0 := by decide +kernel
  simp only [dhcpPoll, hscan]
  rfl

end VlsOs.Net
