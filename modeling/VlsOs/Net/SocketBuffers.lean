import VlsOs.Net.SocketTable

/-! The receive buffers of the sockets.

    `socket` takes a buffer of `NET_MTU` bytes from the heap and does not look at the result;
    `close` calls `free`, which gives nothing back. So every socket that was ever opened has used up
    its part of the heap, and so has every packet that was sent.

        heapStart                              heapPtr            heapEnd
        │ buffer │ packet │ buffer │ buffer │  │ free              │
        └─────────── handed out ───────────────┘
                                               └ 1500 bytes left? ─┘  else socket stores NULL -/

namespace VlsOs.Net.Sock
open Patterns Patterns.Run Patterns.Trace VlsOs.Memory

/-! ### What is to hold -/

/-- The bytes that a socket has for its buffer. -/
def Socket.block (k : Socket) : Block := ⟨k.buffer, netMtu⟩

/-- Every live socket has a buffer, in the part of the heap that was handed out, and no two share
    a byte. -/
structure BuffersOwned (s : Sockets) : Prop where
  there : ∀ i, (s.sockets i).state ≠ .closed → (s.sockets i).buffer ≠ null ∧
    heapStart.toNat ≤ (s.sockets i).buffer.toNat ∧
    (s.sockets i).buffer.toNat + netMtu.toNat ≤ s.net.heap.heapPtr.toNat
  apart : ∀ i j, (s.sockets i).state ≠ .closed → (s.sockets j).state ≠ .closed → i ≠ j →
    Disjoint (s.sockets i).block.cells (s.sockets j).block.cells

/-- A `socket` call for which there is no buffer returns `-1` and leaves the table as it is. -/
def FailsClean (s : Sockets) : SockCall → Prop
  | .socket domain type protocol => (malloc s.net.heap netMtu).1 = null →
      (sockStep s (.socket domain type protocol)).2.1 = -1 ∧
        (sockStep s (.socket domain type protocol)).1.sockets = s.sockets
  | _ => True

/-- The call is a `socket` with valid arguments that finds a free slot. -/
def Asks (s : Sockets) : SockCall → Prop
  | .socket domain type _ => domain = afInet ∧ (type = sockStream ∨ type = sockDgram) ∧
      ∃ i, (s.sockets i).state = .closed
  | _ => False

/-- A call that asks for a buffer finds 1500 bytes before the end of the heap. -/
def Granted (s : Sockets) (c : SockCall) : Prop :=
  Asks s c → s.net.heap.heapPtr.toNat + netMtu.toNat < heapEnd.toNat

/-! ### The heap below -/

/-- The allocator has handed out no less than before, and is in order if it was. -/
def Grows (h h' : Heap) : Prop :=
  HeapOk h → HeapOk h' ∧ h.heapPtr.toNat ≤ h'.heapPtr.toNat

theorem Grows.refl (h : Heap) : Grows h h := fun hok => ⟨hok, le_refl _⟩

theorem Grows.trans {h₁ h₂ h₃ : Heap} (h : Grows h₁ h₂) (h' : Grows h₂ h₃) : Grows h₁ h₃ := by
  intro hok
  obtain ⟨hok₂, hle⟩ := h hok
  obtain ⟨hok₃, hle'⟩ := h' hok₂
  exact ⟨hok₃, hle.trans hle'⟩

theorem grows_malloc (h : Heap) {size : UInt32} (hsize : size.toNat < 2 ^ 31) :
    Grows h (malloc h size).2 := by
  rintro ⟨hlo, hhi⟩
  have hend := heapEnd_toNat
  rcases malloc_cases (show h.heapPtr.toNat + size.toNat < 2 ^ 32 by omega) with
    heq | ⟨heq, hsum, hlim⟩
  · rw [heq]
    exact ⟨⟨hlo, hhi⟩, le_refl _⟩
  · rw [heq]
    refine ⟨⟨?_, ?_⟩, ?_⟩
    · dsimp only
      omega
    · dsimp only
      omega
    · dsimp only
      omega

theorem toUInt32_small (n : UInt16) : n.toUInt32.toNat < 2 ^ 31 := by
  have := n.toNat_lt
  rw [UInt16.toNat_toUInt32]
  omega

theorem grows_arpSend (s : NetState) (destMac : MacAddr) (opcode : UInt16) (targetMac : MacAddr)
    (targetIp : Ipv4Addr) : Grows s.heap (arpSend s destMac opcode targetMac targetIp).val.heap := by
  unfold arpSend
  split
  · exact .refl _
  · dsimp only
    split
    · exact .refl _
    · exact grows_malloc _ (toUInt32_small _)

theorem grows_arpLookup (s : NetState) (ip : Ipv4Addr) :
    Grows s.heap (arpLookup s ip).val.2.heap := by
  unfold arpLookup
  split
  · exact .refl _
  · exact grows_arpSend s _ _ _ _

theorem grows_ipSendPacket (s : NetState) (dest : Ipv4Addr) (proto : UInt8) (data : ℕ → UInt8)
    (len : UInt16) : Grows s.heap (ipSendPacket s dest proto data len).val.heap := by
  unfold ipSendPacket
  split
  · exact .refl _
  · dsimp only
    split
    · exact .refl _
    · refine (grows_malloc _ (toUInt32_small (ethernetHdrSize + ipv4HdrSize + len))).trans ?_
      simp only [val_bind, val_pure, free]
      exact grows_arpLookup { s with heap := _, mem := _ } dest

theorem grows_udpSendPacket (s : NetState) (dest : Ipv4Addr) (srcPort destPort : UInt16)
    (data : ℕ → UInt8) (len : UInt16) :
    Grows s.heap (udpSendPacket s dest srcPort destPort data len).val.heap := by
  have hsize : (udpHdrSize.toUInt32 + len.toUInt32).toNat < 2 ^ 31 := by
    have := len.toNat_lt
    rw [UInt32.toNat_add, UInt16.toNat_toUInt32, UInt16.toNat_toUInt32,
      show udpHdrSize.toNat = 8 from rfl, Nat.mod_eq_of_lt (by omega)]
    omega
  unfold udpSendPacket
  dsimp only
  split
  · exact .refl _
  · refine (grows_malloc _ hsize).trans ?_
    simp only [val_bind, val_pure, free]
    exact grows_ipSendPacket { s with heap := _, mem := _ } dest _ _ _

theorem netMtu_toNat : netMtu.toNat = 1500 := rfl

theorem malloc_full {h : Heap} (hok : HeapOk h)
    (hfull : ¬h.heapPtr.toNat + netMtu.toNat < heapEnd.toNat) : malloc h netMtu = (null, h) := by
  have hend := heapEnd_toNat
  have hmtu := netMtu_toNat
  have hhi := hok.2
  rcases malloc_cases (show h.heapPtr.toNat + netMtu.toNat < 2 ^ 32 by omega) with
    heq | ⟨-, -, hlim⟩
  · exact heq
  · exact absurd hlim hfull

theorem malloc_room {h : Heap} (hroom : h.heapPtr.toNat + netMtu.toNat < heapEnd.toNat) :
    malloc h netMtu = (h.heapPtr, ⟨h.heapPtr + netMtu⟩) ∧
      (h.heapPtr + netMtu).toNat = h.heapPtr.toNat + netMtu.toNat := by
  have hend := heapEnd_toNat
  have hsum : (h.heapPtr + netMtu).toNat = h.heapPtr.toNat + netMtu.toNat := by
    rw [UInt32.toNat_add, Nat.mod_eq_of_lt (by omega)]
  refine ⟨if_neg ?_, hsum⟩
  rw [ge_iff_le, UInt32.le_iff_toNat_le, hsum]
  omega

/-! ### One call -/

theorem asks_iff {s : Sockets} {domain type protocol : ℤ} :
    Asks s (.socket domain type protocol) ↔ ∃ i, slotTaken s domain type = some i := by
  constructor
  · rintro ⟨rfl, htype, hfree⟩
    rw [slotTaken_of_type s htype]
    cases hfound : search s (fun k => k.state = .closed) with
    | none => exact absurd hfree (search_none.mp hfound)
    | some i => exact ⟨i, rfl⟩
  · rintro ⟨i, hi⟩
    obtain ⟨hdomain, htype, hfree⟩ := slotTaken_some hi
    exact ⟨hdomain, htype, i, of_decide_eq_true (search_some hfree)⟩

/-- A call that asks takes a slot. -/
theorem sockStep_asks {s : Sockets} {c : SockCall} (h : Asks s c) :
    ∃ i domain type protocol, c = .socket domain type protocol ∧ (s.sockets i).state = .closed ∧
      sockStep s c = (s.opened i domain type protocol, s.nextFd, []) := by
  cases c with
  | socket domain type protocol =>
    obtain ⟨i, hi⟩ := asks_iff.mp h
    obtain ⟨-, -, hfree⟩ := slotTaken_some hi
    refine ⟨i, domain, type, protocol, rfl, of_decide_eq_true (search_some hfree), ?_⟩
    show ((socket s domain type protocol).2, (socket s domain type protocol).1, []) = _
    rw [socket_taken hi]
  | _ => exact absurd h id

/-- … and a `socket` call that does not is refused. -/
theorem socket_not_asks {s : Sockets} {domain type protocol : ℤ}
    (h : ¬Asks s (.socket domain type protocol)) : socket s domain type protocol = (-1, s) := by
  refine socket_not_taken (Option.eq_none_iff_forall_ne_some.mpr fun i hi => ?_) protocol
  exact h (asks_iff.mpr ⟨i, hi⟩)

theorem Moves.buffer {c : SockCall} {k k' : Socket} (h : Moves c k k') : k'.buffer = k.buffer := by
  cases h <;> rfl

/-- FRAME: a call that does not ask makes no socket live, and changes no buffer. -/
theorem sockStep_not_asks {s : Sockets} {c : SockCall} (h : ¬Asks s c) :
    Grows s.net.heap (sockStep s c).1.net.heap ∧
      ∀ i, ((sockStep s c).1.sockets i).state ≠ .closed →
        (s.sockets i).state ≠ .closed ∧ ((sockStep s c).1.sockets i).buffer = (s.sockets i).buffer := by
  have heffect := sockStep_effect s c
  generalize (sockStep s c).1 = s' at heffect
  cases heffect with
  | idle => exact ⟨.refl _, fun i hi => ⟨hi, rfl⟩⟩
  | sends => exact ⟨grows_udpSendPacket s.net _ _ _ _ _, fun i hi => ⟨hi, rfl⟩⟩
  | opens protocol hdomain htype hfree =>
    exact absurd ⟨hdomain, htype, _, of_decide_eq_true (search_some hfree)⟩ h
  | @changes _ i k hnames hlive hmoves =>
    refine ⟨.refl _, fun j hj => ?_⟩
    rcases eq_or_ne j i with rfl | hne
    · rw [set_self]
      exact ⟨hlive, hmoves.buffer⟩
    · rw [set_other hne] at hj ⊢
      exact ⟨hj, rfl⟩

theorem opened_heap (s : Sockets) (i : Fin 16) (domain type protocol : ℤ) :
    (s.opened i domain type protocol).net.heap = (malloc s.net.heap netMtu).2 := by
  simp only [Sockets.opened]

theorem heapOk_sockStep (s : Sockets) (c : SockCall) (h : HeapOk s.net.heap) :
    HeapOk (sockStep s c).1.net.heap := by
  by_cases hasks : Asks s c
  · obtain ⟨i, domain, type, protocol, -, -, hstep⟩ := sockStep_asks hasks
    have hgrows : Grows s.net.heap (malloc s.net.heap netMtu).2 := grows_malloc _ (by decide)
    rw [hstep, opened_heap]
    exact (hgrows h).1
  · exact ((sockStep_not_asks hasks).1 h).1

/-- FRAME: where the heap has grown and live sockets keep their buffers, they still own them. -/
theorem BuffersOwned.of_live {s s' : Sockets} (h : BuffersOwned s)
    (hle : s.net.heap.heapPtr.toNat ≤ s'.net.heap.heapPtr.toNat)
    (hlive : ∀ i, (s'.sockets i).state ≠ .closed →
      (s.sockets i).state ≠ .closed ∧ (s'.sockets i).buffer = (s.sockets i).buffer) :
    BuffersOwned s' where
  there := by
    intro i hi
    obtain ⟨hold, hbuf⟩ := hlive i hi
    obtain ⟨hne, hlo, hhi⟩ := h.there i hold
    rw [hbuf]
    exact ⟨hne, hlo, hhi.trans hle⟩
  apart := by
    intro i j hi hj hne
    obtain ⟨hi', hbufi⟩ := hlive i hi
    obtain ⟨hj', hbufj⟩ := hlive j hj
    have happart := h.apart i j hi' hj' hne
    rwa [Socket.block, Socket.block, ← hbufi, ← hbufj] at happart

/-- A buffer handed out before lies below the one that starts at the bump pointer. -/
theorem BuffersOwned.disjoint_new {s : Sockets} (h : BuffersOwned s) {j : Fin 16}
    (hj : (s.sockets j).state ≠ .closed) :
    Disjoint (Block.mk s.net.heap.heapPtr netMtu).cells (s.sockets j).block.cells := by
  obtain ⟨-, -, hhi⟩ := h.there j hj
  refine Set.disjoint_left.mpr fun a ha ha' => ?_
  obtain ⟨hlo, -⟩ := Set.mem_Ico.mp ha
  obtain ⟨-, hlt⟩ := Set.mem_Ico.mp ha'
  exact absurd (hlt.trans_le (hhi.trans hlo)) (lt_irrefl _)

theorem opened_buffer (s : Sockets) (i : Fin 16) (domain type protocol : ℤ) :
    ((s.opened i domain type protocol).sockets i).buffer = (malloc s.net.heap netMtu).1 := by
  simp [Sockets.opened]

/-- With room on the heap, a new socket has a buffer of its own. -/
theorem BuffersOwned.opened {s : Sockets} (h : BuffersOwned s) (hok : HeapOk s.net.heap)
    (hroom : s.net.heap.heapPtr.toNat + netMtu.toNat < heapEnd.toNat) (i : Fin 16)
    (domain type protocol : ℤ) : BuffersOwned (s.opened i domain type protocol) := by
  obtain ⟨hmalloc, hsum⟩ := malloc_room hroom
  have hbuf := opened_buffer s i domain type protocol
  have hheap := opened_heap s i domain type protocol
  rw [hmalloc] at hbuf hheap
  refine ⟨fun j hj => ?_, fun j l hj hl hne => ?_⟩
  · rw [hheap]
    dsimp only
    rw [hsum]
    rcases eq_or_ne j i with rfl | hji
    · rw [hbuf]
      exact ⟨heapPtr_ne_null hok, hok.1, le_refl _⟩
    · rw [opened_other hji] at hj ⊢
      obtain ⟨hnull, hlo, hhi⟩ := h.there j hj
      exact ⟨hnull, hlo, by omega⟩
  · rcases eq_or_ne j i with rfl | hji
    · rw [opened_other hne.symm] at hl ⊢
      rw [Socket.block, hbuf]
      exact h.disjoint_new hl
    · rw [opened_other hji] at hj ⊢
      rcases eq_or_ne l i with rfl | hli
      · rw [Socket.block.eq_1 ((s.opened l domain type protocol).sockets l), hbuf]
        exact (h.disjoint_new hj).symm
      · rw [opened_other hli] at hl ⊢
        exact h.apart j l hj hl hne

/-- EXACT (one call): the sockets still own their buffers exactly when the call was granted one, or
    did not ask. -/
theorem buffersOwned_step_iff (s : Sockets) (c : SockCall) (hok : HeapOk s.net.heap)
    (h : BuffersOwned s) : BuffersOwned (sockStep s c).1 ↔ Granted s c := by
  by_cases hasks : Asks s c
  · obtain ⟨i, domain, type, protocol, -, -, hstep⟩ := sockStep_asks hasks
    rw [hstep]
    constructor
    · intro howned _
      by_contra hfull
      refine (howned.there i ?_).1 ?_
      · rw [(opened_self ..).2.2]
        decide
      · rw [opened_buffer, malloc_full hok hfull]
    · exact fun hgranted => h.opened hok (hgranted hasks) i domain type protocol
  · obtain ⟨hgrows, hlive⟩ := sockStep_not_asks hasks
    exact iff_of_true (h.of_live (hgrows hok).2 hlive) fun hasks' => absurd hasks' hasks

/-- EXACT (one call): a failing allocation is reported exactly when no call that finds a slot makes
    one. -/
theorem failsClean_iff (s : Sockets) (c : SockCall) (hok : HeapOk s.net.heap) :
    FailsClean s c ↔ Granted s c := by
  by_cases hasks : Asks s c
  · obtain ⟨i, domain, type, protocol, rfl, hclosed, hstep⟩ := sockStep_asks hasks
    constructor
    · intro hclean _
      by_contra hfull
      obtain ⟨-, hsame⟩ := hclean (by rw [malloc_full hok hfull])
      -- the slot was CLOSED and is now CREATED
      have hstate := (opened_self s i domain type protocol).2.2
      rw [hstep] at hsame
      rw [hsame, hclosed] at hstate
      exact absurd hstate (by decide)
    · intro hgranted hnull
      rw [(malloc_room (hgranted hasks)).1] at hnull
      exact absurd hnull (heapPtr_ne_null hok)
  · refine iff_of_true ?_ fun hasks' => absurd hasks' hasks
    cases c with
    | socket domain type protocol =>
      intro _
      show (socket s domain type protocol).1 = -1 ∧ (socket s domain type protocol).2.sockets = _
      rw [socket_not_asks hasks]
      exact ⟨rfl, rfl⟩
    | _ => trivial

/-! ### Runs -/

theorem buffersOwned_static (net : NetState) : BuffersOwned (staticSockets net) :=
  ⟨fun _ h => absurd rfl h, fun _ _ h => absurd rfl h⟩

/-- EXACT: over a whole run every live socket owns its buffer and every failing allocation is
    reported exactly when each `socket` call that finds a free slot finds 1500 bytes as well. -/
theorem socket_buffers_iff (net : NetState) (hheap : HeapOk net.heap) (calls : List SockCall) :
    (Always sockStep BuffersOwned (staticSockets net) calls ∧
      Along sockStep FailsClean (staticSockets net) calls) ↔
    Along sockStep Granted (staticSockets net) calls := by
  have howned := always_iff_along heapOk_sockStep buffersOwned_step_iff calls (staticSockets net)
    hheap (buffersOwned_static net)
  have hclean := along_congr (fun s c h _ => heapOk_sockStep s c h) failsClean_iff calls
    (staticSockets net) hheap
  rw [howned, hclean, and_self_iff]

/-- Two sockets on a fresh heap, of which the first is closed, and a third one in its slot. -/
def sampleSockCalls : List SockCall := [.socket 2 1 6, .socket 2 2 17, .close 1, .socket 2 2 17]

theorem socket_buffers_iff_sample :
    HeapOk sampleHost.heap ∧
      Always sockStep BuffersOwned (staticSockets sampleHost) sampleSockCalls ∧
      Along sockStep FailsClean (staticSockets sampleHost) sampleSockCalls := by
  have hheap : HeapOk sampleHost.heap := heapOk_memoryInit sampleHost.heap
  refine ⟨hheap, (socket_buffers_iff sampleHost hheap sampleSockCalls).mpr
    ⟨fun _ => by decide, fun _ => by decide, fun hasks => hasks.elim, fun _ => by decide, trivial⟩⟩

/-! ### Open and close

    A program that keeps at most one socket open uses up the heap all the same. -/

/-- `n` times: open a stream socket and close it. -/
def cycles : ℕ → List SockCall
  | 0 => []
  | n + 1 => cycles n ++ [.socket 2 1 6, .close (n + 1)]

/-- What is left after `n` of them: an empty table, and `n` buffers less. -/
structure Cycled (n : ℕ) (s : Sockets) : Prop where
  closed : ∀ i, (s.sockets i).state = .closed
  next : s.nextFd = n + 1
  used : s.net.heap.heapPtr.toNat = heapStart.toNat + n * netMtu.toNat

theorem Cycled.asks {n : ℕ} {s : Sockets} (h : Cycled n s) : Asks s (.socket 2 1 6) :=
  ⟨rfl, .inl rfl, 0, h.closed 0⟩

/-- STEP: one cycle more, while the heap lasts. -/
theorem Cycled.step {n : ℕ} {s : Sockets} (h : Cycled n s) (hn : n < 699) :
    Cycled (n + 1) (after sockStep s [.socket 2 1 6, .close (n + 1)]) := by
  obtain ⟨i, domain, type, protocol, -, -, hstep⟩ := sockStep_asks h.asks
  obtain ⟨s', hclose, hclosed, hnext, hnet⟩ := close_opened h.closed i domain type protocol
  have hroom : s.net.heap.heapPtr.toNat + netMtu.toNat < heapEnd.toNat := by
    rw [h.used, heapStart_toNat, heapEnd_toNat, netMtu_toNat]
    omega
  obtain ⟨hmalloc, hsum⟩ := malloc_room hroom
  have hafter : after sockStep s [.socket 2 1 6, .close (n + 1)] = s' := by
    rw [after_cons, hstep, after_cons, after_nil, ← h.next]
    exact congrArg Prod.snd hclose
  rw [hafter]
  refine ⟨hclosed, ?_, ?_⟩
  · rw [hnext, h.next, succFd_eq (by omega) (by omega)]
    push_cast
    rfl
  · rw [hnet, opened_heap, hmalloc]
    dsimp only
    rw [hsum, h.used]
    ring

theorem cycled_cycles : ∀ n ≤ 699, Cycled n (after sockStep (staticSockets sampleHost) (cycles n)) := by
  intro n
  induction n with
  | zero => exact fun _ => ⟨fun _ => rfl, rfl, rfl⟩
  | succ n ih =>
    intro hn
    rw [cycles, after_append]
    exact (ih (by omega)).step (by omega)

/-- When 699 buffers are gone there is no room for another. -/
theorem Cycled.full {s : Sockets} (h : Cycled 699 s) : malloc s.net.heap netMtu = (null, s.net.heap) := by
  have hused := h.used
  rw [heapStart_toNat, netMtu_toNat] at hused
  refine malloc_full ?_ ?_
  · rw [HeapOk, heapStart_toNat, heapEnd_toNat]
    omega
  · rw [netMtu_toNat, heapEnd_toNat]
    omega

theorem Cycled.no_buffer {s : Sockets} (h : Cycled 699 s) :
    (sockStep s (.socket 2 1 6)).2.1 = 700 ∧
      ∃ i, ((sockStep s (.socket 2 1 6)).1.sockets i).state ≠ .closed ∧
        ((sockStep s (.socket 2 1 6)).1.sockets i).buffer = null := by
  obtain ⟨i, domain, type, protocol, -, -, hstep⟩ := sockStep_asks h.asks
  rw [hstep]
  refine ⟨h.next, i, ?_, ?_⟩
  · rw [(opened_self ..).2.2]
    decide
  · rw [opened_buffer, h.full]

/-- After 699 cycles the next `socket` call returns descriptor 700, for a live socket without a
    buffer. -/
theorem socket_without_buffer :
    (sockStep (after sockStep (staticSockets sampleHost) (cycles 699)) (.socket 2 1 6)).2.1 = 700 ∧
      ∃ i, ((sockStep (after sockStep (staticSockets sampleHost) (cycles 699))
          (.socket 2 1 6)).1.sockets i).state ≠ .closed ∧
        ((sockStep (after sockStep (staticSockets sampleHost) (cycles 699))
          (.socket 2 1 6)).1.sockets i).buffer = null :=
  (cycled_cycles 699 (le_refl _)).no_buffer

end VlsOs.Net.Sock
