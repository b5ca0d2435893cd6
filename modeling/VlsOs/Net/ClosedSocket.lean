import VlsOs.Net.SocketTable

/-! Calls on a closed descriptor.

    `close` marks the slot CLOSED and leaves the rest of it as it is, so the descriptor stays in the
    slot until `socket` takes the slot again. Most calls look at the state as well and refuse;
    `sendto` and `recvfrom` look at the descriptor alone (and the type).

                      close(fd)                    socket() takes the slot
        ── live ─────────┼──────── fd still in slot ────────┼── fd nowhere ──▶
                         │  sendto, recvfrom: answered      │  all: -1
                         │  the others: -1                  │ -/

namespace VlsOs.Net.Sock
open Patterns Patterns.Run Patterns.Trace

/-- The call returned `-1` and transmitted nothing. -/
def Refused (s : Sockets) (c : SockCall) : Prop :=
  (sockStep s c).2.1 = -1 ∧ ∀ frame, RxEvent.sent frame ∉ (sockStep s c).2.2

/-- Some slot meets the filter of the call. -/
def Answers (s : Sockets) : SockCall → Prop
  | .socket _ _ _ => False
  | .bind fd _ _ => ∃ i, (s.sockets i).fd = fd ∧ (s.sockets i).state ≠ .closed
  | .listen fd _ => ∃ i, (s.sockets i).fd = fd ∧ (s.sockets i).state = .created
  | .accept _ => False
  | .connect fd _ _ => ∃ i, (s.sockets i).fd = fd ∧ (s.sockets i).state = .created
  | .send fd _ _ => ∃ i, (s.sockets i).fd = fd ∧ (s.sockets i).state = .connected ∧
      ((s.sockets i).type = sockDgram ∨ (s.sockets i).type = sockStream)
  | .recv fd _ => ∃ i, (s.sockets i).fd = fd ∧ (s.sockets i).state = .connected
  | .sendto fd _ _ _ _ => ∃ i, (s.sockets i).fd = fd ∧ (s.sockets i).type = sockDgram
  | .recvfrom fd _ => ∃ i, (s.sockets i).fd = fd
  | .close fd => ∃ i, (s.sockets i).fd = fd ∧ (s.sockets i).state ≠ .closed

/-- A `sendto` or `recvfrom` whose descriptor is still in a slot, for `sendto` that of a datagram
    socket. -/
def Stale (s : Sockets) : SockCall → Prop
  | .sendto fd _ _ _ _ => ∃ i, (s.sockets i).fd = fd ∧ (s.sockets i).type = sockDgram
  | .recvfrom fd _ => ∃ i, (s.sockets i).fd = fd
  | _ => False

/-! ### One call -/

/-- EXACT (one search): a call that returns `-1` without a trace when its search fails, and no
    negative number when it succeeds, is refused exactly when no slot meets its filter. -/
theorem refused_iff_search {s : Sockets} {c : SockCall} (q : Socket → Prop) [DecidablePred q]
    (hnone : search s (fun k => q k) = none → (sockStep s c).2 = (-1, []))
    (hsome : ∀ i, search s (fun k => q k) = some i → 0 ≤ (sockStep s c).2.1) :
    Refused s c ↔ ¬∃ i, q (s.sockets i) := by
  rw [← search_none]
  cases hfound : search s (fun k => q k) with
  | none =>
    refine iff_of_true ⟨?_, fun frame => ?_⟩ rfl
    · rw [hnone hfound]
    · rw [hnone hfound]
      exact List.not_mem_nil
  | some i =>
    refine iff_of_false (fun hrefused => ?_) (Option.some_ne_none i)
    have hret := hsome i hfound
    rw [hrefused.1] at hret
    exact absurd hret (by decide)

/-- … as for the calls that change the slot that they find. -/
theorem refused_iff_onSocket {s : Sockets} {c : SockCall} (q : Socket → Prop) [DecidablePred q]
    (f : Socket → Socket) (h : (sockStep s c).2 = ((onSocket s (fun k => q k) f).1, [])) :
    Refused s c ↔ ¬∃ i, q (s.sockets i) := by
  refine refused_iff_search q (fun hnone => ?_) fun i hsome => ?_
  · rw [h, onSocket, hnone]
  · rw [h, onSocket, hsome]

theorem sendto_found {s : Sockets} {fd : ℤ} {i : Fin 16} (hfd : (s.sockets i).fd = fd)
    (htype : (s.sockets i).type = sockDgram) (buffer : ℕ → UInt8) (len : UInt16) (addr : Ipv4Addr)
    (port : UInt16) : 0 ≤ (sendto s fd buffer len addr port).val.1 := by
  unfold sendto
  split
  · simp
  · rename_i hnone
    exact absurd ⟨i, hfd, htype⟩ (search_none.mp hnone)

/-- EXACT: a call that names a descriptor is refused exactly when no slot meets its filter. -/
theorem refused_iff {s : Sockets} {c : SockCall} {fd : ℤ} (hnames : c.fd = some fd) :
    Refused s c ↔ ¬Answers s c := by
  cases c with
  | socket => cases hnames
  | bind fd addr port => exact refused_iff_onSocket (fun k => k.fd = fd ∧ k.state ≠ .closed) _ rfl
  | listen fd backlog => exact refused_iff_onSocket (fun k => k.fd = fd ∧ k.state = .created) _ rfl
  | accept fd =>
    -- both branches of `accept` return `-1`
    have hret : (sockStep s (.accept fd)).2 = (-1, []) := by
      show ((accept s fd).1, []) = _
      unfold accept
      split <;> rfl
    refine iff_of_true ⟨?_, fun frame => ?_⟩ not_false
    · rw [hret]
    · rw [hret]
      exact List.not_mem_nil
  | connect fd addr port =>
    exact refused_iff_onSocket (fun k => k.fd = fd ∧ k.state = .created) _ rfl
  | send fd buffer len =>
    refine refused_iff_search (fun k => k.fd = fd ∧ k.state = .connected ∧
      (k.type = sockDgram ∨ k.type = sockStream)) (fun hnone => ?_) fun i hsome => ?_
    · show ((send s fd buffer len).val.1, (send s fd buffer len).events) = _
      rw [send, hnone]
      rfl
    · show 0 ≤ (send s fd buffer len).val.1
      obtain ⟨hfd, -, -⟩ := of_decide_eq_true (search_some hsome)
      rw [send, hsome]
      dsimp only
      split
      · rename_i htype
        exact sendto_found hfd htype ..
      · simp
  | recv fd maxlen =>
    refine refused_iff_search (fun k => k.fd = fd ∧ k.state = .connected) (fun hnone => ?_)
      fun i hsome => ?_
    · show ((recv s fd maxlen).1, []) = _
      rw [recv, hnone]
    · show 0 ≤ (recv s fd maxlen).1
      rw [recv, hsome]
      exact Int.natCast_nonneg _
  | sendto fd buffer len addr port =>
    refine refused_iff_search (fun k => k.fd = fd ∧ k.type = sockDgram) (fun hnone => ?_)
      fun i hsome => ?_
    · show ((sendto s fd buffer len addr port).val.1, (sendto s fd buffer len addr port).events) = _
      rw [sendto, hnone]
      rfl
    · obtain ⟨hfd, htype⟩ := of_decide_eq_true (search_some hsome)
      exact sendto_found hfd htype ..
  | recvfrom fd maxlen =>
    refine refused_iff_search (fun k => k.fd = fd) (fun hnone => ?_) fun i hsome => ?_
    · show ((recvfrom s fd maxlen).1, []) = _
      rw [recvfrom, hnone]
    · show 0 ≤ (recvfrom s fd maxlen).1
      rw [recvfrom, hsome]
      exact Int.natCast_nonneg _
  | close fd =>
    refine refused_iff_onSocket (fun k => k.fd = fd ∧ k.state ≠ .closed)
      (fun k => { k with state := .closed }) ?_
    show ((close s fd).1, []) = _
    rw [close_eq]

/-- While no live socket has the descriptor, only `sendto` and `recvfrom` find a slot. -/
theorem Gone.answers_iff {fd : ℤ} {s : Sockets} (h : Gone fd s) {c : SockCall}
    (hnames : c.fd = some fd) : Answers s c ↔ Stale s c := by
  cases c <;> cases hnames <;> simp only [Answers, Stale, iff_false, iff_self, not_exists, not_and]
    <;> intro i hfd <;> simp [h i hfd]

/-! ### Runs -/

/-- EXACT: after a `close(fd)` that returned `0`, all later calls with that descriptor are refused
    exactly when none of them meets a slot that passes its filter. As long as the counter of
    descriptors has not run out, only a `sendto` or `recvfrom` can meet one: the closed slot. -/
theorem closed_dead_iff (net : NetState) (pre post : List SockCall) (fd : ℤ)
    (hzero : (sockStep (after sockStep (staticSockets net) pre) (.close fd)).2.1 = 0) :
    (Along sockStep (fun s c => c.fd = some fd → Refused s c)
        (after sockStep (staticSockets net) (pre ++ [SockCall.close fd])) post ↔
      Along sockStep (fun s c => c.fd = some fd → ¬Answers s c)
        (after sockStep (staticSockets net) (pre ++ [SockCall.close fd])) post) ∧
    ((pre ++ post).countP SockCall.isSocket < 2 ^ 31 - 1 →
      Along sockStep (fun s c => c.fd = some fd → (Answers s c ↔ Stale s c))
        (after sockStep (staticSockets net) (pre ++ [SockCall.close fd])) post) := by
  constructor
  · have hcall : ∀ (s : Sockets) (c : SockCall), True →
        ((c.fd = some fd → Refused s c) ↔ (c.fd = some fd → ¬Answers s c)) :=
      fun s c _ => forall_congr' fun hnames => refused_iff hnames
    exact along_congr (fun _ _ _ _ => trivial) hcall post _ trivial
  · intro hfew
    have hfits : Along sockStep Fits (staticSockets net) (pre ++ SockCall.close fd :: post) := by
      refine along_fits_static net ?_
      simpa [SockCall.isSocket] using hfew
    obtain ⟨hretired, hpost⟩ := retired_after_close net hfits hzero
    have hcall : ∀ (s : Sockets) (c : SockCall), TableOk s ∧ Retired fd s → Fits s c →
        c.fd = some fd → (Answers s c ↔ Stale s c) :=
      fun s c h _ hnames => h.2.2.answers_iff hnames
    exact Along.imp (fun _ _ => Retired.step) hcall post _ hretired hpost

/-- A datagram socket, which gets the descriptor `1`. -/
def openDgram : List SockCall := [.socket 2 2 17]

/-- Once another socket has taken the slot, `recvfrom` on the closed descriptor is refused. -/
theorem closed_dead_iff_reused :
    (sockStep (after sockStep (staticSockets sampleHost) openDgram) (.close 1)).2.1 = 0 ∧
      Along sockStep (fun s c => c.fd = some 1 → Refused s c)
        (after sockStep (staticSockets sampleHost) (openDgram ++ [SockCall.close 1]))
        [.socket 2 1 6, .recvfrom 1 64] := by
  have hzero : (sockStep (after sockStep (staticSockets sampleHost) openDgram) (.close 1)).2.1 = 0 := by
    decide +kernel
  refine ⟨hzero, (closed_dead_iff sampleHost openDgram _ 1 hzero).1.mpr ⟨?_, ?_, trivial⟩⟩
  · exact fun hnames => nomatch hnames
  · rintro - ⟨i, hi⟩
    revert i
    decide +kernel

/-- `sendto` on the closed descriptor returns the length and transmits. -/
theorem closed_socket_sends :
    (sockStep (after sockStep (staticSockets sampleHost) openDgram) (.close 1)).2.1 = 0 ∧
      (sockStep (after sockStep (staticSockets sampleHost) (openDgram ++ [SockCall.close 1]))
        (.sendto 1 (fun _ => 0) 4 #v[192, 168, 1, 1] 9)).2.1 = 4 ∧
      (∃ frame, RxEvent.sent frame ∈
        (sockStep (after sockStep (staticSockets sampleHost) (openDgram ++ [SockCall.close 1]))
          (.sendto 1 (fun _ => 0) 4 #v[192, 168, 1, 1] 9)).2.2) ∧
      (sockStep (after sockStep (staticSockets sampleHost) (openDgram ++ [SockCall.close 1]))
        (.recvfrom 1 64)).2.1 = 0 := by
  refine ⟨by decide +kernel, by decide +kernel, ?_, by decide +kernel⟩
  exact ⟨_, List.mem_of_mem_head? rfl⟩

/-! ### Until the slot is taken again -/

/-- `socket` takes slot `i`. -/
def Takes (i : Fin 16) (s : Sockets) : SockCall → Prop
  | .socket domain type _ => slotTaken s domain type = some i
  | _ => False

/-- A `recvfrom` with the descriptor, or a `sendto` if its socket was one for datagrams. -/
def SockCall.Reuses (fd type : ℤ) : SockCall → Prop
  | .sendto sockfd _ _ _ _ => sockfd = fd ∧ type = sockDgram
  | .recvfrom sockfd _ => sockfd = fd
  | _ => False

/-- No such call is made before `socket` takes slot `i`. -/
def UnusedUntilTaken (fd type : ℤ) (i : Fin 16) : Sockets → List SockCall → Prop
  | _, [] => True
  | s, c :: calls =>
    ¬c.Reuses fd type ∧ (¬Takes i s c → UnusedUntilTaken fd type i (sockStep s c).1 calls)

/-- INVARIANT: a descriptor that was given out is in one slot at most, live or not. -/
structure FdsOnce (s : Sockets) : Prop where
  below : ∀ i, (s.sockets i).fd < s.nextFd
  once : ∀ i j, 1 ≤ (s.sockets i).fd → (s.sockets i).fd = (s.sockets j).fd → i = j

theorem fdsOnce_static (net : NetState) : FdsOnce (staticSockets net) :=
  ⟨fun _ => Int.one_pos, fun _ _ h => absurd h (by simp [staticSockets])⟩

/-- Calls other than `socket` leave the descriptors in the slots. -/
theorem FdsOnce.of_fds {s s' : Sockets} (h : FdsOnce s) (hnext : s'.nextFd = s.nextFd)
    (hfds : ∀ i, (s'.sockets i).fd = (s.sockets i).fd) : FdsOnce s' where
  below i := by
    rw [hfds, hnext]
    exact h.below i
  once i j := by
    rw [hfds, hfds]
    exact h.once i j

theorem FdsOnce.step {s : Sockets} {c : SockCall} (h : TableOk s ∧ FdsOnce s) (hfits : Fits s c) :
    TableOk (sockStep s c).1 ∧ FdsOnce (sockStep s c).1 := by
  obtain ⟨hok, hfds⟩ := h
  refine ⟨hok.step hfits, ?_⟩
  have heffect := sockStep_effect s c
  generalize (sockStep s c).1 = s' at heffect
  cases heffect with
  | idle => exact hfds
  | sends => exact hfds.of_fds rfl fun _ => rfl
  | @opens domain type protocol i hdomain htype hfree =>
    have hnext := succFd_eq hok.pos (hfits rfl)
    have hself := (opened_self s i domain type protocol).1
    constructor
    · intro j
      rw [opened_nextFd, hnext]
      rcases eq_or_ne j i with rfl | hj
      · rw [hself]
        omega
      · rw [opened_other hj]
        have hbelow := hfds.below j
        omega
    · intro j l hpos heq
      rcases eq_or_ne j i with hj | hj <;> rcases eq_or_ne l i with hl | hl
      · exact hj.trans hl.symm
      · rw [hj, hself, opened_other hl] at heq
        exact absurd heq (hfds.below l).ne'
      · rw [hl, hself, opened_other hj] at heq
        exact absurd heq (hfds.below j).ne
      · rw [opened_other hj] at hpos heq
        rw [opened_other hl] at heq
        exact hfds.once j l hpos heq
  | @changes _ i k hnames hlive hmoves =>
    refine hfds.of_fds rfl fun j => ?_
    rcases eq_or_ne j i with rfl | hj
    · rw [set_self, hmoves.fd_type.1]
    · rw [set_other hj]

/-- The descriptor was given out before, and is in no slot. -/
def Forgotten (fd : ℤ) (s : Sockets) : Prop := fd < s.nextFd ∧ ∀ j, (s.sockets j).fd ≠ fd

/-- The descriptor is in the closed slot `i` and in no other. -/
structure Left (fd type : ℤ) (i : Fin 16) (s : Sockets) : Prop where
  past : fd < s.nextFd
  there : (s.sockets i).fd = fd
  typed : (s.sockets i).type = type
  closed : (s.sockets i).state = .closed
  only : ∀ j, (s.sockets j).fd = fd → j = i

section
variable {fd type : ℤ} {i : Fin 16} {s : Sockets} {c : SockCall}

/-- A new socket in slot `i` gets a descriptor that was not given out before. -/
theorem forgotten_opened (hok : TableOk s) (hnext : s.nextFd + 1 < 2 ^ 31) (hpast : fd < s.nextFd)
    (hother : ∀ j ≠ i, (s.sockets j).fd ≠ fd) (domain type protocol : ℤ) :
    Forgotten fd (s.opened i domain type protocol) := by
  refine ⟨?_, fun j => ?_⟩
  · rw [opened_nextFd, succFd_eq hok.pos hnext]
    omega
  · rcases eq_or_ne j i with rfl | hj
    · rw [(opened_self ..).1]
      exact hpast.ne'
    · rw [opened_other hj]
      exact hother j hj

theorem Forgotten.step (hok : TableOk s) (h : Forgotten fd s) (hfits : Fits s c) :
    Forgotten fd (sockStep s c).1 := by
  obtain ⟨hpast, hnone⟩ := h
  have heffect := sockStep_effect s c
  generalize (sockStep s c).1 = s' at heffect
  cases heffect with
  | idle => exact ⟨hpast, hnone⟩
  | sends => exact ⟨hpast, hnone⟩
  | opens => exact forgotten_opened hok (hfits rfl) hpast (fun j _ => hnone j) ..
  | @changes _ i k hnames hlive hmoves =>
    refine ⟨hpast, fun j => ?_⟩
    rcases eq_or_ne j i with rfl | hj
    · rw [set_self, hmoves.fd_type.1]
      exact hnone j
    · rw [set_other hj]
      exact hnone j

/-- A new socket in the slot leaves the descriptor nowhere. -/
theorem Left.taken (h : Left fd type i s) (hok : TableOk s) (hfits : Fits s c) (htakes : Takes i s c) :
    Forgotten fd (sockStep s c).1 := by
  cases c with
  | socket domain type' protocol =>
    have hstep : (sockStep s (.socket domain type' protocol)).1 = s.opened i domain type' protocol :=
      congrArg Prod.snd (socket_taken htakes protocol)
    rw [hstep]
    exact forgotten_opened hok (hfits rfl) h.past (fun j hj hfd => hj (h.only j hfd)) ..
  | _ => exact htakes.elim

/-- Until then it stays where it is: a closed slot is changed by `socket` alone. -/
theorem Left.step (h : Left fd type i s) (hok : TableOk s) (hfits : Fits s c) (htakes : ¬Takes i s c) :
    Left fd type i (sockStep s c).1 := by
  have hpast := h.past
  have heffect := sockStep_effect s c
  generalize (sockStep s c).1 = s' at heffect
  cases heffect with
  | idle => exact h
  | sends => exact ⟨hpast, h.there, h.typed, h.closed, h.only⟩
  | @opens domain type' protocol l hdomain htype hfree =>
    have hl : i ≠ l := by
      rintro rfl
      exact htakes (by rw [Takes, hdomain, slotTaken_of_type s htype, hfree])
    refine ⟨?_, ?_, ?_, ?_, fun j hj => ?_⟩
    · rw [opened_nextFd, succFd_eq hok.pos (hfits rfl)]
      omega
    · rw [opened_other hl, h.there]
    · rw [opened_other hl, h.typed]
    · rw [opened_other hl, h.closed]
    · rcases eq_or_ne j l with rfl | hne
      · rw [(opened_self ..).1] at hj
        exact absurd hj hpast.ne'
      · rw [opened_other hne] at hj
        exact h.only j hj
  | @changes _ l k hnames hlive hmoves =>
    have hl : i ≠ l := by
      rintro rfl
      exact hlive h.closed
    refine ⟨hpast, ?_, ?_, ?_, fun j hj => ?_⟩
    · rw [set_other hl, h.there]
    · rw [set_other hl, h.typed]
    · rw [set_other hl, h.closed]
    · rcases eq_or_ne j l with rfl | hne
      · rw [set_self, hmoves.fd_type.1] at hj
        exact h.only j hj
      · rw [set_other hne] at hj
        exact h.only j hj

theorem Left.gone (h : Left fd type i s) : Gone fd s := by
  intro j hj
  rw [h.only j hj]
  exact h.closed

/-- While the descriptor is in the closed slot, it is `recvfrom` and `sendto` that are answered. -/
theorem Left.refused_iff (h : Left fd type i s) :
    (c.fd = some fd → Refused s c) ↔ ¬c.Reuses fd type := by
  have hstale (hnames : c.fd = some fd) : Stale s c ↔ c.Reuses fd type := by
    cases c <;> cases hnames <;> simp only [Stale, SockCall.Reuses, true_and, iff_true]
    · refine ⟨?_, fun htype => ⟨i, h.there, h.typed.trans htype⟩⟩
      rintro ⟨j, hj, htype⟩
      rwa [h.only j hj, h.typed] at htype
    · exact ⟨i, h.there⟩
  constructor
  · intro hrefused hreuses
    have hnames : c.fd = some fd := by
      cases c with
      | sendto => exact congrArg some hreuses.1
      | recvfrom => exact congrArg some hreuses
      | _ => exact hreuses.elim
    refine (Sock.refused_iff hnames).mp (hrefused hnames) ?_
    exact (h.gone.answers_iff hnames).mpr ((hstale hnames).mpr hreuses)
  · intro hunused hnames
    refine (Sock.refused_iff hnames).mpr fun hanswers => hunused ?_
    exact (hstale hnames).mp ((h.gone.answers_iff hnames).mp hanswers)

theorem Forgotten.refused (h : Forgotten fd s) (hnames : c.fd = some fd) : Refused s c := by
  refine (Sock.refused_iff hnames).mpr fun hanswers => ?_
  cases c <;> cases hnames <;> simp [Answers, h.2] at hanswers

/-- RUN: … and after that all calls are refused. -/
theorem Left.dead_iff (calls : List SockCall) : ∀ {s : Sockets}, Left fd type i s → TableOk s →
    Along sockStep Fits s calls →
      (Along sockStep (fun s c => c.fd = some fd → Refused s c) s calls ↔
        UnusedUntilTaken fd type i s calls) := by
  induction calls with
  | nil => exact fun _ _ _ => Iff.rfl
  | cons c calls ih =>
    rintro s h hok ⟨hfits, hrest⟩
    refine and_congr h.refused_iff ?_
    by_cases htakes : Takes i s c
    · refine iff_of_true ?_ fun hnot => absurd htakes hnot
      have hkept (s : Sockets) (c : SockCall) (h : TableOk s ∧ Forgotten fd s) (hfits : Fits s c) :
          TableOk (sockStep s c).1 ∧ Forgotten fd (sockStep s c).1 :=
        ⟨h.1.step hfits, h.2.step h.1 hfits⟩
      exact Along.imp hkept (fun _ _ h _ => h.2.refused) calls _
        ⟨hok.step hfits, h.taken hok hfits htakes⟩ hrest
    · rw [ih (h.step hok hfits htakes) (hok.step hfits) hrest]
      exact ⟨fun h _ => h, fun h => h htakes⟩

end

/-- EXACT: after a `close(fd)` that returned `0`, all later calls with that descriptor are refused exactly
    when it is not used for a `recvfrom`, nor as a datagram socket's for a `sendto`, before `socket` has
    taken the slot again, as long as the counter of descriptors has not run out. -/
theorem closed_dead_until_taken (net : NetState) (pre post : List SockCall) (fd : ℤ)
    (hzero : (sockStep (after sockStep (staticSockets net) pre) (.close fd)).2.1 = 0)
    (hfew : (pre ++ post).countP SockCall.isSocket < 2 ^ 31 - 1) :
    let live := after sockStep (staticSockets net) pre
    let closed := (sockStep live (.close fd)).1
    ∃ i, lookup live fd = some i ∧
      (Along sockStep (fun s c => c.fd = some fd → Refused s c) closed post ↔
        UnusedUntilTaken fd (live.sockets i).type i closed post) := by
  intro live closed
  have hfits : Along sockStep Fits (staticSockets net) (pre ++ SockCall.close fd :: post) := by
    refine along_fits_static net ?_
    simpa [SockCall.isSocket] using hfew
  obtain ⟨hpre, hclose, hpost⟩ := (along_append ..).mp hfits
  obtain ⟨hok, hfds⟩ : TableOk live ∧ FdsOnce live :=
    after_inv_along (fun _ _ => FdsOnce.step) pre _ hpre ⟨tableOk_static net, fdsOnce_static net⟩
  cases hfound : lookup live fd with
  | none =>
    change (close live fd).1 = 0 at hzero
    rw [close_of_no_lookup hfound] at hzero
    exact absurd hzero (by simp)
  | some i =>
    obtain ⟨⟨hfd, hlive⟩, -⟩ := lookup_eq_some.mp hfound
    have hclosed : closed = live.set i { live.sockets i with state := .closed } :=
      congrArg Prod.snd (close_of_lookup hfound)
    have hbelow := hok.below i hlive
    have hleft : Left fd (live.sockets i).type i closed := by
      rw [hclosed]
      refine ⟨hfd ▸ hbelow.2, by simpa using hfd, by simp, by simp, fun j hj => ?_⟩
      by_contra hne
      rw [set_other hne] at hj
      exact hne (hfds.once i j hbelow.1 (hfd.trans hj.symm)).symm
    exact ⟨i, rfl, hleft.dead_iff post (hok.step hclose) hpost⟩

end VlsOs.Net.Sock
