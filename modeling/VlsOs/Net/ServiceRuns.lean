import VlsOs.Net.ServiceSockets

/-! The services and their sockets over whole runs.

    The services own their sockets as long as each step meets the guard, and no longer. While the
    counter of descriptors has not run out, every step meets it: a new descriptor is not negative,
    no live socket has it, and other code, which closes only what it opened, meets no socket of a
    service. After `2 ^ 31 - 1` sockets the counter wraps, and the next descriptor is negative: a
    service takes it for a failure and forgets the socket.

        next_fd:   1  2  3  …  2147483647  -2147483648
                   └─ a start gets to run ┘ └─ "Failed to create …", and the slot stays taken -/

namespace VlsOs.Net.Sock
open Patterns Patterns.Run

/-! ### While the counter fits -/

/-- The steps that call `socket`. -/
def ServiceOp.creates : ServiceOp → Bool
  | .start _ => true
  | .stop _ => false
  | .otherOpen _ _ _ => true
  | .otherClose _ => false

/-- INVARIANT: the table is in order, and no service has a socket with a descriptor that other code
    holds. -/
structure Kept (s : Services) : Prop where
  table : TableOk s.socks
  below : ∀ fd ∈ s.held, fd < s.socks.nextFd
  apart : ∀ fd ∈ s.held, ∀ i, (s.socks.sockets i).state ≠ .closed → (s.socks.sockets i).fd = fd →
    s.opener i = none

theorem kept_init (net : NetState) (iface : Option (Ipv4Addr × Ipv4Addr × Ipv4Addr)) :
    Kept (servicesInit net iface) :=
  ⟨tableOk_static net, fun _ h => absurd h List.not_mem_nil, fun _ h => absurd h List.not_mem_nil⟩

theorem TableOk.sameLive {s s' : Sockets} (h : TableOk s) (hsame : SameLive s s') : TableOk s' :=
  h.of_live hsame.next fun i hi => ⟨fun hc => hi ((hsame.closed i).mpr hc), hsame.fd i, hsame.type i⟩

/-- A slot is closed, or none. -/
theorem Kept.of_live {s s' : Services} (h : Kept s) (hnext : s'.socks.nextFd = s.socks.nextFd)
    (hlive : ∀ i, (s'.socks.sockets i).state ≠ .closed → s'.socks.sockets i = s.socks.sockets i)
    (hopener : s'.opener = s.opener) (hheld : ∀ fd ∈ s'.held, fd ∈ s.held) : Kept s' where
  table := h.table.of_live hnext fun i hi => by
    have heq := hlive i hi
    rw [heq] at hi ⊢
    exact ⟨hi, rfl, rfl⟩
  below fd hfd := by
    rw [hnext]
    exact h.below fd (hheld fd hfd)
  apart fd hfd i hi hifd := by
    have heq := hlive i hi
    rw [heq] at hi hifd
    rw [hopener]
    exact h.apart fd (hheld fd hfd) i hi hifd

/-- A socket is opened, and other code holds its descriptor only if it has opened it. -/
theorem Kept.opened {s s' : Services} (h : Kept s) {i : Fin 16} {domain type protocol : ℤ}
    {who : Option Service} (hfits : s.socks.nextFd + 1 < 2 ^ 31)
    (htype : type = sockStream ∨ type = sockDgram)
    (hsame : SameLive (s.socks.opened i domain type protocol) s'.socks)
    (hopener : s'.opener = Function.update s.opener i who)
    (hheld : ∀ fd ∈ s'.held, fd ∈ s.held ∨ fd = s.socks.nextFd ∧ who = none) : Kept s' := by
  have hnext : s'.socks.nextFd = s.socks.nextFd + 1 := by
    rw [hsame.next, opened_nextFd, succFd_eq h.table.pos hfits]
  refine ⟨(h.table.opened hfits domain protocol htype).sameLive hsame, fun fd hfd => ?_,
    fun fd hfd j hj hjfd => ?_⟩
  · rw [hnext]
    rcases hheld fd hfd with hold | ⟨rfl, -⟩
    · have := h.below fd hold
      omega
    · omega
  · rw [ne_eq, hsame.closed] at hj
    rw [hsame.fd] at hjfd
    rw [hopener]
    rcases eq_or_ne j i with rfl | hne
    · rw [Function.update_self]
      rw [(opened_self ..).1] at hjfd
      rcases hheld fd hfd with hold | ⟨-, hwho⟩
      · have := h.below fd hold
        omega
      · exact hwho
    · rw [Function.update_of_ne hne]
      rw [opened_other hne] at hj hjfd
      rcases hheld fd hfd with hold | ⟨rfl, -⟩
      · exact h.apart fd hold j hj hjfd
      · -- no live socket has the new descriptor
        have := (h.table.below j hj).2
        omega

/-- STEP: while the counter fits, the invariant is kept. -/
theorem Kept.step {s : Services} {op : ServiceOp} (h : Kept s)
    (hfits : op.creates = true → s.socks.nextFd + 1 < 2 ^ 31) :
    Kept (serviceStep s op).1 ∧
      (serviceStep s op).1.socks.nextFd ≤ s.socks.nextFd + op.creates.toNat := by
  have hchange := serviceStep_change s op
  generalize (serviceStep s op).1 = s' at hchange
  have hcount : ∀ {i : Fin 16} {domain type protocol : ℤ}, op.creates = true →
      SameLive (s.socks.opened i domain type protocol) s'.socks →
      s'.socks.nextFd ≤ s.socks.nextFd + op.creates.toNat := by
    intro i domain type protocol hc hsame
    rw [hsame.next, opened_nextFd, succFd_eq h.table.pos (hfits hc), hc]
    rfl
  -- a closed slot, and no other, is not as it was
  have hclosed : ∀ {i : Fin 16},
      s'.socks = s.socks.set i { s.socks.sockets i with state := .closed } →
      s'.socks.nextFd = s.socks.nextFd ∧
        ∀ j, (s'.socks.sockets j).state ≠ .closed → s'.socks.sockets j = s.socks.sockets j := by
    intro i hsocks
    rw [hsocks]
    refine ⟨rfl, fun j hj => ?_⟩
    rcases eq_or_ne j i with rfl | hne
    · rw [set_self] at hj
      exact absurd rfl hj
    · rw [set_other hne]
  cases hchange with
  | idle hguard htable hnext hopener hheld hrunning hstored =>
    exact ⟨h.of_live hnext (fun i _ => by rw [htable]) hopener hheld, by rw [hnext]; simp⟩
  | @opened domain type protocol _ i htaken htype hsocks hopener hheld hrunning hstored =>
    have hsame : SameLive (s.socks.opened i domain type protocol) s'.socks := hsocks ▸ .refl _
    refine ⟨h.opened (hfits rfl) htype hsame hopener fun fd hfd => ?_, hcount rfl hsame⟩
    rw [hheld] at hfd
    rcases List.mem_cons.mp hfd with rfl | hold
    · exact .inr ⟨rfl, rfl⟩
    · exact .inl hold
  | leaked hidle htype hfree hneg hsocks hopener hheld hrunning =>
    have hpos := h.table.pos
    omega
  | started hidle hfree hnonneg hstarted hopener hheld hrunning hstored hothers =>
    obtain ⟨domain, type, protocol, htype, hsame⟩ := hstarted.same
    exact ⟨h.opened (hfits rfl) htype hsame hopener fun fd hfd => .inl (hheld ▸ hfd), hcount rfl hsame⟩
  | @stopped v _ hrun hsocks hopener hheld hrunning hothers =>
    cases hfound : lookup s.socks (s.stored v) with
    | none =>
      rw [close_of_no_lookup hfound] at hsocks
      exact ⟨h.of_live (by rw [hsocks]) (fun i _ => by rw [hsocks]) hopener fun _ hfd => hheld ▸ hfd,
        by rw [hsocks]; simp⟩
    | some i =>
      rw [close_of_lookup hfound] at hsocks
      obtain ⟨hnext, hlive⟩ := hclosed hsocks
      exact ⟨h.of_live hnext hlive hopener fun _ hfd => hheld ▸ hfd, by rw [hnext]; simp⟩
  | closed hfound hsocks hopener hheld hrunning hstored =>
    obtain ⟨hnext, hlive⟩ := hclosed hsocks
    exact ⟨h.of_live hnext hlive hopener hheld, by rw [hnext]; simp⟩

theorem Kept.unshadowed {s : Services} (h : Kept s) (i : Fin 16) : Unshadowed s i := by
  intro j _ hlive _ hfd
  have := (h.table.below j hlive).2
  omega

/-- While the invariant holds, every step of well-behaved code meets the guard. -/
theorem Kept.guard {s : Services} {op : ServiceOp} (h : Kept s) (hown : OwnClose s op) :
    Guard s op := by
  cases op with
  | start v =>
    intro _ i _
    refine ⟨by have := h.table.pos; omega, fun j _ hfd => ?_, h.unshadowed i⟩
    by_contra hlive
    have := (h.table.below j hlive).2
    omega
  | stop v => trivial
  | otherOpen domain type protocol => exact fun i _ => h.unshadowed i
  | otherClose fd =>
    intro i hi
    obtain ⟨⟨hfd, hlive⟩, -⟩ := lookup_eq_some.mp hi
    exact h.apart fd hown i hlive hfd

/-! ### Runs -/

theorem owned_init (net : NetState) (iface : Option (Ipv4Addr × Ipv4Addr × Ipv4Addr)) :
    Owned (servicesInit net iface) := by
  refine ⟨fun v hv => ?_, fun i _ hlive => absurd rfl hlive⟩
  cases v <;> exact absurd hv Bool.false_ne_true

/-- EXACT: over any interleaving the services neither leak nor share sockets exactly when every step
    meets the guard; and it is met by every run with fewer than `2 ^ 31 - 1` steps that open a
    socket, in which other code closes what it has opened. -/
theorem services_own_sockets_iff (net : NetState)
    (iface : Option (Ipv4Addr × Ipv4Addr × Ipv4Addr)) (ops : List ServiceOp) :
    (Always serviceStep ServicesOk (servicesInit net iface) ops ↔
      Along serviceStep Guard (servicesInit net iface) ops) ∧
    (Along serviceStep OwnClose (servicesInit net iface) ops →
      ops.countP ServiceOp.creates < 2 ^ 31 - 1 →
      Along serviceStep Guard (servicesInit net iface) ops) := by
  constructor
  · refine always_iff_along (I := fun _ => True) (fun _ _ _ => trivial) (fun s op _ h => ?_) ops _ trivial
      (owned_init net iface).servicesOk
    rw [servicesOk_iff_owned]
    exact owned_step_iff s op h.owned
  · intro hown hfew
    have hfits : ∀ (s : Services) (op : ServiceOp), Kept s → OwnClose s op →
        s.socks.nextFd + op.creates.toNat < 2 ^ 31 →
        Guard s op ∧ (op.creates = true → s.socks.nextFd + 1 < 2 ^ 31) := by
      intro s op h hclose hlt
      refine ⟨h.guard hclose, fun hc => ?_⟩
      rwa [hc] at hlt
    have hboth := along_of_budget hfits (fun s op h _ hg => h.step hg.2) ops _ (kept_init net iface) hown
      (by show (1 : ℤ) + ops.countP ServiceOp.creates < 2 ^ 31; omega)
    exact Along.imp (I := fun _ => True) (fun _ _ _ _ => trivial) (fun _ _ _ h => h.1) ops _ trivial hboth

/-! ### The counter runs out -/

/-- Other code opens a stream socket and closes it, `n` times. -/
def otherCycles : ℕ → List ServiceOp
  | 0 => []
  | n + 1 => otherCycles n ++ [.otherOpen 2 1 6, .otherClose (n + 1)]

/-- No socket is open, no service runs, and `fd` is the next descriptor. -/
structure Quiet (fd : ℤ) (s : Services) : Prop where
  closed : ∀ i, (s.socks.sockets i).state = .closed
  next : s.socks.nextFd = fd
  idle : ∀ v, s.running v = false

/-- There is a slot to take. -/
theorem Quiet.free {fd : ℤ} {s : Services} (h : Quiet fd s) :
    ∃ i, search s.socks (fun k => k.state = .closed) = some i := by
  cases hfree : search s.socks (fun k => k.state = .closed) with
  | none => exact absurd ⟨0, h.closed 0⟩ (search_none.mp hfree)
  | some i => exact ⟨i, rfl⟩

/-- STEP: one cycle moves the counter on, and its `close` is of the socket that it opened. -/
theorem Quiet.cycle {fd : ℤ} {s : Services} (h : Quiet fd s) :
    Along serviceStep OwnClose s [.otherOpen 2 1 6, .otherClose fd] ∧
      Quiet (succFd fd) (after serviceStep s [.otherOpen 2 1 6, .otherClose fd]) := by
  obtain ⟨i, hfree⟩ := h.free
  have hopen : (serviceStep s (.otherOpen 2 1 6)).1 =
      { s with
        socks := s.socks.opened i 2 1 6
        opener := Function.update s.opener i none
        held := fd :: s.held } := by
    have htaken : slotTaken s.socks 2 1 = some i := by
      rw [slotTaken, if_neg (by decide), hfree]
    rw [serviceStep, socket_taken htaken, htaken, h.next]
  obtain ⟨s', hclose, hclosed, hnext, -⟩ := close_opened h.closed i 2 1 6
  have hsocks : (after serviceStep s [.otherOpen 2 1 6, .otherClose fd]).socks = s' := by
    rw [after_cons, hopen, after_cons, after_nil, serviceStep, ← h.next]
    exact congrArg Prod.snd hclose
  refine ⟨⟨trivial, ?_, trivial⟩, ?_, ?_, fun v => ?_⟩
  · rw [hopen]
    exact List.mem_cons_self
  · rw [hsocks]
    exact hclosed
  · rw [hsocks, hnext, h.next]
  · have hidle := h.idle v
    rw [after_cons, hopen, after_cons, after_nil, serviceStep]
    cases v <;> exact hidle

/-- RUN: after `n` cycles the counter is at `n + 1`, as long as that is an `int`. -/
theorem quiet_otherCycles (net : NetState) (iface : Option (Ipv4Addr × Ipv4Addr × Ipv4Addr)) :
    ∀ n : ℕ, n + 1 < 2 ^ 31 →
      Along serviceStep OwnClose (servicesInit net iface) (otherCycles n) ∧
        Quiet (n + 1) (after serviceStep (servicesInit net iface) (otherCycles n)) := by
  intro n
  induction n with
  | zero =>
    intro _
    refine ⟨trivial, fun _ => rfl, rfl, fun v => ?_⟩
    cases v <;> rfl
  | succ n ih =>
    intro hn
    obtain ⟨hown, hquiet⟩ := ih (by omega)
    obtain ⟨hown', hquiet'⟩ := hquiet.cycle
    rw [otherCycles, after_append, along_append]
    rw [succFd_eq (by omega) (by omega)] at hquiet'
    exact ⟨⟨hown, hown'⟩, by exact_mod_cast hquiet'⟩

/-- RUN: after `2 ^ 31 - 1` cycles it is negative. -/
theorem quiet_wrapped (net : NetState) (iface : Option (Ipv4Addr × Ipv4Addr × Ipv4Addr)) {n : ℕ}
    (hn : n + 1 = 2 ^ 31) :
    Along serviceStep OwnClose (servicesInit net iface) (otherCycles n) ∧
      Quiet (-2 ^ 31) (after serviceStep (servicesInit net iface) (otherCycles n)) := by
  obtain ⟨m, rfl⟩ : ∃ m, n = m + 1 := ⟨n - 1, by omega⟩
  obtain ⟨hown, hquiet⟩ := quiet_otherCycles net iface m (by omega)
  obtain ⟨hown', hquiet'⟩ := hquiet.cycle
  have hwrap : succFd (m + 1) = -2 ^ 31 := by
    rw [show (m : ℤ) + 1 = 2 ^ 31 - 1 by omega]
    decide
  rw [hwrap] at hquiet'
  rw [otherCycles, after_append, along_append]
  exact ⟨⟨hown, hown'⟩, hquiet'⟩

/-- A start that gets a negative descriptor reports a failure and leaves the socket open. -/
theorem Quiet.start_leaks {fd : ℤ} {s : Services} (h : Quiet fd s) (hneg : fd < 0) (v : Service) :
    (serviceStep s (.start v)).1.running v = false ∧
      ∃ i, ((serviceStep s (.start v)).1.socks.sockets i).state ≠ .closed ∧
        (serviceStep s (.start v)).1.opener i = some v := by
  obtain ⟨i, hfree⟩ := h.free
  have hnext := h.next
  have hchange := start_change s v
  generalize (serviceStep s (.start v)).1 = s' at hchange
  cases hchange with
  | idle hguard =>
    have := (hguard (h.idle v) i hfree).1
    omega
  | started hidle hfree hnonneg => omega
  | @leaked _ _ j domain type protocol hidle htype hfree hneg hsocks hopener hheld hrunning =>
    refine ⟨by rw [hrunning, hidle], j, ?_, ?_⟩
    · rw [hsocks, (opened_self ..).2.2]
      decide
    · rw [hopener, Function.update_self]

/-- … and then the DNS server is started. -/
def cyclesThenDns (n : ℕ) : List ServiceOp := otherCycles n ++ [ServiceOp.start .dns]

theorem dns_leaks_after {n : ℕ} (hn : n + 1 = 2 ^ 31) :
    Along serviceStep OwnClose (servicesInit sampleHost none) (cyclesThenDns n) ∧
      ((after serviceStep (servicesInit sampleHost none) (cyclesThenDns n)).running .dns = false ∧
        ∃ i, ((after serviceStep (servicesInit sampleHost none)
            (cyclesThenDns n)).socks.sockets i).state ≠ .closed ∧
          (after serviceStep (servicesInit sampleHost none) (cyclesThenDns n)).opener i = some .dns) ∧
      ¬ServicesOk (after serviceStep (servicesInit sampleHost none) (cyclesThenDns n)) := by
  obtain ⟨hown, hquiet⟩ := quiet_wrapped sampleHost none hn
  have hleak := hquiet.start_leaks (by decide) .dns
  rw [cyclesThenDns, along_append, after_append]
  refine ⟨⟨hown, trivial, trivial⟩, hleak, fun hok => ?_⟩
  obtain ⟨hrun, i, hlive, hopener⟩ := hleak
  exact not_owned_of_stray hlive hopener hrun hok.owned

/-- After 2147483647 sockets of other code, each closed before the next, `dns_start` leaves a live
    socket behind with no service running on it. -/
theorem dns_start_leaks :
    Along serviceStep OwnClose (servicesInit sampleHost none) (cyclesThenDns 2147483647) ∧
      ((after serviceStep (servicesInit sampleHost none)
          (cyclesThenDns 2147483647)).running .dns = false ∧
        ∃ i, ((after serviceStep (servicesInit sampleHost none)
            (cyclesThenDns 2147483647)).socks.sockets i).state ≠ .closed ∧
          (after serviceStep (servicesInit sampleHost none)
            (cyclesThenDns 2147483647)).opener i = some .dns) ∧
      ¬ServicesOk (after serviceStep (servicesInit sampleHost none) (cyclesThenDns 2147483647)) :=
  dns_leaks_after (by norm_num)

end VlsOs.Net.Sock
