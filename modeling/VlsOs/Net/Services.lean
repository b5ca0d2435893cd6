import VlsOs.Net.Dhcp
import VlsOs.Net.SocketTable

/-! Starting and stopping the network services (`net/http.c`, `net/dns.c`, `net/dhcp.c`).

    A start opens a socket, binds it to the port of the service and stores the descriptor; each
    failure on the way closes what was opened. A stop closes the stored descriptor.

        socket ──▶ bind ──▶ (listen) ──▶ running
          │ < 0     │ < 0      │ < 0
          ▼         ▼          ▼
        return    close      close -/

namespace VlsOs.Net.Sock
open Patterns Patterns.Trace

/-! ### The source -/

def ipprotoUdp : ℤ := 17

def httpPort : UInt16 := 80

def httpMaxClients : ℤ := 4

def dnsPort : UInt16 := 53

/-- The zeroed address that the services bind to. -/
def anyAddr : Ipv4Addr := netSetIpaddrBytes 0 0 0 0

/-- `http_server_t`, without the clients and the counter. -/
structure HttpServer where
  serverSocket : ℤ
  running : Bool

/-- `dns_server_t`. -/
structure DnsServer where
  running : Bool
  sockfd : ℤ

def httpServerInit : HttpServer := ⟨-1, false⟩

def dnsInit : DnsServer := ⟨false, -1⟩

/-- `dhcp_init`, given the address, netmask and gateway of `eth0` if there is one. -/
def dhcpInit (iface : Option (Ipv4Addr × Ipv4Addr × Ipv4Addr)) : DhcpServer :=
  let addrs := iface.getD (anyAddr, anyAddr, anyAddr)
  { running := false, sockfd := -1,
    poolStart := netSetIpaddrBytes 192 168 1 150, poolEnd := netSetIpaddrBytes 192 168 1 160,
    serverIp := addrs.1, netmask := addrs.2.1, gateway := addrs.2.2 }

def vgaPrint (text : String) : Traced RxEvent Unit := emit (.printed text)

/-- `http_server_start` stores what `socket` returns at once, also when it fails. -/
def httpServerStart (s : Sockets) (h : HttpServer) : Traced RxEvent (Sockets × HttpServer) :=
  if h.running then do
    vgaPrint "HTTP server already running\n"
    return (s, h)
  else
    let created := socket s afInet sockStream 0
    let h := { h with serverSocket := created.1 }
    if h.serverSocket < 0 then do
      vgaPrint "Failed to create HTTP server socket\n"
      return (created.2, h)
    else
      let bound := bind created.2 h.serverSocket anyAddr httpPort
      if bound.1 < 0 then do
        vgaPrint "Failed to bind HTTP server to port 80\n"
        return ((close bound.2 h.serverSocket).2, h)
      else
        let listening := listen bound.2 h.serverSocket httpMaxClients
        if listening.1 < 0 then do
          vgaPrint "Failed to listen on HTTP server socket\n"
          return ((close listening.2 h.serverSocket).2, h)
        else do
          vgaPrint "HTTP server started on port 80\n"
          return (listening.2, { h with running := true })

def httpServerStop (s : Sockets) (h : HttpServer) : Traced RxEvent (Sockets × HttpServer) :=
  if !h.running then do
    vgaPrint "HTTP server not running\n"
    return (s, h)
  else do
    vgaPrint "HTTP server stopped\n"
    return ((close s h.serverSocket).2, { h with running := false })

/-- The body that `dns_start` and `dhcp_start` share: the descriptor to store, if it comes that far. -/
def udpStart (port : UInt16) (already noSocket noBind started : String) (running : Bool)
    (s : Sockets) : Traced RxEvent (Sockets × Option ℤ) :=
  if running then do
    vgaPrint already
    return (s, none)
  else
    let created := socket s afInet sockDgram ipprotoUdp
    if created.1 < 0 then do
      vgaPrint noSocket
      return (created.2, none)
    else
      let bound := bind created.2 created.1 anyAddr port
      if bound.1 < 0 then do
        vgaPrint noBind
        return ((close bound.2 created.1).2, none)
      else do
        vgaPrint started
        return (bound.2, some created.1)

/-- … and `dns_stop` and `dhcp_stop`: whether there was something to stop. -/
def udpStop (notRunning stopped : String) (running : Bool) (sockfd : ℤ) (s : Sockets) :
    Traced RxEvent (Sockets × Bool) :=
  if !running then do
    vgaPrint notRunning
    return (s, false)
  else do
    vgaPrint stopped
    return ((close s sockfd).2, true)

def dnsStart (s : Sockets) (d : DnsServer) : Traced RxEvent (Sockets × DnsServer) := do
  let (s, fd) ← udpStart dnsPort "DNS server already running\n" "Failed to create DNS socket\n"
    "Failed to bind DNS socket to port 53\n" "DNS server started on port 53\n" d.running s
  return (s, match fd with
    | some fd => { d with sockfd := fd, running := true }
    | none => d)

def dnsStop (s : Sockets) (d : DnsServer) : Traced RxEvent (Sockets × DnsServer) := do
  let (s, stopped) ← udpStop "DNS server not running\n" "DNS server stopped\n" d.running d.sockfd s
  return (s, if stopped then { d with sockfd := -1, running := false } else d)

def dhcpStart (s : Sockets) (d : DhcpServer) : Traced RxEvent (Sockets × DhcpServer) := do
  let (s, fd) ← udpStart dhcpServerPort "DHCP server already running\n"
    "Failed to create DHCP socket\n" "Failed to bind DHCP socket\n"
    "DHCP server started on port 67\n" d.running s
  return (s, match fd with
    | some fd => { d with sockfd := fd, running := true }
    | none => d)

def dhcpStop (s : Sockets) (d : DhcpServer) : Traced RxEvent (Sockets × DhcpServer) := do
  let (s, stopped) ← udpStop "DHCP server not running\n" "DHCP server stopped\n" d.running d.sockfd s
  return (s, if stopped then { d with sockfd := -1, running := false } else d)

/-! ### Tables with the same live slots -/

/-- Both tables have the same live slots with the same descriptors and types. -/
structure SameLive (s s' : Sockets) : Prop where
  next : s'.nextFd = s.nextFd
  fd : ∀ k, (s'.sockets k).fd = (s.sockets k).fd
  type : ∀ k, (s'.sockets k).type = (s.sockets k).type
  closed : ∀ k, (s'.sockets k).state = .closed ↔ (s.sockets k).state = .closed

theorem SameLive.refl (s : Sockets) : SameLive s s :=
  ⟨rfl, fun _ => rfl, fun _ => rfl, fun _ => Iff.rfl⟩

theorem SameLive.trans {s₁ s₂ s₃ : Sockets} (h : SameLive s₁ s₂) (h' : SameLive s₂ s₃) :
    SameLive s₁ s₃ where
  next := h'.next.trans h.next
  fd k := (h'.fd k).trans (h.fd k)
  type k := (h'.type k).trans (h.type k)
  closed k := (h'.closed k).trans (h.closed k)

theorem SameLive.lookup_iff {s s' : Sockets} (h : SameLive s s') (fd : ℤ) (i : Fin 16) :
    lookup s' fd = some i ↔ lookup s fd = some i := by
  simp only [lookup_eq_some, h.fd, h.closed, ne_eq]

theorem SameLive.set {s : Sockets} {i : Fin 16} {k : Socket} (hfd : k.fd = (s.sockets i).fd)
    (htype : k.type = (s.sockets i).type) (hlive : k.state ≠ .closed)
    (hlive' : (s.sockets i).state ≠ .closed) : SameLive s (s.set i k) := by
  refine ⟨rfl, fun j => ?_, fun j => ?_, fun j => ?_⟩ <;> rcases eq_or_ne j i with rfl | hne
  · rw [set_self, hfd]
  · rw [set_other hne]
  · rw [set_self, htype]
  · rw [set_other hne]
  · rw [set_self]
    exact iff_of_false hlive hlive'
  · rw [set_other hne]

/-! ### What a start does -/

/-- The socket that a service opens is live, so `bind` finds one with its descriptor. -/
theorem bind_opened (s : Sockets) (i : Fin 16) (domain type protocol : ℤ) (addr : Ipv4Addr)
    (port : UInt16) :
    ∃ j, bind (s.opened i domain type protocol) s.nextFd addr port =
        (0, (s.opened i domain type protocol).set j
          { (s.opened i domain type protocol).sockets j with localIp := addr, localPort := port }) ∧
      lookup (s.opened i domain type protocol) s.nextFd = some j := by
  obtain ⟨hfd, -, hstate⟩ := opened_self s i domain type protocol
  have hlive : ((s.opened i domain type protocol).sockets i).state ≠ .closed := by
    rw [hstate]
    decide
  obtain ⟨j, hj⟩ := lookup_of_live hlive
  rw [hfd] at hj
  exact ⟨j, bind_of_lookup hj addr port, hj⟩

/-- What a start leaves behind that got as far as running: the new socket in slot `i` and, if its
    descriptor stands for that slot, the port in it and no other slot changed. -/
structure Started (s s' : Sockets) (i : Fin 16) (port : UInt16) (state : SockState) : Prop where
  same : ∃ domain type protocol, (type = sockStream ∨ type = sockDgram) ∧
    SameLive (s.opened i domain type protocol) s'
  serves : lookup s' s.nextFd = some i → (∀ k ≠ i, s'.sockets k = s.sockets k) ∧
    (s'.sockets i).localPort = port ∧ (s'.sockets i).state = state

/-- What a start does, from whether the service was running: the sockets after it, and the descriptor
    with which it is running now. -/
inductive StartOutcome (s : Sockets) (port : UInt16) (state : SockState) :
    Bool → Sockets → Option ℤ → Prop
  | already : StartOutcome s port state true s none
  | full (hfull : search s (fun k => k.state = .closed) = none) :
      StartOutcome s port state false s none
  | leaks {i : Fin 16} (domain type protocol : ℤ) (htype : type = sockStream ∨ type = sockDgram)
      (hfree : search s (fun k => k.state = .closed) = some i) (hneg : s.nextFd < 0) :
      StartOutcome s port state false (s.opened i domain type protocol) none
  | runs {i : Fin 16} {s' : Sockets} (hfree : search s (fun k => k.state = .closed) = some i)
      (hnonneg : 0 ≤ s.nextFd) (hstarted : Started s s' i port state) :
      StartOutcome s port state false s' (some s.nextFd)

theorem sameLive_bind {s : Sockets} {i j : Fin 16} {domain type protocol : ℤ}
    (hj : lookup (s.opened i domain type protocol) s.nextFd = some j) (addr : Ipv4Addr)
    (port : UInt16) :
    SameLive (s.opened i domain type protocol) ((s.opened i domain type protocol).set j
      { (s.opened i domain type protocol).sockets j with localIp := addr, localPort := port }) := by
  obtain ⟨⟨-, hlive⟩, -⟩ := lookup_eq_some.mp hj
  exact .set rfl rfl hlive hlive

/-- A datagram service that has bound its socket. -/
theorem started_bind (s : Sockets) (i : Fin 16) (domain protocol : ℤ) {type : ℤ}
    (htype : type = sockStream ∨ type = sockDgram) (addr : Ipv4Addr) (port : UInt16) :
    Started s (bind (s.opened i domain type protocol) s.nextFd addr port).2 i port .created := by
  obtain ⟨j, hbind, hj⟩ := bind_opened s i domain type protocol addr port
  have hsame := sameLive_bind hj addr port
  rw [hbind]
  refine ⟨⟨domain, type, protocol, htype, hsame⟩, fun hi => ?_⟩
  obtain rfl : j = i := Option.some.inj (hj.symm.trans ((hsame.lookup_iff _ _).mp hi))
  refine ⟨fun k hk => ?_, ?_, ?_⟩
  · rw [set_other hk, opened_other hk]
  · rw [set_self]
  · rw [set_self]
    exact (opened_self ..).2.2

/-- `listen` after `bind` finds a CREATED slot: that of the new socket, if none before it has the
    descriptor. -/
theorem listen_bound (s : Sockets) (i : Fin 16) (domain protocol : ℤ) {type : ℤ}
    (htype : type = sockStream ∨ type = sockDgram) (addr : Ipv4Addr) (port : UInt16) (backlog : ℤ) :
    (listen (bind (s.opened i domain type protocol) s.nextFd addr port).2 s.nextFd backlog).1 = 0 ∧
      Started s
        (listen (bind (s.opened i domain type protocol) s.nextFd addr port).2 s.nextFd backlog).2
        i port .listening := by
  obtain ⟨hfd, -, hstate⟩ := opened_self s i domain type protocol
  obtain ⟨j, hbind, hj⟩ := bind_opened s i domain type protocol addr port
  have hsame := sameLive_bind hj addr port
  have hbound := started_bind s i domain protocol htype addr port
  rw [hbind] at hbound ⊢
  generalize hb : (s.opened i domain type protocol).set j _ = b at hsame hbound ⊢
  -- `bind` writes no state, so the new socket is still CREATED
  have hcreated : (b.sockets i).state = .created := by
    rw [← hb]
    rcases eq_or_ne i j with rfl | hne
    · rw [set_self]
      exact hstate
    · rw [set_other hne]
      exact hstate
  rw [listen, onSocket]
  cases hfound : search b (fun k => k.fd = s.nextFd ∧ k.state = .created) with
  | none => exact absurd ⟨i, (hsame.fd i).trans hfd, hcreated⟩ (search_none.mp hfound)
  | some l =>
    obtain ⟨hl, hlcreated⟩ := of_decide_eq_true (search_some hfound)
    have hlive : (b.sockets l).state ≠ .closed := by
      rw [hlcreated]
      decide
    have hlisten : SameLive b (b.set l { b.sockets l with state := .listening }) :=
      .set rfl rfl (by simp) hlive
    refine ⟨rfl, ⟨domain, type, protocol, htype, hsame.trans hlisten⟩, fun hi => ?_⟩
    have hbi := (hlisten.lookup_iff _ _).mp hi
    obtain ⟨hothers, hport, -⟩ := hbound.serves hbi
    -- the search for a CREATED slot stops where the search for a live one does
    obtain rfl : l = i := by
      obtain ⟨-, hbefore⟩ := Table.first_eq_some.mp hfound
      obtain ⟨-, hnone⟩ := lookup_eq_some.mp hbi
      rcases lt_trichotomy l i with hlt | heq | hgt
      · exact absurd (hnone l hlt hl) hlive
      · exact heq
      · exact absurd ⟨(hsame.fd i).trans hfd, hcreated⟩ (of_decide_eq_false (hbefore i hgt))
    refine ⟨fun k hk => ?_, ?_, ?_⟩
    · rw [set_other hk, hothers k hk]
    · rw [set_self]
      exact hport
    · rw [set_self]

theorem udpStart_outcome (port : UInt16) (already noSocket noBind started : String) (running : Bool)
    (s : Sockets) :
    StartOutcome s port .created running
      (udpStart port already noSocket noBind started running s).val.1
      (udpStart port already noSocket noBind started running s).val.2 := by
  have htype : sockDgram = sockStream ∨ sockDgram = sockDgram := .inr rfl
  unfold udpStart
  cases running with
  | true => exact .already
  | false =>
    rw [if_neg Bool.false_ne_true]
    cases hfree : search s (fun k => k.state = .closed) with
    | none =>
      rw [socket_not_taken ((slotTaken_of_type s htype).trans hfree)]
      exact .full hfree
    | some i =>
      rw [socket_taken ((slotTaken_of_type s htype).trans hfree)]
      dsimp only
      split
      · rename_i hneg
        exact .leaks afInet sockDgram ipprotoUdp htype hfree hneg
      · rename_i hnonneg
        have hbound := started_bind s i afInet ipprotoUdp htype anyAddr port
        obtain ⟨j, hbind, -⟩ := bind_opened s i afInet sockDgram ipprotoUdp anyAddr port
        rw [if_neg (by simp [hbind])]
        exact .runs hfree (not_lt.mp hnonneg) hbound

/-- What a start does to the sockets and to the two fields of the service's record. The stored
    descriptor counts while the service runs: HTTP writes it also when it fails to start. -/
def StartsTo (s : Sockets) (port : UInt16) (state : SockState) (running : Bool) (fd : ℤ) (s' : Sockets)
    (running' : Bool) (fd' : ℤ) : Prop :=
  ∃ r, StartOutcome s port state running s' r ∧
    ((r = none ∧ running' = running ∧ (running = true → fd' = fd)) ∨
      (r = some fd' ∧ running' = true))

theorem httpServerStart_spec (s : Sockets) (h : HttpServer) :
    StartsTo s httpPort .listening h.running h.serverSocket (httpServerStart s h).val.1
      (httpServerStart s h).val.2.running (httpServerStart s h).val.2.serverSocket := by
  have htype : sockStream = sockStream ∨ sockStream = sockDgram := .inl rfl
  obtain ⟨fd, running⟩ := h
  unfold httpServerStart
  cases running with
  | true => exact ⟨none, .already, .inl ⟨rfl, rfl, fun _ => rfl⟩⟩
  | false =>
    rw [if_neg Bool.false_ne_true]
    cases hfree : search s (fun k => k.state = .closed) with
    | none =>
      rw [socket_not_taken ((slotTaken_of_type s htype).trans hfree)]
      exact ⟨none, .full hfree, .inl ⟨rfl, rfl, nofun⟩⟩
    | some i =>
      rw [socket_taken ((slotTaken_of_type s htype).trans hfree)]
      dsimp only
      split
      · rename_i hneg
        exact ⟨none, .leaks afInet sockStream 0 htype hfree hneg, .inl ⟨rfl, rfl, nofun⟩⟩
      · rename_i hnonneg
        obtain ⟨hzero, hstarted⟩ :=
          listen_bound s i afInet 0 htype anyAddr httpPort httpMaxClients
        obtain ⟨j, hbind, -⟩ := bind_opened s i afInet sockStream 0 anyAddr httpPort
        rw [if_neg (by simp [hbind]), if_neg (by rw [hzero]; decide)]
        exact ⟨some s.nextFd, .runs hfree (not_lt.mp hnonneg) hstarted, .inr ⟨rfl, rfl⟩⟩

/-- The record of a datagram service after its start. -/
theorem startsTo_of_udp {s s' : Sockets} {port : UInt16} {running running' : Bool} {fd fd' : ℤ}
    {r : Option ℤ} (h : StartOutcome s port .created running s' r)
    (hnone : r = none → running' = running ∧ fd' = fd)
    (hsome : ∀ g, r = some g → running' = true ∧ fd' = g) :
    StartsTo s port .created running fd s' running' fd' := by
  refine ⟨r, h, ?_⟩
  cases r with
  | none =>
    obtain ⟨hrunning, hfd⟩ := hnone rfl
    exact .inl ⟨rfl, hrunning, fun _ => hfd⟩
  | some g =>
    obtain ⟨hrunning, hfd⟩ := hsome g rfl
    exact .inr ⟨by rw [hfd], hrunning⟩

theorem dnsStart_spec (s : Sockets) (d : DnsServer) :
    StartsTo s dnsPort .created d.running d.sockfd (dnsStart s d).val.1
      (dnsStart s d).val.2.running (dnsStart s d).val.2.sockfd := by
  unfold dnsStart
  simp only [val_bind, val_pure]
  refine startsTo_of_udp (udpStart_outcome ..) (fun hr => ?_) fun g hr => ?_
  · rw [hr]
    exact ⟨rfl, rfl⟩
  · rw [hr]
    exact ⟨rfl, rfl⟩

theorem dhcpStart_spec (s : Sockets) (d : DhcpServer) :
    StartsTo s dhcpServerPort .created d.running d.sockfd (dhcpStart s d).val.1
      (dhcpStart s d).val.2.running (dhcpStart s d).val.2.sockfd := by
  unfold dhcpStart
  simp only [val_bind, val_pure]
  refine startsTo_of_udp (udpStart_outcome ..) (fun hr => ?_) fun g hr => ?_
  · rw [hr]
    exact ⟨rfl, rfl⟩
  · rw [hr]
    exact ⟨rfl, rfl⟩

end VlsOs.Net.Sock
