import VlsOs.Net.Answers
import VlsOs.Net.Dns
import VlsOs.Net.HttpGet
import VlsOs.Net.HttpServer
import VlsOs.Net.ServiceSockets

/-! The network half of the kernel as one machine.

    Frames come in from the driver, code of any kind uses sockets, pings and fetches pages, and the
    three services are started, stopped and polled, in any order.

        frame ──▶ net_receive_frame ──▶ handlers           (nothing goes from here to a socket)
        socket calls, services, ping, wget ──▶ sockets ──▶ send path ──▶ driver

    `recv` and `recvfrom` report `buf_len` bytes of a socket and copy none; the buffers of their
    callers keep what stood there before (`Locals`). -/

namespace VlsOs.Net.Sock
open Patterns Patterns.Run Patterns.Trace VlsOs.Memory VlsOs.Net.Http VlsOs.Shell

/-! ### The polls -/

/-- What stands in the local variables of a poll that no call fills in. -/
structure Locals where
  buf : ℕ → UInt8
  fromAddr : Ipv4Addr
  clientPort : UInt16
  countStr : List UInt8

/-- The bytes of a `dhcp_pkt_t`. -/
def DhcpPkt.bytes (p : DhcpPkt) : List UInt8 :=
  [p.op, p.htype, p.hlen, p.hops] ++ p.xid.toList ++ wordBytes p.secs ++ wordBytes p.flags ++
    p.ciaddr.toList ++ p.yiaddr.toList ++ p.siaddr.toList ++ p.giaddr.toList ++ p.chaddr.toList ++
    p.sname.toList ++ p.file.toList ++ p.options.toList

/-- `dns_poll`: a datagram from the socket, and the answer to it if there is one. The port of the sender
    is `0` to begin with, and `recvfrom` does not fill it in. -/
def pollDns (s : Sockets) (d : DnsServer) (stack : Locals) : Traced RxEvent Sockets :=
  if !d.running then return s
  else
    let (n, s) := recvfrom s d.sockfd 512
    if n ≤ 0 then return s
    else
      match dnsPoll s.net stack.buf n.toNat with
      | some resp => do
        let (_, s) ← sendto s d.sockfd (fun i => resp.getD i 0) (UInt16.ofNat resp.length)
          stack.fromAddr 0
        return s
      | none => return s

/-- `dhcp_poll`, likewise; an answer is announced. -/
def pollDhcp (s : Sockets) (d : DhcpServer) (stack : Locals) : Traced RxEvent Sockets :=
  if !d.running then return s
  else
    let (n, s) := recvfrom s d.sockfd 548
    if n ≤ 0 then return s
    else
      match dhcpPoll d stack.buf n.toNat with
      | some reply => do
        let (_, s) ← sendto s d.sockfd (fun i => (DhcpPkt.bytes reply.packet).getD i 0) 548
          reply.dest reply.port
        vgaPrint reply.text
        return s
      | none => return s

/-! ### The machine -/

structure NetSystem where
  socks : Sockets
  http : HttpService
  dns : DnsServer
  dhcp : DhcpServer

inductive NetOp
  /-- `len` bytes have come in, with `frame` the memory from their start on. -/
  | receive (frame : ℕ → UInt8) (len : UInt16)
  | call (c : SockCall)
  | start (v : Service)
  | stop (v : Service)
  | poll (v : Service) (stack : Locals)
  | ping (dest : Ipv4Addr)
  | resolve (ip : Ipv4Addr)
  | tcp (dest : Ipv4Addr) (f : TcpFields) (data : ℕ → UInt8) (len : UInt16)
  | get (host : List UInt8) (port : UInt16) (path : Option (List UInt8)) (responseBuf : ℕ → UInt8)

/-- The system with a network layer that did something. -/
def NetSystem.onNet (s : NetSystem) (x : Traced RxEvent NetState) :
    Traced CmdEvent (ℤ × NetSystem) := do
  let net ← relabel .net x
  return (0, { s with socks := { s.socks with net := net } })

def NetSystem.start (s : NetSystem) : Service → Traced RxEvent NetSystem
  | .http => do
    let r ← httpServerStart s.socks s.http.server
    return { s with socks := r.1, http := { s.http with server := r.2 } }
  | .dns => do
    let r ← dnsStart s.socks s.dns
    return { s with socks := r.1, dns := r.2 }
  | .dhcp => do
    let r ← dhcpStart s.socks s.dhcp
    return { s with socks := r.1, dhcp := r.2 }

def NetSystem.stop (s : NetSystem) : Service → Traced RxEvent NetSystem
  | .http => do
    let r ← httpServerStop s.socks s.http.server
    return { s with socks := r.1, http := { s.http with server := r.2 } }
  | .dns => do
    let r ← dnsStop s.socks s.dns
    return { s with socks := r.1, dns := r.2 }
  | .dhcp => do
    let r ← dhcpStop s.socks s.dhcp
    return { s with socks := r.1, dhcp := r.2 }

def NetSystem.poll (s : NetSystem) (stack : Locals) : Service → Traced CmdEvent NetSystem
  | .http => do
    let http ← httpServerPoll s.socks ⟨stack.fromAddr, stack.clientPort, stack.countStr⟩ s.http
    return { s with http := http }
  | .dns => do
    let socks ← relabel .net (pollDns s.socks s.dns stack)
    return { s with socks := socks }
  | .dhcp => do
    let socks ← relabel .net (pollDhcp s.socks s.dhcp stack)
    return { s with socks := socks }

/-- One thing that happens: its result (`0` where the source has none), and the system after it. -/
def netOp (s : NetSystem) : NetOp → Traced CmdEvent (ℤ × NetSystem)
  | .receive frame len => s.onNet (netReceiveFrame frame s.socks.net len)
  | .call c => do
    let r ← relabel .net (runCall s.socks c)
    return (r.1, { s with socks := r.2 })
  | .start v => do
    let s ← relabel .net (s.start v)
    return (0, s)
  | .stop v => do
    let s ← relabel .net (s.stop v)
    return (0, s)
  | .poll v stack => do
    let s ← s.poll stack v
    return (0, s)
  | .ping dest => s.onNet (icmpSendEchoRequest s.socks.net dest)
  | .resolve ip => s.onNet do
    let r ← arpLookup s.socks.net ip
    return r.2
  | .tcp dest f data len => s.onNet (tcpSendPacket s.socks.net dest f data len)
  | .get host port path responseBuf => do
    let r ← httpClientGet s.socks host port path responseBuf
    return (r.1, { s with socks := r.2.2 })

/-- What comes of it: the result and the events. -/
structure NetOut where
  result : ℤ
  events : List CmdEvent

def systemStep (s : NetSystem) (op : NetOp) : NetSystem × NetOut :=
  ((netOp s op).val.2, ⟨(netOp s op).val.1, (netOp s op).events⟩)

/-- The network after its `*_init` functions, on a given network layer. -/
def netSystemInit (net : NetState) (iface : Option (Ipv4Addr × Ipv4Addr × Ipv4Addr)) : NetSystem where
  socks := staticSockets net
  http := ⟨httpServerInit, fun _ => ⟨Vector.replicate 4 0, 0, 0, false⟩, 0⟩
  dns := dnsInit
  dhcp := dhcpInit iface

/-! ### No socket ever holds a byte -/

/-- All receive buffers are empty. -/
def Unfed (s : Sockets) : Prop := ∀ i, (s.sockets i).bufLen = 0

theorem unfed_set {s : Sockets} (h : Unfed s) (i : Fin 16) {k : Socket} (hk : k.bufLen = 0) :
    Unfed (s.set i k) := by
  intro j
  rcases eq_or_ne j i with rfl | hne
  · rw [set_self, hk]
  · rw [set_other hne, h j]

theorem unfed_effect {s s' : Sockets} {c : SockCall} (h : Unfed s) (heff : Effect s c s') :
    Unfed s' := by
  cases heff with
  | idle => exact h
  | sends => exact h
  | opens protocol _ _ _ => exact unfed_set h _ rfl
  | changes _ _ hmoves =>
    refine unfed_set h _ ?_
    cases hmoves with
    | bind => exact h _
    | listen => exact h _
    | connect => exact h _
    | close => exact h _

theorem accept_eq (s : Sockets) (fd : ℤ) : accept s fd = (-1, s) := by
  unfold accept
  split <;> rfl

theorem recv_unfed {s : Sockets} (h : Unfed s) (fd : ℤ) (maxlen : UInt16) :
    (recv s fd maxlen).1 ≤ 0 := by
  unfold recv
  split
  · simp [h _]
  · exact neg_one_lt_zero.le

theorem recvfrom_unfed {s : Sockets} (h : Unfed s) (fd : ℤ) (maxlen : UInt16) :
    (recvfrom s fd maxlen).1 ≤ 0 ∧ (recvfrom s fd maxlen).2 = s := by
  unfold recvfrom
  split
  · simp [h _]
  · exact ⟨neg_one_lt_zero.le, rfl⟩

/-! ### What the calls do to buffers and heap -/

/-- No buffer is filled on the way, and the frames are paid for. -/
structure Calm (s t : Sockets) (events : List RxEvent) : Prop where
  unfed : Unfed s → Unfed t
  spends : Spends 0 s.net t.net events

section Calm
variable {s t u : Sockets} {events events' : List RxEvent}

theorem Calm.refl (s : Sockets) : Calm s s [] := ⟨id, .refl s.net⟩

theorem Calm.trans (h : Calm s t events) (h' : Calm t u events') : Calm s u (events ++ events') :=
  ⟨fun hs => h'.unfed (h.unfed hs), h.spends.trans h'.spends⟩

theorem Calm.of_sent (h : Calm s t events) (hsent : sentFrames events' = sentFrames events) :
    Calm s t events' :=
  ⟨h.unfed, h.spends.of_sent hsent⟩

theorem calm_sendto (s : Sockets) (fd : ℤ) (buffer : ℕ → UInt8) (len : UInt16) (addr : Ipv4Addr)
    (port : UInt16) :
    Calm s (sendto s fd buffer len addr port).val.2 (sendto s fd buffer len addr port).events := by
  unfold sendto
  split
  · refine ⟨id, ?_⟩
    rw [events_bind, events_pure, List.append_nil]
    exact spends_udpSendPacket ..
  · exact .refl s

theorem spends_effect {c : SockCall} (h : Effect s c t) : Spends 0 s.net t.net [] := by
  cases h with
  | idle => exact .refl _
  | sends _ dest srcPort destPort data len =>
    exact (spends_udpSendPacket s.net dest srcPort destPort data len).unsent
  | opens => exact spends_malloc s.net (by decide)
  | changes => exact .refl _

/-- SPEC of a socket call, as far as buffers and frames go. -/
theorem calm_runCall (s : Sockets) (c : SockCall) : Calm s (runCall s c).val.2 (runCall s c).events := by
  have heff : Effect s c (runCall s c).val.2 := sockStep_effect s c
  cases c with
  | send fd buffer len =>
    show Calm s (send s fd buffer len).val.2 (send s fd buffer len).events
    unfold send
    split
    · dsimp only
      split
      · exact calm_sendto ..
      · exact .refl s
    · exact .refl s
  | sendto fd buffer len addr port => exact calm_sendto ..
  -- the others send nothing
  | _ => exact ⟨fun h => unfed_effect h heff, spends_effect heff⟩

theorem calm_socket (s : Sockets) (domain type protocol : ℤ) :
    Calm s (socket s domain type protocol).2 [] :=
  calm_runCall s (.socket domain type protocol)

theorem calm_bind (s : Sockets) (fd : ℤ) (addr : Ipv4Addr) (port : UInt16) :
    Calm s (bind s fd addr port).2 [] :=
  calm_runCall s (.bind fd addr port)

theorem calm_listen (s : Sockets) (fd backlog : ℤ) : Calm s (listen s fd backlog).2 [] :=
  calm_runCall s (.listen fd backlog)

theorem calm_connect (s : Sockets) (fd : ℤ) (addr : Ipv4Addr) (port : UInt16) :
    Calm s (connect s fd addr port).2 [] :=
  calm_runCall s (.connect fd addr port)

theorem calm_send (s : Sockets) (fd : ℤ) (buffer : ℕ → UInt8) (len : UInt16) :
    Calm s (send s fd buffer len).val.2 (send s fd buffer len).events :=
  calm_runCall s (.send fd buffer len)

theorem calm_recv (s : Sockets) (fd : ℤ) (maxlen : UInt16) : Calm s (recv s fd maxlen).2 [] :=
  calm_runCall s (.recv fd maxlen)

theorem calm_close (s : Sockets) (fd : ℤ) : Calm s (close s fd).2 [] :=
  calm_runCall s (.close fd)

end Calm

/-! ### Starting and stopping -/

theorem calm_httpServerStart (s : Sockets) (h : HttpServer) :
    Calm s (httpServerStart s h).val.1 (httpServerStart s h).events := by
  unfold httpServerStart
  split
  · exact (Calm.refl s).of_sent rfl
  · have hsocket := calm_socket s afInet sockStream 0
    dsimp only
    split
    · exact hsocket.of_sent rfl
    · have hbind := hsocket.trans (calm_bind _ (socket s afInet sockStream 0).1 anyAddr httpPort)
      split
      · exact (hbind.trans (calm_close ..)).of_sent rfl
      · have hlisten := hbind.trans (calm_listen _ (socket s afInet sockStream 0).1 httpMaxClients)
        split
        · exact (hlisten.trans (calm_close ..)).of_sent rfl
        · exact hlisten.of_sent rfl

theorem calm_udpStart (port : UInt16) (already noSocket noBind started : String) (running : Bool)
    (s : Sockets) :
    Calm s (udpStart port already noSocket noBind started running s).val.1
      (udpStart port already noSocket noBind started running s).events := by
  unfold udpStart
  split
  · exact (Calm.refl s).of_sent rfl
  · have hsocket := calm_socket s afInet sockDgram ipprotoUdp
    dsimp only
    split
    · exact hsocket.of_sent rfl
    · have hbind := hsocket.trans (calm_bind _ (socket s afInet sockDgram ipprotoUdp).1 anyAddr port)
      split
      · exact (hbind.trans (calm_close ..)).of_sent rfl
      · exact hbind.of_sent rfl

theorem calm_udpStop (notRunning stopped : String) (running : Bool) (fd : ℤ) (s : Sockets) :
    Calm s (udpStop notRunning stopped running fd s).val.1
      (udpStop notRunning stopped running fd s).events := by
  unfold udpStop
  split
  · exact (Calm.refl s).of_sent rfl
  · exact (calm_close s fd).of_sent rfl

theorem calm_start (s : NetSystem) (v : Service) :
    Calm s.socks (s.start v).val.socks (s.start v).events := by
  cases v with
  | http => exact (calm_httpServerStart s.socks s.http.server).trans (.refl _)
  | dns => exact ((calm_udpStart ..).trans (.refl _)).trans (.refl _)
  | dhcp => exact ((calm_udpStart ..).trans (.refl _)).trans (.refl _)

theorem calm_stop (s : NetSystem) (v : Service) :
    Calm s.socks (s.stop v).val.socks (s.stop v).events := by
  cases v with
  | http =>
    refine Calm.trans ?_ (.refl _)
    show Calm s.socks (httpServerStop s.socks s.http.server).val.1 _
    unfold httpServerStop
    split
    · exact (Calm.refl s.socks).of_sent rfl
    · exact (calm_close ..).of_sent rfl
  | dns => exact ((calm_udpStop ..).trans (.refl _)).trans (.refl _)
  | dhcp => exact ((calm_udpStop ..).trans (.refl _)).trans (.refl _)

/-! ### Polling and fetching -/

/-- The network's share of what a command does. -/
def netEvents (events : List CmdEvent) : List RxEvent :=
  events.filterMap fun e =>
    match e with
    | .net event => some event
    | .print _ | .store .. => none

@[simp] theorem netEvents_append (a b : List CmdEvent) :
    netEvents (a ++ b) = netEvents a ++ netEvents b := List.filterMap_append

@[simp] theorem netEvents_relabel {α : Type} (x : Traced RxEvent α) :
    netEvents (relabel .net x).events = x.events := by
  simp [netEvents, relabel, List.filterMap_map]

theorem pollDns_unfed {s : Sockets} (h : Unfed s) (d : DnsServer) (stack : Locals) :
    pollDns s d stack = pure s := by
  obtain ⟨hnone, hsame⟩ := recvfrom_unfed h d.sockfd 512
  unfold pollDns
  split
  · rfl
  · dsimp only
    rw [if_pos hnone, hsame]

theorem pollDhcp_unfed {s : Sockets} (h : Unfed s) (d : DhcpServer) (stack : Locals) :
    pollDhcp s d stack = pure s := by
  obtain ⟨hnone, hsame⟩ := recvfrom_unfed h d.sockfd 548
  unfold pollDhcp
  split
  · rfl
  · dsimp only
    rw [if_pos hnone, hsame]

/-- Turns that do nothing add up to nothing. -/
theorem loop_idle {ε α : Type} {body : ℕ → α → Traced ε α} {a : α} (h : ∀ i, body i a = pure a)
    (n : ℕ) : loop body n a = pure a := by
  induction n with
  | zero => rfl
  | succ n ih => rw [loop, ih, pure_then, h]

/-- No client is being served. -/
def NoClient (h : HttpService) : Prop := ∀ i, (h.clients i).active = false

theorem httpServerPoll_idle {h : HttpService} (hidle : NoClient h) (s : Sockets) (stack : PollStack) :
    httpServerPoll s stack h = pure h := by
  have haccept (i : ℕ) : (pure (acceptTurn s stack i h) : Traced CmdEvent HttpService) = pure h := by
    rw [acceptTurn, hidle, accept_eq]
    rfl
  have hhandle (i : ℕ) : handleTurn stack i h = pure h := by
    rw [handleTurn, hidle]
    rfl
  unfold httpServerPoll
  split
  · rfl
  · rw [loop_idle haccept, pure_then, loop_idle hhandle]

/-- A request that fails, with calm sockets. -/
structure Fetchless (s : Sockets) (x : Traced CmdEvent (ℤ × HttpResponse × Sockets)) : Prop where
  result : x.val.1 = -1
  calm : Calm s x.val.2.2 (netEvents x.events)

theorem Fetchless.after {s t : Sockets} {x : Traced CmdEvent (ℤ × HttpResponse × Sockets)}
    (hcalm : Calm s t []) (h : Fetchless t x) : Fetchless s x :=
  ⟨h.result, hcalm.trans h.calm⟩

theorem Fetchless.then {s : Sockets} {y : Traced RxEvent (ℤ × Sockets)}
    {f : ℤ × Sockets → Traced CmdEvent (ℤ × HttpResponse × Sockets)}
    (hcalm : Calm s y.val.2 y.events) (h : Fetchless y.val.2 (f y.val)) :
    Fetchless s (relabel .net y >>= f) := by
  refine ⟨h.result, ?_⟩
  rw [events_bind, netEvents_append, netEvents_relabel]
  exact hcalm.trans h.calm

theorem fetchless_giveUp (s : Sockets) (fd : ℤ) (message : String) :
    Fetchless s (giveUp s fd message) :=
  ⟨rfl, calm_close s fd⟩

/-- A page is never fetched: there is nothing to receive. -/
theorem httpClientGet_unfed {s : Sockets} (h : Unfed s) (host : List UInt8) (port : UInt16)
    (path : Option (List UInt8)) (responseBuf : ℕ → UInt8) :
    Fetchless s (httpClientGet s host port path responseBuf) := by
  unfold httpClientGet
  split
  · exact ⟨rfl, .refl s⟩
  · rename_i serverIp _
    have hsocket := calm_socket s afInet sockStream 6
    unfold httpExchange
    dsimp only
    split
    · exact ⟨rfl, hsocket⟩
    · have hconnect := hsocket.trans
        (calm_connect _ (socket s afInet sockStream 6).1 serverIp port)
      split
      · exact (fetchless_giveUp ..).after hconnect
      · have hsend := calm_send
          (connect (socket s afInet sockStream 6).2 (socket s afInet sockStream 6).1 serverIp port).2
          (socket s afInet sockStream 6).1 (fun i => (requestText host path).getD i 0)
          (requestText host path).length.toUInt16
        refine Fetchless.after hconnect (Fetchless.then hsend ?_)
        split
        · exact fetchless_giveUp ..
        · have hnothing := recv_unfed (hsend.unfed (hconnect.unfed h))
            (socket s afInet sockStream 6).1 2048
          split
          · exact ⟨rfl, (calm_recv ..).trans (calm_close ..)⟩
          · rename_i hsome
            exact absurd hnothing hsome

/-! ### Runs -/

/-- What holds of the network at all times. -/
structure Deaf (s : NetSystem) : Prop where
  unfed : Unfed s.socks
  noClient : NoClient s.http

theorem deaf_init (net : NetState) (iface : Option (Ipv4Addr × Ipv4Addr × Ipv4Addr)) :
    Deaf (netSystemInit net iface) :=
  ⟨fun _ => rfl, fun _ => rfl⟩

theorem poll_deaf {s : NetSystem} (h : Deaf s) (v : Service) (stack : Locals) :
    s.poll stack v = pure s := by
  cases v with
  | http =>
    rw [NetSystem.poll, httpServerPoll_idle h.noClient]
    rfl
  | dns =>
    rw [NetSystem.poll, pollDns_unfed h.unfed]
    rfl
  | dhcp =>
    rw [NetSystem.poll, pollDhcp_unfed h.unfed]
    rfl

/-- What one thing that happens does to the network: the sockets stay calm, and the clients and the
    counter of the HTTP server are not touched. -/
structure Passes (s t : NetSystem) (events : List CmdEvent) : Prop where
  calm : Calm s.socks t.socks (netEvents events)
  clients : t.http.clients = s.http.clients
  served : t.http.requestsServed = s.http.requestsServed

theorem passes_onNet {s : NetSystem} {x : Traced RxEvent NetState}
    (h : Spends 0 s.socks.net x.val x.events) :
    Passes s (s.onNet x).val.2 (s.onNet x).events := by
  refine ⟨⟨id, ?_⟩, rfl, rfl⟩
  rw [NetSystem.onNet, events_bind, events_pure, List.append_nil, netEvents_relabel]
  exact h

/-- STEP: whatever happens, from a state in which no socket holds a byte. -/
theorem systemStep_passes {s : NetSystem} (h : Deaf s) (op : NetOp) :
    Passes s (systemStep s op).1 (systemStep s op).2.events := by
  show Passes s (netOp s op).val.2 (netOp s op).events
  cases op with
  | receive frame len => exact passes_onNet (spends_netReceiveFrame frame s.socks.net len)
  | call c =>
    refine ⟨?_, rfl, rfl⟩
    rw [netOp, events_bind, netEvents_append, netEvents_relabel]
    exact (calm_runCall s.socks c).trans (.refl _)
  | start v =>
    refine ⟨?_, ?_, ?_⟩
    · rw [netOp, events_bind, netEvents_append, netEvents_relabel]
      exact (calm_start s v).trans (.refl _)
    · cases v <;> rfl
    · cases v <;> rfl
  | stop v =>
    refine ⟨?_, ?_, ?_⟩
    · rw [netOp, events_bind, netEvents_append, netEvents_relabel]
      exact (calm_stop s v).trans (.refl _)
    · cases v <;> rfl
    · cases v <;> rfl
  | poll v stack =>
    rw [netOp, poll_deaf h v stack]
    exact ⟨.refl _, rfl, rfl⟩
  | ping dest => exact passes_onNet (spends_icmpSendEchoRequest s.socks.net dest)
  | resolve ip =>
    refine passes_onNet ?_
    exact (spends_arpLookup s.socks.net ip).trans (.refl _)
  | tcp dest f data len => exact passes_onNet (spends_tcpSendPacket s.socks.net dest f data len)
  | get host port path responseBuf =>
    refine ⟨?_, rfl, rfl⟩
    rw [netOp, events_bind, netEvents_append]
    exact (httpClientGet_unfed h.unfed host port path responseBuf).calm.trans (.refl _)

theorem Deaf.step {s : NetSystem} (h : Deaf s) (op : NetOp) : Deaf (systemStep s op).1 := by
  have hpasses := systemStep_passes h op
  refine ⟨hpasses.calm.unfed h.unfed, fun i => ?_⟩
  rw [hpasses.clients]
  exact h.noClient i

theorem deaf_run (net : NetState) (iface : Option (Ipv4Addr × Ipv4Addr × Ipv4Addr))
    (ops : List NetOp) : Deaf (after systemStep (netSystemInit net iface) ops) :=
  after_inv (fun _ op h => h.step op) ops _ (deaf_init net iface)

/-- DEAF: frames come in and code does with sockets and services what it likes, in any order and from
    any state of the network layer. Then polling a service changes nothing, sends nothing and prints
    nothing, however many datagrams for it came in; no `recv` or `recvfrom` reports a byte, no
    connection is accepted, no page is fetched, and the HTTP server has served no request. -/
theorem network_hears_nothing (net : NetState) (iface : Option (Ipv4Addr × Ipv4Addr × Ipv4Addr))
    (ops : List NetOp) :
    let s := after systemStep (netSystemInit net iface) ops
    (∀ v stack, systemStep s (.poll v stack) = (s, ⟨0, []⟩)) ∧
      (∀ fd maxlen, (systemStep s (.call (.recv fd maxlen))).2.result ≤ 0 ∧
        (systemStep s (.call (.recvfrom fd maxlen))).2.result ≤ 0) ∧
      (∀ fd, (systemStep s (.call (.accept fd))).2.result = -1) ∧
      (∀ host port path responseBuf,
        (systemStep s (.get host port path responseBuf)).2.result = -1) ∧
      s.http.requestsServed = 0 := by
  intro s
  have hdeaf : Deaf s := deaf_run net iface ops
  refine ⟨fun v stack => ?_, fun fd maxlen => ⟨?_, ?_⟩, fun fd => ?_,
    fun host port path responseBuf => ?_, ?_⟩
  · rw [systemStep, netOp, poll_deaf hdeaf v stack]
    rfl
  · exact recv_unfed hdeaf.unfed fd maxlen
  · exact (recvfrom_unfed hdeaf.unfed fd maxlen).1
  · show (accept s.socks fd).1 = -1
    rw [accept_eq]
  · exact (httpClientGet_unfed hdeaf.unfed host port path responseBuf).result
  · have hinv : Deaf s ∧ s.http.requestsServed = 0 :=
      after_inv (I := fun t => Deaf t ∧ t.http.requestsServed = 0)
        (fun t op ht => ⟨ht.1.step op, (systemStep_passes ht.1 op).served.trans ht.2⟩) ops _
        ⟨deaf_init net iface, rfl⟩
    exact hinv.2

/-- The frames that a run passes to the driver. -/
def framesOf (outs : List NetOut) : List (List UInt8) :=
  outs.flatMap fun o => sentFrames (netEvents o.events)

theorem octets_framesOf (outs : List NetOut) :
    octets (framesOf outs) = (outs.map fun o => octets (sentFrames (netEvents o.events))).sum := by
  induction outs with
  | nil => rfl
  | cons o outs ih =>
    rw [framesOf, List.flatMap_cons, octets_append, List.map_cons, List.sum_cons, ← ih]
    rfl

/-- TRAFFIC: from `memory_init` on, all the frames that the network ever sends take less than the
    megabyte of the heap together, whatever happens and for however long; what was sent so far is
    covered by how far the bump pointer has moved. -/
theorem network_traffic_bounded (net : NetState) (iface : Option (Ipv4Addr × Ipv4Addr × Ipv4Addr))
    (ops : List NetOp) :
    let s := netSystemInit { net with heap := memoryInit net.heap } iface
    heapStart.toNat + octets (framesOf (outs systemStep s ops)) ≤
        (after systemStep s ops).socks.net.heap.heapPtr.toNat ∧
      octets (framesOf (outs systemStep s ops)) < heapSize.toNat := by
  intro s
  have hstep (t : NetSystem) (op : NetOp) (ht : Deaf t ∧ HeapOk t.socks.net.heap) :
      (Deaf (systemStep t op).1 ∧ HeapOk (systemStep t op).1.socks.net.heap) ∧
        t.socks.net.heap.heapPtr.toNat + octets (sentFrames (netEvents (systemStep t op).2.events)) ≤
          (systemStep t op).1.socks.net.heap.heapPtr.toNat := by
    have hspends := (systemStep_passes ht.1 op).calm.spends
    exact ⟨⟨ht.1.step op, hspends.heapOk ht.2⟩, hspends.paid ht.2⟩
  have hstart : Deaf s ∧ HeapOk s.socks.net.heap := ⟨deaf_init .., heapOk_memoryInit net.heap⟩
  have hpaid : s.socks.net.heap.heapPtr.toNat + ((outs systemStep s ops).map fun o =>
      octets (sentFrames (netEvents o.events))).sum ≤
        (after systemStep s ops).socks.net.heap.heapPtr.toNat :=
    outs_paid (I := fun t => Deaf t ∧ HeapOk t.socks.net.heap)
      (μ := fun t => t.socks.net.heap.heapPtr.toNat) hstep ops s hstart
  rw [← octets_framesOf] at hpaid
  have hend := (after_inv (I := fun t => Deaf t ∧ HeapOk t.socks.net.heap)
    (fun t op ht => (hstep t op ht).1) ops s hstart).2.2
  have hptr : s.socks.net.heap.heapPtr.toNat = heapStart.toNat := rfl
  have hsize : heapStart.toNat + heapSize.toNat = heapEnd.toNat := by decide
  exact ⟨by omega, by omega⟩

end VlsOs.Net.Sock
