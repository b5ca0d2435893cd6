import VlsOs.Net.ServiceRuns
import VlsOs.Net.System

/-! The services as switches.

    As long as nothing else opens sockets, a start turns a service on and a stop turns it off, each with
    the text that says so: there are sockets enough for three services, and the sockets of those that are
    off have been closed again. Only the counter of descriptors remembers how often this was done. -/

namespace VlsOs.Net.Sock
open Patterns Patterns.Trace

/-- The services of a network, with a record of who opened the sockets. -/
def NetSystem.services (n : NetSystem) (opener : Fin 16 → Option Service) : Services :=
  ⟨n.socks, n.http.server, n.dns, n.dhcp, opener, []⟩

/-- What a service prints when it is started or stopped. -/
structure ServiceTexts where
  already : String
  started : String
  notRunning : String
  stopped : String

def Service.texts : Service → ServiceTexts
  | .http => ⟨"HTTP server already running\n", "HTTP server started on port 80\n",
      "HTTP server not running\n", "HTTP server stopped\n"⟩
  | .dns => ⟨"DNS server already running\n", "DNS server started on port 53\n",
      "DNS server not running\n", "DNS server stopped\n"⟩
  | .dhcp => ⟨"DHCP server already running\n", "DHCP server started on port 67\n",
      "DHCP server not running\n", "DHCP server stopped\n"⟩

/-- INVARIANT: every live socket belongs to a service that is on, and `on` says which are. -/
structure OwnsAll (n : NetSystem) (opener : Fin 16 → Option Service) (on : Service → Bool) : Prop where
  kept : Kept (n.services opener)
  owned : Owned (n.services opener)
  all : ∀ i, (n.socks.sockets i).state ≠ .closed → opener i ≠ none
  on : (n.services opener).running = on

/-- The sockets are those of the services that are on. -/
def Switched (n : NetSystem) (on : Service → Bool) : Prop := ∃ opener, OwnsAll n opener on

section
variable {n : NetSystem} {opener : Fin 16 → Option Service} {on : Service → Bool}

/-- Three services leave sockets free. -/
theorem OwnsAll.free (h : OwnsAll n opener on) :
    search n.socks (fun k => k.state = .closed) ≠ none := by
  intro hsearch
  have hcount := h.owned.servicesOk.count
  have hfew : (n.services opener).runningSet.card ≤ 3 := Finset.card_le_univ _
  have hall : (n.services opener).serviceSlots = Finset.univ := by
    refine Finset.eq_univ_of_forall fun i => ?_
    have hlive : (n.socks.sockets i).state ≠ .closed := by
      have hnot := Table.first_none.mp hsearch i
      simpa using hnot
    exact mem_serviceSlots.mpr ⟨hlive, h.all i hlive⟩
  rw [hall] at hcount
  have hcard : (Finset.univ : Finset (Fin 16)).card = 16 := rfl
  omega

/-- A start leaves no live socket without a service … -/
theorem all_start {s s' : Services} {v : Service} (hpos : 1 ≤ s.socks.nextFd)
    (hall : ∀ i, (s.socks.sockets i).state ≠ .closed → s.opener i ≠ none)
    (h : Change s (.start v) s') : ∀ i, (s'.socks.sockets i).state ≠ .closed → s'.opener i ≠ none := by
  cases h with
  | idle _ htable _ hopener _ _ _ =>
    rw [htable, hopener]
    exact hall
  | leaked _ _ _ hneg _ _ _ _ => omega
  | @started _ _ i _ _ _ hstarted hopener _ _ _ _ =>
    obtain ⟨domain, type, protocol, -, hsame⟩ := hstarted.same
    intro j hj
    rw [hopener]
    rcases eq_or_ne j i with rfl | hne
    · rw [Function.update_self]
      exact Option.some_ne_none v
    · rw [Function.update_of_ne hne]
      rw [ne_eq, hsame.closed, opened_other hne] at hj
      exact hall j hj

/-- … nor does a stop. -/
theorem all_stop {s s' : Services} {v : Service}
    (hall : ∀ i, (s.socks.sockets i).state ≠ .closed → s.opener i ≠ none)
    (h : Change s (.stop v) s') : ∀ i, (s'.socks.sockets i).state ≠ .closed → s'.opener i ≠ none := by
  cases h with
  | idle _ htable _ hopener _ _ _ =>
    rw [htable, hopener]
    exact hall
  | stopped _ hsocks hopener _ _ _ =>
    intro j hj
    rw [hopener]
    refine hall j fun hclosed => hj ?_
    rw [hsocks]
    cases hfound : lookup s.socks (s.stored v) with
    | none =>
      rw [close_of_no_lookup hfound]
      exact hclosed
    | some i =>
      rw [close_of_lookup hfound]
      rcases eq_or_ne j i with rfl | hne
      · rw [set_self]
      · rw [set_other hne]
        exact hclosed

/-! ### What is printed -/

theorem events_udpStart {port : UInt16} {already noSocket noBind started : String} {s : Sockets} {fd : ℤ}
    (h : (udpStart port already noSocket noBind started false s).val.2 = some fd) :
    (udpStart port already noSocket noBind started false s).events = [.printed started] := by
  by_cases hsocket : (socket s afInet sockDgram ipprotoUdp).1 < 0
  · simp [udpStart, hsocket] at h
  · by_cases hbind : (bind (socket s afInet sockDgram ipprotoUdp).2
        (socket s afInet sockDgram ipprotoUdp).1 anyAddr port).1 < 0
    · simp [udpStart, hsocket, hbind] at h
    · simp [udpStart, hsocket, hbind, vgaPrint]

theorem events_httpServerStart {s : Sockets} {h : HttpServer} (hoff : h.running = false)
    (hon : (httpServerStart s h).val.2.running = true) :
    (httpServerStart s h).events = [.printed Service.http.texts.started] := by
  by_cases hsocket : (socket s afInet sockStream 0).1 < 0
  · simp [httpServerStart, hoff, hsocket] at hon
  · by_cases hbind : (bind (socket s afInet sockStream 0).2 (socket s afInet sockStream 0).1 anyAddr
        httpPort).1 < 0
    · simp [httpServerStart, hoff, hsocket, hbind] at hon
    · by_cases hlisten : (listen (bind (socket s afInet sockStream 0).2
          (socket s afInet sockStream 0).1 anyAddr httpPort).2 (socket s afInet sockStream 0).1
          httpMaxClients).1 < 0
      · simp [httpServerStart, hoff, hsocket, hbind, hlisten] at hon
      · simp [httpServerStart, hoff, hsocket, hbind, hlisten, vgaPrint, Service.texts]

theorem events_dnsStart {s : Sockets} {d : DnsServer} (hoff : d.running = false)
    (hon : (dnsStart s d).val.2.running = true) :
    (dnsStart s d).events = [.printed Service.dns.texts.started] := by
  simp only [dnsStart, hoff, val_bind, val_pure, events_bind, events_pure, List.append_nil] at hon ⊢
  split at hon
  · exact events_udpStart (by assumption)
  · rw [hoff] at hon
    cases hon

theorem events_dhcpStart {s : Sockets} {d : DhcpServer} (hoff : d.running = false)
    (hon : (dhcpStart s d).val.2.running = true) :
    (dhcpStart s d).events = [.printed Service.dhcp.texts.started] := by
  simp only [dhcpStart, hoff, val_bind, val_pure, events_bind, events_pure, List.append_nil] at hon ⊢
  split at hon
  · exact events_udpStart (by assumption)
  · rw [hoff] at hon
    cases hon

/-- A start that turns a service on says so … -/
theorem events_start_on {v : Service} (hoff : (n.services opener).running v = false)
    (hon : ((n.start v).val.services opener).running v = true) :
    (n.start v).events = [.printed v.texts.started] := by
  cases v with
  | http => exact (List.append_nil _).trans (events_httpServerStart hoff hon)
  | dns => exact (List.append_nil _).trans (events_dnsStart hoff hon)
  | dhcp => exact (List.append_nil _).trans (events_dhcpStart hoff hon)

/-- … and one that finds it on does nothing else. -/
theorem start_already {v : Service} (hon : (n.services opener).running v = true) :
    n.start v = ⟨n, [.printed v.texts.already]⟩ := by
  cases v with
  | http =>
    have hrun : n.http.server.running = true := hon
    rw [NetSystem.start, httpServerStart, if_pos hrun]
    rfl
  | dns =>
    have hrun : n.dns.running = true := hon
    rw [NetSystem.start, dnsStart, udpStart, if_pos hrun]
    rfl
  | dhcp =>
    have hrun : n.dhcp.running = true := hon
    rw [NetSystem.start, dhcpStart, udpStart, if_pos hrun]
    rfl

theorem events_stop (opener : Fin 16 → Option Service) (v : Service) : (n.stop v).events =
    [.printed (if (n.services opener).running v then v.texts.stopped else v.texts.notRunning)] := by
  cases v with
  | http =>
    show (n.stop .http).events = [.printed (if n.http.server.running then _ else _)]
    cases hrun : n.http.server.running <;>
      simp [NetSystem.stop, httpServerStop, hrun, vgaPrint, Service.texts]
  | dns =>
    show (n.stop .dns).events = [.printed (if n.dns.running then _ else _)]
    cases hrun : n.dns.running <;> simp [NetSystem.stop, dnsStop, udpStop, hrun, vgaPrint, Service.texts]
  | dhcp =>
    show (n.stop .dhcp).events = [.printed (if n.dhcp.running then _ else _)]
    cases hrun : n.dhcp.running <;>
      simp [NetSystem.stop, dhcpStop, udpStop, hrun, vgaPrint, Service.texts]

/-! ### Turning services on and off -/

/-- The network's start and stop are those of its services. -/
theorem services_start (n : NetSystem) (opener : Fin 16 → Option Service) (v : Service) :
    (n.start v).val.services ((n.services opener).credit v) =
      (serviceStep (n.services opener) (.start v)).1 := by
  cases v <;> rfl

theorem services_stop (n : NetSystem) (opener : Fin 16 → Option Service) (v : Service) :
    (n.stop v).val.services opener = (serviceStep (n.services opener) (.stop v)).1 := by
  cases v <;> rfl

/-- STEP: a start turns the service on, while the counter of descriptors fits. -/
theorem Switched.start (h : Switched n on) (hfits : n.socks.nextFd + 1 < 2 ^ 31) (v : Service) :
    Switched (n.start v).val (Function.update on v true) ∧
      (n.start v).events = [.printed (if on v then v.texts.already else v.texts.started)] ∧
      (n.start v).val.socks.nextFd ≤ n.socks.nextFd + 1 := by
  obtain ⟨opener, hopener⟩ := h
  have hrun : (n.services opener).running v = on v := congrFun hopener.on v
  cases hv : on v with
  | true =>
    rw [hv] at hrun
    rw [start_already hrun, ← hv, Function.update_eq_self]
    exact ⟨⟨opener, hopener⟩, by simp [hv], by simp⟩
  | false =>
    rw [hv] at hrun
    have hroom : (ServiceOp.start v).creates = true → n.socks.nextFd + 1 < 2 ^ 31 := fun _ => hfits
    obtain ⟨hkept, hnext⟩ := hopener.kept.step hroom
    have howned := (owned_step_iff _ (.start v) hopener.owned).mpr (hopener.kept.guard trivial)
    have hall := all_start hopener.kept.table.pos hopener.all (start_change (n.services opener) v)
    have hon : (serviceStep (n.services opener) (.start v)).1.running v = true := by
      obtain ⟨r, hout, hrec⟩ := start_spec (n.services opener) v
      rw [hrun] at hout
      generalize (serviceStep (n.services opener) (.start v)).1.socks = socks at hout
      cases hout with
      | full hfull => exact absurd hfull hopener.free
      | leaks _ _ _ _ _ hneg =>
        have hpos := hopener.kept.table.pos
        omega
      | runs =>
        rcases hrec with ⟨hnone, -⟩ | ⟨-, hrunning⟩
        · cases hnone
        · exact hrunning
    rw [← services_start] at hkept howned hall hon hnext
    refine ⟨⟨_, hkept, howned, hall, ?_⟩, ?_, hnext⟩
    · rw [← hopener.on]
      refine running_eq_update (fun w hw => ?_) hon
      rw [services_start]
      exact (start_other _ hw).1
    · exact events_start_on hrun (by cases v <;> exact hon)

/-- STEP: a stop turns it off. -/
theorem Switched.stop (h : Switched n on) (v : Service) :
    Switched (n.stop v).val (Function.update on v false) ∧
      (n.stop v).events = [.printed (if on v then v.texts.stopped else v.texts.notRunning)] ∧
      (n.stop v).val.socks.nextFd ≤ n.socks.nextFd := by
  obtain ⟨opener, hopener⟩ := h
  have hrun : (n.services opener).running v = on v := congrFun hopener.on v
  have hroom : (ServiceOp.stop v).creates = true → n.socks.nextFd + 1 < 2 ^ 31 :=
    fun hcreates => by cases hcreates
  obtain ⟨hkept, hnext⟩ := hopener.kept.step hroom
  have howned := (owned_step_iff _ (.stop v) hopener.owned).mpr trivial
  have hall := all_stop hopener.all (stop_change (n.services opener) v)
  have hoff : (serviceStep (n.services opener) (.stop v)).1.running v = false := by
    cases hv : (n.services opener).running v with
    | false => rw [stop_idle hv, hv]
    | true => exact (stop_running hv).2.1
  rw [← services_stop] at hkept howned hall hoff hnext
  have hsame : (n.stop v).val.socks.nextFd ≤ n.socks.nextFd + 0 := hnext
  refine ⟨⟨_, hkept, howned, hall, ?_⟩, ?_, by omega⟩
  · rw [← hopener.on]
    refine running_eq_update (fun w hw => ?_) hoff
    rw [services_stop]
    exact (stop_other _ hw).1
  · rw [events_stop opener v, hrun]

/-- What happens below the sockets does not matter. -/
theorem Switched.onNet (h : Switched n on) (net : NetState) :
    Switched { n with socks := { n.socks with net := net } } on := by
  obtain ⟨opener, hopener⟩ := h
  exact ⟨opener, hopener.kept.of_live rfl (fun _ _ => rfl) rfl (fun _ hfd => hfd),
    hopener.owned.idle rfl rfl rfl (fun _ _ => rfl), hopener.all, hopener.on⟩

/-- At first all of them are off. -/
theorem switched_static {net : NetState} (hsocks : n.socks = staticSockets net)
    (hoff : (n.services fun _ => none).running = fun _ => false) : Switched n fun _ => false := by
  have hclosed : ∀ i, (n.socks.sockets i).state = .closed := fun i => by rw [hsocks]; rfl
  refine ⟨fun _ => none, ⟨?_, fun _ hfd => absurd hfd List.not_mem_nil,
    fun _ hfd => absurd hfd List.not_mem_nil⟩, ⟨fun v hv => ?_, fun i _ hlive => absurd (hclosed i) hlive⟩,
    fun i hlive => absurd (hclosed i) hlive, hoff⟩
  · show TableOk n.socks
    rw [hsocks]
    exact tableOk_static net
  · rw [hoff] at hv
    cases hv

end

end VlsOs.Net.Sock
