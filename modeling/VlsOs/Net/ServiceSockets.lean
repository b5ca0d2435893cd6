import VlsOs.Net.Services

/-! Which sockets the services own.

    The three services start and stop in any order, while other code opens and closes sockets of its
    own in the same table. The record `opener` says for each slot who opened the socket in it, and
    `held` lists the descriptors that the other code has; the program does not know of either.

        slot    0        1       2       3
                dns      –       other   http          opener
                fd 4             fd 7    fd 9
                ▲                        ▲
             dns.sockfd = 4      http.serverSocket = 9 -/

namespace VlsOs.Net.Sock
open Patterns Patterns.Run Patterns.Trace

/-! ### The system -/

inductive Service
  | http
  | dns
  | dhcp
  deriving DecidableEq

instance : Fintype Service where
  elems := {.http, .dns, .dhcp}
  complete v := by cases v <;> decide

def Service.port : Service → UInt16
  | .http => httpPort
  | .dns => dnsPort
  | .dhcp => dhcpServerPort

/-- The state of the socket of a service that runs. -/
def Service.state : Service → SockState
  | .http => .listening
  | .dns => .created
  | .dhcp => .created

structure Services where
  socks : Sockets
  http : HttpServer
  dns : DnsServer
  dhcp : DhcpServer
  /-- Record: the service that opened the socket in the slot; `none` for other code. -/
  opener : Fin 16 → Option Service
  /-- Record: the descriptors that other code has opened and not closed. -/
  held : List ℤ

def servicesInit (net : NetState) (iface : Option (Ipv4Addr × Ipv4Addr × Ipv4Addr)) : Services where
  socks := staticSockets net
  http := httpServerInit
  dns := dnsInit
  dhcp := dhcpInit iface
  opener := fun _ => none
  held := []

def Services.running (s : Services) : Service → Bool
  | .http => s.http.running
  | .dns => s.dns.running
  | .dhcp => s.dhcp.running

/-- The descriptor that the service has stored. -/
def Services.stored (s : Services) : Service → ℤ
  | .http => s.http.serverSocket
  | .dns => s.dns.sockfd
  | .dhcp => s.dhcp.sockfd

def Services.start (s : Services) : Service → Traced RxEvent Services
  | .http => do
    let r ← httpServerStart s.socks s.http
    return { s with socks := r.1, http := r.2 }
  | .dns => do
    let r ← dnsStart s.socks s.dns
    return { s with socks := r.1, dns := r.2 }
  | .dhcp => do
    let r ← dhcpStart s.socks s.dhcp
    return { s with socks := r.1, dhcp := r.2 }

def Services.stop (s : Services) : Service → Traced RxEvent Services
  | .http => do
    let r ← httpServerStop s.socks s.http
    return { s with socks := r.1, http := r.2 }
  | .dns => do
    let r ← dnsStop s.socks s.dns
    return { s with socks := r.1, dns := r.2 }
  | .dhcp => do
    let r ← dhcpStop s.socks s.dhcp
    return { s with socks := r.1, dhcp := r.2 }

inductive ServiceOp
  | start (v : Service)
  | stop (v : Service)
  | otherOpen (domain type protocol : ℤ)
  | otherClose (fd : ℤ)

/-- The record after a start: the slot that its `socket` takes is the service's. -/
def Services.credit (s : Services) (v : Service) : Fin 16 → Option Service :=
  if s.running v then s.opener
  else
    match search s.socks fun k => k.state = .closed with
    | some i => Function.update s.opener i (some v)
    | none => s.opener

def serviceStep (s : Services) : ServiceOp → Services × List RxEvent
  | .start v => ({ (s.start v).val with opener := s.credit v }, (s.start v).events)
  | .stop v => ((s.stop v).val, (s.stop v).events)
  | .otherOpen domain type protocol =>
    let r := socket s.socks domain type protocol
    match slotTaken s.socks domain type with
    | some i =>
      ({ s with socks := r.2, opener := Function.update s.opener i none, held := r.1 :: s.held }, [])
    | none => ({ s with socks := r.2 }, [])
  | .otherClose fd =>
    ({ s with socks := (close s.socks fd).2, held := s.held.filter (· ≠ fd) }, [])

/-! ### What is to hold -/

/-- The live sockets that services have opened. -/
def Services.serviceSlots (s : Services) : Finset (Fin 16) :=
  Finset.univ.filter fun i => (s.socks.sockets i).state ≠ .closed ∧ s.opener i ≠ none

def Services.runningSet (s : Services) : Finset Service :=
  Finset.univ.filter fun v => s.running v = true

/-- The stored descriptor of a running service is a live socket that it opened, bound to its port;
    different services hold different ones, and there are no more of them than services. -/
structure ServicesOk (s : Services) : Prop where
  holds : ∀ v, s.running v = true → ∃ i, lookup s.socks (s.stored v) = some i ∧ s.opener i = some v ∧
    (s.socks.sockets i).localPort = v.port ∧ (s.socks.sockets i).state = v.state
  different : ∀ v w, s.running v = true → s.running w = true → s.stored v = s.stored w → v = w
  count : s.serviceSlots.card = s.runningSet.card

/-- Other code closes what it has opened. -/
def OwnClose (s : Services) : ServiceOp → Prop
  | .otherClose fd => fd ∈ s.held
  | _ => True

/-- A new socket in slot `i` does not come before a service's socket with the same descriptor. -/
def Unshadowed (s : Services) (i : Fin 16) : Prop :=
  ∀ j, i < j → (s.socks.sockets j).state ≠ .closed → s.opener j ≠ none →
    (s.socks.sockets j).fd ≠ s.socks.nextFd

/-- The steps that keep the services' sockets. A start needs a descriptor that is not negative and
    that no slot before its own has; no new socket may hide a service's one behind its descriptor;
    and other code's `close` must not meet a service's socket. -/
def Guard (s : Services) : ServiceOp → Prop
  | .start v => s.running v = false → ∀ i, search s.socks (fun k => k.state = .closed) = some i →
      0 ≤ s.socks.nextFd ∧
      (∀ j < i, (s.socks.sockets j).fd = s.socks.nextFd → (s.socks.sockets j).state = .closed) ∧
      Unshadowed s i
  | .stop _ => True
  | .otherOpen domain type _ => ∀ i, slotTaken s.socks domain type = some i → Unshadowed s i
  | .otherClose fd => ∀ i, lookup s.socks fd = some i → s.opener i = none

/-! ### Counting against owning -/

/-- The same without counting: each live socket that a service opened is the one it holds. -/
structure Owned (s : Services) : Prop where
  holds : ∀ v, s.running v = true → ∃ i, lookup s.socks (s.stored v) = some i ∧ s.opener i = some v ∧
    (s.socks.sockets i).localPort = v.port ∧ (s.socks.sockets i).state = v.state
  only : ∀ i v, (s.socks.sockets i).state ≠ .closed → s.opener i = some v →
    s.running v = true ∧ lookup s.socks (s.stored v) = some i

theorem mem_serviceSlots {s : Services} {i : Fin 16} :
    i ∈ s.serviceSlots ↔ (s.socks.sockets i).state ≠ .closed ∧ s.opener i ≠ none := by
  simp [Services.serviceSlots]

theorem mem_runningSet {s : Services} {v : Service} : v ∈ s.runningSet ↔ s.running v = true := by
  simp [Services.runningSet]

/-- Every running service is the opener of a live socket. -/
theorem running_subset_openers {s : Services}
    (h : ∀ v, s.running v = true → ∃ i, lookup s.socks (s.stored v) = some i ∧ s.opener i = some v) :
    s.runningSet.image some ⊆ s.serviceSlots.image s.opener := by
  intro o ho
  obtain ⟨v, hv, rfl⟩ := Finset.mem_image.mp ho
  obtain ⟨i, hi, hopener⟩ := h v (mem_runningSet.mp hv)
  refine Finset.mem_image.mpr ⟨i, mem_serviceSlots.mpr ⟨lookup_live hi, ?_⟩, hopener⟩
  rw [hopener]
  exact Option.some_ne_none v

theorem Owned.servicesOk {s : Services} (h : Owned s) : ServicesOk s := by
  refine ⟨h.holds, fun v w hv hw heq => ?_, ?_⟩
  · obtain ⟨i, hi, hopener, -⟩ := h.holds v hv
    obtain ⟨j, hj, hopener', -⟩ := h.holds w hw
    rw [heq, hj, Option.some.injEq] at hi
    rw [hi, hopener, Option.some.injEq] at hopener'
    exact hopener'
  · -- `opener` maps the sockets one to one onto the running services
    have hinj : Set.InjOn s.opener s.serviceSlots := by
      intro i hi j hj heq
      obtain ⟨hlive, hne⟩ := mem_serviceSlots.mp hi
      obtain ⟨hlive', -⟩ := mem_serviceSlots.mp hj
      obtain ⟨v, hv⟩ := Option.ne_none_iff_exists'.mp hne
      have hi' := (h.only i v hlive hv).2
      have hj' := (h.only j v hlive' (heq ▸ hv)).2
      exact Option.some.inj (hi'.symm.trans hj')
    have himage : s.serviceSlots.image s.opener = s.runningSet.image some := by
      refine Finset.Subset.antisymm (fun o ho => ?_) (running_subset_openers fun v hv => ?_)
      · obtain ⟨i, hi, rfl⟩ := Finset.mem_image.mp ho
        obtain ⟨hlive, hne⟩ := mem_serviceSlots.mp hi
        obtain ⟨v, hv⟩ := Option.ne_none_iff_exists'.mp hne
        exact Finset.mem_image.mpr ⟨v, mem_runningSet.mpr (h.only i v hlive hv).1, hv.symm⟩
      · obtain ⟨i, hi, hopener, -⟩ := h.holds v hv
        exact ⟨i, hi, hopener⟩
    rw [← Finset.card_image_of_injOn hinj, himage,
      Finset.card_image_of_injective _ (Option.some_injective _)]

theorem ServicesOk.owned {s : Services} (h : ServicesOk s) : Owned s := by
  have hsub := running_subset_openers fun v hv =>
    let ⟨i, hi, hopener, _⟩ := h.holds v hv
    ⟨i, hi, hopener⟩
  have hrunning : (s.runningSet.image some).card = s.serviceSlots.card := by
    rw [Finset.card_image_of_injective _ (Option.some_injective _), h.count]
  -- no room for a socket more than the services account for
  have himage := Finset.eq_of_subset_of_card_le hsub
    (by rw [hrunning]; exact Finset.card_image_le)
  have hinj : Set.InjOn s.opener s.serviceSlots :=
    Finset.card_image_iff.mp (by rw [← himage, hrunning])
  refine ⟨h.holds, fun i v hlive hv => ?_⟩
  have hi : i ∈ s.serviceSlots := mem_serviceSlots.mpr ⟨hlive, by rw [hv]; exact Option.some_ne_none v⟩
  have hmem : some v ∈ s.runningSet.image some := by
    rw [himage]
    exact Finset.mem_image.mpr ⟨i, hi, hv⟩
  obtain ⟨w, hw, hwv⟩ := Finset.mem_image.mp hmem
  obtain rfl := Option.some.inj hwv
  have hrun := mem_runningSet.mp hw
  obtain ⟨j, hj, hopener, -⟩ := h.holds w hrun
  have hj' : j ∈ s.serviceSlots :=
    mem_serviceSlots.mpr ⟨lookup_live hj, by rw [hopener]; exact Option.some_ne_none w⟩
  obtain rfl := hinj hi hj' (hv.trans hopener.symm)
  exact ⟨hrun, hj⟩

theorem servicesOk_iff_owned {s : Services} : ServicesOk s ↔ Owned s :=
  ⟨ServicesOk.owned, Owned.servicesOk⟩

/-! ### What a step does -/

/-- What a step does to the sockets, the services and the record. -/
inductive Change (s : Services) : ServiceOp → Services → Prop
  | idle {op : ServiceOp} {s' : Services} (hguard : Guard s op)
      (htable : s'.socks.sockets = s.socks.sockets) (hnext : s'.socks.nextFd = s.socks.nextFd)
      (hopener : s'.opener = s.opener) (hheld : ∀ fd ∈ s'.held, fd ∈ s.held)
      (hrunning : s'.running = s.running)
      (hstored : ∀ v, s.running v = true → s'.stored v = s.stored v) : Change s op s'
  | opened {domain type protocol : ℤ} {s' : Services} {i : Fin 16}
      (htaken : slotTaken s.socks domain type = some i)
      (htype : type = sockStream ∨ type = sockDgram)
      (hsocks : s'.socks = s.socks.opened i domain type protocol)
      (hopener : s'.opener = Function.update s.opener i none)
      (hheld : s'.held = s.socks.nextFd :: s.held) (hrunning : s'.running = s.running)
      (hstored : s'.stored = s.stored) : Change s (.otherOpen domain type protocol) s'
  | leaked {v : Service} {s' : Services} {i : Fin 16} {domain type protocol : ℤ}
      (hidle : s.running v = false) (htype : type = sockStream ∨ type = sockDgram)
      (hfree : search s.socks (fun k => k.state = .closed) = some i) (hneg : s.socks.nextFd < 0)
      (hsocks : s'.socks = s.socks.opened i domain type protocol)
      (hopener : s'.opener = Function.update s.opener i (some v)) (hheld : s'.held = s.held)
      (hrunning : s'.running = s.running) : Change s (.start v) s'
  | started {v : Service} {s' : Services} {i : Fin 16} (hidle : s.running v = false)
      (hfree : search s.socks (fun k => k.state = .closed) = some i) (hnonneg : 0 ≤ s.socks.nextFd)
      (hstarted : Started s.socks s'.socks i v.port v.state)
      (hopener : s'.opener = Function.update s.opener i (some v)) (hheld : s'.held = s.held)
      (hrunning : s'.running = Function.update s.running v true)
      (hstored : s'.stored v = s.socks.nextFd) (hothers : ∀ w ≠ v, s'.stored w = s.stored w) :
      Change s (.start v) s'
  | stopped {v : Service} {s' : Services} (hrun : s.running v = true)
      (hsocks : s'.socks = (close s.socks (s.stored v)).2) (hopener : s'.opener = s.opener)
      (hheld : s'.held = s.held) (hrunning : s'.running = Function.update s.running v false)
      (hothers : ∀ w ≠ v, s'.stored w = s.stored w) : Change s (.stop v) s'
  | closed {fd : ℤ} {s' : Services} {i : Fin 16} (hfound : lookup s.socks fd = some i)
      (hsocks : s'.socks = s.socks.set i { s.socks.sockets i with state := .closed })
      (hopener : s'.opener = s.opener) (hheld : ∀ g ∈ s'.held, g ∈ s.held)
      (hrunning : s'.running = s.running) (hstored : s'.stored = s.stored) :
      Change s (.otherClose fd) s'

/-- A record that differs in the service `v` only. -/
theorem running_eq_update {s s' : Services} {v : Service} {b : Bool}
    (hother : ∀ w ≠ v, s'.running w = s.running w) (hself : s'.running v = b) :
    s'.running = Function.update s.running v b := by
  funext w
  rcases eq_or_ne w v with rfl | hne
  · rw [Function.update_self, hself]
  · rw [Function.update_of_ne hne, hother w hne]

theorem start_spec (s : Services) (v : Service) :
    StartsTo s.socks v.port v.state (s.running v) (s.stored v) (serviceStep s (.start v)).1.socks
      ((serviceStep s (.start v)).1.running v) ((serviceStep s (.start v)).1.stored v) := by
  cases v with
  | http => exact httpServerStart_spec ..
  | dns => exact dnsStart_spec ..
  | dhcp => exact dhcpStart_spec ..

/-- FRAME: a start or stop leaves the records of the other services. -/
theorem start_other (s : Services) {v w : Service} (h : w ≠ v) :
    (serviceStep s (.start v)).1.running w = s.running w ∧
      (serviceStep s (.start v)).1.stored w = s.stored w := by
  cases v <;> cases w <;> first | exact absurd rfl h | exact ⟨rfl, rfl⟩

theorem stop_other (s : Services) {v w : Service} (h : w ≠ v) :
    (serviceStep s (.stop v)).1.running w = s.running w ∧
      (serviceStep s (.stop v)).1.stored w = s.stored w := by
  cases v <;> cases w <;> first | exact absurd rfl h | exact ⟨rfl, rfl⟩

theorem start_held (s : Services) (v : Service) : (serviceStep s (.start v)).1.held = s.held := by
  cases v <;> rfl

theorem credit_running {s : Services} {v : Service} (h : s.running v = true) :
    s.credit v = s.opener :=
  if_pos h

theorem credit_full {s : Services} {v : Service}
    (h : search s.socks (fun k => k.state = .closed) = none) : s.credit v = s.opener := by
  rw [Services.credit, h, ite_self]

theorem credit_free {s : Services} {v : Service} {i : Fin 16} (hidle : s.running v = false)
    (h : search s.socks (fun k => k.state = .closed) = some i) :
    s.credit v = Function.update s.opener i (some v) := by
  rw [Services.credit, if_neg (by rw [hidle]; decide), h]

theorem start_change (s : Services) (v : Service) :
    Change s (.start v) (serviceStep s (.start v)).1 := by
  obtain ⟨r, hout, hrec⟩ := start_spec s v
  have hother := fun w hw => @start_other s v w hw
  have hheld := start_held s v
  have hopener : (serviceStep s (.start v)).1.opener = s.credit v := rfl
  generalize (serviceStep s (.start v)).1 = s' at hout hrec hother hheld hopener ⊢
  -- a start that does not get to run leaves all records that count
  have hidle : r = none → s'.running = s.running ∧ ∀ w, s.running w = true → s'.stored w = s.stored w := by
    intro hr
    rcases hrec with ⟨-, hrunning, hstored⟩ | ⟨hsome, -⟩
    · refine ⟨funext fun w => ?_, fun w hw => ?_⟩
      · rcases eq_or_ne w v with rfl | hne
        · exact hrunning
        · exact (hother w hne).1
      · rcases eq_or_ne w v with rfl | hne
        · exact hstored hw
        · exact (hother w hne).2
    · rw [hr] at hsome
      exact absurd hsome (Option.some_ne_none _).symm
  generalize hb : s.running v = b at hout
  generalize hsocks : s'.socks = socks at hout
  cases hout with
  | already =>
    obtain ⟨hrunning, hstored⟩ := hidle rfl
    refine .idle (fun hno => ?_) (by rw [hsocks]) (by rw [hsocks])
      (hopener.trans (credit_running hb)) (fun fd hfd => hheld ▸ hfd) hrunning hstored
    rw [hb] at hno
    exact absurd hno (by decide)
  | full hfull =>
    obtain ⟨hrunning, hstored⟩ := hidle rfl
    refine .idle (fun _ i hi => ?_) (by rw [hsocks]) (by rw [hsocks])
      (hopener.trans (credit_full hfull)) (fun fd hfd => hheld ▸ hfd) hrunning hstored
    rw [hfull] at hi
    exact absurd hi (Option.some_ne_none i).symm
  | leaks domain type protocol htype hfree hneg =>
    exact .leaked hb htype hfree hneg hsocks (hopener.trans (credit_free hb hfree)) hheld (hidle rfl).1
  | runs hfree hnonneg hstarted =>
    rcases hrec with ⟨hnone, -⟩ | ⟨hsome, hrun⟩
    · exact absurd hnone (Option.some_ne_none _)
    · refine .started hb hfree hnonneg (hsocks ▸ hstarted) (hopener.trans (credit_free hb hfree)) hheld
        (running_eq_update (fun w hw => (hother w hw).1) hrun) (Option.some.inj hsome).symm
        fun w hw => (hother w hw).2

theorem stop_idle {s : Services} {v : Service} (h : s.running v = false) :
    (serviceStep s (.stop v)).1 = s := by
  cases v with
  | http =>
    change s.http.running = false at h
    simp [serviceStep, Services.stop, httpServerStop, h]
  | dns =>
    change s.dns.running = false at h
    simp [serviceStep, Services.stop, dnsStop, udpStop, h]
  | dhcp =>
    change s.dhcp.running = false at h
    simp [serviceStep, Services.stop, dhcpStop, udpStop, h]

theorem stop_running {s : Services} {v : Service} (h : s.running v = true) :
    (serviceStep s (.stop v)).1.socks = (close s.socks (s.stored v)).2 ∧
      (serviceStep s (.stop v)).1.running v = false ∧
      (serviceStep s (.stop v)).1.opener = s.opener ∧ (serviceStep s (.stop v)).1.held = s.held := by
  cases v with
  | http =>
    change s.http.running = true at h
    simp [serviceStep, Services.stop, httpServerStop, Services.running, Services.stored, h]
  | dns =>
    change s.dns.running = true at h
    simp [serviceStep, Services.stop, dnsStop, udpStop, Services.running, Services.stored, h]
  | dhcp =>
    change s.dhcp.running = true at h
    simp [serviceStep, Services.stop, dhcpStop, udpStop, Services.running, Services.stored, h]

theorem stop_change (s : Services) (v : Service) : Change s (.stop v) (serviceStep s (.stop v)).1 := by
  cases hrun : s.running v with
  | false =>
    rw [stop_idle hrun]
    exact .idle trivial rfl rfl rfl (fun _ h => h) rfl fun _ _ => rfl
  | true =>
    obtain ⟨hsocks, hself, hopener, hheld⟩ := stop_running hrun
    exact .stopped hrun hsocks hopener hheld
      (running_eq_update (fun w hw => (stop_other s hw).1) hself) fun w hw => (stop_other s hw).2

/-- INVERSION: a step does one of these things. -/
theorem serviceStep_change (s : Services) (op : ServiceOp) : Change s op (serviceStep s op).1 := by
  cases op with
  | start v => exact start_change s v
  | stop v => exact stop_change s v
  | otherOpen domain type protocol =>
    rw [serviceStep]
    cases htaken : slotTaken s.socks domain type with
    | none =>
      rw [socket_not_taken htaken]
      refine .idle (fun i hi => ?_) rfl rfl rfl (fun _ h => h) rfl fun _ _ => rfl
      rw [htaken] at hi
      exact absurd hi (Option.some_ne_none i).symm
    | some i =>
      rw [socket_taken htaken]
      exact .opened htaken (slotTaken_some htaken).2.1 rfl rfl rfl rfl rfl
  | otherClose fd =>
    rw [serviceStep]
    cases hfound : lookup s.socks fd with
    | none =>
      rw [close_of_no_lookup hfound]
      refine .idle (fun i hi => ?_) rfl rfl rfl (fun _ h => List.mem_of_mem_filter h) rfl fun _ _ => rfl
      rw [hfound] at hi
      exact absurd hi (Option.some_ne_none i).symm
    | some i =>
      rw [close_of_lookup hfound]
      exact .closed hfound rfl rfl (fun _ h => List.mem_of_mem_filter h) rfl rfl

/-! ### One step -/

/-- A socket that is not its own service's any more: what a step may not leave behind. -/
theorem not_owned_of_stray {s : Services} {i : Fin 16} {v : Service}
    (hlive : (s.socks.sockets i).state ≠ .closed) (hopener : s.opener i = some v)
    (hrun : s.running v = false) : ¬Owned s := by
  intro h
  have hrun' := (h.only i v hlive hopener).1
  rw [hrun] at hrun'
  exact absurd hrun' (by decide)

theorem Owned.idle {s s' : Services} (h : Owned s) (htable : s'.socks.sockets = s.socks.sockets)
    (hopener : s'.opener = s.opener) (hrunning : s'.running = s.running)
    (hstored : ∀ v, s.running v = true → s'.stored v = s.stored v) : Owned s' := by
  have hlookup : ∀ fd, lookup s'.socks fd = lookup s.socks fd := fun fd => by
    rw [lookup, search, htable, lookup, search]
  refine ⟨fun v hv => ?_, fun i v hlive hv => ?_⟩
  · rw [hrunning] at hv
    rw [hlookup, hstored v hv, htable, hopener]
    exact h.holds v hv
  · rw [htable] at hlive
    rw [hopener] at hv
    obtain ⟨hrun, hi⟩ := h.only i v hlive hv
    rw [hrunning, hlookup, hstored v hrun]
    exact ⟨hrun, hi⟩

/-! A socket is opened in a free slot `i`, by a service or by other code. -/

section Opening
variable {s s' : Services} {i : Fin 16} {domain type protocol : ℤ} {who : Option Service}

/-- The services' sockets are found as before, unless the new one comes first. -/
theorem Owned.lookup_kept (h : Owned s) (hfree : (s.socks.sockets i).state = .closed)
    (hsame : SameLive (s.socks.opened i domain type protocol) s'.socks) (hclear : Unshadowed s i)
    {j : Fin 16} {v : Service} (hlive : (s.socks.sockets j).state ≠ .closed)
    (hopener : s.opener j = some v) : j ≠ i ∧ lookup s'.socks (s.stored v) = some j := by
  have hj := (h.only j v hlive hopener).2
  have hne : j ≠ i := by
    rintro rfl
    exact hlive hfree
  refine ⟨hne, (hsame.lookup_iff ..).mpr (lookup_opened_other hne hj fun hij hfd => ?_)⟩
  obtain ⟨⟨hjfd, -⟩, -⟩ := lookup_eq_some.mp hj
  exact hclear j hij hlive (by rw [hopener]; exact Option.some_ne_none v) (hjfd.trans hfd)

/-- … and if they are all found, it did not. -/
theorem Owned.unshadowed (h : Owned s')
    (hsame : SameLive (s.socks.opened i domain type protocol) s'.socks)
    (hopener : s'.opener = Function.update s.opener i who) : Unshadowed s i := by
  intro j hij hlive hservice hfd
  obtain ⟨v, hv⟩ := Option.ne_none_iff_exists'.mp hservice
  have hlive' : (s'.socks.sockets j).state ≠ .closed := by
    rwa [ne_eq, hsame.closed, opened_other hij.ne']
  have hj := (h.only j v hlive' (by rw [hopener, Function.update_of_ne hij.ne', hv])).2
  rw [hsame.lookup_iff] at hj
  -- the new socket has the descriptor too, and lies before slot `j`
  obtain ⟨⟨hjfd, -⟩, hbefore⟩ := lookup_eq_some.mp hj
  obtain ⟨hifd, -, hstate⟩ := opened_self s.socks i domain type protocol
  rw [opened_other hij.ne', hfd] at hjfd
  have hclosed := hbefore i hij (hifd.trans hjfd)
  rw [hstate] at hclosed
  exact absurd hclosed (by decide)

/-- EXACT (other code opens): the services keep their sockets unless the new one comes first. -/
theorem Owned.opened_iff (h : Owned s) (hfree : (s.socks.sockets i).state = .closed)
    (hsocks : s'.socks = s.socks.opened i domain type protocol)
    (hopener : s'.opener = Function.update s.opener i none) (hrunning : s'.running = s.running)
    (hstored : s'.stored = s.stored) : Owned s' ↔ Unshadowed s i := by
  have hsame : SameLive (s.socks.opened i domain type protocol) s'.socks := hsocks ▸ .refl _
  refine ⟨fun h' => h'.unshadowed hsame hopener, fun hclear => ⟨fun v hv => ?_, fun j v hlive hv => ?_⟩⟩
  · rw [hrunning] at hv
    obtain ⟨j, hj, hopen, hport, hstate⟩ := h.holds v hv
    obtain ⟨hne, hj'⟩ := h.lookup_kept hfree hsame hclear (lookup_live hj) hopen
    rw [hstored, hopener]
    refine ⟨j, hj', ?_, ?_, ?_⟩
    · rw [Function.update_of_ne hne, hopen]
    · rw [hsocks, opened_other hne, hport]
    · rw [hsocks, opened_other hne, hstate]
  · rw [hopener] at hv
    rcases eq_or_ne j i with rfl | hne
    · rw [Function.update_self] at hv
      exact absurd hv (Option.some_ne_none v).symm
    · rw [Function.update_of_ne hne] at hv
      rw [hsocks, opened_other hne] at hlive
      rw [hrunning, hstored]
      exact ⟨(h.only j v hlive hv).1, (h.lookup_kept hfree hsame hclear hlive hv).2⟩

/-- EXACT (a start that runs): the service has its socket, and the others keep theirs, exactly when
    no slot before has the descriptor and no service's socket behind it. -/
theorem Owned.started_iff {v : Service} (h : Owned s) (hidle : s.running v = false)
    (hfree : (s.socks.sockets i).state = .closed)
    (hstarted : Started s.socks s'.socks i v.port v.state)
    (hopener : s'.opener = Function.update s.opener i (some v))
    (hrunning : s'.running = Function.update s.running v true)
    (hstored : s'.stored v = s.socks.nextFd) (hothers : ∀ w ≠ v, s'.stored w = s.stored w) :
    Owned s' ↔
      (∀ j < i, (s.socks.sockets j).fd = s.socks.nextFd → (s.socks.sockets j).state = .closed) ∧
        Unshadowed s i := by
  obtain ⟨domain, type, protocol, -, hsame⟩ := hstarted.same
  obtain ⟨hifd, -, hstate⟩ := opened_self s.socks i domain type protocol
  constructor
  · intro h'
    have hlive : (s'.socks.sockets i).state ≠ .closed := by
      rw [ne_eq, hsame.closed, hstate]
      decide
    have hi := (h'.only i v hlive (by rw [hopener, Function.update_self])).2
    rw [hstored, hsame.lookup_iff] at hi
    exact ⟨(lookup_opened_self.mp hi).2, h'.unshadowed hsame hopener⟩
  · rintro ⟨hbefore, hclear⟩
    have hi : lookup s'.socks s.socks.nextFd = some i :=
      (hsame.lookup_iff ..).mpr (lookup_opened_self.mpr ⟨rfl, hbefore⟩)
    obtain ⟨hothers', hport, hstate'⟩ := hstarted.serves hi
    -- the service was not running, so it has no other socket
    have hother : ∀ j w, (s.socks.sockets j).state ≠ .closed → s.opener j = some w → w ≠ v := by
      rintro j w hlive hw rfl
      have hrun := (h.only j w hlive hw).1
      rw [hidle] at hrun
      exact absurd hrun (by decide)
    refine ⟨fun w hw => ?_, fun j w hlive hw => ?_⟩
    · rcases eq_or_ne w v with rfl | hwv
      · rw [hstored, hopener]
        exact ⟨i, hi, Function.update_self .., hport, hstate'⟩
      · rw [hrunning, Function.update_of_ne hwv] at hw
        obtain ⟨j, hj, hopen, hjport, hjstate⟩ := h.holds w hw
        obtain ⟨hne, hj'⟩ := h.lookup_kept hfree hsame hclear (lookup_live hj) hopen
        rw [hothers w hwv, hopener]
        refine ⟨j, hj', ?_, ?_, ?_⟩
        · rw [Function.update_of_ne hne, hopen]
        · rw [hothers' j hne, hjport]
        · rw [hothers' j hne, hjstate]
    · rw [hopener] at hw
      rcases eq_or_ne j i with rfl | hne
      · rw [Function.update_self, Option.some.injEq] at hw
        rw [← hw, hrunning, Function.update_self, hstored]
        exact ⟨rfl, hi⟩
      · rw [Function.update_of_ne hne] at hw
        rw [hothers' j hne] at hlive
        have hwv := hother j w hlive hw
        rw [hrunning, Function.update_of_ne hwv, hothers w hwv]
        exact ⟨(h.only j w hlive hw).1, (h.lookup_kept hfree hsame hclear hlive hw).2⟩

end Opening

/-- A live slot is closed, and with it stops the service that opened it, if one did. -/
theorem Owned.closed {s s' : Services} (h : Owned s) {i : Fin 16}
    (hlive : (s.socks.sockets i).state ≠ .closed)
    (hsocks : s'.socks = s.socks.set i { s.socks.sockets i with state := .closed })
    (hopener : s'.opener = s.opener)
    (hrunning : ∀ w, s'.running w = true ↔ s.running w = true ∧ s.opener i ≠ some w)
    (hstored : ∀ w, s.opener i ≠ some w → s'.stored w = s.stored w) : Owned s' := by
  refine ⟨fun w hw => ?_, fun j w hjlive hw => ?_⟩
  · obtain ⟨hrun, hi⟩ := (hrunning w).mp hw
    obtain ⟨j, hj, hopen, hport, hstate⟩ := h.holds w hrun
    have hne : j ≠ i := by
      rintro rfl
      exact hi hopen
    rw [hstored w hi, hsocks, hopener]
    refine ⟨j, lookup_closed_other hne hj, hopen, ?_, ?_⟩
    · rw [set_other hne, hport]
    · rw [set_other hne, hstate]
  · rw [hopener] at hw
    rw [hsocks] at hjlive ⊢
    have hne : j ≠ i := by
      rintro rfl
      rw [set_self] at hjlive
      exact hjlive rfl
    rw [set_other hne] at hjlive
    obtain ⟨hrun, hj⟩ := h.only j w hjlive hw
    -- a service has one socket, so slot `i` is not another one of `w`
    have hi : s.opener i ≠ some w := by
      intro hiw
      exact hne (Option.some.inj (hj.symm.trans (h.only i w hlive hiw).2))
    rw [hstored w hi]
    exact ⟨(hrunning w).mpr ⟨hrun, hi⟩, lookup_closed_other hne hj⟩

/-- EXACT (one step): the services own their sockets after it exactly when it meets the guard. -/
theorem owned_step_iff (s : Services) (op : ServiceOp) (h : Owned s) :
    Owned (serviceStep s op).1 ↔ Guard s op := by
  have hchange := serviceStep_change s op
  generalize (serviceStep s op).1 = s' at hchange
  cases hchange with
  | idle hguard htable hnext hopener hheld hrunning hstored =>
    exact iff_of_true (h.idle htable hopener hrunning hstored) hguard
  | opened htaken htype hsocks hopener hheld hrunning hstored =>
    have hclosed := of_decide_eq_true (search_some (slotTaken_some htaken).2.2)
    rw [h.opened_iff hclosed hsocks hopener hrunning hstored]
    refine ⟨fun hclear i hi => ?_, fun hguard => hguard _ htaken⟩
    obtain rfl := Option.some.inj (htaken.symm.trans hi)
    exact hclear
  | @leaked v _ i domain type protocol hidle htype hfree hneg hsocks hopener hheld hrunning =>
    refine iff_of_false (not_owned_of_stray (i := i) (v := v) ?_ ?_ ?_) fun hguard => ?_
    · rw [hsocks, (opened_self ..).2.2]
      decide
    · rw [hopener, Function.update_self]
    · rw [hrunning, hidle]
    · exact absurd (hguard hidle i hfree).1 (not_le.mpr hneg)
  | @started v _ i hidle hfree hnonneg hstarted hopener hheld hrunning hstored hothers =>
    have hclosed : (s.socks.sockets i).state = .closed := of_decide_eq_true (search_some hfree)
    rw [h.started_iff hidle hclosed hstarted hopener hrunning hstored hothers]
    refine ⟨fun hfresh _ j hj => ?_, fun hguard => (hguard hidle i hfree).2⟩
    obtain rfl := Option.some.inj (hfree.symm.trans hj)
    exact ⟨hnonneg, hfresh⟩
  | @stopped v _ hrun hsocks hopener hheld hrunning hothers =>
    obtain ⟨i, hi, hopen, -⟩ := h.holds v hrun
    rw [close_of_lookup hi] at hsocks
    refine iff_of_true (h.closed (lookup_live hi) hsocks hopener (fun w => ?_) fun w hw => ?_) trivial
    · rw [hrunning, hopen]
      rcases eq_or_ne w v with rfl | hwv
      · simp
      · simp [Function.update_of_ne hwv, hwv.symm]
    · refine hothers w ?_
      rintro rfl
      exact hw hopen
  | @closed fd _ i hfound hsocks hopener hheld hrunning hstored =>
    constructor
    · intro h' j hj
      obtain rfl := Option.some.inj (hfound.symm.trans hj)
      by_contra hservice
      obtain ⟨v, hv⟩ := Option.ne_none_iff_exists'.mp hservice
      obtain ⟨hrun, hi⟩ := h.only i v (lookup_live hfound) hv
      -- the service still runs, but the only socket it had is closed
      obtain ⟨k, hk, hkv, -⟩ := h'.holds v (by rw [hrunning, hrun])
      have hklive := lookup_live hk
      rw [hsocks] at hklive
      rcases eq_or_ne k i with rfl | hne
      · rw [set_self] at hklive
        exact hklive rfl
      · rw [set_other hne] at hklive
        rw [hopener] at hkv
        exact hne (Option.some.inj ((h.only k v hklive hkv).2.symm.trans hi))
    · intro hguard
      have hnone := hguard i hfound
      refine h.closed (lookup_live hfound) hsocks hopener (fun w => ?_) fun w _ => by rw [hstored]
      rw [hrunning, hnone]
      simp

end VlsOs.Net.Sock
