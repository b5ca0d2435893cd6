import VlsOs.Net.Send
import VlsOs.Schemes.Run
import VlsOs.Schemes.Table

/-! The socket table (`net/socket.c`, `include/socket.h`).

    Sixteen slots. `socket` takes the first CLOSED slot and gives it the next descriptor; all other
    calls look for a slot by its descriptor, with filters of their own, and `close` marks the slot
    CLOSED. A closed slot keeps its fields until it is taken again.

                   socket          listen
        CLOSED ───────────▶ CREATED ───────▶ LISTENING
          ▲                  │  connect
          │                  ├───────────▶ CONNECTING   (stream)
          │                  └───────────▶ CONNECTED    (datagram)
          └── close ── from any of these -/

namespace VlsOs.Net.Sock
open Patterns Patterns.Trace VlsOs.Memory

def afInet : ℤ := 2

def sockStream : ℤ := 1

def sockDgram : ℤ := 2

def netMtu : UInt32 := 1500

inductive SockState
  | closed
  | created
  | listening
  | connecting
  | connected
  deriving DecidableEq

/-- `socket_t`. -/
structure Socket where
  domain : ℤ
  type : ℤ
  protocol : ℤ
  fd : ℤ
  localIp : Ipv4Addr
  localPort : UInt16
  remoteIp : Ipv4Addr
  remotePort : UInt16
  state : SockState
  buffer : UInt32
  bufLen : UInt16

/-- The static variables of `socket.c`, and what the calls below it work on. -/
structure Sockets where
  sockets : Fin 16 → Socket
  nextFd : ℤ
  net : NetState

/-- The static variables as the loader leaves them. -/
def staticSockets (net : NetState) : Sockets :=
  { sockets := fun _ => ⟨0, 0, 0, 0, Vector.replicate 4 0, 0, Vector.replicate 4 0, 0, .closed, null, 0⟩
    nextFd := 1
    net := net }

def Sockets.set (s : Sockets) (i : Fin 16) (k : Socket) : Sockets :=
  { s with sockets := Function.update s.sockets i k }

/-- The loop over the table: the first slot that meets the test. -/
def search (s : Sockets) (p : Socket → Bool) : Option (Fin 16) := Table.first fun i => p (s.sockets i)

/-! ### The calls -/

/-- `next_fd++`, with the 32-bit addition of the machine. -/
def succFd (fd : ℤ) : ℤ := (fd + 1).bmod (2 ^ 32)

/-- What `socket` does with the slot that it has found. -/
def Sockets.opened (s : Sockets) (i : Fin 16) (domain type protocol : ℤ) : Sockets :=
  let block := malloc s.net.heap netMtu
  { s.set i { s.sockets i with
      domain := domain, type := type, protocol := protocol, fd := s.nextFd, state := .created,
      localPort := 0, buffer := block.1, bufLen := 0 } with
    nextFd := succFd s.nextFd
    net := { s.net with heap := block.2 } }

def socket (s : Sockets) (domain type protocol : ℤ) : ℤ × Sockets :=
  if domain ≠ afInet ∨ (type ≠ sockStream ∧ type ≠ sockDgram) then (-1, s)
  else
    match search s fun k => k.state = .closed with
    | some i => (s.nextFd, s.opened i domain type protocol)
    | none => (-1, s)

/-- The body of the calls that change the slot they find. -/
def onSocket (s : Sockets) (p : Socket → Bool) (f : Socket → Socket) : ℤ × Sockets :=
  match search s p with
  | some i => (0, s.set i (f (s.sockets i)))
  | none => (-1, s)

def bind (s : Sockets) (sockfd : ℤ) (addr : Ipv4Addr) (port : UInt16) : ℤ × Sockets :=
  onSocket s (fun k => k.fd = sockfd ∧ k.state ≠ .closed) fun k =>
    { k with localIp := addr, localPort := port }

def listen (s : Sockets) (sockfd _backlog : ℤ) : ℤ × Sockets :=
  onSocket s (fun k => k.fd = sockfd ∧ k.state = .created) fun k => { k with state := .listening }

/-- `accept` returns `-1` on either branch. -/
def accept (s : Sockets) (sockfd : ℤ) : ℤ × Sockets :=
  match search s fun k => k.fd = sockfd ∧ k.state = .listening with
  | some _ => (-1, s)
  | none => (-1, s)

def connect (s : Sockets) (sockfd : ℤ) (addr : Ipv4Addr) (port : UInt16) : ℤ × Sockets :=
  onSocket s (fun k => k.fd = sockfd ∧ k.state = .created) fun k =>
    { k with
      remoteIp := addr, remotePort := port
      state := if k.type = sockDgram then .connected else .connecting }

/-- `sendto` does not look at the state. -/
def sendto (s : Sockets) (sockfd : ℤ) (buffer : ℕ → UInt8) (len : UInt16) (addr : Ipv4Addr)
    (port : UInt16) : Traced RxEvent (ℤ × Sockets) :=
  match search s fun k => k.fd = sockfd ∧ k.type = sockDgram with
  | some i => do
    let net ← udpSendPacket s.net addr (s.sockets i).localPort port buffer len
    return (len.toNat, { s with net := net })
  | none => return (-1, s)

def send (s : Sockets) (sockfd : ℤ) (buffer : ℕ → UInt8) (len : UInt16) :
    Traced RxEvent (ℤ × Sockets) :=
  match search s fun k =>
    k.fd = sockfd ∧ k.state = .connected ∧ (k.type = sockDgram ∨ k.type = sockStream) with
  | some i =>
    let k := s.sockets i
    if k.type = sockDgram then sendto s sockfd buffer len k.remoteIp k.remotePort
    else return (len.toNat, s)
  | none => return (-1, s)

def recv (s : Sockets) (sockfd : ℤ) (_maxlen : UInt16) : ℤ × Sockets :=
  match search s fun k => k.fd = sockfd ∧ k.state = .connected with
  | some i => ((s.sockets i).bufLen.toNat, s)
  | none => (-1, s)

/-- Nor does `recvfrom`. -/
def recvfrom (s : Sockets) (sockfd : ℤ) (_maxlen : UInt16) : ℤ × Sockets :=
  match search s fun k => k.fd = sockfd with
  | some i => ((s.sockets i).bufLen.toNat, s)
  | none => (-1, s)

def close (s : Sockets) (sockfd : ℤ) : ℤ × Sockets :=
  match search s fun k => k.fd = sockfd ∧ k.state ≠ .closed with
  | some i =>
    let k := s.sockets i
    let heap := if k.buffer ≠ null then free s.net.heap k.buffer else s.net.heap
    (0, { s.set i { k with state := .closed } with net := { s.net with heap := heap } })
  | none => (-1, s)

/-! ### Runs -/

inductive SockCall
  | socket (domain type protocol : ℤ)
  | bind (sockfd : ℤ) (addr : Ipv4Addr) (port : UInt16)
  | listen (sockfd backlog : ℤ)
  | accept (sockfd : ℤ)
  | connect (sockfd : ℤ) (addr : Ipv4Addr) (port : UInt16)
  | send (sockfd : ℤ) (buffer : ℕ → UInt8) (len : UInt16)
  | recv (sockfd : ℤ) (maxlen : UInt16)
  | sendto (sockfd : ℤ) (buffer : ℕ → UInt8) (len : UInt16) (addr : Ipv4Addr) (port : UInt16)
  | recvfrom (sockfd : ℤ) (maxlen : UInt16)
  | close (sockfd : ℤ)

/-- The descriptor that a call names. -/
def SockCall.fd : SockCall → Option ℤ
  | .socket _ _ _ => none
  | .bind fd _ _ => some fd
  | .listen fd _ => some fd
  | .accept fd => some fd
  | .connect fd _ _ => some fd
  | .send fd _ _ => some fd
  | .recv fd _ => some fd
  | .sendto fd _ _ _ _ => some fd
  | .recvfrom fd _ => some fd
  | .close fd => some fd

def runCall (s : Sockets) : SockCall → Traced RxEvent (ℤ × Sockets)
  | .socket domain type protocol => return socket s domain type protocol
  | .bind fd addr port => return bind s fd addr port
  | .listen fd backlog => return listen s fd backlog
  | .accept fd => return accept s fd
  | .connect fd addr port => return connect s fd addr port
  | .send fd buffer len => send s fd buffer len
  | .recv fd maxlen => return recv s fd maxlen
  | .sendto fd buffer len addr port => sendto s fd buffer len addr port
  | .recvfrom fd maxlen => return recvfrom s fd maxlen
  | .close fd => return close s fd

/-- One call: the state after it, its result, and what it did to the network. -/
def sockStep (s : Sockets) (c : SockCall) : Sockets × ℤ × List RxEvent :=
  ((runCall s c).val.2, (runCall s c).val.1, (runCall s c).events)

/-! ### What a call does

    Every call either leaves the table alone, or takes a CLOSED slot, or changes one live slot that
    has the descriptor it names. -/

/-- How a call changes the slot that it has found. -/
inductive Moves : SockCall → Socket → Socket → Prop
  | bind (fd : ℤ) (addr : Ipv4Addr) (port : UInt16) (k : Socket) :
      Moves (.bind fd addr port) k { k with localIp := addr, localPort := port }
  | listen (fd backlog : ℤ) {k : Socket} (hcreated : k.state = .created) :
      Moves (.listen fd backlog) k { k with state := .listening }
  | connect (fd : ℤ) (addr : Ipv4Addr) (port : UInt16) {k : Socket} (hcreated : k.state = .created) :
      Moves (.connect fd addr port) k
        { k with
          remoteIp := addr, remotePort := port
          state := if k.type = sockDgram then .connected else .connecting }
  | close (fd : ℤ) (k : Socket) : Moves (.close fd) k { k with state := .closed }

/-- What a call does to the state. -/
inductive Effect (s : Sockets) : SockCall → Sockets → Prop
  | idle (c : SockCall) : Effect s c s
  | sends (c : SockCall) (dest : Ipv4Addr) (srcPort destPort : UInt16) (data : ℕ → UInt8)
      (len : UInt16) :
      Effect s c { s with net := (udpSendPacket s.net dest srcPort destPort data len).val }
  | opens {domain type : ℤ} (protocol : ℤ) {i : Fin 16} (hdomain : domain = afInet)
      (htype : type = sockStream ∨ type = sockDgram)
      (hfree : search s (fun k => k.state = .closed) = some i) :
      Effect s (.socket domain type protocol) (s.opened i domain type protocol)
  | changes {c : SockCall} {i : Fin 16} {k : Socket} (hnames : c.fd = some (s.sockets i).fd)
      (hlive : (s.sockets i).state ≠ .closed) (hmoves : Moves c (s.sockets i) k) :
      Effect s c (s.set i k)

theorem search_some {s : Sockets} {p : Socket → Bool} {i : Fin 16} (h : search s p = some i) :
    p (s.sockets i) = true :=
  Table.first_some h

theorem search_none {s : Sockets} {q : Socket → Prop} [DecidablePred q] :
    search s (fun k => q k) = none ↔ ¬∃ i, q (s.sockets i) := by
  rw [search, Table.first_none]
  simp

/-- The slot that `socket` takes. -/
def slotTaken (s : Sockets) (domain type : ℤ) : Option (Fin 16) :=
  if domain ≠ afInet ∨ (type ≠ sockStream ∧ type ≠ sockDgram) then none
  else search s fun k => k.state = .closed

theorem slotTaken_some {s : Sockets} {domain type : ℤ} {i : Fin 16}
    (h : slotTaken s domain type = some i) :
    domain = afInet ∧ (type = sockStream ∨ type = sockDgram) ∧
      search s (fun k => k.state = .closed) = some i := by
  unfold slotTaken at h
  split at h
  · exact absurd h (Option.some_ne_none i).symm
  · rename_i hargs
    exact ⟨by tauto, by tauto, h⟩

theorem slotTaken_of_type (s : Sockets) {type : ℤ} (htype : type = sockStream ∨ type = sockDgram) :
    slotTaken s afInet type = search s fun k => k.state = .closed :=
  if_neg (by tauto)

theorem socket_taken {s : Sockets} {domain type : ℤ} {i : Fin 16}
    (h : slotTaken s domain type = some i) (protocol : ℤ) :
    socket s domain type protocol = (s.nextFd, s.opened i domain type protocol) := by
  unfold slotTaken at h
  unfold socket
  split at h
  · exact absurd h (Option.some_ne_none i).symm
  · rename_i hargs
    rw [if_neg hargs, h]

/-- Without a slot, `socket` returns `-1` and changes nothing. -/
theorem socket_not_taken {s : Sockets} {domain type : ℤ} (h : slotTaken s domain type = none)
    (protocol : ℤ) : socket s domain type protocol = (-1, s) := by
  unfold slotTaken at h
  unfold socket
  split at h
  · rename_i hargs
    rw [if_pos hargs]
  · rename_i hargs
    rw [if_neg hargs, h]

theorem onSocket_effect {s : Sockets} {c : SockCall} {p : Socket → Bool} {f : Socket → Socket}
    (h : ∀ i, p (s.sockets i) = true →
      c.fd = some (s.sockets i).fd ∧ (s.sockets i).state ≠ .closed ∧
        Moves c (s.sockets i) (f (s.sockets i))) :
    Effect s c (onSocket s p f).2 := by
  unfold onSocket
  cases hfound : search s p with
  | none => exact .idle c
  | some i =>
    obtain ⟨hnames, hlive, hmoves⟩ := h i (search_some hfound)
    exact .changes hnames hlive hmoves

theorem close_eq (s : Sockets) (fd : ℤ) :
    close s fd = onSocket s (fun k => k.fd = fd ∧ k.state ≠ .closed) fun k =>
      { k with state := .closed } := by
  -- `free` gives nothing back, so the heap is the same on both branches
  unfold close onSocket
  split
  · simp only [free, ite_self]
    rfl
  · rfl

theorem sendto_effect (s : Sockets) (c : SockCall) (fd : ℤ) (buffer : ℕ → UInt8) (len : UInt16)
    (addr : Ipv4Addr) (port : UInt16) : Effect s c (sendto s fd buffer len addr port).val.2 := by
  unfold sendto
  split
  · exact .sends ..
  · exact .idle c

/-- INVERSION: a call has one of these effects. -/
theorem sockStep_effect (s : Sockets) (c : SockCall) : Effect s c (sockStep s c).1 := by
  cases c with
  | socket domain type protocol =>
    show Effect s _ (socket s domain type protocol).2
    cases htaken : slotTaken s domain type with
    | none =>
      rw [socket_not_taken htaken]
      exact .idle _
    | some i =>
      rw [socket_taken htaken]
      obtain ⟨hdomain, htype, hfree⟩ := slotTaken_some htaken
      exact .opens protocol hdomain htype hfree
  | bind fd addr port =>
    refine onSocket_effect fun i hi => ?_
    obtain ⟨rfl, hlive⟩ := of_decide_eq_true hi
    exact ⟨rfl, hlive, .bind ..⟩
  | listen fd backlog =>
    refine onSocket_effect fun i hi => ?_
    obtain ⟨rfl, hcreated⟩ := of_decide_eq_true hi
    exact ⟨rfl, by simp [hcreated], .listen _ _ hcreated⟩
  | accept fd =>
    show Effect s _ (accept s fd).2
    unfold accept
    split <;> exact .idle _
  | connect fd addr port =>
    refine onSocket_effect fun i hi => ?_
    obtain ⟨rfl, hcreated⟩ := of_decide_eq_true hi
    exact ⟨rfl, by simp [hcreated], .connect _ _ _ hcreated⟩
  | send fd buffer len =>
    show Effect s _ (send s fd buffer len).val.2
    unfold send
    split
    · dsimp only
      split
      · exact sendto_effect ..
      · exact .idle _
    · exact .idle _
  | recv fd maxlen =>
    show Effect s _ (recv s fd maxlen).2
    unfold recv
    split <;> exact .idle _
  | sendto fd buffer len addr port => exact sendto_effect ..
  | recvfrom fd maxlen =>
    show Effect s _ (recvfrom s fd maxlen).2
    unfold recvfrom
    split <;> exact .idle _
  | close fd =>
    show Effect s _ (close s fd).2
    rw [close_eq]
    refine onSocket_effect fun i hi => ?_
    obtain ⟨rfl, hlive⟩ := of_decide_eq_true hi
    exact ⟨rfl, hlive, .close ..⟩

end VlsOs.Net.Sock
