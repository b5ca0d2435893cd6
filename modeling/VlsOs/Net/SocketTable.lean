import VlsOs.Net.Inside
import VlsOs.Net.Socket

/-! The socket table over whole runs.

    Descriptors come from a counter, so a new one is above all that were given out before, as long
    as the counter does not wrap. From this follow the three things that the table is to keep: live
    slots have different descriptors, a descriptor that was closed does not come back, and a call
    works on the one slot that it names. The slot that a descriptor stands for, with or without a
    wrap, is the first live one that has it: `lookup`.

        fd:    1   2   3   …   nextFd - 1  │  nextFd
               └── given out, live or not ─┘  next, and never seen before -/

namespace VlsOs.Net.Sock
open Patterns Patterns.Run

/-! ### What is to hold -/

/-- The descriptors of live sockets are different, and in `1 .. next_fd - 1`. -/
def LiveDistinct (s : Sockets) : Prop :=
  (∀ i j, (s.sockets i).state ≠ .closed → (s.sockets j).state ≠ .closed →
    (s.sockets i).fd = (s.sockets j).fd → i = j) ∧
  ∀ i, (s.sockets i).state ≠ .closed → 1 ≤ (s.sockets i).fd ∧ (s.sockets i).fd ≤ s.nextFd - 1

/-- The slots that a call may change: a CLOSED one for `socket`, else a live one with the descriptor
    that it names. -/
def Named (c : SockCall) (k : Socket) : Prop :=
  match c with
  | .socket _ _ _ => k.state = .closed
  | c => c.fd = some k.fd ∧ k.state ≠ .closed

/-- The state changes that a call may make. -/
def Allowed (c : SockCall) (k : Socket) (new : SockState) : Prop :=
  match c with
  | .socket _ _ _ => k.state = .closed ∧ new = .created
  | .listen _ _ => k.state = .created ∧ new = .listening
  | .connect _ _ _ => k.state = .created ∧
      (k.type = sockStream ∧ new = .connecting ∨ k.type = sockDgram ∧ new = .connected)
  | .close _ => k.state ≠ .closed ∧ new = .closed
  | _ => False

/-- A call changes at most one slot, one that it may change, and its state only as it may. -/
structure Orderly (s : Sockets) (c : SockCall) : Prop where
  one : ∀ i j, (sockStep s c).1.sockets i ≠ s.sockets i →
    (sockStep s c).1.sockets j ≠ s.sockets j → i = j
  named : ∀ i, (sockStep s c).1.sockets i ≠ s.sockets i → Named c (s.sockets i)
  allowed : ∀ i, ((sockStep s c).1.sockets i).state ≠ (s.sockets i).state →
    Allowed c (s.sockets i) ((sockStep s c).1.sockets i).state

/-- No live socket has the descriptor. -/
def Gone (fd : ℤ) (s : Sockets) : Prop := ∀ i, (s.sockets i).fd = fd → (s.sockets i).state = .closed

/-! ### The counter -/

def SockCall.isSocket : SockCall → Bool
  | .socket _ _ _ => true
  | _ => false

/-- The call leaves the counter in the range of an `int`. -/
def Fits (s : Sockets) (c : SockCall) : Prop := c.isSocket = true → s.nextFd + 1 < 2 ^ 31

theorem succFd_eq {fd : ℤ} (hpos : 1 ≤ fd) (hfits : fd + 1 < 2 ^ 31) : succFd fd = fd + 1 := by
  unfold succFd
  exact Int.bmod_eq_of_le (by omega) (by omega)

/-! ### The invariant -/

/-- INVARIANT: what the calls keep while the counter fits. -/
structure TableOk (s : Sockets) : Prop where
  pos : 1 ≤ s.nextFd
  below : ∀ i, (s.sockets i).state ≠ .closed → 1 ≤ (s.sockets i).fd ∧ (s.sockets i).fd < s.nextFd
  inj : ∀ i j, (s.sockets i).state ≠ .closed → (s.sockets j).state ≠ .closed →
    (s.sockets i).fd = (s.sockets j).fd → i = j
  typed : ∀ i, (s.sockets i).state ≠ .closed →
    (s.sockets i).type = sockStream ∨ (s.sockets i).type = sockDgram

theorem tableOk_static (net : NetState) : TableOk (staticSockets net) where
  pos := le_refl _
  below := fun _ h => absurd rfl h
  inj := fun _ _ h => absurd rfl h
  typed := fun _ h => absurd rfl h

theorem TableOk.liveDistinct {s : Sockets} (h : TableOk s) : LiveDistinct s := by
  refine ⟨h.inj, fun i hi => ?_⟩
  have hbelow := h.below i hi
  omega

@[simp] theorem set_nextFd (s : Sockets) (i : Fin 16) (k : Socket) : (s.set i k).nextFd = s.nextFd := rfl

@[simp] theorem set_self (s : Sockets) (i : Fin 16) (k : Socket) : (s.set i k).sockets i = k :=
  Function.update_self ..

theorem set_other {s : Sockets} {i j : Fin 16} (h : j ≠ i) (k : Socket) :
    (s.set i k).sockets j = s.sockets j :=
  Function.update_of_ne h ..

@[simp] theorem opened_nextFd (s : Sockets) (i : Fin 16) (domain type protocol : ℤ) :
    (s.opened i domain type protocol).nextFd = succFd s.nextFd := rfl

theorem opened_self (s : Sockets) (i : Fin 16) (domain type protocol : ℤ) :
    ((s.opened i domain type protocol).sockets i).fd = s.nextFd ∧
      ((s.opened i domain type protocol).sockets i).type = type ∧
      ((s.opened i domain type protocol).sockets i).state = .created := by
  simp [Sockets.opened]

theorem opened_other {s : Sockets} {i j : Fin 16} (h : j ≠ i) (domain type protocol : ℤ) :
    (s.opened i domain type protocol).sockets j = s.sockets j :=
  Function.update_of_ne h ..

/-! ### Descriptors -/

/-- The slot that a descriptor stands for: the first live one that has it. -/
def lookup (s : Sockets) (fd : ℤ) : Option (Fin 16) :=
  search s fun k => k.fd = fd ∧ k.state ≠ .closed

theorem lookup_eq_some {s : Sockets} {fd : ℤ} {i : Fin 16} :
    lookup s fd = some i ↔ ((s.sockets i).fd = fd ∧ (s.sockets i).state ≠ .closed) ∧
      ∀ j < i, (s.sockets j).fd = fd → (s.sockets j).state = .closed := by
  rw [lookup, search, Table.first_eq_some]
  simp only [decide_eq_true_eq, decide_eq_false_iff_not, not_and, not_not]

theorem bind_of_lookup {s : Sockets} {fd : ℤ} {i : Fin 16} (h : lookup s fd = some i)
    (addr : Ipv4Addr) (port : UInt16) :
    bind s fd addr port = (0, s.set i { s.sockets i with localIp := addr, localPort := port }) := by
  rw [lookup] at h
  rw [bind, onSocket, h]

theorem close_of_lookup {s : Sockets} {fd : ℤ} {i : Fin 16} (h : lookup s fd = some i) :
    close s fd = (0, s.set i { s.sockets i with state := .closed }) := by
  rw [lookup] at h
  rw [close_eq, onSocket, h]

theorem close_of_no_lookup {s : Sockets} {fd : ℤ} (h : lookup s fd = none) : close s fd = (-1, s) := by
  rw [lookup] at h
  rw [close_eq, onSocket, h]

/-- A live slot's descriptor stands for some slot. -/
theorem lookup_of_live {s : Sockets} {i : Fin 16} (h : (s.sockets i).state ≠ .closed) :
    ∃ j, lookup s (s.sockets i).fd = some j := by
  cases hfound : lookup s (s.sockets i).fd with
  | none => exact absurd ⟨i, rfl, h⟩ (search_none.mp hfound)
  | some j => exact ⟨j, rfl⟩

theorem lookup_live {s : Sockets} {fd : ℤ} {i : Fin 16} (h : lookup s fd = some i) :
    (s.sockets i).state ≠ .closed :=
  (lookup_eq_some.mp h).1.2

section Opening
variable {s : Sockets} {i : Fin 16} {domain type protocol : ℤ}

/-- The new descriptor stands for the new slot exactly when no slot before it has it. -/
theorem lookup_opened_self {fd : ℤ} :
    lookup (s.opened i domain type protocol) fd = some i ↔
      fd = s.nextFd ∧ ∀ j < i, (s.sockets j).fd = fd → (s.sockets j).state = .closed := by
  obtain ⟨hfd, -, hstate⟩ := opened_self s i domain type protocol
  rw [lookup_eq_some, hfd, hstate]
  constructor
  · rintro ⟨⟨heq, -⟩, hbefore⟩
    refine ⟨heq.symm, fun j hj hjfd => ?_⟩
    have hclosed := hbefore j hj
    rw [opened_other hj.ne] at hclosed
    exact hclosed hjfd
  · rintro ⟨rfl, hbefore⟩
    refine ⟨⟨rfl, by decide⟩, fun j hj hjfd => ?_⟩
    rw [opened_other hj.ne] at hjfd ⊢
    exact hbefore j hj hjfd

/-- A descriptor stands for another slot as before, unless the new one comes first. -/
theorem lookup_opened_other {fd : ℤ} {j : Fin 16} (hj : j ≠ i) (h : lookup s fd = some j)
    (hclear : i < j → fd ≠ s.nextFd) : lookup (s.opened i domain type protocol) fd = some j := by
  obtain ⟨⟨hfd, hlive⟩, hbefore⟩ := lookup_eq_some.mp h
  refine lookup_eq_some.mpr ⟨?_, fun k hk hkfd => ?_⟩
  · rw [opened_other hj]
    exact ⟨hfd, hlive⟩
  · rcases eq_or_ne k i with rfl | hne
    · rw [(opened_self ..).1] at hkfd
      exact absurd hkfd.symm (hclear hk)
    · rw [opened_other hne] at hkfd ⊢
      exact hbefore k hk hkfd

end Opening

/-- Closing a slot leaves the descriptors of the others. -/
theorem lookup_closed_other {s : Sockets} {i j : Fin 16} {fd : ℤ} (hj : j ≠ i)
    (h : lookup s fd = some j) :
    lookup (s.set i { s.sockets i with state := .closed }) fd = some j := by
  obtain ⟨hfound, hbefore⟩ := lookup_eq_some.mp h
  refine lookup_eq_some.mpr ⟨by rwa [set_other hj], fun k hk hkfd => ?_⟩
  rcases eq_or_ne k i with rfl | hne
  · rw [set_self]
  · rw [set_other hne] at hkfd ⊢
    exact hbefore k hk hkfd

/-- Opening a socket in an empty table and closing it again leaves it empty. -/
theorem close_opened {s : Sockets} (hclosed : ∀ i, (s.sockets i).state = .closed) (i : Fin 16)
    (domain type protocol : ℤ) :
    ∃ s', close (s.opened i domain type protocol) s.nextFd = (0, s') ∧
      (∀ j, (s'.sockets j).state = .closed) ∧ s'.nextFd = succFd s.nextFd ∧
      s'.net = (s.opened i domain type protocol).net := by
  have hi : lookup (s.opened i domain type protocol) s.nextFd = some i :=
    lookup_opened_self.mpr ⟨rfl, fun j _ _ => hclosed j⟩
  refine ⟨_, close_of_lookup hi, fun j => ?_, rfl, rfl⟩
  rcases eq_or_ne j i with rfl | hne
  · rw [set_self]
  · rw [set_other hne, opened_other hne, hclosed j]

/-! ### Keeping the invariant -/

theorem Moves.fd_type {c : SockCall} {k k' : Socket} (h : Moves c k k') :
    k'.fd = k.fd ∧ k'.type = k.type := by
  cases h <;> exact ⟨rfl, rfl⟩

/-- FRAME: live slots of the new table that were live before, with the same descriptor and type,
    keep the invariant. -/
theorem TableOk.of_live {s s' : Sockets} (h : TableOk s) (hnext : s'.nextFd = s.nextFd)
    (hlive : ∀ i, (s'.sockets i).state ≠ .closed → (s.sockets i).state ≠ .closed ∧
      (s'.sockets i).fd = (s.sockets i).fd ∧ (s'.sockets i).type = (s.sockets i).type) :
    TableOk s' where
  pos := hnext ▸ h.pos
  below := by
    intro i hi
    obtain ⟨hold, hfd, -⟩ := hlive i hi
    rw [hfd, hnext]
    exact h.below i hold
  inj := by
    intro i j hi hj heq
    obtain ⟨hi', hfdi, -⟩ := hlive i hi
    obtain ⟨hj', hfdj, -⟩ := hlive j hj
    exact h.inj i j hi' hj' (by rw [← hfdi, ← hfdj, heq])
  typed := by
    intro i hi
    obtain ⟨hold, -, htype⟩ := hlive i hi
    rw [htype]
    exact h.typed i hold

/-- A new socket has a descriptor that no live one has. -/
theorem TableOk.opened {s : Sockets} (h : TableOk s) (hfits : s.nextFd + 1 < 2 ^ 31) {i : Fin 16}
    (domain protocol : ℤ) {type : ℤ} (htype : type = sockStream ∨ type = sockDgram) :
    TableOk (s.opened i domain type protocol) := by
  have hnext := succFd_eq h.pos hfits
  have hpos := h.pos
  obtain ⟨hfd, hty, -⟩ := opened_self s i domain type protocol
  refine ⟨?_, ?_, ?_, ?_⟩
  · rw [opened_nextFd, hnext]
    omega
  · intro j hj
    rw [opened_nextFd, hnext]
    rcases eq_or_ne j i with rfl | hne
    · rw [hfd]
      omega
    · rw [opened_other hne] at hj ⊢
      have hbelow := h.below j hj
      omega
  · intro j l hj hl heq
    rcases eq_or_ne j i with hji | hji <;> rcases eq_or_ne l i with hli | hli
    · exact hji.trans hli.symm
    · rw [hji, hfd, opened_other hli] at heq
      rw [opened_other hli] at hl
      have hbelow := h.below l hl
      omega
    · rw [hli, hfd, opened_other hji] at heq
      rw [opened_other hji] at hj
      have hbelow := h.below j hj
      omega
    · rw [opened_other hji] at hj heq
      rw [opened_other hli] at hl heq
      exact h.inj j l hj hl heq
  · intro j hj
    rcases eq_or_ne j i with rfl | hne
    · rw [hty]
      exact htype
    · rw [opened_other hne] at hj ⊢
      exact h.typed j hj

/-- STEP: a call keeps the invariant while the counter fits. -/
theorem TableOk.step {s : Sockets} {c : SockCall} (h : TableOk s) (hfits : Fits s c) :
    TableOk (sockStep s c).1 := by
  have heffect := sockStep_effect s c
  generalize (sockStep s c).1 = s' at heffect
  cases heffect with
  | idle => exact h
  | sends => exact h.of_live rfl fun i hi => ⟨hi, rfl, rfl⟩
  | opens protocol hdomain htype hfree => exact h.opened (hfits rfl) _ protocol htype
  | @changes _ i k hnames hlive hmoves =>
    refine h.of_live rfl fun j hj => ?_
    rcases eq_or_ne j i with rfl | hne
    · rw [set_self]
      exact ⟨hlive, hmoves.fd_type⟩
    · rw [set_other hne] at hj ⊢
      exact ⟨hj, rfl, rfl⟩

/-! ### One call -/

theorem Moves.allowed {c : SockCall} {k k' : Socket} (h : Moves c k k') (hlive : k.state ≠ .closed)
    (htype : k.type = sockStream ∨ k.type = sockDgram) (hne : k'.state ≠ k.state) :
    Allowed c k k'.state := by
  cases h with
  | bind => exact absurd rfl hne
  | listen _ _ hcreated => exact ⟨hcreated, rfl⟩
  | connect _ _ _ hcreated =>
    refine ⟨hcreated, ?_⟩
    rcases htype with hstream | hdgram
    · exact .inl ⟨hstream, if_neg (by rw [hstream]; decide)⟩
    · exact .inr ⟨hdgram, if_pos hdgram⟩
  | close => exact ⟨hlive, rfl⟩

theorem Moves.named {c : SockCall} {k k' : Socket} (h : Moves c k k') (hnames : c.fd = some k.fd)
    (hlive : k.state ≠ .closed) : Named c k := by
  cases h <;> exact ⟨hnames, hlive⟩

/-- A call that changes no slot but `i`. -/
theorem Orderly.of_slot {s : Sockets} {c : SockCall} (i : Fin 16)
    (hother : ∀ j, j ≠ i → (sockStep s c).1.sockets j = s.sockets j)
    (hnamed : Named c (s.sockets i))
    (hallowed : ((sockStep s c).1.sockets i).state ≠ (s.sockets i).state →
      Allowed c (s.sockets i) ((sockStep s c).1.sockets i).state) : Orderly s c := by
  have honly : ∀ j, (sockStep s c).1.sockets j ≠ s.sockets j → j = i := fun j hj =>
    not_imp_comm.mp (hother j) hj
  refine ⟨fun j l hj hl => (honly j hj).trans (honly l hl).symm, fun j hj => ?_, fun j hj => ?_⟩
  · exact honly j hj ▸ hnamed
  · obtain rfl := honly j fun heq => hj (by rw [heq])
    exact hallowed hj

theorem Orderly.of_eq {s : Sockets} {c : SockCall} (h : (sockStep s c).1.sockets = s.sockets) :
    Orderly s c :=
  ⟨fun i _ hi => absurd (congrFun h i) hi, fun i hi => absurd (congrFun h i) hi,
    fun i hi => absurd (by rw [h]) hi⟩

/-- STEP: every call is orderly. -/
theorem TableOk.orderly {s : Sockets} (h : TableOk s) (c : SockCall) : Orderly s c := by
  have heffect := sockStep_effect s c
  generalize hs : (sockStep s c).1 = s' at heffect
  cases heffect with
  | idle => exact .of_eq (by rw [hs])
  | sends => exact .of_eq (by rw [hs])
  | @opens _ _ protocol i hdomain htype hfree =>
    have hclosed : (s.sockets i).state = .closed := of_decide_eq_true (search_some hfree)
    refine .of_slot i (fun j hj => by rw [hs, opened_other hj]) hclosed fun _ => ?_
    rw [hs]
    exact ⟨hclosed, (opened_self ..).2.2⟩
  | @changes _ i k hnames hlive hmoves =>
    refine .of_slot i (fun j hj => by rw [hs, set_other hj]) (hmoves.named hnames hlive) fun hne => ?_
    rw [hs, set_self] at hne ⊢
    exact hmoves.allowed hlive (h.typed i hlive) hne

/-! ### Closed descriptors -/

/-- The descriptor was given out before and no live socket has it. -/
def Retired (fd : ℤ) (s : Sockets) : Prop := fd < s.nextFd ∧ Gone fd s

theorem Retired.step {fd : ℤ} {s : Sockets} {c : SockCall} (h : TableOk s ∧ Retired fd s)
    (hfits : Fits s c) : TableOk (sockStep s c).1 ∧ Retired fd (sockStep s c).1 := by
  obtain ⟨hok, hlt, hgone⟩ := h
  refine ⟨hok.step hfits, ?_⟩
  have heffect := sockStep_effect s c
  generalize (sockStep s c).1 = s' at heffect
  cases heffect with
  | idle => exact ⟨hlt, hgone⟩
  | sends => exact ⟨hlt, hgone⟩
  | @opens _ _ protocol i hdomain htype hfree =>
    refine ⟨?_, fun j hj => ?_⟩
    · rw [opened_nextFd, succFd_eq hok.pos (hfits rfl)]
      omega
    · rcases eq_or_ne j i with rfl | hne
      · rw [(opened_self ..).1] at hj
        omega
      · rw [opened_other hne] at hj ⊢
        exact hgone j hj
  | @changes _ i k hnames hlive hmoves =>
    refine ⟨hlt, fun j hj => ?_⟩
    rcases eq_or_ne j i with rfl | hne
    · rw [set_self, hmoves.fd_type.1] at hj
      exact absurd (hgone j hj) hlive
    · rw [set_other hne] at hj ⊢
      exact hgone j hj

/-- A `close` that returned `0` retires the descriptor. -/
theorem TableOk.retired {s : Sockets} (h : TableOk s) {fd : ℤ}
    (hzero : (sockStep s (.close fd)).2.1 = 0) : Retired fd (sockStep s (.close fd)).1 := by
  change (close s fd).1 = 0 at hzero
  show Retired fd (close s fd).2
  cases hfound : lookup s fd with
  | none =>
    rw [close_of_no_lookup hfound] at hzero
    exact absurd hzero (by simp)
  | some i =>
    obtain ⟨⟨rfl, hlive⟩, -⟩ := lookup_eq_some.mp hfound
    rw [close_of_lookup hfound]
    refine ⟨(h.below i hlive).2, fun j hj => ?_⟩
    rcases eq_or_ne j i with rfl | hne
    · rw [set_self]
    · rw [set_other hne] at hj ⊢
      by_contra hopen
      exact hne (h.inj j i hopen hlive hj)

/-! ### Runs -/

/-- Only `socket` moves the counter, and by one. -/
theorem nextFd_step_le {s : Sockets} {c : SockCall} (h : TableOk s) (hfits : Fits s c) :
    (sockStep s c).1.nextFd ≤ s.nextFd + c.isSocket.toNat := by
  have heffect := sockStep_effect s c
  generalize (sockStep s c).1 = s' at heffect
  cases heffect with
  | idle => simp
  | sends => simp
  | opens protocol hdomain htype hfree =>
    rw [opened_nextFd, succFd_eq h.pos (hfits rfl)]
    rfl
  | changes => simp

/-- With fewer calls of `socket` than there are descriptors, the counter fits all along. -/
theorem along_fits_static (net : NetState) {calls : List SockCall}
    (hfew : calls.countP SockCall.isSocket < 2 ^ 31 - 1) :
    Along sockStep Fits (staticSockets net) calls := by
  have hG : ∀ (s : Sockets) (c : SockCall), TableOk s → True →
      s.nextFd + c.isSocket.toNat < 2 ^ 31 → Fits s c := by
    intro s c _ _ hlt hc
    rwa [hc] at hlt
  refine along_of_budget hG (fun s c h _ hfits => ⟨h.step hfits, nextFd_step_le h hfits⟩) calls _
    (tableOk_static net) (along_of_forall (fun _ _ => trivial) calls _) ?_
  show (1 : ℤ) + calls.countP SockCall.isSocket < 2 ^ 31
  omega

/-- RUN: a `close` that returned `0` retires its descriptor for the rest of the run. -/
theorem retired_after_close (net : NetState) {pre post : List SockCall} {fd : ℤ}
    (hfits : Along sockStep Fits (staticSockets net) (pre ++ SockCall.close fd :: post))
    (hzero : (sockStep (after sockStep (staticSockets net) pre) (.close fd)).2.1 = 0) :
    (TableOk (after sockStep (staticSockets net) (pre ++ [SockCall.close fd])) ∧
      Retired fd (after sockStep (staticSockets net) (pre ++ [SockCall.close fd]))) ∧
    Along sockStep Fits (after sockStep (staticSockets net) (pre ++ [SockCall.close fd])) post := by
  obtain ⟨hpre, hclose, hpost⟩ := (along_append ..).mp hfits
  have hok : TableOk (after sockStep (staticSockets net) pre) :=
    after_inv_along (fun _ _ => TableOk.step) pre _ hpre (tableOk_static net)
  rw [after_append]
  exact ⟨⟨hok.step hclose, hok.retired hzero⟩, hpost⟩

/-- RUN: the table is kept in every run with fewer than `2 ^ 31 - 1` calls of `socket`. -/
theorem socket_table_kept (net : NetState) (calls : List SockCall)
    (hfew : calls.countP SockCall.isSocket < 2 ^ 31 - 1) :
    Always sockStep LiveDistinct (staticSockets net) calls ∧
    Along sockStep Orderly (staticSockets net) calls ∧
    ∀ pre fd post, calls = pre ++ SockCall.close fd :: post →
      (sockStep (after sockStep (staticSockets net) pre) (.close fd)).2.1 = 0 →
      Always sockStep (Gone fd) (after sockStep (staticSockets net) (pre ++ [SockCall.close fd])) post := by
  have hfits := along_fits_static net hfew
  have hok := tableOk_static net
  refine ⟨?_, ?_, ?_⟩
  · exact (always_of_along (fun _ _ => TableOk.step) calls _ hfits hok).imp
      fun _ => TableOk.liveDistinct
  · exact Along.imp (fun _ _ => TableOk.step) (fun _ c h _ => h.orderly c) calls _ hok hfits
  · rintro pre fd post rfl hzero
    obtain ⟨hretired, hpost⟩ := retired_after_close net hfits hzero
    exact (always_of_along (fun _ _ => Retired.step) post _ hpost hretired).imp fun _ h => h.2.2

/-- A stream socket opened, bound, listening and closed, and a datagram socket in its slot. -/
def sampleCalls : List SockCall :=
  [.socket 2 1 6, .bind 1 #v[0, 0, 0, 0] 80, .listen 1 5, .close 1, .socket 2 2 17]

theorem socket_table_kept_sample :
    sampleCalls.countP SockCall.isSocket = 2 ∧
      Always sockStep LiveDistinct (staticSockets sampleHost) sampleCalls ∧
      Along sockStep Orderly (staticSockets sampleHost) sampleCalls ∧
      Always sockStep (Gone 1) (after sockStep (staticSockets sampleHost) (sampleCalls.take 4))
        [.socket 2 2 17] := by
  obtain ⟨hdistinct, horderly, hgone⟩ := socket_table_kept sampleHost sampleCalls (by decide)
  exact ⟨rfl, hdistinct, horderly, hgone (sampleCalls.take 3) 1 [.socket 2 2 17] rfl
    (by decide +kernel)⟩

end VlsOs.Net.Sock
