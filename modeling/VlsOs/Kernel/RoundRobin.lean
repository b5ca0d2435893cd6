import VlsOs.Kernel.ProcessTable

/-! Who gets the processor, and how soon.

    The scheduler picks the READY slot whose turn comes first after the current one. A user process
    that is switched away from goes back to READY, so the user processes take turns. The kernel
    process in slot 0 does not: it keeps the state RUNNING when another process becomes current, it
    is never READY, and it is picked only when nothing else is.

        one user process      0 ─▶ a ─▶ 0 ─▶ a ─▶ ⋯
        two or more           0 ─▶ a ─▶ b ─▶ a ─▶ b ─▶ ⋯     never 0 again

    The variant for a user process `i` is the number of user processes whose turn comes before that
    of `i`; a lone process that is current has to wait for slot 0 first. -/

namespace VlsOs.Proc
open Patterns

/-- READY or RUNNING. -/
def runnable : ProcessState → Bool
  | .ready | .running => true
  | .unused | .blocked | .terminated => false

/-- The user pids that are READY or RUNNING. -/
def users (m : ProcessManager) : Finset (Fin maxProcesses) :=
  Finset.univ.filter fun i => i ≠ 0 ∧ runnable (stateOf m i)

theorem mem_users {m : ProcessManager} {i : Fin maxProcesses} :
    i ∈ users m ↔ i ≠ 0 ∧ (stateOf m i = .ready ∨ stateOf m i = .running) := by
  rw [users, Finset.mem_filter]
  cases stateOf m i <;> simp [runnable]

/-- The call enters `process_schedule`. -/
def callsSchedule (m : ProcessManager) : ProcOp → Bool
  | .spawn .. => false
  | .exit .. => (processCurrent m).isSome
  | .kill pid _ => pid != 0 && (processGet m pid).isSome && m.currentPid == pid
  | .schedule => true
  | .tick =>
    match processCurrent m with
    | none => false
    | some c => sliceLeft (m.table c) == 0

/-- The call neither creates nor ends a process. -/
def ProcOp.switchOnly : ProcOp → Bool
  | .schedule | .tick => true
  | .spawn .. | .exit .. | .kill .. => false

/-- The call enters the scheduler and slot `i` comes out as the current one. -/
def Becomes (area : StackArea) (i : Fin maxProcesses) (m : ProcessManager) (op : ProcOp) : Prop :=
  callsSchedule m op = true ∧ (procStep area m op).1.currentPid = i

/-! ### Slot 0 and the user slots -/

/-- Slot 0 is never READY; nor is the table ever unsettled between calls. -/
def KernelFallback (area : StackArea) (m : ProcessManager) : Prop :=
  Settled area m ∧ stateOf m 0 ≠ .ready

/-- A switch keeps slot 0 from being READY. -/
theorem kernel_processSchedule {area : StackArea} {m : ProcessManager} (h : TableOk area m)
    (h0 : stateOf m 0 ≠ .ready) : stateOf (processSchedule m) 0 ≠ .ready := by
  rw [stateOf_processSchedule h]
  split
  · decide
  · rw [if_neg fun hne => hne.1 rfl]
    exact h0

/-- INVARIANT, one step. -/
theorem kernelFallback_step {area : StackArea} {m : ProcessManager} (op : ProcOp)
    (h : KernelFallback area m) : KernelFallback area (procStep area m op).1 := by
  obtain ⟨hm, h0⟩ := h
  have hfaded : ∀ {m'}, Fades m m' → stateOf m' 0 ≠ .ready := by
    intro m' hfades
    rcases hfades 0 with hsame | hdone
    · rwa [hsame]
    · rw [hdone]
      decide
  refine ⟨settled_step op hm, ?_⟩
  rcases procStep_cases op hm with
    ⟨pid, p, next, count, hunused, -, -, -, -, heq⟩ | ⟨m', hok', hfades, heq⟩ | ⟨-, hfades⟩
  · have hother : (0 : Fin maxProcesses) ≠ pid := by
      rintro rfl
      exact hm.1.kernel hunused
    rw [heq]
    exact ne_of_eq_of_ne ((stateOf_setProc m pid 0 _).trans (if_neg hother)) h0
  · rw [heq]
    exact kernel_processSchedule hok' (hfaded hfades)
  · exact hfaded hfades

theorem kernelFallback_processInit (area : StackArea) (m : ProcessManager) :
    KernelFallback area (processInit area m) := by
  refine ⟨processInit_settled area m, ?_⟩
  simp [stateOf, processInit]

theorem kernelFallback_run (area : StackArea) (m : ProcessManager) (ops : List ProcOp) :
    KernelFallback area (Run.after (procStep area) (processInit area m) ops) :=
  Run.after_inv (fun _ op h => kernelFallback_step op h) ops _ (kernelFallback_processInit area m)

/-- A READY slot is a user's. -/
theorem ready_mem_users {m : ProcessManager} (h0 : stateOf m 0 ≠ .ready) {i : Fin maxProcesses}
    (hi : Ready m i) : i ∈ users m := by
  refine mem_users.mpr ⟨?_, .inl hi⟩
  rintro rfl
  exact h0 hi

/-- A switch neither adds nor removes a user process. -/
theorem users_processSchedule {area : StackArea} {m : ProcessManager} (h : TableOk area m) :
    users (processSchedule m) = users m := by
  ext i
  rw [mem_users, mem_users]
  refine and_congr_right fun hi0 => ?_
  rw [stateOf_processSchedule h]
  split
  · rename_i hpick
    refine iff_of_true (.inr rfl) ?_
    rcases processFindNext_cases m with hready | ⟨hzero, -⟩
    · rw [hpick]
      exact .inl hready
    · exact absurd (hpick.trans hzero) hi0
  · split
    · rename_i hrun
      exact iff_of_true (.inl rfl) (.inr hrun.2)
    · rfl

/-! ### The variant -/

/-- How many switches slot `i` has to wait: one for each user process before it, and one for slot 0
    when `i` is current and alone. -/
def wait (m : ProcessManager) (i : Fin maxProcesses) : ℕ :=
  Table.before (users m) (m.currentPid + 1) i + if m.currentPid = i ∧ users m = {i} then 1 else 0

theorem cyclicPlace_eq (m : ProcessManager) (i : Fin maxProcesses) :
    cyclicPlace m i = Table.turn (m.currentPid + 1) i := Table.turn_mod ..

theorem wait_le {m : ProcessManager} {i : Fin maxProcesses} (hi : i ∈ users m) :
    wait m i ≤ (users m).card := by
  have hbefore := Table.before_lt_card hi (m.currentPid + 1)
  rw [wait]
  split <;> omega

/-- A user process that is not the current one is READY. -/
theorem ready_of_ne_current {area : StackArea} {m : ProcessManager} (h : TableOk area m)
    {i : Fin maxProcesses} (hi : i ∈ users m) (hcur : m.currentPid ≠ i) : Ready m i := by
  obtain ⟨hi0, hready | hrun⟩ := mem_users.mp hi
  · exact hready
  · exact absurd (h.running i hi0 hrun) hcur

/-- With no user process but the current one, a switch goes to slot 0. -/
theorem processFindNext_alone {area : StackArea} {m : ProcessManager} (h : KernelFallback area m)
    (halone : ∀ i ∈ users m, m.currentPid = i) : processFindNext m = 0 := by
  refine processFindNext_idle fun j hj => ?_
  obtain ⟨⟨-, c, hc, hrun⟩, h0⟩ := h
  obtain rfl : c = j := Fin.ext (hc.symm.trans (halone j (ready_mem_users h0 hj)))
  rw [Ready, ← stateOf, hrun] at hj
  cases hj

/-- With another one, it goes to a user process that no other READY one comes before. -/
theorem processFindNext_user {area : StackArea} {m : ProcessManager} (h : KernelFallback area m)
    {i : Fin maxProcesses} (hi : i ∈ users m) (hcur : m.currentPid ≠ i) :
    processFindNext m ∈ users m ∧
      ∀ k, Ready m k → cyclicPlace m (processFindNext m) ≤ cyclicPlace m k := by
  obtain ⟨hready, hfirst⟩ := processFindNext_first ⟨i, ready_of_ne_current h.1.1 hi hcur⟩
  exact ⟨ready_mem_users h.2 hready, hfirst⟩

/-- The pick comes before every other user process, the current one included. -/
theorem cyclicPlace_pick_lt {area : StackArea} {m : ProcessManager} (h : KernelFallback area m)
    (hfirst : ∀ k, Ready m k → cyclicPlace m (processFindNext m) ≤ cyclicPlace m k)
    {i : Fin maxProcesses} (hi : i ∈ users m) (hpick : processFindNext m ≠ i) :
    Table.turn (m.currentPid + 1) (processFindNext m) < Table.turn (m.currentPid + 1) i := by
  refine lt_of_le_of_ne ?_ fun heq => hpick (Table.turn_inj heq)
  rcases eq_or_ne m.currentPid i with hcur | hcur
  · have hlt := Table.turn_lt (m.currentPid + 1) (processFindNext m)
    rw [hcur, Table.turn_after_self] at *
    omega
  · rw [← cyclicPlace_eq, ← cyclicPlace_eq]
    exact hfirst i (ready_of_ne_current h.1.1 hi hcur)

/-- PROGRESS, one switch: slot `i` becomes current, or it has fewer switches to wait for. -/
theorem wait_processSchedule {area : StackArea} {m : ProcessManager} (h : KernelFallback area m)
    {i : Fin maxProcesses} (hi : i ∈ users m) :
    (processSchedule m).currentPid = i ∨ wait (processSchedule m) i < wait m i := by
  have hok := h.1.1
  rw [wait, wait, users_processSchedule hok, currentPid_processSchedule hok]
  by_cases halone : m.currentPid = i ∧ users m = {i}
  · have hzero : processFindNext m = 0 := by
      refine processFindNext_alone h fun j hj => ?_
      rw [halone.2, Finset.mem_singleton] at hj
      rw [hj, halone.1]
    have hi0 : i ≠ 0 := (mem_users.mp hi).1
    have hnot : ¬ ((processFindNext m : ℕ) = i ∧ users m = {i}) := by
      rintro ⟨hpick, -⟩
      exact hi0 ((Fin.ext hpick).symm.trans hzero)
    have hbefore := Table.before_lt_card hi (processFindNext m + 1)
    rw [halone.2, Finset.card_singleton, ← halone.2] at hbefore
    rw [if_pos halone, if_neg hnot]
    exact .inr (by omega)
  · obtain ⟨j, hj, hcur⟩ : ∃ j ∈ users m, m.currentPid ≠ j := by
      by_contra hno
      push Not at hno
      refine halone ⟨hno i hi, Finset.eq_singleton_iff_unique_mem.mpr ⟨hi, fun j hj => ?_⟩⟩
      exact Fin.ext ((hno j hj).symm.trans (hno i hi))
    obtain ⟨huser, hfirst⟩ := processFindNext_user h hj hcur
    by_cases hpick : processFindNext m = i
    · exact .inl (congrArg Fin.val hpick)
    · have hless := Table.before_after_lt huser (cyclicPlace_pick_lt h hfirst hi hpick)
      have hnot : ¬ ((processFindNext m : ℕ) = i ∧ users m = {i}) :=
        fun hsame => hpick (Fin.ext hsame.1)
      rw [if_neg halone, if_neg hnot]
      exact .inr hless

/-! ### Runs of switches -/

/-- The scheduler cannot tell the tables apart: same states, same current process. -/
structure SameView (m m' : ProcessManager) : Prop where
  states : ∀ i, stateOf m' i = stateOf m i
  current : m'.currentPid = m.currentPid

theorem SameView.users {m m' : ProcessManager} (h : SameView m m') : users m' = users m := by
  ext i
  rw [mem_users, mem_users, h.states]

theorem SameView.wait {m m' : ProcessManager} (h : SameView m m') (i : Fin maxProcesses) :
    wait m' i = wait m i := by
  rw [Proc.wait, Proc.wait, h.users, h.current]

/-- What a call that neither creates nor ends a process does: it switches, from a table that looks
    like this one, or it leaves a table that does. -/
theorem switchOnly_cases {area : StackArea} {m : ProcessManager} {op : ProcOp}
    (h : KernelFallback area m) (hop : op.switchOnly = true) :
    (callsSchedule m op = true ∧ ∃ m', KernelFallback area m' ∧ SameView m m' ∧
      (procStep area m op).1 = processSchedule m') ∨
    (callsSchedule m op = false ∧ SameView m (procStep area m op).1) := by
  cases op with
  | schedule => exact .inl ⟨rfl, m, h, ⟨fun _ => rfl, rfl⟩, rfl⟩
  | tick =>
    obtain ⟨hm, h0⟩ := h
    obtain ⟨c, hcur, hc, hrun⟩ := hm.processCurrent_eq
    obtain ⟨c', hc', -, heq⟩ := processTick_eq hm
    obtain rfl : c' = c := Fin.ext (hc'.symm.trans hc)
    have hview : SameView m (m.setProc c' { m.table c' with ticks := sliceLeft (m.table c') }) := by
      refine ⟨fun i => ?_, rfl⟩
      rw [stateOf_setProc]
      split
      · rename_i hi
        rw [hi]
        rfl
      · rfl
    have hticked : Settled area (m.setProc c' { m.table c' with ticks := sliceLeft (m.table c') }) :=
      ⟨hm.1.setTicks hc hrun _, c', hc, (hview.states c').trans hrun⟩
    simp only [callsSchedule, hcur, procStep, heq]
    by_cases hzero : sliceLeft (m.table c') = 0
    · rw [if_pos hzero]
      refine .inl ⟨beq_iff_eq.mpr hzero, _, ⟨hticked, ?_⟩, hview, rfl⟩
      rw [hview.states]
      exact h0
    · rw [if_neg hzero]
      exact .inr ⟨beq_eq_false_iff_ne.mpr hzero, hview⟩
  | spawn | exit | kill => cases hop

/-- Calls that neither create nor end a process keep the user processes. -/
theorem users_switchOnly {area : StackArea} {m : ProcessManager} {op : ProcOp}
    (h : KernelFallback area m) (hop : op.switchOnly = true) :
    users (procStep area m op).1 = users m := by
  rcases switchOnly_cases h hop with ⟨-, m', hm', hview, heq⟩ | ⟨-, hview⟩
  · rw [heq, users_processSchedule hm'.1.1, hview.users]
  · exact hview.users

/-- PROGRESS, in runs of switches: a variant that the scheduler can see and that every switch lowers,
    unless slot `i` becomes current, bounds how long slot `i` waits. -/
theorem becomes_of_variant {area : StackArea} {i : Fin maxProcesses}
    {P : Finset (Fin maxProcesses) → Prop} {variant : ProcessManager → ℕ}
    (hview : ∀ m m', SameView m m' → variant m' = variant m)
    (hgo : ∀ m, KernelFallback area m → P (users m) →
      (processSchedule m).currentPid = i ∨ variant (processSchedule m) < variant m)
    {m : ProcessManager} (hm : KernelFallback area m) (hP : P (users m)) {more : List ProcOp}
    (honly : ∀ op ∈ more, op.switchOnly = true)
    (hcalls : variant m < Run.tally (procStep area) callsSchedule m more) :
    Run.Sometime (procStep area) (Becomes area i) m more := by
  refine Run.sometime_of_tally (I := fun m => KernelFallback area m ∧ P (users m))
    (G := fun _ op => op.switchOnly = true) ?_ ?_ ?_ more m ⟨hm, hP⟩
    ((Run.along_iff_forall_mem more m).mpr honly) hcalls
  · rintro s op ⟨hs, husers⟩ hop
    refine ⟨kernelFallback_step op hs, ?_⟩
    rwa [users_switchOnly hs hop]
  · rintro s op ⟨hs, husers⟩ hop hcall
    rcases switchOnly_cases hs hop with ⟨-, s', hs', hsame, heq⟩ | ⟨hno, -⟩
    · rw [Becomes, heq, ← hview s s' hsame]
      rw [← hsame.users] at husers
      rcases hgo s' hs' husers with hcur | hless
      · exact .inl ⟨hcall, hcur⟩
      · exact .inr hless
    · rw [hno] at hcall
      cases hcall
  · rintro s op ⟨hs, -⟩ hop hcall
    rcases switchOnly_cases hs hop with ⟨hyes, -⟩ | ⟨-, hsame⟩
    · rw [hyes] at hcall
      cases hcall
    · exact le_of_eq (hview s _ hsame)

/-- PROGRESS: from every reachable state, in every run of `process_schedule` and `process_tick` calls
    that enters the scheduler more often than there are user processes, each of them becomes the
    current process. -/
theorem users_take_turns (area : StackArea) (m₀ : ProcessManager) (ops more : List ProcOp)
    (honly : ∀ op ∈ more, op.switchOnly = true) :
    let m := Run.after (procStep area) (processInit area m₀) ops
    (users m).card + 1 ≤ Run.tally (procStep area) callsSchedule m more →
      ∀ i ∈ users m, Run.Sometime (procStep area) (Becomes area i) m more := by
  intro m hcalls i hi
  have hm : KernelFallback area m := kernelFallback_run area m₀ ops
  exact becomes_of_variant (P := fun s => i ∈ s) (fun _ _ hsame => hsame.wait i)
    (fun _ hs hmem => wait_processSchedule hs hmem) hm hi honly
    (Nat.lt_of_lt_of_le (Nat.lt_succ_of_le (wait_le hi)) hcalls)

/-- Two processes spawned: three switches make the second of them current. -/
theorem users_take_turns_of_two :
    let m := Run.after (procStep sampleArea) (processInit sampleArea staticProcesses)
      [.spawn [97] 0x1000 200 0, .spawn [98] 0x2000 10 0]
    (users m).card = 2 ∧ 2 ∈ users m ∧
      Run.Sometime (procStep sampleArea) (Becomes sampleArea 2) m
        [.schedule, .schedule, .schedule] :=
  ⟨by decide, by decide, users_take_turns sampleArea staticProcesses _ _ (by decide) (by decide) 2
    (by decide)⟩

/-! ### The kernel process -/

/-- How many switches slot 0 has to wait when there is at most one user process. -/
def kernelWait (m : ProcessManager) : ℕ := if m.currentPid = 0 then (users m).card else 0

/-- PROGRESS, one switch, with at most one user process. -/
theorem kernelWait_processSchedule {area : StackArea} {m : ProcessManager}
    (h : KernelFallback area m) (hfew : (users m).card ≤ 1) :
    (processSchedule m).currentPid = (0 : Fin maxProcesses) ∨
      kernelWait (processSchedule m) < kernelWait m := by
  have hok := h.1.1
  rw [kernelWait, kernelWait, users_processSchedule hok, currentPid_processSchedule hok]
  by_cases halone : ∀ i ∈ users m, m.currentPid = i
  · exact .inl (congrArg Fin.val (processFindNext_alone h halone))
  · push Not at halone
    obtain ⟨i, hi, hcur⟩ := halone
    obtain ⟨huser, -⟩ := processFindNext_user h hi hcur
    have hpick : ¬ (processFindNext m : ℕ) = 0 :=
      fun hzero => (mem_users.mp huser).1 (Fin.ext hzero)
    -- the current process is no user process, for `i` is the only one
    have hzero : m.currentPid = 0 := by
      obtain ⟨-, c, hc, hrun⟩ := h.1
      by_contra hne
      have hc0 : c ≠ 0 := fun h0 => hne (hc.trans (congrArg Fin.val h0))
      have hci := Finset.card_le_one.mp hfew c (mem_users.mpr ⟨hc0, .inr hrun⟩) i hi
      exact hcur (hc.trans (congrArg Fin.val hci))
    rw [if_neg hpick, if_pos hzero]
    exact .inr (Finset.card_pos.mpr ⟨i, hi⟩)

/-- With two user processes no switch goes to slot 0. -/
theorem not_becomes_kernel {area : StackArea} {m : ProcessManager} {op : ProcOp}
    (h : KernelFallback area m) (hmany : 2 ≤ (users m).card) (hop : op.switchOnly = true) :
    ¬ Becomes area 0 m op := by
  rintro ⟨hcall, hzero⟩
  rcases switchOnly_cases h hop with ⟨-, m', hm', hview, heq⟩ | ⟨hno, -⟩
  · obtain ⟨i, hi, j, hj, hij⟩ := Finset.one_lt_card.mp hmany
    rw [← hview.users] at hi hj
    obtain ⟨k, hk, hcur⟩ : ∃ k ∈ users m', m'.currentPid ≠ k := by
      rcases eq_or_ne m'.currentPid i with hi' | hi'
      · exact ⟨j, hj, fun hj' => hij (Fin.ext (hi'.symm.trans hj'))⟩
      · exact ⟨i, hi, hi'⟩
    rw [heq, currentPid_processSchedule hm'.1.1] at hzero
    exact (mem_users.mp (processFindNext_user hm' hk hcur).1).1 (Fin.ext hzero)
  · rw [hno] at hcall
    cases hcall

/-- … nor does a run of switches, however long. -/
theorem kernel_starved {area : StackArea} {m : ProcessManager} (h : KernelFallback area m)
    (hmany : 2 ≤ (users m).card) {more : List ProcOp}
    (honly : ∀ op ∈ more, op.switchOnly = true) :
    ¬ Run.Sometime (procStep area) (Becomes area 0) m more := by
  refine Run.not_sometime (I := fun m => KernelFallback area m ∧ 2 ≤ (users m).card)
    (G := fun _ op => op.switchOnly = true) ?_ ?_ more m ⟨h, hmany⟩
    ((Run.along_iff_forall_mem more m).mpr honly)
  · rintro s op ⟨hs, htwo⟩ hop
    refine ⟨kernelFallback_step op hs, ?_⟩
    rwa [users_switchOnly hs hop]
  · rintro s op ⟨hs, htwo⟩ hop
    exact not_becomes_kernel hs htwo hop

/-- EXACT: from every reachable state, a run of `process_schedule` and `process_tick` calls that
    enters the scheduler at least `MAX_PROCESSES + 1` times makes pid 0 current exactly when at most
    one user process is READY or RUNNING. -/
theorem kernel_gets_turn_iff (area : StackArea) (m₀ : ProcessManager) (ops more : List ProcOp)
    (honly : ∀ op ∈ more, op.switchOnly = true) :
    let m := Run.after (procStep area) (processInit area m₀) ops
    maxProcesses + 1 ≤ Run.tally (procStep area) callsSchedule m more →
      (Run.Sometime (procStep area) (Becomes area 0) m more ↔ (users m).card ≤ 1) := by
  intro m hcalls
  have hm : KernelFallback area m := kernelFallback_run area m₀ ops
  constructor
  · intro hsome
    by_contra hmany
    exact kernel_starved hm (Nat.lt_of_not_le hmany) honly hsome
  · intro hfew
    have hwait : kernelWait m ≤ 1 := by
      rw [kernelWait]
      split <;> omega
    refine becomes_of_variant (P := fun s => s.card ≤ 1) ?_
      (fun _ hs hle => kernelWait_processSchedule hs hle) hm hfew honly ?_
    · intro s s' hsame
      rw [kernelWait, kernelWait, hsame.users, hsame.current]
    · exact Nat.lt_of_le_of_lt hwait (Nat.lt_of_lt_of_le (by decide) hcalls)

/-- With one user process the kernel process gets its turn. -/
theorem kernel_gets_turn_beside_one :
    let m := Run.after (procStep sampleArea) (processInit sampleArea staticProcesses)
      [.spawn [97] 0x1000 200 0]
    (users m).card ≤ 1 ∧ Run.Sometime (procStep sampleArea) (Becomes sampleArea 0) m
      (List.replicate 33 .schedule) :=
  ⟨by decide, (kernel_gets_turn_iff sampleArea staticProcesses _ (List.replicate 33 .schedule)
    (by decide) (by decide)).mpr (by decide)⟩

/-- With two, 33 calls of the scheduler pass it by, though it has not been terminated. -/
theorem kernel_passed_by :
    let m := Run.after (procStep sampleArea) (processInit sampleArea staticProcesses)
      [.spawn [97] 0x1000 200 0, .spawn [98] 0x2000 10 0]
    stateOf m 0 ≠ .terminated ∧
      Run.tally (procStep sampleArea) callsSchedule m (List.replicate 33 .schedule) =
        maxProcesses + 1 ∧
      ¬ Run.Sometime (procStep sampleArea) (Becomes sampleArea 0) m
        (List.replicate 33 .schedule) :=
  ⟨by decide, by decide, kernel_starved (kernelFallback_run sampleArea staticProcesses _)
    (by decide) (by decide)⟩

end VlsOs.Proc
