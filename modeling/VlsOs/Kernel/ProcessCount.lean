import VlsOs.Kernel.ProcessTable

/-! The cached number of processes against the table.

    `g_process_count` is changed beside the table: `process_spawn` adds one, `process_exit` and
    `process_kill` take one away, and the scheduler leaves it alone. Two calls change the table
    without the count, or the count without the table: a kill of a process that is TERMINATED
    already, and a switch that finds no READY process while slot 0 is TERMINATED, which sets slot 0
    RUNNING again.

        call                       live slots    count
        spawn                          + 1        + 1
        exit, kill of a live pid       − 1        − 1
        kill of a TERMINATED pid         0        − 1    ✗
        switch back to a dead slot 0   + 1          0    ✗ -/

namespace VlsOs.Proc
open Patterns

/-- READY, RUNNING or BLOCKED. -/
def live : ProcessState → Bool
  | .ready | .running | .blocked => true
  | .unused | .terminated => false

/-- The number of live slots. -/
def liveCount (m : ProcessManager) : ℕ := Table.count (fun p => live p.state) m.table

/-- `process_count()` is the number of live slots. -/
def CountRight (m : ProcessManager) : Prop := (processCount m).toNat = liveCount m

/-- The next switch makes a TERMINATED slot 0 RUNNING again. -/
def Reviving (m : ProcessManager) : Prop := stateOf m 0 = .terminated ∧ ∀ i, ¬ Ready m i

/-- The calls that keep the count right. -/
def CountKept (m : ProcessManager) : ProcOp → Prop
  | .spawn .. => True
  | .exit .. => ¬ ((m.currentPid = 0 ∨ stateOf m 0 = .terminated) ∧ ∀ i, ¬ Ready m i)
  | .kill pid _ => ∀ i : Fin maxProcesses, i ≠ 0 → pid = i →
    stateOf m i ≠ .terminated ∧ (m.currentPid = i → ¬ Reviving m)
  | .schedule => ¬ Reviving m
  | .tick => ∀ c : Fin maxProcesses, m.currentPid = c → sliceLeft (m.table c) = 0 → ¬ Reviving m

/-! ### Live slots under one write -/

/-- What a slot in the given state contributes to the count. -/
def weight (s : ProcessState) : ℕ := if live s then 1 else 0

@[simp] theorem weight_unused : weight .unused = 0 := rfl
@[simp] theorem weight_ready : weight .ready = 1 := rfl
@[simp] theorem weight_running : weight .running = 1 := rfl
@[simp] theorem weight_terminated : weight .terminated = 0 := rfl

theorem weight_of_live {s : ProcessState} (h : s ≠ .unused) (h' : s ≠ .terminated) :
    weight s = 1 := by
  cases s with
  | unused => exact absurd rfl h
  | terminated => exact absurd rfl h'
  | ready | running | blocked => rfl

theorem liveCount_setProc (m : ProcessManager) (i : Fin maxProcesses) (p : Process) :
    liveCount (m.setProc i p) + weight (stateOf m i) = liveCount m + weight p.state :=
  Table.count_update (fun p : Process => live p.state) m.table i p

theorem liveCount_le (m : ProcessManager) : liveCount m ≤ 32 := Table.count_le ..

/-- A RUNNING slot counts. -/
theorem one_le_liveCount {m : ProcessManager} {i : Fin maxProcesses} (h : stateOf m i = .running) :
    1 ≤ liveCount m := by
  have hclear := liveCount_setProc m i { m.table i with state := .unused }
  rw [h, weight_running, weight_unused] at hclear
  omega

/-! ### The scheduler and the count -/

theorem processSchedule_count {area : StackArea} {m : ProcessManager} (h : TableOk area m) :
    processCount (processSchedule m) = processCount m := by
  rw [processSchedule_eq h]
  rcases demoteCurrent_cases h with ⟨c, -, -, -, heq⟩ | ⟨heq, -⟩
  · rw [heq]
    rfl
  · rw [heq]
    rfl

theorem liveCount_demoteCurrent {area : StackArea} {m : ProcessManager} (h : TableOk area m) :
    liveCount (demoteCurrent m) = liveCount m := by
  rcases demoteCurrent_cases h with ⟨c, -, -, hrun, heq⟩ | ⟨heq, -⟩
  · have hset := liveCount_setProc m c { m.table c with state := .ready }
    rw [hrun, weight_running, weight_ready] at hset
    rw [heq]
    exact Nat.add_right_cancel hset
  · rw [heq]

/-- A switch adds to the live slots what the picked slot lacked. -/
theorem liveCount_processSchedule {area : StackArea} {m : ProcessManager} (h : TableOk area m) :
    liveCount (processSchedule m) + weight (stateOf m (processFindNext m)) = liveCount m + 1 := by
  have hset := liveCount_setProc { demoteCurrent m with currentPid := processFindNext m }
    (processFindNext m)
    { m.table (processFindNext m) with state := .running, ticks := processTimeSlice }
  have hstate : stateOf { demoteCurrent m with currentPid := processFindNext m }
      (processFindNext m) = stateOf m (processFindNext m) :=
    congrArg Process.state (processFindNext_kept h).2
  have hcount : liveCount { demoteCurrent m with currentPid := processFindNext m } = liveCount m :=
    liveCount_demoteCurrent h
  rw [← processSchedule_eq h, hstate, hcount] at hset
  exact hset

/-- The picked slot is live unless the switch revives slot 0. -/
theorem weight_processFindNext {area : StackArea} {m : ProcessManager} (h : TableOk area m) :
    weight (stateOf m (processFindNext m)) = 1 ↔ ¬ Reviving m := by
  rcases processFindNext_cases m with hready | ⟨hzero, hidle⟩
  · rw [stateOf, hready]
    exact iff_of_true rfl fun hrev => hrev.2 _ hready
  · rw [hzero]
    constructor
    · rintro hw ⟨hterm, -⟩
      rw [hterm] at hw
      cases hw
    · intro hrev
      exact weight_of_live h.kernel fun hterm => hrev ⟨hterm, hidle⟩

/-- EXACT, for the scheduler: it keeps the live slots unless it revives slot 0. -/
theorem liveCount_kept_iff {area : StackArea} {m : ProcessManager} (h : TableOk area m) :
    liveCount (processSchedule m) = liveCount m ↔ ¬ Reviving m := by
  rw [← weight_processFindNext h]
  have hsum := liveCount_processSchedule h
  constructor
  · intro heq
    rw [heq] at hsum
    exact Nat.add_left_cancel hsum
  · intro hw
    rw [hw] at hsum
    exact Nat.add_right_cancel hsum

/-- The same for the count of a table that the scheduler is entered with. -/
theorem countRight_schedule_iff {area : StackArea} {m : ProcessManager} (h : TableOk area m)
    (hc : CountRight m) : CountRight (processSchedule m) ↔ ¬ Reviving m := by
  rw [← liveCount_kept_iff h, CountRight, processSchedule_count h]
  exact ⟨fun heq => heq.symm.trans hc, fun heq => hc.trans heq.symm⟩

/-! ### One call -/

/-- Terminating a slot takes one away from the live slots exactly when the slot was live. -/
theorem liveCount_terminate (m : ProcessManager) (i : Fin maxProcesses) (exitCode : ℤ)
    (now : UInt32) :
    liveCount (m.setProc i { m.table i with
      exitCode := exitCode, state := .terminated, terminatedTicks := now }) +
        weight (stateOf m i) = liveCount m :=
  liveCount_setProc m i _

theorem toNat_sub_one {n : UInt8} (h : 1 ≤ n.toNat) : (n - 1).toNat = n.toNat - 1 :=
  UInt8.toNat_sub_of_le _ _ (UInt8.le_iff_toNat_le.mpr h)

/-- Terminating a live slot with the count one lower keeps the count right. -/
theorem countRight_terminate {m : ProcessManager} (hc : CountRight m) {i : Fin maxProcesses}
    (hi : weight (stateOf m i) = 1) (exitCode : ℤ) (now : UInt32) :
    CountRight { m.setProc i { m.table i with
        exitCode := exitCode, state := .terminated, terminatedTicks := now } with
      processCount := m.processCount - 1 } := by
  have hlive := liveCount_terminate m i exitCode now
  rw [hi] at hlive
  have hpos : 1 ≤ m.processCount.toNat := by
    rw [show m.processCount.toNat = liveCount m from hc, ← hlive]
    exact Nat.le_add_left ..
  change (m.processCount - 1).toNat = liveCount (m.setProc i _)
  rw [toNat_sub_one hpos, show m.processCount.toNat = liveCount m from hc, ← hlive]
  rfl

/-- After a slot that was not READY is terminated, the scheduler revives slot 0 if slot 0 is
    TERMINATED by then and no other slot is READY. -/
theorem reviving_terminate {m : ProcessManager} {i : Fin maxProcesses} (hi : ¬ Ready m i)
    (exitCode : ℤ) (now : UInt32) (n : UInt8) :
    Reviving { m.setProc i { m.table i with
        exitCode := exitCode, state := .terminated, terminatedTicks := now } with
      processCount := n } ↔ (i = 0 ∨ stateOf m 0 = .terminated) ∧ ∀ j, ¬ Ready m j := by
  refine and_congr ?_ (forall_congr' fun j => not_congr (ready_terminate hi exitCode now j))
  change stateOf (m.setProc i _) 0 = .terminated ↔ _
  rw [stateOf_setProc]
  split
  · rename_i h
    exact iff_of_true rfl (.inl h.symm)
  · rename_i h
    exact ⟨.inr, fun h' => h'.resolve_left fun h0 => h h0.symm⟩

theorem countKept_spawn {area : StackArea} {m : ProcessManager} (h : Settled area m)
    (hc : CountRight m) (name : List UInt8) (entryPoint : UInt32) (priority : UInt8)
    (now : UInt32) : CountRight (processSpawn area m name entryPoint priority now).2 := by
  rcases processSpawn_cases area h.1.nextPid.1 name entryPoint priority now with
    ⟨pid, -, hunused, next, -, -, heq⟩ | heq
  · have hset := liveCount_setProc m pid (spawned area m pid name entryPoint priority now)
    have hle := liveCount_le m
    rw [hunused, weight_unused] at hset
    rw [heq]
    change (m.processCount + 1).toNat = liveCount (m.setProc pid _)
    have hnew : liveCount (m.setProc pid (spawned area m pid name entryPoint priority now)) =
        liveCount m + 1 := hset
    rw [UInt8.toNat_add, show m.processCount.toNat = liveCount m from hc, hnew]
    exact Nat.mod_eq_of_lt (Nat.lt_of_le_of_lt (Nat.succ_le_succ hle) (by decide))
  · rw [heq]
    exact hc

/-- Between calls the current slot is RUNNING, by whatever name it goes. -/
theorem Settled.state_of_current {area : StackArea} {m : ProcessManager} (h : Settled area m)
    {i : Fin maxProcesses} (hi : m.currentPid = i) : stateOf m i = .running := by
  obtain ⟨-, c, hcur, hrun⟩ := h
  obtain rfl : c = i := Fin.ext (hcur.symm.trans hi)
  exact hrun

/-- A right count is positive between calls: the current slot is live. -/
theorem Settled.count_pos {area : StackArea} {m : ProcessManager} (h : Settled area m)
    (hc : CountRight m) : 1 ≤ m.processCount.toNat := by
  obtain ⟨-, c, -, hrun⟩ := h
  rw [show m.processCount.toNat = liveCount m from hc]
  exact one_le_liveCount hrun

/-- A kill of a TERMINATED slot takes the count down and leaves the live slots. -/
theorem count_wrong_of_dead {m : ProcessManager} (hc : CountRight m)
    (hpos : 1 ≤ m.processCount.toNat) {i : Fin maxProcesses} (hterm : stateOf m i = .terminated)
    (now : UInt32) :
    ¬ CountRight { m.setProc i { m.table i with
        exitCode := -1, state := .terminated, terminatedTicks := now } with
      processCount := m.processCount - 1 } := by
  intro hbad
  have hlive := liveCount_terminate m i (-1) now
  rw [hterm, weight_terminated, Nat.add_zero] at hlive
  have hbad' : (m.processCount - 1).toNat = liveCount (m.setProc i _) := hbad
  rw [hlive, toNat_sub_one hpos, show m.processCount.toNat = liveCount m from hc] at hbad'
  rw [show m.processCount.toNat = liveCount m from hc] at hpos
  omega

theorem countKept_kill {area : StackArea} {m : ProcessManager} (h : Settled area m)
    (hc : CountRight m) (pid : ℕ) (now : UInt32) :
    CountRight (processKill m pid now).2 ↔ CountKept m (.kill pid now) := by
  rcases processKill_cases m pid now with ⟨i, hi0, rfl, hused, heq⟩ | ⟨hfree, heq⟩
  · have hpos := h.count_pos hc
    have hdec : (if 0 < m.processCount then m.processCount - 1 else m.processCount) =
        m.processCount - 1 :=
      if_pos (UInt8.lt_iff_toNat_lt.mpr (Nat.lt_of_lt_of_le Nat.zero_lt_one hpos))
    have hkept : CountKept m (.kill i now) ↔
        stateOf m i ≠ .terminated ∧ (m.currentPid = i → ¬ Reviving m) := by
      constructor
      · intro h
        exact h i hi0 rfl
      · rintro h j - hj
        rwa [← Fin.ext hj]
    rw [heq, hkept, hdec]
    by_cases hterm : stateOf m i = .terminated
    · have hother : ¬ m.currentPid = i := by
        intro hi
        rw [h.state_of_current hi] at hterm
        cases hterm
      simp only [if_neg hother]
      exact iff_of_false (count_wrong_of_dead hc hpos hterm now) fun h => h.1 hterm
    · have hright := countRight_terminate hc (weight_of_live hused hterm) (-1) now
      have hkilled := (h.1.terminate hused (-1) now).setCount (m.processCount - 1)
      by_cases hi : m.currentPid = i
      · have hnot : ¬ Ready m i := by
          rw [Ready, ← stateOf, h.state_of_current hi]
          decide
        simp only [if_pos hi]
        rw [countRight_schedule_iff hkilled hright, reviving_terminate hnot]
        refine ⟨fun h => ⟨hterm, fun _ hrev => h ⟨.inr hrev.1, hrev.2⟩⟩, fun h hrev => ?_⟩
        exact h.2 hi ⟨hrev.1.resolve_left hi0, hrev.2⟩
      · simp only [if_neg hi]
        exact iff_of_true hright ⟨hterm, fun h => absurd h hi⟩
  · rw [heq]
    refine iff_of_true hc fun i hi0 hi => ?_
    have hunused := hfree i hi0 hi
    refine ⟨by rw [hunused]; decide, fun hi' => ?_⟩
    rw [h.state_of_current hi'] at hunused
    cases hunused

theorem countKept_tick {area : StackArea} {m : ProcessManager} (h : Settled area m)
    (hc : CountRight m) : CountRight (processTick m) ↔ CountKept m .tick := by
  obtain ⟨c, hcur, hrun, heq⟩ := processTick_eq h
  have hkept : CountKept m .tick ↔ (sliceLeft (m.table c) = 0 → ¬ Reviving m) := by
    constructor
    · intro h
      exact h c hcur
    · rintro h j hj
      rwa [← Fin.ext (hcur.symm.trans hj)]
  have hstate : ∀ i, stateOf (m.setProc c { m.table c with ticks := sliceLeft (m.table c) }) i =
      stateOf m i := by
    intro i
    rw [stateOf_setProc]
    split
    · rename_i hi
      rw [hi]
      rfl
    · rfl
  have hset := liveCount_setProc m c { m.table c with ticks := sliceLeft (m.table c) }
  have hright : CountRight (m.setProc c { m.table c with ticks := sliceLeft (m.table c) }) :=
    Eq.trans hc (Nat.add_right_cancel hset).symm
  have hrev : Reviving (m.setProc c { m.table c with ticks := sliceLeft (m.table c) }) ↔
      Reviving m := by
    refine and_congr (by rw [hstate]) (forall_congr' fun i => not_congr ?_)
    rw [Ready, ← stateOf, hstate]
    rfl
  rw [heq, hkept]
  by_cases hzero : sliceLeft (m.table c) = 0
  · simp only [if_pos hzero]
    rw [countRight_schedule_iff (h.1.setTicks hcur hrun _) hright, hrev]
    exact ⟨fun h _ => h, fun h => h hzero⟩
  · simp only [if_neg hzero]
    exact iff_of_true hright fun h => absurd h hzero

/-- EXACT, one call: from a settled table with a right count, the count stays right exactly for the
    calls that `CountKept` admits. -/
theorem countRight_step_iff {area : StackArea} {m : ProcessManager} (op : ProcOp)
    (h : Settled area m) (hc : CountRight m) :
    CountRight (procStep area m op).1 ↔ CountKept m op := by
  cases op with
  | spawn name entryPoint priority now =>
    exact iff_of_true (countKept_spawn h hc name entryPoint priority now) trivial
  | exit exitCode now =>
    obtain ⟨c, hcur, hrun, heq⟩ := processExit_eq h exitCode now
    have hused : stateOf m c ≠ .unused := by rw [hrun]; decide
    have hlive : weight (stateOf m c) = 1 := by rw [hrun]; rfl
    have hnot : ¬ Ready m c := by rw [Ready, ← stateOf, hrun]; decide
    have hzero : c = 0 ↔ m.currentPid = 0 := by rw [hcur, Fin.ext_iff]; rfl
    simp only [procStep, heq, CountKept]
    rw [countRight_schedule_iff ((h.1.terminate hused exitCode now).setCount _)
      (countRight_terminate hc hlive exitCode now), reviving_terminate hnot, hzero]
  | kill pid now => exact countKept_kill h hc pid now
  | schedule => exact countRight_schedule_iff h.1 hc
  | tick => exact countKept_tick h hc

/-- After `process_init` the kernel process is the one live slot. -/
theorem countRight_processInit (area : StackArea) (m : ProcessManager) :
    CountRight (processInit area m) := by
  have honly : (Finset.univ.filter fun i => live ((processInit area m).table i).state) = {0} := by
    ext i
    rw [Finset.mem_filter, Finset.mem_singleton]
    rcases eq_or_ne i 0 with rfl | hi
    · simp [processInit, live]
    · simp [processInit, live, hi]
  exact (congrArg Finset.card honly).symm

/-- EXACT: along a run from `process_init` the count is right in every state exactly when no call
    kills a TERMINATED process or lets the scheduler revive slot 0. -/
theorem process_count_right_iff (area : StackArea) (m₀ : ProcessManager) (ops : List ProcOp) :
    Run.Always (procStep area) CountRight (processInit area m₀) ops ↔
      Run.Along (procStep area) CountKept (processInit area m₀) ops :=
  Run.always_iff_along (I := Settled area) (fun _ op h => settled_step op h)
    (fun _ op h hc => countRight_step_iff op h hc) ops _ (processInit_settled area m₀)
    (countRight_processInit area m₀)

/-- The second kill of pid 1 is counted again, and a kernel process that exits with nothing else
    READY goes on RUNNING uncounted: either way one live slot and a count of zero. -/
theorem process_count_wrong :
    let killedTwice := Run.after (procStep sampleArea) (processInit sampleArea staticProcesses)
      [.spawn [97] 0x1000 1 0, .kill 1 0, .kill 1 0]
    let exited := Run.after (procStep sampleArea) (processInit sampleArea staticProcesses)
      [.exit 0 0]
    (processCount killedTwice = 0 ∧ liveCount killedTwice = 1 ∧ ¬ CountRight killedTwice) ∧
      (processCount exited = 0 ∧ liveCount exited = 1 ∧ ¬ CountRight exited) := by
  unfold CountRight
  decide

end VlsOs.Proc
