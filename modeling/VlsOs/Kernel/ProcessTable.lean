import VlsOs.Kernel.Scheduler

/-! The representation invariant of the process table.

    `process_exit` and `process_kill` call the scheduler on a table whose current slot has just been
    terminated, so the invariant comes in two parts: `TableOk` holds at every moment, also in the
    middle of an operation, and says nothing about the state of the current slot; the scheduler
    turns it into `TableOk` with a RUNNING current slot, which is what holds between operations.

        TableOk ∧ current RUNNING ──terminate──▶ TableOk ──schedule──▶ TableOk ∧ current RUNNING -/

namespace VlsOs.Proc
open Patterns

/-- The state of slot `i`. -/
def stateOf (m : ProcessManager) (i : Fin maxProcesses) : ProcessState := (m.table i).state

/-- Where the stack of slot `i` begins. -/
def slotBase (area : StackArea) (i : Fin maxProcesses) : UInt32 :=
  area.base + UInt32.ofNat i * processStackSize

/-- What a slot in use records about itself. -/
structure SlotOk (area : StackArea) (i : Fin maxProcesses) (p : Process) : Prop where
  pid : p.pid = i
  base : p.stackBase = slotBase area i
  size : p.stackSize = processStackSize

/-- INVARIANT of the table, kept by every write of every operation. -/
structure TableOk (area : StackArea) (m : ProcessManager) : Prop where
  current : m.currentPid < maxProcesses
  kernel : stateOf m 0 ≠ .unused
  slots : ∀ i, stateOf m i ≠ .unused → SlotOk area i (m.table i)
  running : ∀ i, i ≠ 0 → stateOf m i = .running → m.currentPid = i
  nextPid : 1 ≤ m.nextPid ∧ m.nextPid < maxProcesses

/-- Between two operations the current slot is RUNNING as well. -/
def Settled (area : StackArea) (m : ProcessManager) : Prop :=
  TableOk area m ∧ ∃ c : Fin maxProcesses, m.currentPid = c ∧ stateOf m c = .running

/-! ### Writes to one slot -/

@[simp] theorem setProc_table_self (m : ProcessManager) (i : Fin maxProcesses) (p : Process) :
    (m.setProc i p).table i = p := Function.update_self ..

theorem setProc_table_of_ne (m : ProcessManager) {i j : Fin maxProcesses} (p : Process)
    (h : j ≠ i) : (m.setProc i p).table j = m.table j := Function.update_of_ne h ..

theorem stateOf_setProc (m : ProcessManager) (i j : Fin maxProcesses) (p : Process) :
    stateOf (m.setProc i p) j = if j = i then p.state else stateOf m j := by
  by_cases h : j = i
  · rw [if_pos h, h, stateOf, setProc_table_self]
  · rw [if_neg h, stateOf, setProc_table_of_ne m p h, stateOf]

/-- A slot may be overwritten by any process record that fits it, if it does not become a second
    RUNNING user process. -/
theorem TableOk.setProc {area : StackArea} {m : ProcessManager} (h : TableOk area m)
    {i : Fin maxProcesses} {p : Process} (hp : SlotOk area i p) (hused : p.state ≠ .unused)
    (hrun : i ≠ 0 → p.state = .running → m.currentPid = i) : TableOk area (m.setProc i p) := by
  constructor
  · exact h.current
  · rw [stateOf_setProc]
    split
    · exact hused
    · exact h.kernel
  · intro j hj
    rcases eq_or_ne j i with rfl | hne
    · rw [setProc_table_self]
      exact hp
    · rw [setProc_table_of_ne m p hne]
      rw [stateOf_setProc, if_neg hne] at hj
      exact h.slots j hj
  · intro j hj0 hj
    rw [stateOf_setProc] at hj
    split at hj
    · rename_i hji
      subst hji
      exact hrun hj0 hj
    · exact h.running j hj0 hj
  · exact h.nextPid

/-- The count is not part of the invariant. -/
theorem TableOk.setCount {area : StackArea} {m : ProcessManager} (h : TableOk area m) (n : UInt8) :
    TableOk area { m with processCount := n } :=
  ⟨h.current, h.kernel, h.slots, h.running, h.nextPid⟩

theorem processCurrent_of_lt {m : ProcessManager} (h : m.currentPid < maxProcesses) :
    processCurrent m = some ⟨m.currentPid, h⟩ := dif_pos h

/-- In a settled table the current process is a RUNNING slot. -/
theorem Settled.processCurrent_eq {area : StackArea} {m : ProcessManager} (h : Settled area m) :
    ∃ c : Fin maxProcesses, processCurrent m = some c ∧ m.currentPid = c ∧ stateOf m c = .running := by
  obtain ⟨hok, c, hc, hrun⟩ := h
  refine ⟨c, ?_, hc, hrun⟩
  rw [processCurrent_of_lt hok.current]
  exact congrArg some (Fin.ext hc)

/-! ### The scheduler -/

/-- Demoting makes the RUNNING user process READY, if there is one, and else does nothing. -/
theorem demoteCurrent_cases {area : StackArea} {m : ProcessManager} (h : TableOk area m) :
    (∃ c : Fin maxProcesses, c ≠ 0 ∧ m.currentPid = c ∧ stateOf m c = .running ∧
      demoteCurrent m = m.setProc c { m.table c with state := .ready }) ∨
    (demoteCurrent m = m ∧ ∀ i, i ≠ 0 → stateOf m i ≠ .running) := by
  obtain ⟨c, hc⟩ : ∃ c : Fin maxProcesses, m.currentPid = c := ⟨⟨_, h.current⟩, rfl⟩
  have hcur : processCurrent m = some c := by
    rw [processCurrent_of_lt h.current]
    exact congrArg some (Fin.ext hc)
  unfold demoteCurrent
  rw [hcur]
  dsimp only
  split
  · rename_i hboth
    obtain ⟨hpid, hrun⟩ := hboth
    refine .inl ⟨c, ?_, hc, hrun, rfl⟩
    rintro rfl
    have hslot := h.slots 0 h.kernel
    exact hpid hslot.pid
  · rename_i hnot
    refine .inr ⟨rfl, fun i hi hrun => hnot ?_⟩
    -- a RUNNING user slot is the current one, and its pid is its index
    have hic : i = c := Fin.ext ((h.running i hi hrun).symm.trans hc)
    subst hic
    have hslot := h.slots i (by rw [hrun]; decide)
    refine ⟨?_, hrun⟩
    rw [hslot.pid]
    exact fun h0 => hi (Fin.ext h0)

theorem demoteCurrent_ok {area : StackArea} {m : ProcessManager} (h : TableOk area m) :
    TableOk area (demoteCurrent m) ∧ ∀ i, i ≠ 0 → stateOf (demoteCurrent m) i ≠ .running := by
  rcases demoteCurrent_cases h with ⟨c, -, hc, hrun, heq⟩ | ⟨heq, hnone⟩
  · rw [heq]
    have hslot := h.slots c (by rw [hrun]; decide)
    refine ⟨h.setProc ⟨hslot.pid, hslot.base, hslot.size⟩ ?_ ?_, fun i hi => ?_⟩
    · exact fun hbad => by cases hbad
    · exact fun _ hbad => by cases hbad
    · rw [stateOf_setProc]
      split
      · exact fun hbad => by cases hbad
      · rename_i hic
        exact fun hrun' => hic (Fin.ext ((h.running i hi hrun').symm.trans hc))
  · rw [heq]
    exact ⟨h, hnone⟩

/-- The slot the scheduler picks is in use, and demoting does not touch it. -/
theorem processFindNext_kept {area : StackArea} {m : ProcessManager} (h : TableOk area m) :
    stateOf m (processFindNext m) ≠ .unused ∧
      (demoteCurrent m).table (processFindNext m) = m.table (processFindNext m) := by
  have hpick : processFindNext m = 0 ∨ Ready m (processFindNext m) := by
    rcases processFindNext_cases m with hready | ⟨hzero, -⟩
    · exact .inr hready
    · exact .inl hzero
  constructor
  · rcases hpick with hzero | hready
    · rw [hzero]
      exact h.kernel
    · rw [stateOf, hready]
      decide
  · rcases demoteCurrent_cases h with ⟨c, hc0, -, hrun, heq⟩ | ⟨heq, -⟩
    · rw [heq]
      refine setProc_table_of_ne m _ ?_
      rcases hpick with hzero | hready
      · rw [hzero]
        exact hc0.symm
      · intro hsame
        rw [hsame, Ready, ← stateOf, hrun] at hready
        cases hready
    · rw [heq]

/-- The scheduler as two writes: the picked slot becomes current, then RUNNING. -/
theorem processSchedule_eq {area : StackArea} {m : ProcessManager} (h : TableOk area m) :
    processSchedule m =
      ProcessManager.setProc { demoteCurrent m with currentPid := processFindNext m }
        (processFindNext m)
        { m.table (processFindNext m) with state := .running, ticks := processTimeSlice } := by
  obtain ⟨hused, hkept⟩ := processFindNext_kept h
  simp only [processSchedule, hkept, (h.slots _ hused).pid, ProcessManager.setProc]

/-- What a switch does to the states: the pick is RUNNING and a RUNNING user process is READY. -/
theorem stateOf_processSchedule {area : StackArea} {m : ProcessManager} (h : TableOk area m)
    (i : Fin maxProcesses) :
    stateOf (processSchedule m) i =
      if i = processFindNext m then .running
      else if i ≠ 0 ∧ stateOf m i = .running then .ready else stateOf m i := by
  rw [processSchedule_eq h, stateOf_setProc]
  split
  · rfl
  · change stateOf (demoteCurrent m) i = _
    rcases demoteCurrent_cases h with ⟨c, hc0, hc, hrun, heq⟩ | ⟨heq, hnone⟩
    · rw [heq, stateOf_setProc]
      by_cases hic : i = c
      · subst hic
        rw [if_pos rfl, if_pos ⟨hc0, hrun⟩]
      · have hother : ¬ (i ≠ 0 ∧ stateOf m i = .running) := by
          rintro ⟨hi0, hi⟩
          exact hic (Fin.ext ((h.running i hi0 hi).symm.trans hc))
        rw [if_neg hic, if_neg hother]
    · rw [heq, if_neg fun hi => hnone i hi.1 hi.2]

theorem currentPid_processSchedule {area : StackArea} {m : ProcessManager} (h : TableOk area m) :
    (processSchedule m).currentPid = processFindNext m := by
  rw [processSchedule_eq h]
  rfl

/-- The scheduler settles any table that satisfies the invariant. -/
theorem processSchedule_settled {area : StackArea} {m : ProcessManager} (h : TableOk area m) :
    Settled area (processSchedule m) := by
  obtain ⟨hd, hnone⟩ := demoteCurrent_ok h
  have hslot := h.slots _ (processFindNext_kept h).1
  have hmoved : TableOk area { demoteCurrent m with currentPid := processFindNext m } :=
    ⟨(processFindNext m).isLt, hd.kernel, hd.slots, fun i hi hrun => absurd hrun (hnone i hi),
      hd.nextPid⟩
  rw [processSchedule_eq h]
  refine ⟨hmoved.setProc ⟨hslot.pid, hslot.base, hslot.size⟩ ?_ fun _ _ => rfl,
    processFindNext m, rfl, ?_⟩
  · exact fun hbad => by cases hbad
  · rw [stateOf, setProc_table_self]

/-! ### The operations -/

/-- The calls a process table sees after `process_init`. -/
inductive ProcOp
  | spawn (name : List UInt8) (entryPoint : UInt32) (priority : UInt8) (now : UInt32)
  | exit (exitCode : ℤ) (now : UInt32)
  | kill (pid : ℕ) (now : UInt32)
  | schedule
  | tick

/-- One call, with what it returns; a `void` function returns `0`. -/
def procStep (area : StackArea) (m : ProcessManager) : ProcOp → ProcessManager × ℤ
  | .spawn name entryPoint priority now =>
    ((processSpawn area m name entryPoint priority now).2,
      (processSpawn area m name entryPoint priority now).1)
  | .exit exitCode now => (processExit m exitCode now, 0)
  | .kill pid now => ((processKill m pid now).2, (processKill m pid now).1)
  | .schedule => (processSchedule m, 0)
  | .tick => (processTick m, 0)

/-- Allocation finds an UNUSED slot other than slot 0 and keeps `g_next_pid` in range, or it finds
    none and changes nothing. -/
theorem processAllocatePid_cases {m : ProcessManager} (hnext : 1 ≤ m.nextPid) :
    (∃ pid : Fin maxProcesses, pid ≠ 0 ∧ stateOf m pid = .unused ∧ ∃ next,
      1 ≤ next ∧ (m.nextPid < maxProcesses → next < maxProcesses) ∧
      processAllocatePid m = (some pid, { m with nextPid := next })) ∨
    processAllocatePid m = (none, m) := by
  unfold processAllocatePid
  split
  · rename_i pid hfound
    obtain ⟨hle, hunused⟩ := of_decide_eq_true (Table.first_some hfound)
    refine .inl ⟨pid, ?_, hunused, _, ?_, ?_, rfl⟩
    · rintro rfl
      exact absurd (hnext.trans hle) (by decide)
    · split <;> omega
    · intro _
      split <;> omega
  · cases hlow : Table.first fun i =>
        decide (1 ≤ i.val ∧ i.val < m.nextPid ∧ (m.table i).state = .unused) with
    | none => exact .inr rfl
    | some pid =>
      obtain ⟨hpos, -, hunused⟩ := of_decide_eq_true (Table.first_some hlow)
      refine .inl ⟨pid, ?_, hunused, m.nextPid, hnext, id, rfl⟩
      rintro rfl
      exact absurd hpos (by decide)

/-- A spawn fills one UNUSED user slot and counts it, or it fails and changes nothing. -/
theorem processSpawn_cases (area : StackArea) {m : ProcessManager} (hnext : 1 ≤ m.nextPid)
    (name : List UInt8) (entryPoint : UInt32) (priority : UInt8) (now : UInt32) :
    (∃ pid : Fin maxProcesses, pid ≠ 0 ∧ stateOf m pid = .unused ∧ ∃ next,
      1 ≤ next ∧ (m.nextPid < maxProcesses → next < maxProcesses) ∧
      processSpawn area m name entryPoint priority now =
        ((pid : ℤ), { m.setProc pid (spawned area m pid name entryPoint priority now) with
          nextPid := next, processCount := m.processCount + 1 })) ∨
    processSpawn area m name entryPoint priority now = (-1, m) := by
  rcases processAllocatePid_cases hnext with ⟨pid, hpid, hunused, next, h1, h2, heq⟩ | heq
  · refine .inl ⟨pid, hpid, hunused, next, h1, h2, ?_⟩
    simp only [processSpawn, heq, if_neg hpid]
    rfl
  · refine .inr ?_
    simp only [processSpawn, heq]

theorem spawned_slotOk (area : StackArea) (m : ProcessManager) (pid : Fin maxProcesses)
    (name : List UInt8) (entryPoint : UInt32) (priority : UInt8) (now : UInt32) :
    SlotOk area pid (spawned area m pid name entryPoint priority now) := ⟨rfl, rfl, rfl⟩

/-- Terminating a slot in use keeps the invariant, whatever is written beside the state. -/
theorem TableOk.terminate {area : StackArea} {m : ProcessManager} (h : TableOk area m)
    {i : Fin maxProcesses} (hused : stateOf m i ≠ .unused) (exitCode : ℤ) (now : UInt32) :
    TableOk area (m.setProc i { m.table i with
      exitCode := exitCode, state := .terminated, terminatedTicks := now }) := by
  have hslot := h.slots i hused
  refine h.setProc ⟨hslot.pid, hslot.base, hslot.size⟩ ?_ ?_
  · exact fun hbad => by cases hbad
  · exact fun _ hbad => by cases hbad

/-- Terminating a slot that is not READY leaves the READY slots as they are. -/
theorem ready_terminate {m : ProcessManager} {i : Fin maxProcesses} (hi : ¬ Ready m i)
    (exitCode : ℤ) (now : UInt32) (j : Fin maxProcesses) :
    Ready (m.setProc i { m.table i with
      exitCode := exitCode, state := .terminated, terminatedTicks := now }) j ↔ Ready m j := by
  rw [Ready, ← stateOf, stateOf_setProc]
  split
  · rename_i hj
    subst hj
    exact iff_of_false (by simp) hi
  · rfl

/-- A kill terminates a user slot in use; without one it fails and changes nothing. -/
theorem processKill_cases (m : ProcessManager) (pid : ℕ) (now : UInt32) :
    (∃ i : Fin maxProcesses, i ≠ 0 ∧ pid = i ∧ stateOf m i ≠ .unused ∧
      processKill m pid now =
        let killed := { m.setProc i { m.table i with
            exitCode := -1, state := .terminated, terminatedTicks := now } with
          processCount := if 0 < m.processCount then m.processCount - 1 else m.processCount }
        (0, if m.currentPid = i then processSchedule killed else killed)) ∨
    ((∀ i : Fin maxProcesses, i ≠ 0 → pid = i → stateOf m i = .unused) ∧
      processKill m pid now = (-1, m)) := by
  unfold processKill processGet
  by_cases hlt : pid < maxProcesses
  · obtain ⟨i, rfl⟩ : ∃ i : Fin maxProcesses, pid = i := ⟨⟨pid, hlt⟩, rfl⟩
    rw [dif_pos hlt]
    by_cases hunused : (m.table i).state = .unused
    · rw [if_pos hunused]
      refine .inr ⟨fun j _ hj => ?_, rfl⟩
      rwa [← Fin.ext hj]
    · rw [if_neg hunused]
      by_cases hzero : i = 0
      · subst hzero
        exact .inr ⟨fun j hj0 hj => absurd (Fin.ext hj.symm) hj0, rfl⟩
      · refine .inl ⟨i, hzero, rfl, hunused, ?_⟩
        exact if_neg fun h => hzero (Fin.ext h)
  · rw [dif_neg hlt]
    refine .inr ⟨fun i _ hi => absurd i.isLt ?_, rfl⟩
    rwa [← hi]

/-- A tick of a settled table counts the current slot's time slice down and reschedules at the end
    of the slice. -/
theorem processTick_eq {area : StackArea} {m : ProcessManager} (h : Settled area m) :
    ∃ c : Fin maxProcesses, m.currentPid = c ∧ stateOf m c = .running ∧
      processTick m =
        let ticked := m.setProc c { m.table c with ticks := sliceLeft (m.table c) }
        if sliceLeft (m.table c) = 0 then processSchedule ticked else ticked := by
  obtain ⟨c, hcur, hc, hrun⟩ := h.processCurrent_eq
  refine ⟨c, hc, hrun, ?_⟩
  simp only [processTick, hcur, setProc_table_self]

/-- An exit terminates the current slot and reschedules. -/
theorem processExit_eq {area : StackArea} {m : ProcessManager} (h : Settled area m) (exitCode : ℤ)
    (now : UInt32) :
    ∃ c : Fin maxProcesses, m.currentPid = c ∧ stateOf m c = .running ∧
      processExit m exitCode now =
        processSchedule { m.setProc c { m.table c with
            exitCode := exitCode, state := .terminated, terminatedTicks := now } with
          processCount := m.processCount - 1 } := by
  obtain ⟨c, hcur, hc, hrun⟩ := h.processCurrent_eq
  refine ⟨c, hc, hrun, ?_⟩
  simp only [processExit, hcur]

theorem TableOk.setTicks {area : StackArea} {m : ProcessManager} (h : TableOk area m)
    {c : Fin maxProcesses} (hc : m.currentPid = c) (hrun : stateOf m c = .running) (ticks : UInt8) :
    TableOk area (m.setProc c { m.table c with ticks := ticks }) := by
  have hused : stateOf m c ≠ .unused := by rw [hrun]; decide
  have hslot := h.slots c hused
  exact h.setProc ⟨hslot.pid, hslot.base, hslot.size⟩ hused fun _ _ => hc

/-! ### One step -/

/-- No slot changes its state but to TERMINATED. -/
def Fades (m m' : ProcessManager) : Prop :=
  ∀ i, stateOf m' i = stateOf m i ∨ stateOf m' i = .terminated

theorem Fades.refl (m : ProcessManager) : Fades m m := fun _ => .inl rfl

/-- A write that keeps the slot's state or terminates it. -/
theorem fades_setProc {m : ProcessManager} {i : Fin maxProcesses} {p : Process}
    (h : p.state = stateOf m i ∨ p.state = .terminated) : Fades m (m.setProc i p) := by
  intro j
  rw [stateOf_setProc]
  split
  · rename_i hji
    rwa [hji]
  · exact .inl rfl

/-- What a call does to a settled table: it fills an UNUSED user slot; or it terminates slots at
    most and then switches; or it terminates slots at most and leaves the current one RUNNING. -/
theorem procStep_cases {area : StackArea} {m : ProcessManager} (op : ProcOp) (h : Settled area m) :
    (∃ (pid : Fin maxProcesses) (p : Process) (next : ℕ) (count : UInt8),
      stateOf m pid = .unused ∧ SlotOk area pid p ∧ p.state = .ready ∧
      1 ≤ next ∧ next < maxProcesses ∧
      (procStep area m op).1 = { m.setProc pid p with nextPid := next, processCount := count }) ∨
    (∃ m', TableOk area m' ∧ Fades m m' ∧ (procStep area m op).1 = processSchedule m') ∨
    (Settled area (procStep area m op).1 ∧ Fades m (procStep area m op).1) := by
  have hok := h.1
  cases op with
  | spawn name entryPoint priority now =>
    rcases processSpawn_cases area hok.nextPid.1 name entryPoint priority now with
      ⟨pid, -, hunused, next, hn1, hn2, heq⟩ | heq
    · refine .inl ⟨pid, _, next, m.processCount + 1, hunused,
        spawned_slotOk area m pid name entryPoint priority now, rfl, hn1, hn2 hok.nextPid.2, ?_⟩
      simp only [procStep, heq]
    · simp only [procStep, heq]
      exact .inr (.inr ⟨h, Fades.refl m⟩)
  | exit exitCode now =>
    obtain ⟨c, -, hrun, heq⟩ := processExit_eq h exitCode now
    have hused : stateOf m c ≠ .unused := by rw [hrun]; decide
    have hfades : Fades m (m.setProc c { m.table c with
      exitCode := exitCode, state := .terminated, terminatedTicks := now }) :=
        fades_setProc (.inr rfl)
    exact .inr (.inl ⟨_, (hok.terminate hused exitCode now).setCount (m.processCount - 1), hfades,
      heq⟩)
  | kill pid now =>
    rcases processKill_cases m pid now with ⟨i, -, -, hused, heq⟩ | ⟨-, heq⟩
    · have hkilled := (hok.terminate hused (-1) now).setCount
        (if 0 < m.processCount then m.processCount - 1 else m.processCount)
      have hfades : Fades m (m.setProc i { m.table i with
        exitCode := -1, state := .terminated, terminatedTicks := now }) := fades_setProc (.inr rfl)
      obtain ⟨-, c, hc, hrun⟩ := h
      simp only [procStep, heq]
      split
      · exact .inr (.inl ⟨_, hkilled, hfades, rfl⟩)
      · rename_i hcur
        have hother : c ≠ i := by
          rintro rfl
          exact hcur hc
        refine .inr (.inr ⟨⟨hkilled, c, hc, ?_⟩, hfades⟩)
        exact (stateOf_setProc m i c _).trans ((if_neg hother).trans hrun)
    · simp only [procStep, heq]
      exact .inr (.inr ⟨h, Fades.refl m⟩)
  | schedule => exact .inr (.inl ⟨m, hok, Fades.refl m, rfl⟩)
  | tick =>
    obtain ⟨c, hc, hrun, heq⟩ := processTick_eq h
    have hticked := hok.setTicks hc hrun (sliceLeft (m.table c))
    have hfades : Fades m (m.setProc c { m.table c with ticks := sliceLeft (m.table c) }) :=
      fades_setProc (.inl rfl)
    simp only [procStep, heq]
    split
    · exact .inr (.inl ⟨_, hticked, hfades, rfl⟩)
    · refine .inr (.inr ⟨⟨hticked, c, hc, ?_⟩, hfades⟩)
      rw [stateOf, setProc_table_self]
      exact hrun

/-- INVARIANT, one step: every call leaves a settled table settled. -/
theorem settled_step {area : StackArea} {m : ProcessManager} (op : ProcOp) (h : Settled area m) :
    Settled area (procStep area m op).1 := by
  rcases procStep_cases op h with
    ⟨pid, p, next, count, hunused, hslot, hready, hn1, hn2, heq⟩ | ⟨m', hok', -, heq⟩ | ⟨hs, -⟩
  · obtain ⟨hok, c, hc, hrun⟩ := h
    have hset := hok.setProc hslot (by rw [hready]; decide) fun _ hbad => by
      rw [hready] at hbad
      cases hbad
    have hother : c ≠ pid := by
      rintro rfl
      rw [hrun] at hunused
      cases hunused
    rw [heq]
    refine ⟨⟨hset.current, hset.kernel, hset.slots, hset.running, hn1, hn2⟩, c, hc, ?_⟩
    exact (stateOf_setProc m pid c _).trans ((if_neg hother).trans hrun)
  · rw [heq]
    exact processSchedule_settled hok'
  · exact hs

theorem processInit_settled (area : StackArea) (m : ProcessManager) :
    Settled area (processInit area m) := by
  have hunused : ∀ i, i ≠ 0 → stateOf (processInit area m) i = .unused := by
    intro i hi
    simp only [stateOf, processInit, Function.update_of_ne hi]
  have hkernel : stateOf (processInit area m) 0 = .running := by
    simp only [stateOf, processInit, Function.update_self]
  have hslot : SlotOk area 0 ((processInit area m).table 0) := by
    constructor <;> simp only [processInit, Function.update_self]
    · rfl
    · exact (UInt32.add_zero _).symm
  refine ⟨⟨?_, ?_, ?_, ?_, ?_⟩, 0, rfl, hkernel⟩
  · exact Nat.zero_lt_succ _
  · rw [hkernel]
    decide
  · intro i hi
    rcases eq_or_ne i 0 with rfl | hi0
    · exact hslot
    · exact absurd (hunused i hi0) hi
  · intro i hi0 hi
    rw [hunused i hi0] at hi
    cases hi
  · exact ⟨Nat.le_refl 1, Nat.lt_of_sub_eq_succ rfl⟩

/-! ### Terminated slots -/

/-- The scheduler revives no user slot: it changes slot 0, READY slots and the RUNNING one. -/
theorem processSchedule_terminated {area : StackArea} {m : ProcessManager} (h : TableOk area m)
    {i : Fin maxProcesses} (hi : i ≠ 0) (hterm : stateOf m i = .terminated) :
    stateOf (processSchedule m) i = .terminated := by
  rw [stateOf_processSchedule h, hterm]
  have hpick : i ≠ processFindNext m := by
    rintro rfl
    rcases processFindNext_cases m with hready | ⟨hzero, -⟩
    · rw [stateOf, hready] at hterm
      cases hterm
    · exact hi hzero
  rw [if_neg hpick, if_neg]
  rintro ⟨-, hrun⟩
  cases hrun

/-- A user slot that is TERMINATED before a call is TERMINATED after it. -/
theorem terminated_step {area : StackArea} {m : ProcessManager} (op : ProcOp) (h : Settled area m)
    {i : Fin maxProcesses} (hi : i ≠ 0) (hterm : stateOf m i = .terminated) :
    stateOf (procStep area m op).1 i = .terminated := by
  have hstill : ∀ {m'}, Fades m m' → stateOf m' i = .terminated := by
    intro m' hfades
    rcases hfades i with hsame | hdone
    · rw [hsame, hterm]
    · exact hdone
  rcases procStep_cases op h with
    ⟨pid, p, next, count, hunused, -, -, -, -, heq⟩ | ⟨m', hok', hfades, heq⟩ | ⟨-, hfades⟩
  · have hother : i ≠ pid := by
      rintro rfl
      rw [hterm] at hunused
      cases hunused
    rw [heq]
    exact (stateOf_setProc m pid i _).trans ((if_neg hother).trans hterm)
  · rw [heq]
    exact processSchedule_terminated hok' hi (hstill hfades)
  · exact hstill hfades

/-! ### The table in every reachable state -/

/-- The addresses of a process's stack. -/
def stackOf (p : Process) : Set ℕ :=
  Set.Ico p.stackBase.toNat (p.stackBase.toNat + p.stackSize.toNat)

/-- The slots of the stack array do not run into each other or past the end of memory. -/
theorem slotBase_toNat (area : StackArea) (i : Fin maxProcesses) :
    (slotBase area i).toNat = area.base.toNat + i * 4096 := by
  have hfits := area.fits
  have hi := i.isLt
  have hidx : (UInt32.ofNat i).toNat = i := UInt32.toNat_ofNat_of_lt' (hi.trans (by decide))
  have hsize : processStackSize.toNat = 4096 := rfl
  rw [hsize] at hfits
  rw [slotBase, UInt32.toNat_add, UInt32.toNat_mul, hidx, hsize]
  omega

theorem stackOf_eq {area : StackArea} {i : Fin maxProcesses} {p : Process} (h : SlotOk area i p) :
    stackOf p = Set.Ico (area.base.toNat + i * 4096) (area.base.toNat + i * 4096 + 4096) := by
  rw [stackOf, h.base, h.size, slotBase_toNat]
  rfl

theorem stackOf_disjoint {area : StackArea} {i j : Fin maxProcesses} {p q : Process}
    (hp : SlotOk area i p) (hq : SlotOk area j q) (hij : i ≠ j) :
    Disjoint (stackOf p) (stackOf q) := by
  rw [stackOf_eq hp, stackOf_eq hq, Set.Ico_disjoint_Ico]
  have hne : i.val ≠ j.val := fun h => hij (Fin.ext h)
  omega

/-- The stack pointer of a new process points into its own stack. -/
theorem spawned_esp (area : StackArea) (m : ProcessManager) (pid : Fin maxProcesses)
    (name : List UInt8) (entryPoint : UInt32) (priority : UInt8) (now : UInt32) :
    (spawned area m pid name entryPoint priority now).context.esp.toNat ∈
      stackOf (spawned area m pid name entryPoint priority now) := by
  have hbase := slotBase_toNat area pid
  have hfits := area.fits
  have hpid := pid.isLt
  have hsize : processStackSize.toNat = 4096 := rfl
  rw [hsize] at hfits
  rw [stackOf_eq (spawned_slotOk area m pid name entryPoint priority now), Set.mem_Ico]
  change _ ≤ (slotBase area pid + processStackSize - 4).toNat ∧
    (slotBase area pid + processStackSize - 4).toNat < _
  have htop : (slotBase area pid + processStackSize - 4).toNat =
      area.base.toNat + pid * 4096 + 4092 := by
    rw [UInt32.toNat_sub, UInt32.toNat_add, hbase, hsize]
    change (2 ^ 32 - 4 + (area.base.toNat + pid * 4096 + 4096) % 2 ^ 32) % 2 ^ 32 = _
    omega
  omega

/-- The representation invariant, as a user of the table reads it. -/
structure TableSound (m : ProcessManager) : Prop where
  current : ∃ c : Fin maxProcesses, m.currentPid = c ∧ stateOf m c = .running
  pids : ∀ i, stateOf m i ≠ .unused → (m.table i).pid = i
  running : ∀ i, i ≠ 0 → stateOf m i = .running → m.currentPid = i
  nextPid : 1 ≤ m.nextPid ∧ m.nextPid < maxProcesses
  stacksApart : ∀ i j, i ≠ j → stateOf m i ≠ .unused → stateOf m j ≠ .unused →
    Disjoint (stackOf (m.table i)) (stackOf (m.table j))

theorem Settled.sound {area : StackArea} {m : ProcessManager} (h : Settled area m) :
    TableSound m := by
  obtain ⟨hok, hcurrent⟩ := h
  exact ⟨hcurrent, fun i hi => (hok.slots i hi).pid, hok.running, hok.nextPid,
    fun i j hij hi hj => stackOf_disjoint (hok.slots i hi) (hok.slots j hj) hij⟩

theorem settled_run (area : StackArea) (m : ProcessManager) (ops : List ProcOp) :
    Settled area (Run.after (procStep area) (processInit area m) ops) :=
  Run.after_inv (fun _ op h => settled_step op h) ops _ (processInit_settled area m)

theorem terminated_run {area : StackArea} {i : Fin maxProcesses} (hi : i ≠ 0)
    {m : ProcessManager} (h : Settled area m) (hterm : stateOf m i = .terminated)
    (ops : List ProcOp) : stateOf (Run.after (procStep area) m ops) i = .terminated := by
  have hstep : ∀ m op, Settled area m ∧ stateOf m i = .terminated →
      Settled area (procStep area m op).1 ∧ stateOf (procStep area m op).1 i = .terminated := by
    rintro m op ⟨hm, ht⟩
    exact ⟨settled_step op hm, terminated_step op hm hi ht⟩
  exact (Run.after_inv hstep ops m ⟨h, hterm⟩).2

/-- INVARIANT: in every state reachable from `process_init`, whatever stood in memory before it, the
    table is sound; a TERMINATED user slot stays TERMINATED in every continuation; and the slot a
    successful spawn fills has its stack pointer inside its own stack. -/
theorem process_table_sound (area : StackArea) (m₀ : ProcessManager) (ops : List ProcOp) :
    let m := Run.after (procStep area) (processInit area m₀) ops
    TableSound m ∧
      (∀ i, i ≠ 0 → stateOf m i = .terminated →
        ∀ more, stateOf (Run.after (procStep area) m more) i = .terminated) ∧
      (∀ name entryPoint priority now (i : Fin maxProcesses),
        (processSpawn area m name entryPoint priority now).1 = i →
        let slot := (processSpawn area m name entryPoint priority now).2.table i
        slot.state = .ready ∧ slot.context.esp.toNat ∈ stackOf slot) := by
  intro m
  have hm : Settled area m := settled_run area m₀ ops
  refine ⟨hm.sound, fun i hi hterm more => terminated_run hi hm hterm more, ?_⟩
  intro name entryPoint priority now i hret
  rcases processSpawn_cases area hm.1.nextPid.1 name entryPoint priority now with
    ⟨pid, -, -, next, -, -, heq⟩ | heq
  · rw [heq] at hret ⊢
    have hpid : pid = i := Fin.ext (Int.ofNat_inj.mp hret)
    subst hpid
    simp only [setProc_table_self]
    exact ⟨rfl, spawned_esp area m pid name entryPoint priority now⟩
  · rw [heq] at hret
    exact absurd hret (by simp only; omega)

end VlsOs.Proc
