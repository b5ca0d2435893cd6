import VlsOs.Kernel.ProcessTable

/-! What becomes of the slots of the process table.

    A user slot is UNUSED until `process_spawn` fills it. No operation makes a slot UNUSED again: a
    process that ends leaves its slot TERMINATED, and the search of `process_allocate_pid` passes it
    by, going round the table or not. So the table serves 31 spawns and no more.

        UNUSED ──spawn──▶ READY, RUNNING ──exit, kill──▶ TERMINATED     no way back

    Slot 0 can end too: `process_kill` refuses pid 0, `process_exit` does not, and the scheduler
    takes slot 0 back only when no other slot is READY. -/

namespace VlsOs.Proc
open Patterns

/-! ### Free slots -/

/-- The user slots that are UNUSED. -/
def freeSlots (m : ProcessManager) : Finset (Fin maxProcesses) :=
  Finset.univ.filter fun i => i ≠ 0 ∧ stateOf m i = .unused

theorem mem_freeSlots {m : ProcessManager} {i : Fin maxProcesses} :
    i ∈ freeSlots m ↔ i ≠ 0 ∧ stateOf m i = .unused := by
  rw [freeSlots, Finset.mem_filter]
  exact and_iff_right (Finset.mem_univ i)

def ProcOp.isSpawn : ProcOp → Bool
  | .spawn .. => true
  | .exit .. | .kill .. | .schedule | .tick => false

/-- The two searches of the allocation together miss no UNUSED user slot. -/
theorem processAllocatePid_none {m : ProcessManager} (h : (processAllocatePid m).1 = none) :
    freeSlots m = ∅ := by
  rw [Finset.eq_empty_iff_forall_notMem]
  intro i hi
  obtain ⟨hi0, hunused⟩ := mem_freeSlots.mp hi
  have hpos : 1 ≤ i.val := Nat.one_le_iff_ne_zero.mpr fun h0 => hi0 (Fin.ext h0)
  unfold processAllocatePid at h
  split at h
  · cases h
  · rename_i hhigh
    -- a slot that the first search does not see is below `g_next_pid`
    have hbelow := of_decide_eq_false (Table.first_none.mp hhigh i)
    have habove := of_decide_eq_false (Table.first_none.mp h i)
    rcases Nat.lt_or_ge i.val m.nextPid with hlt | hge
    · exact habove ⟨hpos, hlt, hunused⟩
    · exact hbelow ⟨hge, hunused⟩

/-- A spawn takes one of the free slots; without one it fails and changes nothing. -/
theorem processSpawn_free (area : StackArea) {m : ProcessManager} (hnext : 1 ≤ m.nextPid)
    (name : List UInt8) (entryPoint : UInt32) (priority : UInt8) (now : UInt32) :
    (∃ pid ∈ freeSlots m, (processSpawn area m name entryPoint priority now).1 = (pid : ℤ) ∧
      freeSlots (processSpawn area m name entryPoint priority now).2 = (freeSlots m).erase pid) ∨
    (freeSlots m = ∅ ∧ processSpawn area m name entryPoint priority now = (-1, m)) := by
  rcases processSpawn_cases area hnext name entryPoint priority now with
    ⟨pid, hpid, hunused, next, -, -, heq⟩ | heq
  · refine .inl ⟨pid, mem_freeSlots.mpr ⟨hpid, hunused⟩, by rw [heq], ?_⟩
    ext i
    have hstate : stateOf (processSpawn area m name entryPoint priority now).2 i =
        if i = pid then .ready else stateOf m i := by
      rw [heq]
      exact stateOf_setProc m pid i _
    rw [Finset.mem_erase, mem_freeSlots, mem_freeSlots, hstate]
    by_cases hi : i = pid
    · simp [hi]
    · simp [hi]
  · refine .inr ⟨?_, heq⟩
    cases halloc : (processAllocatePid m).1 with
    | none => exact processAllocatePid_none halloc
    | some pid =>
      rcases processAllocatePid_cases hnext with ⟨pid', hpid', -, next, -, -, heq'⟩ | heq'
      · simp only [processSpawn, heq', if_neg hpid'] at heq
        have hneg := congrArg Prod.fst heq
        simp only at hneg
        omega
      · rw [heq'] at halloc
        cases halloc

/-- CORRECT: a spawn succeeds exactly when a user slot is free. -/
theorem processSpawn_succeeds_iff (area : StackArea) {m : ProcessManager} (hnext : 1 ≤ m.nextPid)
    (name : List UInt8) (entryPoint : UInt32) (priority : UInt8) (now : UInt32) :
    (1 ≤ (processSpawn area m name entryPoint priority now).1 ∧
      (processSpawn area m name entryPoint priority now).1 ≤ 31) ↔ 0 < (freeSlots m).card := by
  rcases processSpawn_free area hnext name entryPoint priority now with
    ⟨pid, hfree, hret, -⟩ | ⟨hempty, heq⟩
  · have hpos : pid.val ≠ 0 := fun h0 => (mem_freeSlots.mp hfree).1 (Fin.ext h0)
    have hlt : pid.val < 32 := pid.isLt
    refine iff_of_true ?_ (Finset.card_pos.mpr ⟨pid, hfree⟩)
    rw [hret]
    omega
  · refine iff_of_false ?_ ?_
    · rw [heq]
      rintro ⟨hone, -⟩
      exact absurd hone (by decide : ¬ (1 : ℤ) ≤ -1)
    · rw [hempty]
      decide

/-- The slot that a spawn fills in holds the first 31 characters of the name, and a NUL. -/
theorem spawned_name (area : StackArea) (m : ProcessManager) (pid : Fin maxProcesses)
    (name : List UInt8) (entryPoint : UInt32) (priority : UInt8) (now : UInt32) :
    Libc.text (spawned area m pid name entryPoint priority now).name =
        (Libc.text name).take 31 ∧
      ((m.table pid).name.length = 32 →
        (spawned area m pid name entryPoint priority now).name.length = 32 ∧
          0 ∈ (spawned area m pid name entryPoint priority now).name) := by
  refine ⟨Libc.text_strncpy .., fun hsize => ?_⟩
  have hlength : (Libc.strncpy (m.table pid).name name 31).length = 32 := by
    rw [Libc.length_strncpy (by omega), hsize]
  refine ⟨List.length_set.trans hlength, List.mem_set ?_ 0⟩
  rw [hlength]
  decide

/-- CORRECT: whatever stands in the table, with `g_next_pid` in 1 to 31. A spawn returns `-1` exactly
    if no user slot is UNUSED, and changes no slot then. Otherwise it fills one slot that was UNUSED,
    whose index it returns, and changes no other. -/
theorem spawn_complete_and_local (area : StackArea) {m : ProcessManager}
    (hnext : 1 ≤ m.nextPid ∧ m.nextPid ≤ 31) (name : List UInt8) (entryPoint : UInt32)
    (priority : UInt8) (now : UInt32) :
    let result := (processSpawn area m name entryPoint priority now).1
    let m' := (processSpawn area m name entryPoint priority now).2
    (result = -1 ↔ ∀ i, i ≠ 0 → stateOf m i ≠ .unused) ∧
      (result = -1 → m'.table = m.table) ∧
      (result ≠ -1 → ∃ pid : Fin maxProcesses, pid ≠ 0 ∧ result = (pid : ℤ) ∧
        stateOf m pid = .unused ∧ stateOf m' pid = .ready ∧ (m'.table pid).pid = pid ∧
        (m'.table pid).parentPid = m.currentPid ∧
        Libc.text (m'.table pid).name = (Libc.text name).take 31 ∧
        ((m.table pid).name.length = 32 →
          (m'.table pid).name.length = 32 ∧ 0 ∈ (m'.table pid).name) ∧
        ∀ j, j ≠ pid → m'.table j = m.table j) ∧
      1 ≤ m'.nextPid ∧ m'.nextPid ≤ 31 := by
  intro result m'
  rcases processSpawn_cases area hnext.1 name entryPoint priority now with
    ⟨pid, hpid, hunused, next, hn1, hn2, heq⟩ | heq
  · have hresult : result = (pid : ℤ) := congrArg Prod.fst heq
    have hm' : m' = { m.setProc pid (spawned area m pid name entryPoint priority now) with
        nextPid := next, processCount := m.processCount + 1 } := congrArg Prod.snd heq
    have hslot : m'.table pid = spawned area m pid name entryPoint priority now := by
      rw [hm']
      exact setProc_table_self ..
    have hne : result ≠ -1 := by
      rw [hresult]
      omega
    obtain ⟨htext, harray⟩ := spawned_name area m pid name entryPoint priority now
    refine ⟨iff_of_false hne fun hused => hused pid hpid hunused, fun h => absurd h hne, fun _ => ?_,
      ?_⟩
    · refine ⟨pid, hpid, hresult, hunused, ?_, ?_, ?_, ?_, ?_, fun j hj => ?_⟩
      · rw [stateOf, hslot]
        rfl
      · rw [hslot]
        rfl
      · rw [hslot]
        rfl
      · rw [hslot, htext]
      · rw [hslot]
        exact harray
      · rw [hm']
        exact setProc_table_of_ne m _ hj
    · rw [hm']
      exact ⟨hn1, Nat.le_of_lt_succ (hn2 (Nat.lt_succ_of_le hnext.2))⟩
  · have hresult : result = -1 := congrArg Prod.fst heq
    have hm' : m' = m := congrArg Prod.snd heq
    have hempty : freeSlots m = ∅ := by
      rcases processSpawn_free area hnext.1 name entryPoint priority now with
        ⟨pid, -, hret, -⟩ | ⟨hempty, -⟩
      · have hbad : (pid : ℤ) = -1 := hret.symm.trans hresult
        omega
      · exact hempty
    refine ⟨iff_of_true hresult fun i hi hunused => ?_, fun _ => by rw [hm'],
      fun h => absurd hresult h, ?_⟩
    · exact Finset.notMem_empty i (hempty ▸ mem_freeSlots.mpr ⟨hi, hunused⟩)
    · rw [hm']
      exact hnext

/-- The theorem on a table in which slot 1 alone has been used: the cursor is at 2. -/
theorem spawn_complete_and_local_sample :
    let m := (processSpawn sampleArea (processInit sampleArea staticProcesses) [97] 0x1000 10 0).2
    (1 ≤ m.nextPid ∧ m.nextPid ≤ 31) ∧
      (processSpawn sampleArea m [98] 0x2000 10 0).1 ≠ -1 := by
  intro m
  have hnext : 1 ≤ m.nextPid ∧ m.nextPid ≤ 31 := by decide
  refine ⟨hnext, fun hfull => ?_⟩
  have hused := (spawn_complete_and_local sampleArea hnext [98] 0x2000 10 0).1.mp hfull 2 (by decide)
  exact hused (by decide)

/-! ### Every other call leaves the free slots alone -/

/-- A write to a slot in use that keeps it in use. -/
theorem freeSlots_setProc {m : ProcessManager} {i : Fin maxProcesses} {p : Process}
    (hused : stateOf m i ≠ .unused) (hp : p.state ≠ .unused) :
    freeSlots (m.setProc i p) = freeSlots m := by
  ext j
  rw [mem_freeSlots, mem_freeSlots, stateOf_setProc]
  by_cases hj : j = i
  · simp [hj, hused, hp]
  · simp [hj]

theorem freeSlots_processSchedule {area : StackArea} {m : ProcessManager} (h : TableOk area m) :
    freeSlots (processSchedule m) = freeSlots m := by
  ext i
  rw [mem_freeSlots, mem_freeSlots, stateOf_processSchedule h]
  refine and_congr_right fun _ => ?_
  split
  · rename_i hpick
    have hused := (processFindNext_kept h).1
    rw [← hpick] at hused
    exact iff_of_false (by decide) hused
  · split
    · rename_i hrun
      rw [hrun.2]
      decide
    · rfl

/-- One call takes a free slot if it is a spawn, and none otherwise. -/
theorem freeSlots_step {area : StackArea} {m : ProcessManager} (op : ProcOp) (h : Settled area m) :
    (freeSlots (procStep area m op).1).card = (freeSlots m).card - op.isSpawn.toNat := by
  have hok := h.1
  cases op with
  | spawn name entryPoint priority now =>
    rcases processSpawn_free area hok.nextPid.1 name entryPoint priority now with
      ⟨pid, hfree, -, herase⟩ | ⟨hempty, heq⟩
    · simp only [procStep, herase]
      exact Finset.card_erase_of_mem hfree
    · simp only [procStep, heq, hempty, Finset.card_empty, Nat.zero_sub]
  | exit exitCode now =>
    obtain ⟨c, -, hrun, heq⟩ := processExit_eq h exitCode now
    have hused : stateOf m c ≠ .unused := by rw [hrun]; decide
    simp only [procStep, heq]
    rw [freeSlots_processSchedule ((hok.terminate hused exitCode now).setCount _)]
    exact congrArg Finset.card (freeSlots_setProc hused (by simp))
  | kill pid now =>
    rcases processKill_cases m pid now with ⟨i, -, -, hused, heq⟩ | ⟨-, heq⟩
    · have hkilled := (hok.terminate hused (-1) now).setCount
        (if 0 < m.processCount then m.processCount - 1 else m.processCount)
      simp only [procStep, heq]
      split
      · rw [freeSlots_processSchedule hkilled]
        exact congrArg Finset.card (freeSlots_setProc hused (by simp))
      · exact congrArg Finset.card (freeSlots_setProc hused (by simp))
    · simp only [procStep, heq]
      rfl
  | schedule => exact congrArg Finset.card (freeSlots_processSchedule hok)
  | tick =>
    obtain ⟨c, hc, hrun, heq⟩ := processTick_eq h
    have hused : stateOf m c ≠ .unused := by rw [hrun]; decide
    have hfree := freeSlots_setProc (p := { m.table c with ticks := sliceLeft (m.table c) }) hused
      hused
    simp only [procStep, heq]
    split
    · rw [freeSlots_processSchedule (hok.setTicks hc hrun _)]
      exact congrArg Finset.card hfree
    · exact congrArg Finset.card hfree

/-- A run takes as many free slots as it has spawns, until there are none. -/
theorem freeSlots_run {area : StackArea} (ops : List ProcOp) {m : ProcessManager}
    (h : Settled area m) :
    (freeSlots (Run.after (procStep area) m ops)).card =
      (freeSlots m).card - ops.countP ProcOp.isSpawn := by
  induction ops generalizing m with
  | nil => rfl
  | cons op ops ih =>
    rw [Run.after_cons, ih (settled_step op h), freeSlots_step op h, List.countP_cons]
    cases op.isSpawn with
    | true => simp only [Bool.toNat_true, if_true]; omega
    | false => rfl

theorem freeSlots_processInit (area : StackArea) (m : ProcessManager) :
    (freeSlots (processInit area m)).card = 31 := by
  have hall : freeSlots (processInit area m) = Finset.univ.erase 0 := by
    ext i
    rw [mem_freeSlots, Finset.mem_erase, and_iff_left (Finset.mem_univ i)]
    refine and_iff_left_of_imp fun hi => ?_
    simp only [stateOf, processInit, Function.update_of_ne hi]
  rw [hall]
  rfl

/-- EXACT: whatever has ended since, a spawn succeeds in a state reached from `process_init` exactly
    when fewer than 31 spawns have been called on the way. -/
theorem spawn_succeeds_iff (area : StackArea) (m₀ : ProcessManager) (ops : List ProcOp)
    (name : List UInt8) (entryPoint : UInt32) (priority : UInt8) (now : UInt32) :
    let m := Run.after (procStep area) (processInit area m₀) ops
    let pid := (processSpawn area m name entryPoint priority now).1
    (1 ≤ pid ∧ pid ≤ 31) ↔ ops.countP ProcOp.isSpawn < 31 := by
  intro m pid
  have hm : Settled area m := settled_run area m₀ ops
  have hcard := freeSlots_run ops (processInit_settled area m₀)
  rw [freeSlots_processInit] at hcard
  rw [processSpawn_succeeds_iff area hm.1.nextPid.1, hcard]
  omega

/-- READY, RUNNING or BLOCKED user processes. -/
def liveUsers (m : ProcessManager) : Finset (Fin maxProcesses) :=
  Finset.univ.filter fun i => i ≠ 0 ∧ stateOf m i ≠ .unused ∧ stateOf m i ≠ .terminated

/-- Thirty-one times a process is spawned and killed. -/
def spawnAndKill : List ProcOp :=
  (List.range 31).flatMap fun i => [.spawn [97] 0x1000 1 0, .kill (i + 1) 0]

/-- After them no user process is left, and a spawn fails. -/
theorem spawn_fails_without_users :
    let m := Run.after (procStep sampleArea) (processInit sampleArea staticProcesses) spawnAndKill
    (liveUsers m).card = 0 ∧ (processSpawn sampleArea m [98] 0x2000 1 0).1 = -1 := by
  decide +kernel

/-! ### Slot 0 -/

/-- The calls that do not end slot 0 for good. -/
def KernelSpared (m : ProcessManager) : ProcOp → Prop
  | .exit .. => ¬ (m.currentPid = 0 ∧ ∃ i, Ready m i)
  | .spawn .. | .kill .. | .schedule | .tick => True

/-- The scheduler leaves a TERMINATED slot 0 so exactly when it has another slot to go to. -/
theorem kernel_processSchedule_iff {area : StackArea} {m : ProcessManager} (h : TableOk area m) :
    stateOf (processSchedule m) 0 = .terminated ↔
      stateOf m 0 = .terminated ∧ ∃ i, Ready m i := by
  rw [stateOf_processSchedule h, if_neg (fun hrun => hrun.1 rfl : ¬ ((0 : Fin maxProcesses) ≠ 0 ∧ _))]
  split
  · rename_i hpick
    refine iff_of_false (by decide) ?_
    rintro ⟨hterm, hany⟩
    have hready := (processFindNext_first hany).1
    rw [← hpick, Ready, ← stateOf, hterm] at hready
    cases hready
  · rename_i hpick
    rcases processFindNext_cases m with hready | ⟨hzero, -⟩
    · exact (and_iff_left ⟨_, hready⟩).symm
    · exact absurd hzero.symm hpick

section Alive
variable {area : StackArea} {m : ProcessManager}

theorem kernel_alive_schedule (h : TableOk area m) (h0 : stateOf m 0 ≠ .terminated) :
    stateOf (processSchedule m) 0 ≠ .terminated :=
  fun hbad => h0 ((kernel_processSchedule_iff h).mp hbad).1

theorem kernel_alive_spawn (h : TableOk area m) (h0 : stateOf m 0 ≠ .terminated) (name : List UInt8)
    (entryPoint : UInt32) (priority : UInt8) (now : UInt32) :
    stateOf (processSpawn area m name entryPoint priority now).2 0 ≠ .terminated := by
  rcases processSpawn_cases area h.nextPid.1 name entryPoint priority now with
    ⟨pid, hpid, -, next, -, -, heq⟩ | heq
  · rw [heq]
    exact ne_of_eq_of_ne ((stateOf_setProc m pid 0 _).trans (if_neg hpid.symm)) h0
  · rw [heq]
    exact h0

/-- `process_exit` ends slot 0 for good exactly if slot 0 calls it and another slot is READY. -/
theorem kernel_exit_iff (h : Settled area m) (h0 : stateOf m 0 ≠ .terminated) (exitCode : ℤ)
    (now : UInt32) :
    stateOf (processExit m exitCode now) 0 = .terminated ↔ m.currentPid = 0 ∧ ∃ i, Ready m i := by
  obtain ⟨c, hc, hrun, heq⟩ := processExit_eq h exitCode now
  have hused : stateOf m c ≠ .unused := by rw [hrun]; decide
  have hnot : ¬ Ready m c := by rw [Ready, ← stateOf, hrun]; decide
  have hzero : (0 : Fin maxProcesses) = c ↔ m.currentPid = 0 := by
    rw [hc, Fin.ext_iff, eq_comm]
    rfl
  rw [heq, kernel_processSchedule_iff ((h.1.terminate hused exitCode now).setCount _)]
  refine and_congr ?_ (exists_congr (ready_terminate hnot exitCode now))
  change stateOf (m.setProc c _) 0 = .terminated ↔ _
  rw [stateOf_setProc, ← hzero]
  split
  · rename_i hc0
    exact iff_of_true rfl hc0
  · rename_i hc0
    exact iff_of_false h0 hc0

/-- `process_kill` refuses slot 0. -/
theorem kernel_alive_kill (h : TableOk area m) (h0 : stateOf m 0 ≠ .terminated) (pid : ℕ)
    (now : UInt32) : stateOf (processKill m pid now).2 0 ≠ .terminated := by
  rcases processKill_cases m pid now with ⟨i, hi0, -, hused, heq⟩ | ⟨-, heq⟩
  · have hkilled := (h.terminate hused (-1) now).setCount
      (if 0 < m.processCount then m.processCount - 1 else m.processCount)
    have hkept : stateOf (m.setProc i { m.table i with
        exitCode := -1, state := .terminated, terminatedTicks := now }) 0 ≠ .terminated := by
      rw [stateOf_setProc, if_neg hi0.symm]
      exact h0
    rw [heq]
    dsimp only
    split
    · exact kernel_alive_schedule hkilled hkept
    · exact hkept
  · rw [heq]
    exact h0

theorem kernel_alive_tick (h : Settled area m) (h0 : stateOf m 0 ≠ .terminated) :
    stateOf (processTick m) 0 ≠ .terminated := by
  obtain ⟨c, hc, hrun, heq⟩ := processTick_eq h
  have hkept : stateOf (m.setProc c { m.table c with ticks := sliceLeft (m.table c) }) 0 ≠
      .terminated := by
    rw [stateOf_setProc]
    split
    · rename_i hc0
      rw [hc0] at h0
      exact h0
    · exact h0
  rw [heq]
  split
  · exact kernel_alive_schedule (h.1.setTicks hc hrun _) hkept
  · exact hkept

/-- EXACT, one call: a live slot 0 stays alive exactly under the calls that spare it. -/
theorem kernel_step_iff (op : ProcOp) (h : Settled area m) (h0 : stateOf m 0 ≠ .terminated) :
    stateOf (procStep area m op).1 0 ≠ .terminated ↔ KernelSpared m op := by
  cases op with
  | spawn name entryPoint priority now =>
    exact iff_of_true (kernel_alive_spawn h.1 h0 name entryPoint priority now) trivial
  | exit exitCode now => exact not_congr (kernel_exit_iff h h0 exitCode now)
  | kill pid now => exact iff_of_true (kernel_alive_kill h.1 h0 pid now) trivial
  | schedule => exact iff_of_true (kernel_alive_schedule h.1 h0) trivial
  | tick => exact iff_of_true (kernel_alive_tick h h0) trivial

end Alive

end VlsOs.Proc
