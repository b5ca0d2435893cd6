import VlsOs.Kernel.ProcessTable

/-! Time slices.

    The scheduler gives the process that it dispatches ten ticks. Each timer tick takes one from the
    current process, and the tick that takes the last one calls the scheduler again. Spawns and kills
    of other processes come in between; they leave the current slot alone.

        schedule ──▶ 10 ──tick──▶ 9 ──tick──▶ ⋯ ──tick──▶ 1 ──tick──▶ schedule ──▶ 10
                        spawn, kill of another                 -/

namespace VlsOs.Proc
open Patterns

def ProcOp.isTick : ProcOp → Bool
  | .tick => true
  | .spawn .. | .exit .. | .kill .. | .schedule => false

/-- What may come between the ticks of slot `c`: spawns, and kills of others. -/
def Interleaves (c : Fin maxProcesses) : ProcOp → Prop
  | .spawn .. | .tick => True
  | .kill pid _ => pid ≠ c
  | .exit .. | .schedule => False

/-- Slot `c` is current and has `t` ticks left. -/
structure HasTicks (m : ProcessManager) (c : Fin maxProcesses) (t : ℕ) : Prop where
  current : m.currentPid = c
  ticks : (m.table c).ticks.toNat = t

/-! ### One call -/

/-- A process that has just been dispatched has a whole time slice. -/
theorem hasTicks_processSchedule {area : StackArea} {m : ProcessManager}
    (h : Settled area (processSchedule m)) :
    ∃ c, HasTicks (processSchedule m) c processTimeSlice.toNat := by
  have hpick : (processSchedule m).table (processFindNext m) =
      { (demoteCurrent m).table (processFindNext m) with
        state := .running, ticks := processTimeSlice } := setProc_table_self ..
  have hused : stateOf (processSchedule m) (processFindNext m) ≠ .unused := by
    rw [stateOf, hpick]
    exact fun hbad => by cases hbad
  -- the pid that becomes the current one is that of the slot picked, and a slot in use has its own
  have hpid := (h.1.slots _ hused).pid
  rw [hpick] at hpid
  exact ⟨processFindNext m, hpid, by rw [hpick]⟩

section
variable {area : StackArea} {m : ProcessManager} {c : Fin maxProcesses} {t : ℕ}

/-- FRAME: a write to another slot. -/
theorem HasTicks.setProc (h : HasTicks m c t) {i : Fin maxProcesses} (hi : c ≠ i) (p : Process)
    (next : ℕ) (count : UInt8) :
    HasTicks { m.setProc i p with nextPid := next, processCount := count } c t := by
  refine ⟨h.current, ?_⟩
  rw [← h.ticks]
  exact congrArg (fun p : Process => p.ticks.toNat) (setProc_table_of_ne m p hi)

theorem HasTicks.spawn (hs : Settled area m) (h : HasTicks m c t) (name : List UInt8)
    (entryPoint : UInt32) (priority : UInt8) (now : UInt32) :
    HasTicks (processSpawn area m name entryPoint priority now).2 c t := by
  obtain ⟨hok, c', hc', hrun⟩ := hs
  obtain rfl : c' = c := Fin.ext (hc'.symm.trans h.current)
  rcases processSpawn_cases area hok.nextPid.1 name entryPoint priority now with
    ⟨pid, -, hunused, next, -, -, heq⟩ | heq
  · have hother : c' ≠ pid := by
      rintro rfl
      rw [hrun] at hunused
      cases hunused
    rw [heq]
    exact h.setProc hother _ _ _
  · rw [heq]
    exact h

theorem HasTicks.kill (h : HasTicks m c t) {pid : ℕ} (hpid : pid ≠ c) (now : UInt32) :
    HasTicks (processKill m pid now).2 c t := by
  rcases processKill_cases m pid now with ⟨i, -, hi, -, heq⟩ | ⟨-, heq⟩
  · have hother : c ≠ i := fun hci => hpid (by rw [hi, hci])
    have hcur : m.currentPid ≠ i := by
      rw [h.current]
      exact fun hci => hother (Fin.ext hci)
    rw [heq]
    dsimp only
    rw [if_neg hcur]
    exact h.setProc hother _ m.nextPid _
  · rw [heq]
    exact h

/-- A tick takes one tick of the slice; the tick that takes the last one calls the scheduler. -/
theorem HasTicks.tick (hs : Settled area m) (h : HasTicks m c (t + 1)) :
    (0 < t → HasTicks (processTick m) c t) ∧
      (t = 0 → processTick m = processSchedule (m.setProc c { m.table c with ticks := 0 })) := by
  obtain ⟨c', hc', -, heq⟩ := processTick_eq hs
  obtain rfl : c' = c := Fin.ext (hc'.symm.trans h.current)
  have hticks := h.ticks
  have hpos : 0 < (m.table c').ticks := by
    rw [UInt8.lt_iff_toNat_lt, hticks]
    exact Nat.succ_pos t
  have hleft : (sliceLeft (m.table c')).toNat = t := by
    rw [sliceLeft, if_pos hpos, UInt8.toNat_sub_of_le _ _ (UInt8.le_iff_toNat_le.mpr ?_), hticks]
    · rfl
    · rw [hticks]
      exact Nat.succ_le_succ (Nat.zero_le t)
  have hzero : sliceLeft (m.table c') = 0 ↔ t = 0 := by
    rw [← UInt8.toNat_inj, hleft]
    rfl
  dsimp only at heq
  constructor
  · intro ht
    rw [heq, if_neg fun h0 => ht.ne' (hzero.mp h0)]
    refine ⟨h.current, ?_⟩
    rw [setProc_table_self]
    exact hleft
  · intro ht
    rw [heq, if_pos (hzero.mpr ht), hzero.mpr ht]

/-- STEP: a call that interleaves leaves slot `c` current, and takes a tick if it is one. -/
theorem HasTicks.step (hs : Settled area m) {op : ProcOp} (hop : Interleaves c op)
    (h : HasTicks m c (t + op.isTick.toNat)) (ht : 0 < t) :
    HasTicks (procStep area m op).1 c t := by
  cases op with
  | spawn name entryPoint priority now => exact h.spawn hs name entryPoint priority now
  | kill pid now => exact h.kill hop now
  | tick => exact (h.tick hs).1 ht
  | exit exitCode now => cases hop
  | schedule => cases hop

end

/-! ### Runs -/

/-- RUN: slot `c` stays current for as many ticks as it has, less one. -/
theorem HasTicks.run {area : StackArea} {c : Fin maxProcesses} {t : ℕ} (ht : 0 < t) :
    ∀ (ops : List ProcOp) (m : ProcessManager), Settled area m → (∀ op ∈ ops, Interleaves c op) →
      HasTicks m c (t + ops.countP ProcOp.isTick) →
      Run.Always (procStep area) (fun m => m.currentPid = c) m ops ∧
        HasTicks (Run.after (procStep area) m ops) c t := by
  intro ops
  induction ops with
  | nil => exact fun m _ _ h => ⟨h.current, h⟩
  | cons op ops ih =>
    intro m hs hops h
    have hcount : (op :: ops).countP ProcOp.isTick =
        ops.countP ProcOp.isTick + op.isTick.toNat := by
      rw [List.countP_cons]
      cases op.isTick <;> rfl
    rw [hcount, ← Nat.add_assoc] at h
    have hnext := h.step hs (hops op List.mem_cons_self) (by omega)
    obtain ⟨halways, hafter⟩ := ih _ (settled_step op hs)
      (fun op hop => hops op (List.mem_cons_of_mem _ hop)) hnext
    exact ⟨⟨h.current, halways⟩, hafter⟩

/-- INVARIANT: the current process has a tick left, and no more than a time slice. -/
def SliceOk (area : StackArea) (m : ProcessManager) : Prop :=
  Settled area m ∧ ∃ c t, HasTicks m c (t + 1) ∧ t + 1 ≤ processTimeSlice.toNat

theorem sliceOk_processSchedule {area : StackArea} {m : ProcessManager} (h : TableOk area m) :
    SliceOk area (processSchedule m) := by
  have hs := processSchedule_settled h
  obtain ⟨c, hc⟩ := hasTicks_processSchedule hs
  exact ⟨hs, c, 9, hc, le_rfl⟩

theorem sliceOk_step {area : StackArea} (m : ProcessManager) (op : ProcOp) (h : SliceOk area m) :
    SliceOk area (procStep area m op).1 := by
  obtain ⟨hs, c, t, hc, hle⟩ := h
  have hs' := settled_step op hs
  cases op with
  | spawn name entryPoint priority now =>
    exact ⟨hs', c, t, hc.spawn hs name entryPoint priority now, hle⟩
  | schedule => exact sliceOk_processSchedule hs.1
  | exit exitCode now =>
    obtain ⟨c', -, hrun, heq⟩ := processExit_eq hs exitCode now
    have hused : stateOf m c' ≠ .unused := by
      rw [hrun]
      exact fun hbad => by cases hbad
    change SliceOk area (processExit m exitCode now)
    rw [heq]
    exact sliceOk_processSchedule ((hs.1.terminate hused exitCode now).setCount _)
  | kill pid now =>
    by_cases hpid : pid = c
    · rcases processKill_cases m pid now with ⟨i, -, hi, hused, heq⟩ | ⟨-, heq⟩
      · have hcur : m.currentPid = i := by rw [hc.current, ← hpid, hi]
        change SliceOk area (processKill m pid now).2
        rw [heq]
        dsimp only
        rw [if_pos hcur]
        exact sliceOk_processSchedule ((hs.1.terminate hused (-1) now).setCount _)
      · change SliceOk area (processKill m pid now).2
        rw [heq]
        exact ⟨hs, c, t, hc, hle⟩
    · exact ⟨hs', c, t, hc.kill hpid now, hle⟩
  | tick =>
    obtain ⟨hmore, hlast⟩ := hc.tick hs
    cases t with
    | zero =>
      change SliceOk area (processTick m)
      rw [hlast rfl]
      obtain ⟨c', hc', hrun⟩ := hs.2
      obtain rfl : c' = c := Fin.ext (hc'.symm.trans hc.current)
      exact sliceOk_processSchedule (hs.1.setTicks hc' hrun 0)
    | succ t => exact ⟨hs', c, t, hmore (Nat.succ_pos t), by omega⟩

theorem sliceOk_processInit (area : StackArea) (m : ProcessManager) :
    SliceOk area (processInit area m) := by
  refine ⟨processInit_settled area m, 0, 9, ⟨rfl, ?_⟩, le_rfl⟩
  simp only [processInit, Function.update_self]
  rfl

/-- INVARIANT and EXACT: in every state reachable from `process_init` the current process has between
    1 and 10 ticks left. If the state is one that `process_schedule` has left, then the process which
    it has dispatched stays current through 9 ticks, with spawns and kills of others in any order
    between them, and the next tick calls `process_schedule`. -/
theorem time_slices_exact (area : StackArea) (m₀ : ProcessManager) (ops : List ProcOp) :
    let m := Run.after (procStep area) (processInit area m₀) ops
    (∃ c : Fin maxProcesses, m.currentPid = c ∧ 1 ≤ (m.table c).ticks.toNat ∧
      (m.table c).ticks ≤ processTimeSlice) ∧
    ∀ m', m = processSchedule m' → ∀ c : Fin maxProcesses, m.currentPid = c →
      ∀ more : List ProcOp, (∀ op ∈ more, Interleaves c op) →
        more.countP ProcOp.isTick = processTimeSlice.toNat - 1 →
        Run.Always (procStep area) (fun m => m.currentPid = c) m more ∧
          let m₁ := Run.after (procStep area) m more
          processTick m₁ = processSchedule (m₁.setProc c { m₁.table c with ticks := 0 }) := by
  intro m
  have hok : SliceOk area m := Run.after_inv sliceOk_step ops _ (sliceOk_processInit area m₀)
  obtain ⟨hs, c, t, hc, hle⟩ := hok
  refine ⟨⟨c, hc.current, ?_, ?_⟩, ?_⟩
  · rw [hc.ticks]
    exact Nat.succ_pos t
  · rw [UInt8.le_iff_toNat_le, hc.ticks]
    exact hle
  · intro m' hm' c' hc' more hmore hticks
    have hs' : Settled area (processSchedule m') := hm' ▸ hs
    obtain ⟨d, hd⟩ := hasTicks_processSchedule hs'
    rw [← hm'] at hd
    obtain rfl : c' = d := Fin.ext (hc'.symm.trans hd.current)
    have hslice : processTimeSlice.toNat = 1 + more.countP ProcOp.isTick := by
      rw [hticks]
      rfl
    rw [hslice] at hd
    obtain ⟨halways, hlast⟩ := HasTicks.run Nat.one_pos more m hs hmore hd
    have hsettled : Settled area (Run.after (procStep area) m more) :=
      Run.after_inv (fun _ op h => settled_step op h) more m hs
    exact ⟨halways, (hlast.tick hsettled).2 rfl⟩

end VlsOs.Proc
