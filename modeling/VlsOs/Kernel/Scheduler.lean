import VlsOs.Kernel.Process

/-! Which process `process_find_next` picks.

    The search starts at the slot after the current one and goes once round the table. The loop
    keeps a best priority, but it leaves at the first READY slot, so the priorities have no say:
    the pick is the READY slot whose turn comes first, and slot 0 when no slot is READY. -/

namespace VlsOs.Proc
open Patterns

/-- Slot `i` is READY. -/
def Ready (m : ProcessManager) (i : Fin maxProcesses) : Prop := (m.table i).state = .ready

instance (m : ProcessManager) (i : Fin maxProcesses) : Decidable (Ready m i) :=
  inferInstanceAs (Decidable ((m.table i).state = .ready))

/-- The place of slot `i` in cyclic order after `g_current_pid`. -/
def cyclicPlace (m : ProcessManager) (i : Fin maxProcesses) : ℕ :=
  Table.turn ((m.currentPid + 1) % maxProcesses) i

/-- The loop is a search: every priority is below `256`, so the first READY slot improves on the
    starting value and ends it. -/
theorem findLoop_bestPid (m : ProcessManager) (nextPid : ℕ) : ∀ is : List ℕ,
    (findLoop m nextPid ⟨none, 256⟩ is).bestPid =
      (is.map (Table.atTurn nextPid)).find? fun i => decide (Ready m i)
  | [] => rfl
  | i :: is => by
    have hlt : (m.table (Table.atTurn nextPid i)).priority.toNat < 256 := UInt8.toNat_lt _
    rw [findLoop, List.map_cons, List.find?_cons]
    by_cases hready : (m.table (Table.atTurn nextPid i)).state = .ready
    · rw [if_pos hready, if_pos hlt, decide_eq_true (p := Ready m _) hready]
    · rw [if_neg hready, decide_eq_false (p := Ready m _) hready]
      exact findLoop_bestPid m nextPid is

/-- With a READY slot in the table, the pick is READY and no READY slot comes before it. -/
theorem processFindNext_first {m : ProcessManager} (h : ∃ i, Ready m i) :
    Ready m (processFindNext m) ∧
      ∀ k, Ready m k → cyclicPlace m (processFindNext m) ≤ cyclicPlace m k := by
  obtain ⟨i, hi⟩ := h
  unfold processFindNext
  dsimp only
  rw [findLoop_bestPid]
  split
  · rename_i best hbest
    obtain ⟨hready, hfirst⟩ := Table.firstFrom_some hbest
    exact ⟨of_decide_eq_true hready, fun k hk => hfirst k (decide_eq_true hk)⟩
  · rename_i hnone
    exact absurd hi (of_decide_eq_false (Table.firstFrom_none.mp hnone i))

/-- With no READY slot, the pick is the kernel process. -/
theorem processFindNext_idle {m : ProcessManager} (h : ∀ i, ¬ Ready m i) :
    processFindNext m = 0 := by
  unfold processFindNext
  dsimp only
  rw [findLoop_bestPid]
  split
  · rename_i best hbest
    exact absurd (of_decide_eq_true (Table.firstFrom_some hbest).1) (h best)
  · cases processCurrent m with
    | none => rfl
    | some c => exact if_neg (h c)

/-- The pick is READY, or it is slot 0 and nothing is READY. -/
theorem processFindNext_cases (m : ProcessManager) :
    Ready m (processFindNext m) ∨ processFindNext m = 0 ∧ ∀ i, ¬ Ready m i := by
  by_cases h : ∃ i, Ready m i
  · exact .inl (processFindNext_first h).1
  · have hidle : ∀ i, ¬ Ready m i := fun i hi => h ⟨i, hi⟩
    exact .inr ⟨processFindNext_idle hidle, hidle⟩

/-- What the scheduler is for: `r` is READY, no READY process has a smaller priority value, and
    among those of equal priority `r` comes first in cyclic order after the current process. -/
structure HonoursPriority (m : ProcessManager) (r : Fin maxProcesses) : Prop where
  ready : Ready m r
  minimal : ∀ k, Ready m k → (m.table r).priority ≤ (m.table k).priority
  first : ∀ k, Ready m k → (m.table k).priority = (m.table r).priority →
    cyclicPlace m r ≤ cyclicPlace m k

/-- EXACT: the pick honours the priorities precisely in the tables where the READY process that
    comes first in cyclic order happens to have the smallest priority value. -/
theorem processFindNext_honours_iff {m : ProcessManager} (h : ∃ i, Ready m i) :
    HonoursPriority m (processFindNext m) ↔
      ∀ i, Ready m i → (∀ k, Ready m k → cyclicPlace m i ≤ cyclicPlace m k) →
        ∀ j, Ready m j → (m.table i).priority ≤ (m.table j).priority := by
  obtain ⟨hready, hfirst⟩ := processFindNext_first h
  constructor
  · intro hpick i hi hi' j hj
    have hsame : i = processFindNext m := Table.turn_inj (le_antisymm (hi' _ hready) (hfirst i hi))
    rw [hsame]
    exact hpick.minimal j hj
  · intro hmin
    exact ⟨hready, hmin _ hready hfirst, fun k hk _ => hfirst k hk⟩

/-- After `process_init`, two spawns with the given priorities. -/
def twoSpawned (first second : UInt8) : ProcessManager :=
  let m := processInit sampleArea staticProcesses
  let m := (processSpawn sampleArea m [97] 0x1000 first 0).2
  (processSpawn sampleArea m [98] 0x2000 second 0).2

theorem processFindNext_honours_in_order :
    Ready (twoSpawned 10 200) 1 ∧
      HonoursPriority (twoSpawned 10 200) (processFindNext (twoSpawned 10 200)) :=
  ⟨by decide, (processFindNext_honours_iff ⟨1, by decide⟩).mpr (by decide)⟩

/-- Slot 1 has priority value 200, slot 2 has 10 and is READY too, and slot 1 is picked. -/
theorem processFindNext_ignores_priority :
    Ready (twoSpawned 200 10) 1 ∧ Ready (twoSpawned 200 10) 2 ∧
      ((twoSpawned 200 10).table 2).priority < ((twoSpawned 200 10).table 1).priority ∧
      processFindNext (twoSpawned 200 10) = 1 ∧
      ¬ HonoursPriority (twoSpawned 200 10) (processFindNext (twoSpawned 200 10)) := by
  refine ⟨by decide, by decide, by decide, by decide, fun h => ?_⟩
  have hmin := h.minimal 2 (by decide)
  exact absurd hmin (by decide)

end VlsOs.Proc
