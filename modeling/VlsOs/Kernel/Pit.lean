import VlsOs.Kernel.Interrupts

/-! The interval timer (`kernel/pit.c`).

    `pit_init` writes a divisor to channel 0 of the chip, which from then on interrupts once in that
    many cycles of its 1193182 Hz clock; `pit_wait_ms` halts until `ticks` has moved on far enough.
    How many timer interrupts the processor takes between two looks at `ticks` is up to the
    environment: a run of the loop is given by the list of these numbers.

    The number of ticks to wait for is `ms * 1000` divided by the frequency of the chip's clock,
    where the frequency of the ticks is meant: at 1000 Hz a wait of half a second is one of no ticks.

        start     look        look        look
          │  n₀    │  n₁       │  n₂       │
          └────────┴── hlt ────┴── hlt ────┴──▶  until n₀ + n₁ + ⋯ ≥ waitTicks -/

namespace VlsOs.Pit
open Patterns.Trace VlsOs.Interrupt VlsOs.Proc

def pitPort0 : UInt16 := 0x40
def pitControl : UInt16 := 0x43

def pitFrequency : UInt32 := 1193182

def pitInit (k : Kernel) (frequency : UInt32) : Traced KernelEvent Kernel := do
  let frequency := if frequency = 0 then 1 else frequency
  let divisor := pitFrequency / frequency
  let cmd : UInt8 := 0x34
  emit (.outb pitControl cmd)
  let lo := (divisor &&& 0xFF).toUInt8
  let hi := ((divisor >>> 8) &&& 0xFF).toUInt8
  emit (.outb pitPort0 lo)
  emit (.outb pitPort0 hi)
  return { k with ticks := 0 }

/-- The timer interrupts that are taken before `ticks` is looked at again. -/
def irq0s : ℕ → Kernel → Traced KernelEvent Kernel :=
  loop fun _ => pitIrq0Handler

def waitTicks (ms : UInt32) : UInt32 := ms * 1000 / pitFrequency

/-- The `while` loop of `pit_wait_ms`; without a result it is still waiting. -/
def waitLoop (start wait : UInt32) (k : Kernel) : List ℕ → Traced KernelEvent (Option Kernel)
  | [] => return none
  | n :: pauses => do
    let k ← irq0s n k
    if k.ticks - start < wait then waitLoop start wait k pauses else return some k

def pitWaitMs (k : Kernel) (ms : UInt32) (pauses : List ℕ) : Traced KernelEvent (Option Kernel) :=
  waitLoop k.ticks (waitTicks ms) k pauses

/-! ### The chip -/

/-- Channel 0 of the chip: the low byte that waits for the high one, and the number of clock cycles
    from one interrupt to the next. -/
structure Channel where
  low : Option UInt8
  period : ℕ

/-- A write to the chip. Control words other than that of `pit_init` (channel 0, low byte before high,
    binary) do not occur. -/
def Channel.write (c : Channel) : KernelEvent → Channel
  | .outb port value =>
    if port = pitControl then { c with low := none }
    else if port = pitPort0 then
      match c.low with
      | none => { c with low := some value }
      | some lo =>
        let count := lo.toNat + 256 * value.toNat
        { low := none, period := if count = 0 then 65536 else count }
    else c
  | _ => c

def Channel.writes (c : Channel) (es : List KernelEvent) : Channel := es.foldl Channel.write c

/-! ### Ticks -/

/-- The timer ticks among the events. -/
def tickCount (es : List KernelEvent) : ℕ := es.count .processTick

theorem tickCount_append (es fs : List KernelEvent) :
    tickCount (es ++ fs) = tickCount es + tickCount fs := List.count_append

theorem tickCount_irq0s (n : ℕ) (k : Kernel) : tickCount (irq0s n k).events = n := by
  induction n with
  | zero => rfl
  | succ n ih =>
    rw [irq0s, loop, events_bind, tickCount_append, ← irq0s, ih]
    rfl

theorem ticks_irq0s (n : ℕ) (k : Kernel) : (irq0s n k).val.ticks = k.ticks + UInt32.ofNat n := by
  induction n with
  | zero => exact (UInt32.add_zero k.ticks).symm
  | succ n ih =>
    rw [irq0s, loop, val_bind, ← irq0s, UInt32.ofNat_add, ← UInt32.add_assoc, ← ih]
    rfl

/-- One look at `ticks`: `n` ticks later the loop goes on or returns. -/
theorem waitLoop_cons (start wait : UInt32) (k : Kernel) (n : ℕ) (pauses : List ℕ) :
    let k' := (irq0s n k).val
    let later := if k'.ticks - start < wait then waitLoop start wait k' pauses else return some k'
    (waitLoop start wait k (n :: pauses)).val = later.val ∧
      tickCount (waitLoop start wait k (n :: pauses)).events = n + tickCount later.events := by
  refine ⟨rfl, ?_⟩
  rw [waitLoop, events_bind, tickCount_append, tickCount_irq0s]

/-- The counter is as far from `start` as ticks have come, modulo its width. -/
theorem elapsed_irq0s (start : UInt32) (k : Kernel) (n : ℕ) :
    ((irq0s n k).val.ticks - start).toNat = ((k.ticks - start).toNat + n) % 2 ^ 32 := by
  have hcomm : k.ticks + UInt32.ofNat n - start = k.ticks - start + UInt32.ofNat n := by
    rw [UInt32.sub_eq_add_neg, UInt32.sub_eq_add_neg, UInt32.add_assoc, UInt32.add_assoc,
      UInt32.add_comm (-start)]
  rw [ticks_irq0s, hcomm, UInt32.toNat_add, UInt32.toNat_ofNat', Nat.add_mod_mod]

/-! ### The wait -/

/-- The loop does not return before there have been enough ticks, however they come. -/
theorem wait_le_of_returns {start wait : UInt32} (pauses : List ℕ) : ∀ {k k' : Kernel},
    (waitLoop start wait k pauses).val = some k' →
      wait.toNat ≤ (k.ticks - start).toNat + tickCount (waitLoop start wait k pauses).events := by
  induction pauses with
  | nil => exact fun h => nomatch h
  | cons n pauses ih =>
    intro k k' h
    obtain ⟨hval, hticks⟩ := waitLoop_cons start wait k n pauses
    have helapsed := elapsed_irq0s start k n
    have hle := Nat.mod_le ((k.ticks - start).toNat + n) (2 ^ 32)
    rw [hticks]
    rw [h] at hval
    by_cases hmore : (irq0s n k).val.ticks - start < wait
    · rw [if_pos hmore] at hval ⊢
      have hrest := ih hval.symm
      omega
    · rw [if_neg hmore]
      have henough : wait.toNat ≤ ((irq0s n k).val.ticks - start).toNat :=
        UInt32.le_iff_toNat_le.mp (UInt32.not_lt.mp hmore)
      omega

/-- A loop that looks after each tick returns as soon as there are enough of them. -/
theorem waitLoop_each_tick {start wait : UInt32} (n : ℕ) : ∀ (m : ℕ) {k : Kernel},
    (k.ticks - start).toNat + m + n = wait.toNat →
      ∃ k', (waitLoop start wait k (m :: List.replicate n 1)).val = some k' ∧
        tickCount (waitLoop start wait k (m :: List.replicate n 1)).events = m + n := by
  induction n with
  | zero =>
    intro m k h
    obtain ⟨hval, hticks⟩ := waitLoop_cons start wait k m (List.replicate 0 1)
    have helapsed := elapsed_irq0s start k m
    have hlt := wait.toNat_lt
    rw [Nat.mod_eq_of_lt (by omega)] at helapsed
    have hdone : ¬ (irq0s m k).val.ticks - start < wait := by
      rw [UInt32.lt_iff_toNat_lt]
      omega
    rw [if_neg hdone] at hval hticks
    exact ⟨_, hval, hticks⟩
  | succ n ih =>
    intro m k h
    obtain ⟨hval, hticks⟩ := waitLoop_cons start wait k m (List.replicate (n + 1) 1)
    have helapsed := elapsed_irq0s start k m
    have hlt := wait.toNat_lt
    rw [Nat.mod_eq_of_lt (by omega)] at helapsed
    have hmore : (irq0s m k).val.ticks - start < wait := by
      rw [UInt32.lt_iff_toNat_lt]
      omega
    obtain ⟨k', hreturns, hcount⟩ := ih 1 (by omega : ((irq0s m k).val.ticks - start).toNat + 1 + n = _)
    rw [if_pos hmore, List.replicate_succ] at hval hticks
    rw [List.replicate_succ]
    exact ⟨k', hval.trans hreturns, by rw [hticks, hcount]; omega⟩

/-- `pit_wait_ms` can return after just its number of ticks. -/
theorem pitWaitMs_waitTicks (k : Kernel) (ms : UInt32) :
    ∃ pauses k', (pitWaitMs k ms pauses).val = some k' ∧
      tickCount (pitWaitMs k ms pauses).events = (waitTicks ms).toNat := by
  have hstart : (k.ticks - k.ticks).toNat + 0 + (waitTicks ms).toNat = (waitTicks ms).toNat := by
    rw [UInt32.sub_self, UInt32.toNat_zero, Nat.zero_add]
  obtain ⟨k', hreturns, hcount⟩ := waitLoop_each_tick (waitTicks ms).toNat 0 hstart
  exact ⟨_, k', hreturns, hcount.trans (Nat.zero_add _)⟩

/-! ### The time that it takes -/

theorem period_writes (c : Channel) (cmd lo hi : UInt8) :
    (c.writes [.outb pitControl cmd, .outb pitPort0 lo, .outb pitPort0 hi]).period =
      if lo.toNat + 256 * hi.toNat = 0 then 65536 else lo.toNat + 256 * hi.toNat := rfl

/-- The chip interrupts at least once in 65536 cycles of its clock. -/
theorem period_pitInit_le (c : Channel) (k : Kernel) (frequency : UInt32) :
    (c.writes (pitInit k frequency).events).period ≤ 65536 := by
  obtain ⟨lo, hi, hevents⟩ : ∃ lo hi, (pitInit k frequency).events =
      [.outb pitControl 0x34, .outb pitPort0 lo, .outb pitPort0 hi] := ⟨_, _, rfl⟩
  have hlo := lo.toNat_lt
  have hhi := hi.toNat_lt
  rw [hevents, period_writes]
  split <;> omega

/-- Even at the longest period the ticks waited for take less time than `ms`, unless that is none. -/
theorem waitTicks_short {ms : UInt32} {period : ℕ} (hperiod : period ≤ 65536)
    (h : ms.toNat * 1193182 ≤ (waitTicks ms).toNat * period * 1000) : ms = 0 := by
  have hwait : (waitTicks ms).toNat = ms.toNat * 1000 % 2 ^ 32 / 1193182 := by
    rw [waitTicks, UInt32.toNat_div, UInt32.toNat_mul]
    rfl
  have hmod := Nat.mod_le (ms.toNat * 1000) (2 ^ 32)
  have hdiv := Nat.div_mul_le_self (ms.toNat * 1000 % 2 ^ 32) 1193182
  have hcycles : (waitTicks ms).toNat * period ≤ (waitTicks ms).toNat * 65536 :=
    Nat.mul_le_mul_left _ hperiod
  have hzero : ms.toNat = 0 := by omega
  exact UInt32.toNat_inj.mp hzero

/-- A wait that returns has taken `ms` at least, by the period that the chip was given. -/
def WaitedLongEnough (period : ℕ) (ms : UInt32) (x : Traced KernelEvent (Option Kernel)) : Prop :=
  x.val.isSome → (ms.toNat : ℚ) / 1000 ≤ tickCount x.events * period / 1193182

theorem time_le_iff (ms ticks period : ℕ) :
    (ms : ℚ) / 1000 ≤ ticks * period / 1193182 ↔ ms * 1193182 ≤ ticks * period * 1000 := by
  rw [div_le_div_iff₀ (by norm_num) (by norm_num)]
  exact_mod_cast Iff.rfl

/-- EXACT: whatever `pit_init` was called with and wherever `ticks` stands, `pit_wait_ms` returns
    after its number of ticks at the earliest, also where the counter wraps around; but its runs all
    take the time asked for exactly when that is none. -/
theorem pit_wait_long_enough_iff (c : Channel) (k₀ k : Kernel) (frequency ms : UInt32) :
    (∀ pauses, (pitWaitMs k ms pauses).val.isSome →
      (waitTicks ms).toNat ≤ tickCount (pitWaitMs k ms pauses).events) ∧
    ((∀ pauses, WaitedLongEnough (c.writes (pitInit k₀ frequency).events).period ms
      (pitWaitMs k ms pauses)) ↔ ms = 0) := by
  refine ⟨fun pauses h => ?_, fun h => ?_, ?_⟩
  · obtain ⟨k', hk'⟩ := Option.isSome_iff_exists.mp h
    have hle := wait_le_of_returns pauses hk'
    rwa [UInt32.sub_self, UInt32.toNat_zero, Nat.zero_add] at hle
  · obtain ⟨pauses, k', hreturns, hcount⟩ := pitWaitMs_waitTicks k ms
    have hlong := h pauses (Option.isSome_of_eq_some hreturns)
    rw [time_le_iff, hcount] at hlong
    exact waitTicks_short (period_pitInit_le c k₀ frequency) hlong
  · rintro rfl pauses _
    rw [time_le_iff]
    simp

/-- At the 1000 Hz of the kernel, a wait of half a second returns at once. -/
theorem pit_wait_half_second :
    let period := (Channel.writes ⟨none, 65536⟩ (pitInit ⟨0, staticProcesses⟩ 1000).events).period
    let wait := pitWaitMs ⟨0, staticProcesses⟩ 500 [0]
    period = 1193 ∧ wait.val.isSome ∧ tickCount wait.events = 0 ∧
      ¬ WaitedLongEnough period 500 wait := by
  intro period wait
  have hperiod : period = 1193 := rfl
  have hcount : tickCount wait.events = 0 := rfl
  refine ⟨hperiod, rfl, hcount, fun h => ?_⟩
  have hlong := h rfl
  rw [time_le_iff, hperiod, hcount] at hlong
  exact absurd hlong (by decide)

end VlsOs.Pit
