import VlsOs.Schemes.Ring
import VlsOs.Kernel.Ipc

/-! The pipe table is 32 independent bounded FIFOs.

    `pipeStep` runs one call on the tables of `ipc.c`; `fifoStep` is the same call on an abstract
    table that holds, for each live pipe, the list of its messages. A live pipe's list is the window
    of its ring from `read_pos` on, `message_count` long, and `write_pos` is where the window ends:

        read_pos ──▶ m₀ m₁ … mₖ ◀── write_pos        write_pos = (read_pos + message_count) % 256

    The two machines give the same answers on every run from `ipc_init` and stay related by `view`. -/

namespace VlsOs.Ipc
open Patterns.Run Patterns.Ring Patterns.Table

/-- One call on the pipe table. `create` carries the pid of the current process, if there is one;
    `read` carries whether its destination pointer is non-`NULL`. -/
inductive PipeOp where
  | create (proc : Option ℕ)
  | close (pipeId : ℤ)
  | write (pipeId : ℤ) (message : UInt32)
  | read (pipeId : ℤ) (message : Bool)
  | hasData (pipeId : ℤ)

/-- What a call returns, and the message it stored through its pointer. -/
structure PipeOut where
  ret : ℤ
  message : Option UInt32

def pipeStep (s : IpcState) : PipeOp → IpcState × PipeOut
  | .create proc => ((ipcPipeCreate s proc).2, ⟨(ipcPipeCreate s proc).1, none⟩)
  | .close id => ((ipcPipeClose s id).2, ⟨(ipcPipeClose s id).1, none⟩)
  | .write id m => ((ipcPipeWrite s id m).2, ⟨(ipcPipeWrite s id m).1, none⟩)
  | .read id dst =>
    ((ipcPipeRead s id dst).2.2, ⟨(ipcPipeRead s id dst).1, (ipcPipeRead s id dst).2.1⟩)
  | .hasData id => (s, ⟨ipcPipeHasData s id, none⟩)

/-! ### The abstract table -/

/-- Each slot is free or a live pipe with the messages it holds, oldest first. -/
abbrev PipeTable := Fin ipcMaxPipes → Option (List UInt32)

def noPipes : PipeTable := fun _ => none

/-- The live pipe a handle names. -/
def held (t : PipeTable) (id : ℤ) : Option (Fin ipcMaxPipes × List UInt32) :=
  (slot ipcMaxPipes id).bind fun i => (t i).map fun q => (i, q)

/-- The same calls on lists: append within the bound, take from the front, fail otherwise. -/
def fifoStep (t : PipeTable) : PipeOp → PipeTable × PipeOut
  | .create _ =>
    match first fun i => (t i).isNone with
    | some i => (Function.update t i (some []), ⟨i, none⟩)
    | none => (t, ⟨-1, none⟩)
  | .close id =>
    match held t id with
    | some (i, _) => (Function.update t i none, ⟨0, none⟩)
    | none => (t, ⟨-1, none⟩)
  | .write id m =>
    match held t id with
    | some (i, q) =>
      if q.length < ipcBufferSize then (Function.update t i (some (q ++ [m])), ⟨0, none⟩)
      else (t, ⟨-1, none⟩)
    | none => (t, ⟨-1, none⟩)
  | .read id true =>
    match held t id with
    | some (i, m :: q) => (Function.update t i (some q), ⟨0, some m⟩)
    | _ => (t, ⟨-1, none⟩)
  | .read _ false => (t, ⟨-1, none⟩)
  | .hasData id =>
    match held t id with
    | some (_, _ :: _) => (t, ⟨1, none⟩)
    | _ => (t, ⟨0, none⟩)

/-! ### The relation between the two -/

/-- What a pipe stands for. -/
def pipeView (p : IpcPipe) : Option (List UInt32) :=
  if p.inUse then some (window p.buffer ipcBufferSize p.readPos p.messageCount) else none

def view (s : IpcState) : PipeTable := fun i => pipeView (s.pipes i)

/-- The ring invariant. -/
structure RingOk (p : IpcPipe) : Prop where
  pos : p.readPos < ipcBufferSize
  fits : p.messageCount ≤ ipcBufferSize
  wpos : p.writePos = (p.readPos + p.messageCount) % ipcBufferSize

def PipesOk (s : IpcState) : Prop := ∀ i, (s.pipes i).inUse = true → RingOk (s.pipes i)

theorem view_setPipe (s : IpcState) (i : Fin ipcMaxPipes) (p : IpcPipe) :
    view (s.setPipe i p) = Function.update (view s) i (pipeView p) := by
  funext j
  by_cases hj : j = i
  · subst hj; simp [view]
  · rw [Function.update_of_ne hj, view, setPipe_pipes_of_ne s p hj]; rfl

theorem pipesOk_setPipe {s : IpcState} (h : PipesOk s) (i : Fin ipcMaxPipes) {p : IpcPipe}
    (hp : p.inUse = true → RingOk p) : PipesOk (s.setPipe i p) := by
  intro j hj
  by_cases hji : j = i
  · subst hji
    rw [setPipe_pipes_self] at hj ⊢; exact hp hj
  · rw [setPipe_pipes_of_ne s p hji] at hj ⊢; exact h j hj

theorem view_live {s : IpcState} {i : Fin ipcMaxPipes} (h : (s.pipes i).inUse = true) :
    view s i = some (window (s.pipes i).buffer ipcBufferSize (s.pipes i).readPos
      (s.pipes i).messageCount) := by
  rw [view, pipeView, if_pos h]

theorem view_free {s : IpcState} {i : Fin ipcMaxPipes} (h : (s.pipes i).inUse = false) :
    view s i = none := by
  rw [view, pipeView, if_neg (by rw [h]; decide)]

/-- A handle names a live pipe of the view, a free slot, or nothing. -/
theorem held_cases (s : IpcState) (id : ℤ) :
    (slot ipcMaxPipes id = none ∧ held (view s) id = none) ∨
    (∃ i, slot ipcMaxPipes id = some i ∧ (s.pipes i).inUse = false ∧ held (view s) id = none) ∨
    (∃ i, slot ipcMaxPipes id = some i ∧ (s.pipes i).inUse = true ∧
      held (view s) id = some (i, window (s.pipes i).buffer ipcBufferSize (s.pipes i).readPos
        (s.pipes i).messageCount)) := by
  cases hs : slot ipcMaxPipes id with
  | none => exact Or.inl ⟨rfl, by simp [held, hs]⟩
  | some i =>
    cases hu : (s.pipes i).inUse with
    | false => exact Or.inr (Or.inl ⟨i, rfl, hu, by simp [held, hs, view_free hu]⟩)
    | true => exact Or.inr (Or.inr ⟨i, rfl, hu, by simp [held, hs, view_live hu]⟩)

/-! ### One call -/

/-- The call gives the same answer on both tables and keeps the invariant and the relation. -/
def Agrees (s : IpcState) (op : PipeOp) : Prop :=
  (pipeStep s op).2 = (fifoStep (view s) op).2 ∧
    PipesOk (pipeStep s op).1 ∧ view (pipeStep s op).1 = (fifoStep (view s) op).1

theorem create_agrees {s : IpcState} (h : PipesOk s) (proc : Option ℕ) :
    Agrees s (.create proc) := by
  have hfree : (fun i => (view s i).isNone) = fun i => !(s.pipes i).inUse := by
    funext i
    cases hu : (s.pipes i).inUse with
    | false => simp [view_free hu]
    | true => simp [view_live hu]
  simp only [Agrees, pipeStep, fifoStep, ipcPipeCreate, hfree]
  cases hf : first fun i => !(s.pipes i).inUse with
  | none => exact ⟨rfl, h, rfl⟩
  | some i =>
    refine ⟨rfl, pipesOk_setPipe h i fun _ => ⟨Nat.zero_lt_succ _, Nat.zero_le _, rfl⟩, ?_⟩
    rw [view_setPipe]
    simp [pipeView]

theorem close_agrees {s : IpcState} (h : PipesOk s) (id : ℤ) : Agrees s (.close id) := by
  rcases held_cases s id with ⟨hs, hh⟩ | ⟨i, hs, hu, hh⟩ | ⟨i, hs, hu, hh⟩
  · simp only [Agrees, pipeStep, fifoStep, ipcPipeClose, hs, hh]
    exact ⟨trivial, h, trivial⟩
  · simp only [Agrees, pipeStep, fifoStep, ipcPipeClose, hs, hh, hu]
    exact ⟨rfl, h, rfl⟩
  · simp only [Agrees, pipeStep, fifoStep, ipcPipeClose, hs, hh, hu]
    refine ⟨rfl, pipesOk_setPipe h i (by simp), ?_⟩
    rw [Bool.not_true, if_neg (by decide), view_setPipe]
    simp [pipeView]

theorem write_agrees {s : IpcState} (h : PipesOk s) (id : ℤ) (m : UInt32) :
    Agrees s (.write id m) := by
  rcases held_cases s id with ⟨hs, hh⟩ | ⟨i, hs, hu, hh⟩ | ⟨i, hs, hu, hh⟩
  · simp only [Agrees, pipeStep, fifoStep, ipcPipeWrite, hs, hh]
    exact ⟨trivial, h, trivial⟩
  · simp only [Agrees, pipeStep, fifoStep, ipcPipeWrite, hs, hh, hu]
    exact ⟨rfl, h, rfl⟩
  · obtain ⟨hpos, hfits, hwpos⟩ := h i hu
    simp only [Agrees, pipeStep, fifoStep, ipcPipeWrite, hs, hh, hu, length_window, Bool.not_true,
      Bool.false_eq_true, if_false]
    by_cases hfull : (s.pipes i).messageCount ≥ ipcBufferSize
    · rw [if_pos hfull, if_neg (by omega)]
      exact ⟨rfl, h, rfl⟩
    · rw [if_neg hfull, if_pos (by omega)]
      refine ⟨rfl, pipesOk_setPipe h i fun _ => ⟨hpos, by dsimp only; omega, ?_⟩, ?_⟩
      · dsimp only
        rw [hwpos, Nat.mod_add_mod, Nat.add_assoc]
      · -- the new cell is the one behind the window, so the window grows by the message
        rw [view_setPipe]
        simp only [pipeView, if_true, hwpos]
        rw [window_push (by omega)]

theorem read_agrees {s : IpcState} (h : PipesOk s) (id : ℤ) : Agrees s (.read id true) := by
  rcases held_cases s id with ⟨hs, hh⟩ | ⟨i, hs, hu, hh⟩ | ⟨i, hs, hu, hh⟩
  · simp only [Agrees, pipeStep, fifoStep, ipcPipeRead, hs, hh]
    exact ⟨trivial, h, trivial⟩
  · simp only [Agrees, pipeStep, fifoStep, ipcPipeRead, hs, hh, hu]
    exact ⟨rfl, h, rfl⟩
  · obtain ⟨hpos, hfits, hwpos⟩ := h i hu
    simp only [Agrees, pipeStep, fifoStep, ipcPipeRead, hs, hh, hu, Bool.not_true,
      Bool.false_eq_true, if_false]
    rcases hc : (s.pipes i).messageCount with _ | k
    · exact ⟨rfl, h, rfl⟩
    · simp only [window_pop _ hpos, Nat.succ_ne_zero, if_false]
      refine ⟨trivial, pipesOk_setPipe h i fun _ => ⟨?_, ?_, ?_⟩, ?_⟩
      · exact Nat.mod_lt _ (by decide)
      · dsimp only; omega
      · dsimp only
        rw [hwpos, hc, Nat.mod_add_mod]
        congr 1; omega
      · rw [view_setPipe]
        simp [pipeView]

theorem read_null_agrees {s : IpcState} (h : PipesOk s) (id : ℤ) : Agrees s (.read id false) := by
  simp only [Agrees, pipeStep, fifoStep, ipcPipeRead]
  cases slot ipcMaxPipes id with
  | none => exact ⟨rfl, h, rfl⟩
  | some i => exact ⟨rfl, h, rfl⟩

theorem hasData_agrees {s : IpcState} (h : PipesOk s) (id : ℤ) : Agrees s (.hasData id) := by
  rcases held_cases s id with ⟨hs, hh⟩ | ⟨i, hs, hu, hh⟩ | ⟨i, hs, hu, hh⟩
  · simp only [Agrees, pipeStep, fifoStep, ipcPipeHasData, hs, hh]
    exact ⟨trivial, h, trivial⟩
  · simp only [Agrees, pipeStep, fifoStep, ipcPipeHasData, hs, hh, hu]
    exact ⟨rfl, h, trivial⟩
  · simp only [Agrees, pipeStep, fifoStep, ipcPipeHasData, hs, hh, hu]
    rcases hc : (s.pipes i).messageCount with _ | k
    · exact ⟨rfl, h, rfl⟩
    · simp only [window_pop _ (h i hu).pos]
      exact ⟨rfl, h, trivial⟩

theorem step_agrees {s : IpcState} (h : PipesOk s) (op : PipeOp) : Agrees s op := by
  cases op with
  | create proc => exact create_agrees h proc
  | close id => exact close_agrees h id
  | write id m => exact write_agrees h id m
  | read id dst =>
    cases dst with
    | true => exact read_agrees h id
    | false => exact read_null_agrees h id
  | hasData id => exact hasData_agrees h id

/-! ### What a call leaves alone -/

/-- The pipe a call is about: the one it names, and for `create` the one it returns. -/
def PipeOp.concerns (op : PipeOp) (out : PipeOut) : ℤ :=
  match op with
  | .create _ => out.ret
  | .close id => id
  | .write id _ => id
  | .read id _ => id
  | .hasData id => id

/-- A call changes nothing, or succeeds and rewrites the one pipe it is about. -/
theorem pipeStep_cases (s : IpcState) (op : PipeOp) :
    (pipeStep s op).1 = s ∨ ∃ i p, (pipeStep s op).1 = s.setPipe i p ∧
      op.concerns (pipeStep s op).2 = i ∧ 0 ≤ (pipeStep s op).2.ret := by
  cases op with
  | create proc =>
    simp only [pipeStep, ipcPipeCreate, PipeOp.concerns]
    split
    · exact Or.inl rfl
    · exact Or.inr ⟨_, _, rfl, rfl, Int.natCast_nonneg _⟩
  | close id =>
    simp only [pipeStep, ipcPipeClose, PipeOp.concerns]
    split
    · exact Or.inl rfl
    · rename_i i hs
      split
      · exact Or.inl rfl
      · exact Or.inr ⟨_, _, rfl, slot_eq_some.mp hs, le_refl _⟩
  | write id m =>
    simp only [pipeStep, ipcPipeWrite, PipeOp.concerns]
    split
    · exact Or.inl rfl
    · rename_i i hs
      split
      · exact Or.inl rfl
      · split
        · exact Or.inl rfl
        · exact Or.inr ⟨_, _, rfl, slot_eq_some.mp hs, le_refl _⟩
  | read id dst =>
    simp only [pipeStep, ipcPipeRead, PipeOp.concerns]
    split
    · exact Or.inl rfl
    · rename_i i hs
      repeat' split
      · exact Or.inl rfl
      · exact Or.inl rfl
      · exact Or.inl rfl
      · exact Or.inr ⟨_, _, rfl, slot_eq_some.mp hs, le_refl _⟩
  | hasData id => exact Or.inl rfl

theorem pipesOk_ipcInit (s : IpcState) : PipesOk (ipcInit s) := by
  intro i hi
  exact absurd hi (by simp [ipcInit])

theorem view_ipcInit (s : IpcState) : view (ipcInit s) = noPipes := rfl

/-- CORRECT: on every run of pipe calls from `ipc_init`, over any ids, the table answers as 32
    lists of at most 256 messages do and stands for those lists; a call that returns `-1` changes
    nothing, and no call changes a pipe it is not about. -/
theorem pipes_are_bounded_fifos (s : IpcState) (ops : List PipeOp) :
    outs pipeStep (ipcInit s) ops = outs fifoStep noPipes ops ∧
    view (after pipeStep (ipcInit s) ops) = after fifoStep noPipes ops ∧
    (∀ i q, after fifoStep noPipes ops i = some q → q.length ≤ ipcBufferSize) ∧
    ∀ op, let r := pipeStep (after pipeStep (ipcInit s) ops) op
      (r.2.ret = -1 → r.1 = after pipeStep (ipcInit s) ops) ∧
      ∀ j : Fin ipcMaxPipes, (j : ℤ) ≠ op.concerns r.2 →
        r.1.pipes j = (after pipeStep (ipcInit s) ops).pipes j := by
  have hsim : ∀ (s : IpcState) (t : PipeTable) (op : PipeOp), (PipesOk s ∧ view s = t) → True →
      (pipeStep s op).2 = (fifoStep t op).2 ∧
        (PipesOk (pipeStep s op).1 ∧ view (pipeStep s op).1 = (fifoStep t op).1) := by
    rintro s t op ⟨hok, rfl⟩ -
    exact step_agrees hok op
  obtain ⟨houts, hok, hview⟩ := outs_sim hsim ops _ _ ⟨pipesOk_ipcInit s, view_ipcInit s⟩
    (along_of_forall (fun _ _ => trivial) ops _)
  refine ⟨houts, hview, ?_, ?_⟩
  · intro i q hq
    rw [← hview] at hq
    cases hu : ((after pipeStep (ipcInit s) ops).pipes i).inUse with
    | false => rw [view_free hu] at hq; exact absurd hq (by simp)
    | true =>
      rw [view_live hu, Option.some.injEq] at hq
      rw [← hq, length_window]; exact (hok i hu).fits
  · intro op
    rcases pipeStep_cases (after pipeStep (ipcInit s) ops) op with hsame | ⟨i, p, hset, hi, hret⟩
    · exact ⟨fun _ => hsame, fun j _ => by rw [hsame]⟩
    · refine ⟨fun h => absurd hret (by rw [h]; decide), fun j hj => ?_⟩
      rw [hset]
      exact setPipe_pipes_of_ne _ p fun hji => hj (by rw [hi, hji])

end VlsOs.Ipc
