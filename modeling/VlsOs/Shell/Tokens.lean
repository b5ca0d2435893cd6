import VlsOs.Libc.String

/-! Command lines taken apart (`parse_command` of `shell/shell.c`).

    The line is copied to a static buffer, which is then cut up in place: `token` goes over the
    characters and writes a NUL over each white space, `start` stays at the beginning of the run of
    characters that `token` is in. A run is stored in `argv` when the white space after it is reached,
    and the last one after the loop.

        l s   - a NUL          l s NUL - a NUL
        ▲ ▲                              ▲ ▲
        start, token                     start, token: "ls" is stored, "-a" is stored after the loop

    `argv` holds positions in the buffer; the string of an argument is what the buffer holds from its
    position on. `argv[argc++] = start` puts a position at the end of the list, so the indices that are
    written are those below its length. -/

namespace VlsOs.Shell
open VlsOs.Libc

/-- `BUFFER_SIZE`. -/
def bufferSize : ℕ := 256

/-- The local variables of `parse_command`; `argc` is the length of `argv`. -/
structure Parser where
  buffer : List UInt8
  token : ℕ
  start : ℕ
  argv : List ℕ

/-- `if (start < token && *start) argv[argc++] = start;` -/
def Parser.store (p : Parser) : Parser :=
  if p.start < p.token ∧ p.buffer.getD p.start 0 ≠ 0 then { p with argv := p.argv ++ [p.start] } else p

/-- The body of the loop. -/
def Parser.step (p : Parser) : Parser :=
  if isspace (p.buffer.getD p.token 0) then
    let p := { p with buffer := p.buffer.set p.token 0 }.store
    { p with start := p.token + 1, token := p.token + 1 }
  else { p with token := p.token + 1 }

/-- The loop; the NUL of the line is in the buffer, so as many turns as it has bytes are enough. -/
def Parser.loop (maxArgs : ℕ) : ℕ → Parser → Parser
  | 0, p => p
  | turns + 1, p =>
    if p.buffer.getD p.token 0 ≠ 0 ∧ p.argv.length < maxArgs then Parser.loop maxArgs turns p.step else p

/-- `parse_command`: the static buffer after it, and the arguments. -/
def parseCommand (buffer line : List UInt8) (maxArgs : ℕ) : List UInt8 × List ℕ :=
  let p := (Parser.loop maxArgs bufferSize ⟨strcpy buffer line, 0, 0, []⟩).store
  (p.buffer, p.argv)

/-- The maximal runs of a line without white space, in order. -/
def words (line : List UInt8) : List (List UInt8) := (line.splitOnP isspace).filter (· ≠ [])

/-- The strings in the buffer at the given positions are `ws`, and each has its NUL there. -/
def Holds (buffer : List UInt8) (argv : List ℕ) (ws : List (List UInt8)) : Prop :=
  argv.map (fun k => text (buffer.drop k)) = ws ∧ ∀ k ∈ argv, 0 ∈ buffer.drop k

/-! ### Runs of characters -/

/-- A run of characters: neither white space nor a NUL is in it. -/
def IsRun (run : List UInt8) : Prop := ∀ c ∈ run, isspace c = false ∧ c ≠ 0

theorem words_of_run {run : List UInt8} (h : IsRun run) : words run = if run = [] then [] else [run] := by
  rw [words, List.splitOnP_eq_singleton fun c hc => (h c hc).1]
  by_cases hnil : run = [] <;> simp [hnil]

theorem words_run_space {run rest : List UInt8} {c : UInt8} (h : IsRun run) (hc : isspace c = true) :
    words (run ++ c :: rest) = (if run = [] then [] else [run]) ++ words rest := by
  rw [words, List.splitOnP_append_cons_of_forall_mem (fun x hx => (h x hx).1) c hc rest,
    List.filter_cons]
  by_cases hnil : run = [] <;> simp [hnil, words]

/-! ### The loop -/

/-- A string with its NUL is not changed by what follows it. -/
theorem text_append_of_mem {a b : List UInt8} (h : 0 ∈ a) : text (a ++ b) = text a := by
  obtain ⟨x, y, rfl⟩ := List.append_of_mem h
  rw [List.append_assoc, List.cons_append, text_append_nul, text_append_nul]

theorem Holds.append {buffer : List UInt8} {argv : List ℕ} {ws : List (List UInt8)}
    (h : Holds buffer argv ws) (more : List UInt8) : Holds (buffer ++ more) argv ws := by
  have hdrop : ∀ k ∈ argv, (buffer ++ more).drop k = buffer.drop k ++ more := by
    intro k hk
    have hpos := List.length_pos_of_mem (h.2 k hk)
    rw [List.length_drop] at hpos
    rw [List.drop_append_of_le_length (by omega)]
  refine ⟨?_, fun k hk => ?_⟩
  · rw [← h.1]
    refine List.map_congr_left fun k hk => ?_
    rw [hdrop k hk, text_append_of_mem (h.2 k hk)]
  · rw [hdrop k hk]
    exact List.mem_append_left _ (h.2 k hk)

/-- A run that has just got its NUL is a further string. -/
theorem Holds.store {buffer : List UInt8} {argv : List ℕ} {ws : List (List UInt8)}
    (h : Holds buffer argv ws) {run : List UInt8} (hrun : IsRun run) (more : List UInt8) :
    Holds (buffer ++ (run ++ 0 :: more)) (argv ++ [buffer.length]) (ws ++ [run]) := by
  have hold := h.append (run ++ 0 :: more)
  have hnul : 0 ∉ run := fun h0 => (hrun 0 h0).2 rfl
  refine ⟨?_, fun k hk => ?_⟩
  · rw [List.map_append, hold.1, List.map_singleton, List.drop_left, text_append_nul,
      text_of_no_nul hnul]
  · rcases List.mem_append.mp hk with hk | hk
    · exact hold.2 k hk
    · rw [List.mem_singleton.mp hk, List.drop_left]
      simp

/-- Where the loop is: `done` are the arguments stored, which lie before `start`; from there on come
    the run that `token` is in, the characters that are left, a NUL and the rest of the buffer. -/
structure Parser.At (p : Parser) (before run rest behind : List UInt8) (done : List (List UInt8)) :
    Prop where
  buffer : p.buffer = before ++ (run ++ (rest ++ 0 :: behind))
  start : p.start = before.length
  token : p.token = before.length + run.length
  run : IsRun run
  rest : 0 ∉ rest
  holds : Holds before p.argv done

section
variable {p : Parser} {before run rest behind : List UInt8} {done : List (List UInt8)}

theorem Parser.At.length_argv (h : p.At before run rest behind done) : p.argv.length = done.length := by
  rw [← h.holds.1, List.length_map]

theorem Parser.At.token_char (h : p.At before run rest behind done) :
    p.buffer.getD p.token 0 = (rest ++ 0 :: behind).headD 0 := by
  rw [h.buffer, h.token, List.getD_append_right _ _ _ _ (Nat.le_add_right ..), Nat.add_sub_cancel_left,
    List.getD_append_right _ _ _ _ le_rfl, Nat.sub_self]
  cases rest <;> rfl

/-- `start` is before `token` exactly when the run has characters, and then it is stored. -/
theorem Parser.At.store_eq (h : p.At before run rest behind done) :
    p.store = if run = [] then p else { p with argv := p.argv ++ [before.length] } := by
  have htest : p.start < p.token ∧ p.buffer.getD p.start 0 ≠ 0 ↔ run ≠ [] := by
    rw [h.start, h.token, h.buffer, List.getD_append_right _ _ _ _ le_rfl, Nat.sub_self]
    cases run with
    | nil => simp
    | cons c run => simpa using (h.run c (by simp)).2
  rw [Parser.store, ← h.start]
  by_cases hnil : run = []
  · rw [if_neg fun hs => htest.mp hs hnil, if_pos hnil]
  · rw [if_pos (htest.mpr hnil), if_neg hnil]

theorem Parser.At.step_char {c : UInt8} (h : p.At before run (c :: rest) behind done)
    (hc : isspace c = false) : p.step.At before (run ++ [c]) rest behind done := by
  have hchar : p.buffer.getD p.token 0 = c := h.token_char
  obtain ⟨hne, hrest⟩ := not_or.mp (mt List.mem_cons.mpr h.rest)
  rw [Parser.step, hchar, if_neg (by simp [hc])]
  refine ⟨?_, h.start, ?_, ?_, hrest, h.holds⟩
  · rw [h.buffer]
    simp
  · rw [List.length_append, List.length_singleton, ← Nat.add_assoc, ← h.token]
  · intro x hx
    rcases List.mem_append.mp hx with hx | hx
    · exact h.run x hx
    · rw [List.mem_singleton.mp hx]
      exact ⟨hc, Ne.symm hne⟩

/-- White space becomes a NUL, and the run before it, if there is one, an argument. -/
theorem Parser.At.step_space {c : UInt8} (h : p.At before run (c :: rest) behind done)
    (hc : isspace c = true) :
    p.step.At (before ++ (run ++ [0])) [] rest behind (done ++ if run = [] then [] else [run]) := by
  have hchar : p.buffer.getD p.token 0 = c := h.token_char
  have hrest := (not_or.mp (mt List.mem_cons.mpr h.rest)).2
  have hset : p.buffer.set p.token 0 = before ++ (run ++ 0 :: (rest ++ 0 :: behind)) := by
    rw [h.buffer, h.token, List.set_append_right _ _ (Nat.le_add_right ..), Nat.add_sub_cancel_left,
      List.set_append_right _ _ le_rfl, Nat.sub_self]
    rfl
  -- with the NUL in the buffer the line ends after the run
  have hcut : Parser.At { p with buffer := p.buffer.set p.token 0 } before run []
      (rest ++ 0 :: behind) done :=
    ⟨hset, h.start, h.token, h.run, List.not_mem_nil, h.holds⟩
  have hbuffer : p.buffer.set p.token 0 =
      (before ++ (run ++ [0])) ++ ([] ++ (rest ++ 0 :: behind)) := by
    rw [hset]
    simp
  have hlength : p.token + 1 = (before ++ (run ++ [0])).length := by
    rw [h.token, List.length_append, List.length_append, List.length_singleton, Nat.add_assoc]
  have hempty : IsRun [] := fun c hc => absurd hc List.not_mem_nil
  rw [Parser.step, hchar, if_pos hc, hcut.store_eq]
  by_cases hnil : run = []
  · rw [if_pos hnil, if_pos hnil, List.append_nil]
    exact ⟨hbuffer, hlength, hlength, hempty, hrest, h.holds.append _⟩
  · rw [if_neg hnil, if_neg hnil]
    exact ⟨hbuffer, hlength, hlength, hempty, hrest, h.holds.store h.run []⟩

/-- The store after the loop. -/
theorem Parser.At.finish (h : p.At before run rest behind done) (hend : run = [] ∨ rest = []) :
    Holds p.store.buffer p.store.argv (done ++ if run = [] then [] else [run]) := by
  rw [h.store_eq]
  by_cases hnil : run = []
  · rw [if_pos hnil, if_pos hnil, List.append_nil, h.buffer]
    exact h.holds.append _
  · obtain rfl : rest = [] := hend.resolve_left hnil
    rw [if_neg hnil, if_neg hnil]
    dsimp only
    rw [h.buffer]
    exact h.holds.store h.run behind

/-- CORRECT: from anywhere in the line, the loop and the store after it come to the words that are left,
    as many as there is room for. When the room runs out `token` has just passed white space, so that
    no run is left over to be stored. -/
theorem Parser.At.loop (maxArgs : ℕ) (h : p.At before run rest behind done) {turns : ℕ}
    (hturns : rest.length ≤ turns) (hroom : done.length ≤ maxArgs)
    (hrun : run ≠ [] → done.length < maxArgs) :
    Holds (p.loop maxArgs turns).store.buffer (p.loop maxArgs turns).store.argv
      ((done ++ words (run ++ rest)).take maxArgs) := by
  induction rest generalizing p before run done turns with
  | nil =>
    have hstop : p.loop maxArgs turns = p := by
      cases turns with
      | zero => rfl
      | succ turns =>
        rw [Parser.loop, if_neg]
        rw [h.token_char]
        simp
    have hall : (done ++ words (run ++ [])).take maxArgs = done ++ if run = [] then [] else [run] := by
      rw [List.append_nil, words_of_run h.run]
      refine List.take_of_length_le ?_
      by_cases hnil : run = []
      · simpa [hnil] using hroom
      · simpa [hnil] using hrun hnil
    rw [hstop, hall]
    exact h.finish (.inr rfl)
  | cons c rest ih =>
    obtain ⟨turns, rfl⟩ := Nat.exists_eq_add_of_le' (Nat.one_le_of_lt (Nat.lt_of_lt_of_le
      (List.length_pos_of_mem List.mem_cons_self) hturns))
    have hchar : p.buffer.getD p.token 0 = c := h.token_char
    have hne : c ≠ 0 := Ne.symm (not_or.mp (mt List.mem_cons.mpr h.rest)).1
    have hturns' : rest.length ≤ turns := Nat.le_of_succ_le_succ hturns
    rw [Parser.loop, hchar, h.length_argv]
    by_cases hfull : done.length < maxArgs
    · rw [if_pos ⟨hne, hfull⟩]
      cases hc : isspace c with
      | true =>
        have hlength : (done ++ if run = [] then [] else [run]).length ≤ maxArgs := by
          by_cases hnil : run = []
          · simpa [hnil] using hroom
          · simpa [hnil] using hfull
        have hwords : done ++ words (run ++ c :: rest) =
            (done ++ if run = [] then [] else [run]) ++ words ([] ++ rest) := by
          rw [words_run_space h.run hc, List.append_assoc, List.nil_append]
        rw [hwords]
        exact ih (h.step_space hc) hturns' hlength fun hnil => absurd rfl hnil
      | false =>
        have hwords : run ++ c :: rest = (run ++ [c]) ++ rest := by simp
        rw [hwords]
        exact ih (h.step_char hc) hturns' hroom fun _ => hfull
    · have hnil : run = [] := not_not.mp fun hnil => hfull (hrun hnil)
      have hdone : (done ++ words (run ++ c :: rest)).take maxArgs = done ++ [] := by
        rw [List.append_nil]
        exact List.take_left' (by omega)
      rw [if_neg fun h => hfull h.2, hdone]
      simpa [hnil] using h.finish (.inl hnil)

end

/-! ### The whole line -/

theorem Parser.buffer_store (p : Parser) : p.store.buffer = p.buffer := by
  rw [Parser.store]
  split <;> rfl

theorem Parser.length_step (p : Parser) : p.step.buffer.length = p.buffer.length := by
  rw [Parser.step]
  split
  · dsimp only
    rw [Parser.buffer_store, List.length_set]
  · rfl

theorem Parser.length_loop (maxArgs turns : ℕ) (p : Parser) :
    (p.loop maxArgs turns).buffer.length = p.buffer.length := by
  induction turns generalizing p with
  | zero => rfl
  | succ turns ih =>
    rw [Parser.loop]
    split
    · rw [ih, Parser.length_step]
    · rfl

theorem length_strcpy {dest src : List UInt8} (h : (text src).length < dest.length) :
    (strcpy dest src).length = dest.length := by
  rw [strcpy, List.length_append, List.length_cons, List.length_drop]
  omega

/-- SPEC of `parse_command` on a line of at most 255 characters: the buffer keeps its size, and holds the
    words, as many of them as there is room for. -/
theorem parseCommand_spec {buffer line : List UInt8} (maxArgs : ℕ) (hbuffer : buffer.length = bufferSize)
    (hline : (text line).length ≤ 255) :
    (parseCommand buffer line maxArgs).1.length = bufferSize ∧
      Holds (parseCommand buffer line maxArgs).1 (parseCommand buffer line maxArgs).2
        ((words (text line)).take maxArgs) := by
  have hsize : bufferSize = 256 := rfl
  have hstart : Parser.At ⟨strcpy buffer line, 0, 0, []⟩ [] [] (text line)
      (buffer.drop ((text line).length + 1)) [] :=
    ⟨rfl, rfl, rfl, fun c hc => absurd hc List.not_mem_nil, fun h => ne_zero_of_mem_text h rfl,
      rfl, fun k hk => absurd hk List.not_mem_nil⟩
  have hholds := hstart.loop maxArgs (by omega : (text line).length ≤ bufferSize) (Nat.zero_le _)
    fun h => absurd rfl h
  refine ⟨?_, hholds⟩
  rw [parseCommand, Parser.buffer_store, Parser.length_loop, length_strcpy (by omega), hbuffer]

/-- CORRECT: a line of at most 255 characters is taken apart into its words, as many of them as there is
    room for, each with its NUL in the buffer; nothing is stored at `argv[maxArgs]` or beyond. -/
theorem parse_command_tokens (buffer line : List UInt8) (maxArgs : ℕ)
    (hbuffer : buffer.length = bufferSize) (hline : (text line).length ≤ 255) :
    (parseCommand buffer line maxArgs).1.length = bufferSize ∧
      (parseCommand buffer line maxArgs).2.length = min maxArgs (words (text line)).length ∧
      Holds (parseCommand buffer line maxArgs).1 (parseCommand buffer line maxArgs).2
        ((words (text line)).take maxArgs) ∧
      ∀ i < (parseCommand buffer line maxArgs).2.length, i < maxArgs := by
  obtain ⟨hlength, hholds⟩ := parseCommand_spec maxArgs hbuffer hline
  have hcount := congrArg List.length hholds.1
  rw [List.length_map, List.length_take] at hcount
  exact ⟨hlength, hcount, hholds, fun i hi => by omega⟩

theorem parse_command_tokens_ls :
    ((List.replicate 256 (7 : UInt8)).length = bufferSize ∧ (text (chars " ls  -a")).length ≤ 255) ∧
      ((parseCommand (List.replicate 256 7) (chars " ls  -a") 16).1.length = bufferSize ∧
        (parseCommand (List.replicate 256 7) (chars " ls  -a") 16).2.length =
          min 16 (words (text (chars " ls  -a"))).length ∧
        Holds (parseCommand (List.replicate 256 7) (chars " ls  -a") 16).1
          (parseCommand (List.replicate 256 7) (chars " ls  -a") 16).2
          ((words (text (chars " ls  -a"))).take 16) ∧
        ∀ i < (parseCommand (List.replicate 256 7) (chars " ls  -a") 16).2.length, i < 16) :=
  ⟨⟨List.length_replicate, by decide⟩, parse_command_tokens _ _ _ List.length_replicate (by decide)⟩

example : (parseCommand (List.replicate 256 7) (chars " ls  -a") 16).2 = [1, 5] ∧
    words (chars " ls  -a") = [chars "ls", chars "-a"] := by decide +kernel

end VlsOs.Shell
